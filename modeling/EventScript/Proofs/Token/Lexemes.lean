import EventScript.Proofs.Token.Joining
import EventScript.Proofs.Token.Spacing

/-!
# Texts taken apart

Every text is a row of lexemes, each behind white space and comments, up to its end or to a place where no token can be read
(`scan_dissected`). A lexeme is all that is read as its token, and the token stands at the first character of it: the place behind a
text is counted from its newlines, whatever the scan has been through.
-/

namespace EventScript

/-! ## Places -/

namespace Position

/-- The place behind a text: a line for each newline in it, and a column for each character behind the last one. -/
def behind (text : List Char) : Position := ⟨1 + text.count '\n', 1 + (text.reverse.takeWhile (· != '\n')).length⟩

/-- A place comes before another one in a text. -/
def Before (p q : Position) : Prop := p.line < q.line ∨ p.line = q.line ∧ p.column < q.column

instance (p q : Position) : Decidable (p.Before q) := inferInstanceAs (Decidable (_ ∨ _))

/-- The place behind one character more is one step further. -/
theorem behind_concat (text : List Char) (c : Char) : behind (text ++ [c]) = (behind text).advance c := by
  unfold behind advance
  rw [List.count_append, List.reverse_append]
  by_cases hc : c = '\n'
  · subst hc
    rfl
  · have hbeq : (c == '\n') = false := beq_eq_false_iff_ne.mpr hc
    rw [hbeq, List.count_singleton, hbeq, List.reverse_singleton, List.singleton_append, List.takeWhile_cons, bne, hbeq]
    simp only [Bool.not_false, Bool.false_eq_true, if_false, if_true, List.length_cons, Nat.add_zero]
    congr 1

/-- Reading on from the place behind a text leads to the place behind both. -/
theorem past_behind (before text : List Char) : (behind before).past text = behind (before ++ text) := by
  induction text generalizing before with
  | nil => rw [past_nil, List.append_nil]
  | cons c text ih => rw [past_cons, ← behind_concat, ih, List.append_assoc, List.singleton_append]

/-- What comes before a place comes before all that are behind it. -/
theorem Before.trans {p q r : Position} (h : p.Before q) (h' : q.Before r) : p.Before r := by
  unfold Before at h h' ⊢
  omega

/-- No place comes before itself. -/
theorem not_before_self (p : Position) : ¬p.Before p := by
  unfold Before
  omega

/-- Every character moves the place onward, a newline to the next line. -/
theorem before_advance (p : Position) (c : Char) : p.Before (p.advance c) := by
  unfold advance
  split
  · exact .inl (Nat.lt_succ_self _)
  · exact .inr ⟨rfl, Nat.lt_succ_self _⟩

/-- Reading at least one character leads to a later place. -/
theorem before_past (p : Position) {text : List Char} (h : text ≠ []) : p.Before (p.past text) := by
  induction text generalizing p with
  | nil => exact absurd rfl h
  | cons c text ih =>
    by_cases htext : text = []
    · rw [htext]
      exact before_advance p c
    · exact (before_advance p c).trans (ih (p.advance c) htext)

end Position

/-! ## Lexemes -/

namespace Token

/-- The run of characters is what its token is written as: read on its own it is that token, with no character left. -/
def Lexeme (word : List Char) (t : Token) : Prop := ∃ c rest, word = c :: rest ∧ read c rest = .ok (t, rest.length)

/-- No token is written as nothing. -/
theorem Lexeme.ne_nil {word : List Char} {t : Token} (h : Lexeme word t) : word ≠ [] := by
  obtain ⟨c, rest, rfl, -⟩ := h
  exact List.cons_ne_nil c rest

/-- The characters at the start of a text that a run takes. -/
theorem take_takeWhile (p : Char → Bool) (rest : List Char) : rest.take (rest.takeWhile p).length = rest.takeWhile p :=
  (List.prefix_iff_eq_take.mp (List.takeWhile_prefix p)).symm

/-- What is taken of a text is taken again from what was taken. -/
theorem takeWhile_take (p : Char → Bool) (rest : List Char) :
    (rest.take (rest.takeWhile p).length).takeWhile p = rest.takeWhile p := by
  rw [take_takeWhile, List.takeWhile_takeWhile]
  simp

/-- A symbol is read from its own characters. -/
theorem readSymbol?_take {c : Char} {rest : List Char} {s : Symbol} {n : Nat} (h : readSymbol? c rest = some (s, n)) :
    readSymbol? c (rest.take n) = some (s, n) := by
  cases rest with
  | nil => rwa [List.take_nil]
  | cons d rest =>
    unfold readSymbol? at h
    split at h
    all_goals
      repeat' split at h
      all_goals cases h <;> first | rfl | simp_all [readSymbol?]

/-- A string literal is read up to its quote. -/
theorem readString_take {rest : List Char} {taken : Nat} {r : List Char × Nat} (h : readString taken rest = .ok r) :
    readString taken (rest.take (r.2 - taken)) = .ok r ∧ taken < r.2 := by
  fun_induction readString taken rest generalizing r with
  | case1 => cases h
  | case2 => cases h
  | case3 taken rest =>
    cases h
    rw [Nat.add_sub_cancel_left]
    exact ⟨rfl, Nat.lt_succ_self taken⟩
  | case4 => cases h
  | case5 taken e more c hescape ih =>
    cases hmore : readString (taken + 2) more with
    | error f =>
      rw [hmore] at h
      cases h
    | ok r' =>
      rw [hmore] at h
      obtain ⟨htake, hlength⟩ := ih hmore
      cases h
      have hcount : r'.2 - taken = r'.2 - (taken + 2) + 2 := by omega
      refine ⟨?_, by dsimp only; omega⟩
      dsimp only
      rw [hcount, List.take_succ_cons, List.take_succ_cons, readString, hescape]
      simp only [htake]
      rfl
  | case6 taken c rest hlast hquote hescape ih =>
    have hslash : c ≠ '\\' := by
      intro hc
      cases rest with
      | nil => exact hlast hc rfl
      | cons e more => exact hescape e more hc rfl
    cases hrest : readString (taken + 1) rest with
    | error f =>
      rw [hrest] at h
      cases h
    | ok r' =>
      rw [hrest] at h
      obtain ⟨htake, hlength⟩ := ih hrest
      cases h
      have hcount : r'.2 - taken = r'.2 - (taken + 1) + 1 := by omega
      refine ⟨?_, by dsimp only; omega⟩
      dsimp only
      rw [hcount, List.take_succ_cons, readString]
      · simp only [htake]
        rfl
      · exact fun hc => absurd hc hslash
      · exact hquote
      · exact fun e more hc => absurd hc hslash

/-- So is a hexadecimal number, at least from its `x`. -/
theorem readHex_take {rest : List Char} {t : Token} {n : Nat} (h : readHex rest = .ok (t, n)) :
    1 ≤ n ∧ readHex (rest.take (n - 1)) = .ok (t, n) := by
  simp only [readHex] at h ⊢
  split_ifs at h with hempty hfits
  cases h
  rw [Nat.add_sub_cancel_left, takeWhile_take, if_neg hempty, if_pos hfits]
  exact ⟨Nat.le_add_right 1 _, rfl⟩

/-- What is read in front of a point. -/
theorem digits_point (digits follow : List Char) (h : ∀ c ∈ digits, c.isDigit = true) :
    (digits ++ '.' :: follow).takeWhile Char.isDigit = digits ∧ (digits ++ '.' :: follow).dropWhile Char.isDigit = '.' :: follow := by
  have hstops : Text.Stops Char.isDigit ('.' :: follow) := .cons rfl follow
  rw [hstops.takeWhile, hstops.dropWhile, List.takeWhile_eq_self_iff.mpr h, List.dropWhile_eq_nil_iff.mpr h]
  exact ⟨rfl, rfl⟩

/-- So is a decimal one. -/
theorem readDecimal_take {c : Char} {rest : List Char} {t : Token} {n : Nat} (h : readDecimal c rest = .ok (t, n)) :
    readDecimal c (rest.take n) = .ok (t, n) := by
  have hinteger : readDecimal.integer (c :: rest.takeWhile Char.isDigit) = .ok (t, n) → readDecimal c (rest.take n) = .ok (t, n) := by
    intro hread
    have hcount : n = (rest.takeWhile Char.isDigit).length := by
      simp only [readDecimal.integer] at hread
      split_ifs at hread
      cases hread
      rfl
    have hend : (rest.take n).dropWhile Char.isDigit = [] := by
      rw [hcount, take_takeWhile, List.dropWhile_eq_nil_iff]
      exact fun d hd => List.mem_takeWhile_imp hd
    simp only [readDecimal]
    rw [hend, hcount, takeWhile_take, ← hcount]
    exact hread
  have hdecimal := h
  simp only [readDecimal] at hdecimal
  split at hdecimal
  next d more hdrop =>
    split_ifs at hdecimal with hd
    · have hrest : rest = rest.takeWhile Char.isDigit ++ '.' :: d :: more := by
        rw [← hdrop, List.takeWhile_append_dropWhile]
      have hdigits : ∀ e ∈ rest.takeWhile Char.isDigit, e.isDigit = true := fun e he => List.mem_takeWhile_imp he
      cases hdecimal
      generalize rest.takeWhile Char.isDigit = whole at hrest hdigits ⊢
      subst hrest
      have htake : (whole ++ '.' :: d :: more).take ((c :: whole).length + (d :: more.takeWhile Char.isDigit).length) =
          whole ++ '.' :: d :: more.takeWhile Char.isDigit := by
        rw [List.length_cons, List.length_cons, Nat.add_assoc, List.take_length_add_append, Nat.add_comm 1, List.take_succ_cons,
          List.take_succ_cons, take_takeWhile]
      obtain ⟨htakeWhile, hdropWhile⟩ := digits_point whole (d :: more.takeWhile Char.isDigit) hdigits
      rw [htake]
      simp only [readDecimal]
      rw [htakeWhile, hdropWhile]
      simp only [hd, if_true]
      rw [List.takeWhile_takeWhile]
      simp
    · exact hinteger hdecimal
  next => exact hinteger hdecimal

/-- So is any number. -/
theorem readNumber_take {c : Char} {rest : List Char} {t : Token} {n : Nat} (h : readNumber c rest = .ok (t, n)) :
    readNumber c (rest.take n) = .ok (t, n) := by
  by_cases hc : c = '0'
  · subst hc
    cases rest with
    | nil => rwa [List.take_nil]
    | cons d more =>
      by_cases hx : d = 'x' ∨ d = 'X'
      · have hhex : ∀ more, readNumber '0' (d :: more) = readHex more := by
          rcases hx with rfl | rfl <;> exact fun _ => rfl
        rw [hhex] at h
        obtain ⟨hpos, htake⟩ := readHex_take h
        obtain ⟨k, rfl⟩ := Nat.exists_eq_add_of_le' hpos
        rw [List.take_succ_cons, hhex]
        exact htake
      · obtain ⟨hx, hX⟩ := not_or.mp hx
        have hdecimal : ∀ more, readNumber '0' (d :: more) = readDecimal '0' (d :: more) := fun more =>
          readNumber_decimal (by simpa using hx) (by simpa using hX)
        rw [hdecimal] at h
        have htake := readDecimal_take h
        cases n with
        | zero => exact htake
        | succ n => rwa [List.take_succ_cons, hdecimal, ← List.take_succ_cons]
  · rw [readNumber_of_ne hc] at h ⊢
    exact readDecimal_take h

/-- What a token is read from is what it is read from on its own. -/
theorem read_take {c : Char} {rest : List Char} {t : Token} {n : Nat} (h : read c rest = .ok (t, n)) :
    read c (rest.take n) = .ok (t, n) := by
  unfold read at h ⊢
  cases hsymbol : readSymbol? c rest with
  | some r =>
    rw [hsymbol] at h
    cases h
    rw [readSymbol?_take hsymbol]
  | none =>
    rw [hsymbol] at h
    rw [readSymbol?_eq_none hsymbol]
    dsimp only at h ⊢
    split_ifs at h ⊢ with hcommand hquote hdigit hstart
    · simp only [readCommand] at h ⊢
      split_ifs at h with hempty
      cases h
      rw [takeWhile_take, if_neg hempty]
    · cases hstring : readString 1 rest with
      | error f =>
        rw [hstring] at h
        cases h
      | ok r =>
        rw [hstring] at h
        cases h
        rw [(readString_take hstring).1]
        rfl
    · exact readNumber_take h
    · have hword := Except.ok.inj h
      rw [← readWord_length hword]
      unfold readWord at hword ⊢
      rw [takeWhile_take, hword, ← readWord_length hword]

/-- The characters that a token is read from are a lexeme. -/
theorem lexeme_of_read {c : Char} {rest : List Char} {t : Token} {n : Nat} (h : read c rest = .ok (t, n)) :
    Lexeme (c :: rest.take n) t :=
  ⟨c, rest.take n, rfl, by rw [read_take h, List.length_take_of_le (read_length h)]⟩

end Token

/-! ## Texts in pieces -/

/-- A token of a text: the white space and the comments in front of it, what it is written as, and itself. -/
structure Piece where
  gap : List Char
  word : List Char
  token : Token

namespace Piece

def text (x : Piece) : List Char := x.gap ++ x.word

/-- Nothing but white space and comments is in front, and the word is a lexeme of the token. -/
structure WellFormed (x : Piece) : Prop where
  gap : Filler x.gap
  word : Token.Lexeme x.word x.token

/-- The tokens of pieces in a row, each at the place behind all that is in front of its word: other text, and the pieces before it. -/
def located (before : List Char) : List Piece → List LocatedToken
  | [] => []
  | x :: rest => ⟨x.token, .behind (before ++ x.gap)⟩ :: located (before ++ x.text) rest

end Piece

/-- White space and comments at the end of a text. The last comment may be left open. -/
inductive Trailing : List Char → Prop
  | closed {gap : List Char} (hgap : Filler gap) : Trailing gap
  | line {gap body : List Char} (hgap : Filler gap) (hbody : '\n' ∉ body) : Trailing (gap ++ '/' :: '/' :: body)
  | block {gap body : List Char} (hgap : Filler gap) (hbody : ¬ ['*', '/'] <:+: body) : Trailing (gap ++ '/' :: '*' :: body)

/-- How a text goes on behind its last token: it comes to its end, or to a character that no token can be read from. -/
inductive Rest (before : List Char) : List Char → Ending → Prop
  | complete {last : List Char} (hlast : Trailing last) : Rest before last (.complete (.behind (before ++ last)))
  | broken {gap rest : List Char} {c : Char} {x : TokenFault} (hgap : Filler gap) (hread : Token.read c rest = .error x) :
    Rest before (gap ++ c :: rest) (.broken ⟨x.cause, .behind (before ++ (gap ++ (c :: rest).take x.offset))⟩)

/-- Behind other text, this one consists of pieces with these tokens, and of a rest behind the last of them. -/
def Dissected (before text : List Char) (list : TokenList) : Prop :=
  ∃ pieces last, text = pieces.flatMap Piece.text ++ last ∧ (∀ x ∈ pieces, x.WellFormed) ∧
    list.tokens = Piece.located before pieces ∧ Rest (before ++ pieces.flatMap Piece.text) last list.ending

variable {gap gap' word before text : List Char} {t : Token} {list : TokenList}

/-- White space and comments may follow each other. -/
theorem Filler.append (h : Filler gap) (h' : Filler gap') : Filler (gap ++ gap') := by
  induction h with
  | nil => exact h'
  | blank hc _ ih => exact .blank hc ih
  | @line body rest hbody _ ih =>
    have happend : '/' :: '/' :: (body ++ '\n' :: rest) ++ gap' = '/' :: '/' :: (body ++ '\n' :: (rest ++ gap')) := by simp
    rw [happend]
    exact .line hbody ih
  | @block body rest hbody _ ih =>
    have happend : '/' :: '*' :: (body ++ '*' :: '/' :: rest) ++ gap' = '/' :: '*' :: (body ++ '*' :: '/' :: (rest ++ gap')) := by simp
    rw [happend]
    exact .block hbody ih

/-- They may stand in front of what is at the end of a text. -/
theorem Trailing.prepend (hgap : Filler gap) (h : Trailing gap') : Trailing (gap ++ gap') := by
  cases h with
  | closed h => exact .closed (hgap.append h)
  | line h hbody =>
    rw [← List.append_assoc]
    exact .line (hgap.append h) hbody
  | block h hbody =>
    rw [← List.append_assoc]
    exact .block (hgap.append h) hbody

/-- And in front of the place where it breaks off. -/
theorem Rest.prepend {e : Ending} (hgap : Filler gap) (h : Rest (before ++ gap) text e) : Rest before (gap ++ text) e := by
  cases h with
  | complete h =>
    rw [List.append_assoc]
    exact .complete (h.prepend hgap)
  | broken h hread =>
    rw [← List.append_assoc, List.append_assoc before, ← List.append_assoc gap]
    exact .broken (hgap.append h) hread

/-- A gap in front belongs to the first piece. -/
theorem Dissected.behindGap (hgap : Filler gap) (h : Dissected (before ++ gap) text list) : Dissected before (gap ++ text) list := by
  obtain ⟨pieces, last, rfl, hpieces, htokens, hrest⟩ := h
  cases pieces with
  | nil => exact ⟨[], gap ++ last, rfl, nofun, htokens, by simpa using Rest.prepend hgap (by simpa using hrest)⟩
  | cons x pieces =>
    refine ⟨{ x with gap := gap ++ x.gap } :: pieces, last, ?_, ?_, ?_, ?_⟩
    · simp [Piece.text]
    · intro y hy
      rcases List.mem_cons.mp hy with rfl | hy
      · exact ⟨hgap.append (hpieces x List.mem_cons_self).gap, (hpieces x List.mem_cons_self).word⟩
      · exact hpieces y (List.mem_cons_of_mem x hy)
    · rw [htokens]
      simp [Piece.located, Piece.text]
    · simpa [Piece.text] using hrest

/-- A lexeme in front is a piece. -/
theorem Dissected.behindWord (hword : Token.Lexeme word t) (h : Dissected (before ++ word) text list) :
    Dissected before (word ++ text) (list.cons ⟨t, .behind before⟩) := by
  obtain ⟨pieces, last, rfl, hpieces, htokens, hrest⟩ := h
  refine ⟨⟨[], word, t⟩ :: pieces, last, ?_, ?_, ?_, ?_⟩
  · simp [Piece.text]
  · intro y hy
    rcases List.mem_cons.mp hy with rfl | hy
    · exact ⟨.nil, hword⟩
    · exact hpieces y hy
  · simp [TokenList.cons, Piece.located, Piece.text, htokens]
  · simpa [Piece.text, TokenList.cons] using hrest

/-- A block comment is closed by the first `*/` in it, or there is none and it takes all the rest. -/
theorem blockComment_cases (more : List Char) :
    (∃ body tail, more = body ++ '*' :: '/' :: tail ∧ ¬ ['*', '/'] <:+: body) ∨
      (¬ ['*', '/'] <:+: more ∧ blockCommentLength more = more.length) := by
  fun_induction blockCommentLength more with
  | case1 => exact .inr ⟨by simp, rfl⟩
  | case2 tail => exact .inl ⟨[], tail, rfl, by simp⟩
  | case3 c rest hopen ih =>
    have hhere : ¬ ['*', '/'] <+: c :: rest := by
      rintro ⟨tail, htail⟩
      cases htail
      exact hopen tail rfl rfl
    rcases ih with ⟨body, tail, rfl, hbody⟩ | ⟨hrest, hlength⟩
    · refine .inl ⟨c :: body, tail, rfl, fun hinfix => ?_⟩
      rcases List.infix_cons_iff.mp hinfix with hfront | hinfix
      · exact hhere (hfront.trans (List.prefix_append (c :: body) ('*' :: '/' :: tail)))
      · exact hbody hinfix
    · refine .inr ⟨fun hinfix => ?_, by rw [hlength, List.length_cons]⟩
      rcases List.infix_cons_iff.mp hinfix with hfront | hinfix
      · exact hhere hfront
      · exact hrest hinfix

/-- A comment that is passed over is closed, or there is nothing behind it. -/
theorem commentLength?_cases {c : Char} {rest : List Char} {n : Nat} (h : commentLength? c rest = some n) :
    (∃ gap text, c :: rest = gap ++ text ∧ gap ≠ [] ∧ Filler gap) ∨ (Trailing (c :: rest) ∧ n = rest.length) := by
  unfold commentLength? at h
  split at h
  next more =>
    cases h
    have hbody : '\n' ∉ more.takeWhile (· != '\n') := fun hmem => by simpa using List.mem_takeWhile_imp hmem
    have hsplit := List.takeWhile_append_dropWhile (p := (· != '\n')) (l := more)
    cases hmore : more.dropWhile (· != '\n') with
    | nil =>
      rw [hmore, List.append_nil] at hsplit
      rw [hsplit] at hbody ⊢
      exact .inr ⟨@Trailing.line [] more .nil hbody, by rw [List.length_cons, Nat.add_comm]⟩
    | cons d tail =>
      have hd : d = '\n' := by
        have := List.head?_dropWhile_not (· != '\n') more
        rw [hmore] at this
        simpa using this
      rw [hmore, hd] at hsplit
      refine .inl ⟨'/' :: '/' :: (more.takeWhile (· != '\n') ++ ['\n']), tail, ?_, List.cons_ne_nil _ _, .line hbody .nil⟩
      simpa using hsplit.symm
  next more =>
    cases h
    rcases blockComment_cases more with ⟨body, tail, rfl, hbody⟩ | ⟨hopen, hlength⟩
    · exact .inl ⟨'/' :: '*' :: (body ++ '*' :: '/' :: []), tail, by simp, List.cons_ne_nil _ _, .block hbody .nil⟩
    · exact .inr ⟨@Trailing.block [] more .nil hopen, by rw [hlength, List.length_cons, Nat.add_comm]⟩
  next => cases h

section scan

variable {c : Char} {rest : List Char} {k : Nat} (p : Position)

/-- A comment that is left open is passed over up to the end of the text. -/
theorem scanFrom_open (hseparator : isSeparator c = false) (hcomment : commentLength? c rest = some rest.length) :
    scanFrom 0 p (c :: rest) = ⟨[], .complete (p.past (c :: rest))⟩ := by
  have hpass := scanFrom_pass_cons c rest [] p
  rw [List.append_nil] at hpass
  rw [scanFrom, hseparator, hcomment]
  exact hpass.trans (by rw [scanFrom])

/-- A token is read, and the scan goes on behind its characters. -/
theorem scanFrom_read (hseparator : isSeparator c = false) (hcomment : commentLength? c rest = none)
    (hread : Token.read c rest = .ok (t, k)) :
    scanFrom 0 p (c :: rest) = (scanFrom 0 (p.past (c :: rest.take k)) (rest.drop k)).cons ⟨t, p⟩ := by
  have hpass := scanFrom_pass_cons c (rest.take k) (rest.drop k) p
  rw [List.take_append_drop, List.length_take_of_le (Token.read_length hread)] at hpass
  rw [scanFrom, hseparator, hcomment, hread]
  exact congrArg (TokenList.cons ⟨t, p⟩) hpass

/-- Where no token can be read the scan ends with the fault, at the place that the reader names. -/
theorem scanFrom_broken {x : TokenFault} (hseparator : isSeparator c = false) (hcomment : commentLength? c rest = none)
    (hread : Token.read c rest = .error x) :
    scanFrom 0 p (c :: rest) = ⟨[], .broken ⟨x.cause, p.past ((c :: rest).take x.offset)⟩⟩ := by
  rw [scanFrom, hseparator, hcomment, hread]
  rfl

end scan

/-- From behind any text, the scan takes the rest apart. The induction is on a bound for the length of the text: each gap and each
lexeme shortens it. -/
theorem scanFrom_dissected (n : Nat) :
    ∀ before text, text.length < n → Dissected before text (scanFrom 0 (.behind before) text) := by
  induction n with
  | zero => exact fun _ _ hlength => absurd hlength (Nat.not_lt_zero _)
  | succ n ih =>
    intro before text hlength
    cases text with
    | nil => exact ⟨[], [], rfl, nofun, rfl, by simpa [scanFrom] using @Rest.complete before _ (.closed .nil)⟩
    | cons c rest =>
      have hgap : ∀ gap text, c :: rest = gap ++ text → gap ≠ [] → Filler gap →
          Dissected before (c :: rest) (scanFrom 0 (.behind before) (c :: rest)) := fun gap text htext hne hfiller => by
        have hshort := congrArg List.length htext
        rw [List.length_append] at hshort
        have hpos := List.length_pos_iff.mpr hne
        rw [htext, hfiller.scanFrom, Position.past_behind]
        exact (ih (before ++ gap) text (by omega)).behindGap hfiller
      cases hseparator : isSeparator c with
      | true =>
        have hmem : c ∈ [' ', '\t', '\r', '\n'] := by
          rcases Token.isSeparator_cases hseparator with rfl | rfl | rfl | rfl <;> decide
        exact hgap [c] rest rfl (List.cons_ne_nil _ _) (.blank hmem .nil)
      | false =>
        cases hcomment : commentLength? c rest with
        | some k =>
          rcases commentLength?_cases hcomment with ⟨gap, text, htext, hne, hfiller⟩ | ⟨htrailing, rfl⟩
          · exact hgap gap text htext hne hfiller
          · rw [scanFrom_open _ hseparator hcomment, Position.past_behind]
            exact ⟨[], c :: rest, rfl, nofun, rfl, by simpa using @Rest.complete before _ htrailing⟩
        | none =>
          cases hread : Token.read c rest with
          | ok r =>
            obtain ⟨t, k⟩ := r
            have hsplit : c :: rest = (c :: rest.take k) ++ rest.drop k := by rw [List.cons_append, List.take_append_drop]
            have hrest := ih (before ++ c :: rest.take k) (rest.drop k) (by
              rw [List.length_drop]
              rw [List.length_cons] at hlength
              omega)
            rw [scanFrom_read _ hseparator hcomment hread, Position.past_behind, hsplit]
            exact hrest.behindWord (Token.lexeme_of_read hread)
          | error x =>
            rw [scanFrom_broken _ hseparator hcomment hread, Position.past_behind]
            exact ⟨[], c :: rest, rfl, nofun, rfl, by simpa using @Rest.broken before _ _ _ _ .nil hread⟩

/-- Every text is taken apart. -/
theorem scan_dissected (text : String) : Dissected [] text.toList (scan text) :=
  scanFrom_dissected _ [] text.toList (Nat.lt_succ_self _)

/-! ## What follows for the places -/

/-- The place behind a text comes before the place behind a longer one. -/
theorem Position.behind_before (text : List Char) {more : List Char} (h : more ≠ []) :
    (Position.behind text).Before (.behind (text ++ more)) := by
  rw [← Position.past_behind]
  exact Position.before_past _ h

namespace Piece

variable {pieces : List Piece}

/-- A piece has at least one character. -/
theorem WellFormed.text_ne_nil {x : Piece} (h : x.WellFormed) : x.text ≠ [] :=
  fun hnil => h.word.ne_nil (List.append_eq_nil_iff.mp hnil).2

/-- A token stands behind a part of the pieces. -/
theorem mem_located {u : LocatedToken} (h : u ∈ located before pieces) :
    ∃ more after, pieces.flatMap Piece.text = more ++ after ∧ u.position = .behind (before ++ more) := by
  induction pieces generalizing before with
  | nil => cases h
  | cons x pieces ih =>
    rcases List.mem_cons.mp h with rfl | h
    · exact ⟨x.gap, x.word ++ pieces.flatMap Piece.text, by simp [Piece.text], rfl⟩
    · obtain ⟨more, after, htext, hposition⟩ := ih h
      exact ⟨x.text ++ more, after, by rw [List.flatMap_cons, htext, List.append_assoc], by rw [hposition, List.append_assoc]⟩

/-- The places of the tokens are in order, and the end of the text is behind them. -/
theorem located_in_order (last : List Char) (h : ∀ x ∈ pieces, x.WellFormed) :
    ((located before pieces).map LocatedToken.position ++
      [Position.behind (before ++ (pieces.flatMap Piece.text ++ last))]).Pairwise Position.Before := by
  induction pieces generalizing before with
  | nil => exact List.pairwise_singleton _ _
  | cons x pieces ih =>
    have hword := (h x List.mem_cons_self).word.ne_nil
    have hbehind : ∀ more, (Position.behind (before ++ x.gap)).Before (.behind (before ++ x.text ++ more)) := fun more => by
      rw [Piece.text, ← List.append_assoc, List.append_assoc (before ++ x.gap)]
      exact Position.behind_before _ (List.append_ne_nil_of_left_ne_nil hword more)
    have hend : before ++ ((x :: pieces).flatMap Piece.text ++ last) = before ++ x.text ++ (pieces.flatMap Piece.text ++ last) := by simp
    rw [located, List.map_cons, List.cons_append, List.pairwise_cons, hend]
    refine ⟨fun q hq => ?_, ih fun y hy => h y (List.mem_cons_of_mem x hy)⟩
    rcases List.mem_append.mp hq with hq | hq
    · obtain ⟨u, hu, rfl⟩ := List.mem_map.mp hq
      obtain ⟨more, -, -, hmore⟩ := mem_located hu
      exact hmore ▸ hbehind more
    · rw [List.mem_singleton.mp hq]
      exact hbehind _

/-- Each piece takes at least one character. -/
theorem length_located_le (before : List Char) (h : ∀ x ∈ pieces, x.WellFormed) :
    (located before pieces).length ≤ (pieces.flatMap Piece.text).length := by
  induction pieces generalizing before with
  | nil => exact Nat.le_refl 0
  | cons x pieces ih =>
    have hpos := List.length_pos_iff.mpr (h x List.mem_cons_self).text_ne_nil
    have hrest := ih (before ++ x.text) fun y hy => h y (List.mem_cons_of_mem x hy)
    rw [located, List.length_cons, List.flatMap_cons, List.length_append]
    omega

end Piece

/-- The place is that of a character of the text, or of its end. -/
def Position.IsOf (p : Position) (text : List Char) : Prop := ∃ before after, text = before ++ after ∧ p = .behind before

/-- No text has more tokens than characters. -/
theorem length_tokens_le (text : String) : (scan text).tokens.length ≤ text.toList.length := by
  obtain ⟨pieces, last, htext, hpieces, htokens, -⟩ := scan_dissected text
  have hle := Piece.length_located_le [] hpieces
  rw [htokens, htext, List.length_append]
  omega

/-- Every token has a place in its text. -/
theorem position_of_token {text : String} {u : LocatedToken} (h : u ∈ (scan text).tokens) : u.position.IsOf text.toList := by
  obtain ⟨pieces, last, htext, -, htokens, -⟩ := scan_dissected text
  rw [htokens] at h
  obtain ⟨more, after, hpieces, hposition⟩ := Piece.mem_located h
  exact ⟨more, after ++ last, by rw [htext, hpieces, List.append_assoc], hposition⟩

/-- The end of a text, or the place where it breaks off, is a place of the text. -/
theorem position_of_complete {text : String} {q : Position} (h : (scan text).ending = .complete q) : q = .behind text.toList := by
  obtain ⟨pieces, last, htext, -, -, hrest⟩ := scan_dissected text
  rw [h] at hrest
  cases hrest
  rw [htext, List.nil_append]

/-- So has the fault that ends a scan. -/
theorem position_of_broken {text : String} {x : ParseFault} (h : (scan text).ending = .broken x) : x.position.IsOf text.toList := by
  obtain ⟨pieces, last, htext, -, -, hrest⟩ := scan_dissected text
  rw [h] at hrest
  cases hrest with
  | @broken gap rest c x hgap hread =>
    refine ⟨pieces.flatMap Piece.text ++ (gap ++ (c :: rest).take x.offset), (c :: rest).drop x.offset, ?_, rfl⟩
    rw [htext, List.append_assoc, List.append_assoc, List.take_append_drop]

end EventScript
