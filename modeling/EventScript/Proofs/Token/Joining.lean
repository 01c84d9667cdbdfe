import EventScript.Proofs.Token.Spelling

/-!
# The tokens of joined texts

The scanner looks a few characters ahead, and never over the end of a line: in front of a newline it reads what it reads at the end
of a text, unless a block comment is left open there. So the tokens of a text that is followed by another one on a new line are its
own tokens, and behind them those of the other text, at places that many lines further down (`scanFrom_append`,
`scanFrom_relocate`).
-/

namespace EventScript

/-! ## Places further down -/

/-- The place so many lines further down. -/
def Position.down (lines : Nat) (p : Position) : Position := ⟨p.line + lines, p.column⟩

def LocatedToken.relocate (f : Position → Position) (t : LocatedToken) : LocatedToken := ⟨t.token, f t.position⟩

def ParseFault.relocate (f : Position → Position) (x : ParseFault) : ParseFault := ⟨x.cause, f x.position⟩

def Ending.relocate (f : Position → Position) : Ending → Ending
  | .complete p => .complete (f p)
  | .broken x => .broken (x.relocate f)

def TokenList.relocate (f : Position → Position) (list : TokenList) : TokenList :=
  ⟨list.tokens.map (·.relocate f), list.ending.relocate f⟩

/-- Wherever a text is read from, the places in it are counted alike. -/
def Position.Rigid (f : Position → Position) : Prop := ∀ p c, f (p.advance c) = (f p).advance c

/-- Places further down are counted alike. -/
theorem Position.rigid_down (lines : Nat) : Position.Rigid (Position.down lines) := by
  intro p c
  unfold Position.advance
  split
  · simp only [Position.down]
    congr 1
    omega
  · rfl

/-- What is counted alike from one character to the next is so along a text. -/
theorem Position.Rigid.past {f : Position → Position} (hf : Position.Rigid f) (p : Position) (cs : List Char) :
    f (p.past cs) = (f p).past cs := by
  induction cs generalizing p with
  | nil => rfl
  | cons c cs ih => rw [Position.past_cons, Position.past_cons, ih, hf]

/-- What is scanned does not depend on where the text starts, apart from the places. -/
theorem scanFrom_relocate {f : Position → Position} (hf : Position.Rigid f) (cs : List Char) :
    ∀ pass p, scanFrom pass (f p) cs = (scanFrom pass p cs).relocate f := by
  induction cs with
  | nil => intro pass p; cases pass <;> rfl
  | cons c cs ih =>
    intro pass p
    cases pass with
    | succ pass =>
      rw [scanFrom, scanFrom, ← hf, ih]
    | zero =>
      rw [scanFrom, scanFrom, ← hf]
      split
      · exact ih 0 _
      · split
        · exact ih _ _
        · split
          · rw [ih]
            rfl
          · simp only [TokenList.relocate, Ending.relocate, ParseFault.relocate, hf.past, List.map_nil]

/-- The line of a place counts the newlines in front of it. -/
theorem Position.line_past (p : Position) (cs : List Char) : (p.past cs).line = p.line + cs.count '\n' := by
  induction cs generalizing p with
  | nil => rfl
  | cons c cs ih =>
    rw [Position.past_cons, ih, Position.advance]
    by_cases hc : c = '\n'
    · subst hc
      simp only [beq_self_eq_true, if_true, List.count_cons_self]
      omega
    · rw [List.count_cons_of_ne hc]
      simp [hc]

/-! ## In front of a gap -/

namespace Token

variable {follow : List Char}

/-- A gap is no digit. -/
theorem Gap.stops_digit (h : Gap follow) : Text.Stops Char.isDigit follow := h.stops fun _ => isDigit_eq_false

/-- A gap is no part of a name. -/
theorem Gap.stops_nameChar (h : Gap follow) : Text.Stops isNameChar follow := h.stops fun _ => isNameChar_eq_false

/-- The longest symbol that starts here is the same in front of a gap. -/
theorem readSymbol?_append (c : Char) (rest : List Char) (h : Gap follow) :
    readSymbol? c (rest ++ follow) = readSymbol? c rest := by
  cases rest with
  | nil =>
    rcases h.cases with rfl | ⟨more, rfl | rfl | rfl | rfl⟩
    · rfl
    all_goals
      unfold readSymbol?
      split <;> rfl
  | cons d rest =>
    unfold readSymbol?
    rfl

/-- A string literal ends with its quote, whatever is behind it. -/
theorem readString_append (follow : List Char) {rest : List Char} {taken : Nat} {r : List Char × Nat} (h : readString taken rest = .ok r) :
    readString taken (rest ++ follow) = .ok r ∧ r.2 ≤ taken + rest.length := by
  fun_induction readString taken rest generalizing r with
  | case1 => cases h
  | case2 => cases h
  | case3 taken rest =>
    cases h
    refine ⟨rfl, ?_⟩
    simp only [List.length_cons]
    omega
  | case4 => cases h
  | case5 taken e more c hescape ih =>
    cases hmore : readString (taken + 2) more with
    | error f =>
      rw [hmore] at h
      cases h
    | ok r' =>
      rw [hmore] at h
      obtain ⟨happend, hlength⟩ := ih hmore
      cases h
      refine ⟨?_, ?_⟩
      · rw [List.cons_append, List.cons_append, readString, hescape]
        simp only [happend]
        rfl
      · simp only [List.length_cons]
        omega
  | case6 taken c rest hlast hquote hescape ih =>
    have hslash : c ≠ '\\' := by
      intro hc
      cases rest with
      | nil => exact hlast hc rfl
      | cons e more => exact hescape e more hc rfl
    cases hrest : readString (taken + 1) rest with
    | error f =>
      rw [hrest] at h
      cases h
    | ok r' =>
      rw [hrest] at h
      obtain ⟨happend, hlength⟩ := ih hrest
      cases h
      refine ⟨?_, ?_⟩
      · rw [List.cons_append, readString]
        · simp only [happend]
          rfl
        · exact fun hc => absurd hc hslash
        · exact hquote
        · exact fun e more hc => absurd hc hslash
      · simp only [List.length_cons]
        omega

/-- A number in decimal digits ends in front of a gap. -/
theorem readDecimal_append (c : Char) (rest : List Char) (h : Gap follow) :
    readDecimal c (rest ++ follow) = readDecimal c rest := by
  simp only [readDecimal]
  rw [h.stops_digit.takeWhile, h.stops_digit.dropWhile]
  cases rest.dropWhile Char.isDigit with
  | nil => rcases h.cases with rfl | ⟨more, rfl | rfl | rfl | rfl⟩ <;> rfl
  | cons e more =>
    by_cases he : e = '.'
    · subst he
      cases more with
      | nil => rcases h.cases with rfl | ⟨more, rfl | rfl | rfl | rfl⟩ <;> rfl
      | cons d more =>
        simp only [List.cons_append]
        rw [h.stops_digit.takeWhile]
    · rw [List.cons_append]
      split
      next heq => exact absurd (List.cons.inj heq).1 he
      next =>
        split
        next heq => exact absurd (List.cons.inj heq).1 he
        next => rfl

/-- A number that does not start with zero is decimal. -/
theorem readNumber_of_ne {c : Char} (hc : c ≠ '0') (rest : List Char) : readNumber c rest = readDecimal c rest := by
  unfold readNumber
  split
  · exact absurd rfl hc
  · exact absurd rfl hc
  · rfl

/-- A number ends in front of a gap. -/
theorem readNumber_append (c : Char) (rest : List Char) (h : Gap follow) :
    readNumber c (rest ++ follow) = readNumber c rest := by
  have hhex : ∀ more, readHex (more ++ follow) = readHex more := by
    intro more
    simp only [readHex]
    rw [(h.stops fun _ => isHexDigit_eq_false).takeWhile]
  by_cases hc : c = '0'
  · subst hc
    cases rest with
    | nil =>
      rw [List.nil_append, readNumber_decimal (h.head?_ne rfl) (h.head?_ne rfl), readNumber_decimal (by simp) (by simp)]
      exact readDecimal_append '0' [] h
    | cons d more =>
      by_cases hx : d = 'x'
      · subst hx
        exact hhex more
      by_cases hX : d = 'X'
      · subst hX
        exact hhex more
      rw [readNumber_decimal (by simpa using hx) (by simpa using hX),
        readNumber_decimal (by simpa using hx) (by simpa using hX)]
      exact readDecimal_append '0' (d :: more) h
  · rw [readNumber_of_ne hc, readNumber_of_ne hc]
    exact readDecimal_append c rest h

/-- A token is read in front of a gap as at the end of a text. -/
theorem read_append {c : Char} {rest : List Char} {t : Token} {n : Nat} (h : Gap follow)
    (hread : read c rest = .ok (t, n)) : read c (rest ++ follow) = .ok (t, n) := by
  unfold read at hread ⊢
  rw [readSymbol?_append c rest h]
  cases hsymbol : readSymbol? c rest with
  | some r =>
    rw [hsymbol] at hread
    exact hread
  | none =>
    rw [hsymbol] at hread
    dsimp only at hread ⊢
    split_ifs at hread ⊢ with hcommand hquote hdigit hstart
    · unfold readCommand at hread ⊢
      rw [h.stops_nameChar.takeWhile]
      exact hread
    · cases hstring : readString 1 rest with
      | error f =>
        rw [hstring] at hread
        cases hread
      | ok r =>
        rw [(readString_append follow hstring).1]
        rw [hstring] at hread
        exact hread
    · rw [readNumber_append c rest h]
      exact hread
    · unfold readWord at hread ⊢
      rw [h.stops_nameChar.takeWhile]
      exact hread

/-- A symbol is no longer than the text. -/
theorem readSymbol?_length {c : Char} {rest : List Char} {s : Symbol} {n : Nat}
    (h : readSymbol? c rest = some (s, n)) : n ≤ rest.length := by
  cases rest with
  | nil =>
    unfold readSymbol? at h
    split at h <;> cases h <;> exact Nat.le_refl 0
  | cons d rest =>
    have hone : n ≤ 1 := by
      unfold readSymbol? at h
      split at h
      all_goals
        repeat' split at h
        all_goals cases h
        all_goals decide
    exact Nat.le_trans hone (Nat.le_add_left 1 _)

/-- A number in decimal digits is no longer than the text. -/
theorem readDecimal_length {c : Char} {rest : List Char} {t : Token} {n : Nat} (h : readDecimal c rest = .ok (t, n)) :
    n ≤ rest.length := by
  have hrest := congrArg List.length (List.takeWhile_append_dropWhile (p := Char.isDigit) (l := rest))
  rw [List.length_append] at hrest
  have hinteger : readDecimal.integer (c :: rest.takeWhile Char.isDigit) = .ok (t, n) → n ≤ rest.length := by
    intro hread
    simp only [readDecimal.integer] at hread
    split_ifs at hread
    cases hread
    rw [List.length_cons]
    omega
  simp only [readDecimal] at h
  split at h
  next d more hdrop =>
    split_ifs at h
    · cases h
      have hmore := (List.takeWhile_sublist (p := Char.isDigit) (l := more)).length_le
      rw [hdrop] at hrest
      simp only [List.length_cons] at hrest ⊢
      omega
    · exact hinteger h
  next => exact hinteger h

/-- A token takes characters that are there. -/
theorem read_length {c : Char} {rest : List Char} {t : Token} {n : Nat} (hread : read c rest = .ok (t, n)) :
    n ≤ rest.length := by
  have htake : ∀ (p : Char → Bool) (word : List Char), (word.takeWhile p).length ≤ word.length :=
    fun p word => (List.takeWhile_sublist _).length_le
  have hhex : ∀ more, readHex more = .ok (t, n) → n ≤ more.length + 1 := by
    intro more hmore
    simp only [readHex] at hmore
    split_ifs at hmore
    cases hmore
    have := htake isHexDigit more
    omega
  unfold read at hread
  split at hread
  next s k hsymbol =>
    cases hread
    exact readSymbol?_length hsymbol
  next =>
    split_ifs at hread
    · simp only [readCommand] at hread
      split_ifs at hread
      cases hread
      exact htake _ _
    · cases hstring : readString 1 rest with
      | error f =>
        rw [hstring] at hread
        cases hread
      | ok r =>
        rw [hstring] at hread
        have hlength := (readString_append [] hstring).2
        cases hread
        omega
    · unfold readNumber at hread
      split at hread
      · exact hhex _ hread
      · exact hhex _ hread
      · exact readDecimal_length hread
    · have hword := Except.ok.inj hread
      rw [← readWord_length hword]
      exact htake _ _

end Token

/-! ## In front of a newline -/

/-- The characters hold the end of a block comment. -/
def closesComment : List Char → Bool
  | [] => false
  | '*' :: '/' :: _ => true
  | _ :: rest => closesComment rest

/-- Read as `scanFrom` reads it, the text ends inside a block comment that is not closed. -/
def endsInComment : Nat → List Char → Bool
  | _, [] => false
  | pass + 1, _ :: rest => endsInComment pass rest
  | 0, c :: rest =>
    if isSeparator c then endsInComment 0 rest
    else
      match commentLength? c rest with
      | some n => (rest.head? == some '*' && !closesComment rest.tail) || endsInComment n rest
      | none =>
        match Token.read c rest with
        | .ok (_, n) => endsInComment n rest
        | .error _ => false

/-- A block comment that is closed is as long as it is, whatever follows. -/
theorem blockCommentLength_append {more : List Char} (h : closesComment more = true) (follow : List Char) :
    blockCommentLength (more ++ follow) = blockCommentLength more := by
  fun_induction closesComment more with
  | case1 => cases h
  | case2 => rfl
  | case3 c rest hclose ih =>
    have hne : ∀ more, c = '*' → rest ++ follow = '/' :: more → False := by
      intro more hc heq
      cases rest with
      | nil => cases h
      | cons d rest => exact hclose rest hc (by rw [(List.cons.inj heq).1])
    rw [List.cons_append, blockCommentLength, blockCommentLength, ih h]
    · exact hclose
    · exact hne

/-- A block comment is no longer than the text. -/
theorem blockCommentLength_le (more : List Char) : blockCommentLength more ≤ more.length := by
  fun_induction blockCommentLength more with
  | case1 => exact Nat.le_refl 0
  | case2 => simp
  | case3 c rest _ ih =>
    rw [List.length_cons]
    omega

/-- A comment is no longer than the text. -/
theorem commentLength?_length {c : Char} {rest : List Char} {n : Nat} (h : commentLength? c rest = some n) :
    n ≤ rest.length := by
  unfold commentLength? at h
  split at h
  next more =>
    cases h
    have := (List.takeWhile_sublist (p := (· != '\n')) (l := more)).length_le
    simp only [List.length_cons]
    omega
  next more =>
    cases h
    have := blockCommentLength_le more
    simp only [List.length_cons]
    omega
  next => cases h

/-- A comment is as long in front of a newline, if it is not a block comment that is left open. -/
theorem commentLength?_append {c : Char} {rest follow : List Char}
    (hclosed : (rest.head? == some '*' && !closesComment rest.tail) = false ∨ commentLength? c rest = none) :
    commentLength? c (rest ++ '\n' :: follow) = commentLength? c rest := by
  by_cases hc : c = '/'
  · subst hc
    cases rest with
    | nil => rfl
    | cons d more =>
      by_cases hline : d = '/'
      · subst hline
        have hnewline : Text.Stops (· != '\n') ('\n' :: follow) := by
          rintro e ⟨⟩
          rfl
        simp only [List.cons_append, commentLength?]
        rw [hnewline.takeWhile]
      by_cases hblock : d = '*'
      · subst hblock
        have hclose : closesComment more = true := by simpa [commentLength?] using hclosed
        simp only [List.cons_append, commentLength?]
        rw [blockCommentLength_append hclose]
      have hnone : ∀ tail, commentLength? '/' (d :: tail) = none := by
        intro tail
        unfold commentLength?
        split
        next heq => exact absurd (List.cons.inj heq).1 hline
        next heq => exact absurd (List.cons.inj heq).1 hblock
        next => rfl
      rw [List.cons_append, hnone, hnone]
  · have hnone : ∀ more, commentLength? c more = none := by
      intro more
      unfold commentLength?
      split
      · exact absurd rfl hc
      · exact absurd rfl hc
      · rfl
    rw [hnone, hnone]

/-- The tokens, and behind them the list. -/
def TokenList.prepend (ts : List LocatedToken) (list : TokenList) : TokenList := ⟨ts ++ list.tokens, list.ending⟩

/-- The tokens of a text that is followed by another one on a new line. -/
theorem scanFrom_append (follow : List Char) (cs : List Char) : ∀ pass p q, pass ≤ cs.length →
    endsInComment pass cs = false → (scanFrom pass p cs).ending = .complete q →
      scanFrom pass p (cs ++ '\n' :: follow) =
        (scanFrom 0 (p.past cs) ('\n' :: follow)).prepend (scanFrom pass p cs).tokens := by
  induction cs with
  | nil =>
    intro pass p q hpass _ _
    obtain rfl : pass = 0 := Nat.le_zero.mp hpass
    rfl
  | cons c cs ih =>
    intro pass p q hpass hclosed hcomplete
    cases pass with
    | succ pass =>
      rw [scanFrom] at hcomplete
      rw [List.cons_append, scanFrom, scanFrom, Position.past_cons]
      exact ih pass _ q (Nat.le_of_succ_le_succ hpass) hclosed hcomplete
    | zero =>
      rw [endsInComment] at hclosed
      rw [scanFrom] at hcomplete
      rw [List.cons_append, scanFrom, scanFrom, Position.past_cons]
      split
      next hseparator =>
        rw [if_pos hseparator] at hclosed hcomplete
        exact ih 0 _ q (Nat.zero_le _) hclosed hcomplete
      next hseparator =>
        rw [if_neg hseparator] at hclosed hcomplete
        cases hcomment : commentLength? c cs with
        | some n =>
          rw [hcomment] at hclosed hcomplete
          obtain ⟨hclose, hrest⟩ := Bool.or_eq_false_iff.mp hclosed
          rw [commentLength?_append (.inl hclose), hcomment]
          exact ih n _ q (commentLength?_length hcomment) hrest hcomplete
        | none =>
          rw [hcomment] at hclosed hcomplete
          rw [commentLength?_append (.inr hcomment), hcomment]
          cases hread : Token.read c cs with
          | error f =>
            rw [hread] at hcomplete
            cases hcomplete
          | ok r =>
            obtain ⟨t, n⟩ := r
            rw [hread] at hclosed hcomplete
            have hgap : Token.Gap ('\n' :: follow) := by
              rintro d ⟨⟩
              rfl
            rw [Token.read_append hgap hread]
            dsimp only
            rw [ih n _ q (Token.read_length hread) hclosed hcomplete]
            rfl

/-- A semicolon on a line of its own. -/
theorem scanFrom_semicolon (p : Position) (cs : List Char) :
    scanFrom 0 p ('\n' :: ';' :: '\n' :: cs) =
      (scanFrom 0 ⟨p.line + 2, 1⟩ cs).prepend [⟨.symbol .semicolon, ⟨p.line + 1, 1⟩⟩] := rfl

/-- The number of newlines in a text: of the lines in front of what follows it on a new line. -/
def newlines (text : String) : Nat := text.toList.count '\n'

/-- Two texts with a semicolon between them, on a line of its own, have the tokens of both. -/
theorem scan_append {s₁ : String} {q : Position} (s₂ : String) (hcomplete : (scan s₁).ending = .complete q)
    (hclosed : endsInComment 0 s₁.toList = false) :
    ∃ p, scan (s₁ ++ "\n;\n" ++ s₂) =
      ((scan s₂).relocate (.down (newlines (s₁ ++ "\n;\n")))).prepend
        ((scan s₁).tokens ++ [⟨.symbol .semicolon, p⟩]) := by
  have htext : (s₁ ++ "\n;\n" ++ s₂).toList = s₁.toList ++ '\n' :: ';' :: '\n' :: s₂.toList := by
    simp
  have hline : (⟨((⟨1, 1⟩ : Position).past s₁.toList).line + 2, 1⟩ : Position) =
      Position.down (newlines (s₁ ++ "\n;\n")) ⟨1, 1⟩ := by
    rw [Position.line_past, newlines, String.toList_append, List.count_append]
    simp only [Position.down]
    congr 1
  refine ⟨⟨((⟨1, 1⟩ : Position).past s₁.toList).line + 1, 1⟩, ?_⟩
  unfold scan at hcomplete ⊢
  rw [htext, scanFrom_append _ _ 0 _ q (Nat.zero_le _) hclosed hcomplete, scanFrom_semicolon, hline,
    scanFrom_relocate (Position.rigid_down _)]
  simp only [TokenList.prepend, List.append_assoc]

end EventScript
