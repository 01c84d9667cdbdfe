import EventScript.Proofs.Token.Spelling

/-!
# Tokens with anything between them

Between tokens stand white space and comments, as much of both as one likes, as long as a token is followed by white space first. A
text that is written in this way has the tokens that it was written from, however each of them is spelled, and ends behind the last:
`scan_spelled`. The scan goes over the text from the left, so one lemma says that it comes out of a gap where the gap ends, and
another one that it comes out of a token where the token ends.
-/

namespace EventScript

/-! ## Gaps -/

/-- White space and comments in a row. A line comment goes up to the end of its line, and a block comment up to the first `*/`. -/
inductive Filler : List Char → Prop
  | nil : Filler []
  | blank {c : Char} {rest : List Char} (hc : c ∈ [' ', '\t', '\r', '\n']) (hrest : Filler rest) : Filler (c :: rest)
  | line {body rest : List Char} (hbody : '\n' ∉ body) (hrest : Filler rest) :
    Filler ('/' :: '/' :: (body ++ '\n' :: rest))
  | block {body rest : List Char} (hbody : ¬ ['*', '/'] <:+: body) (hrest : Filler rest) :
    Filler ('/' :: '*' :: (body ++ '*' :: '/' :: rest))

/-- What may stand in front of a token: white space, and behind it more of it and comments. -/
def Trivia (gap : List Char) : Prop := Filler gap ∧ ∃ c ∈ gap.head?, c ∈ [' ', '\t', '\r', '\n']

/-- A text that writes tokens down, each in one of the ways to write it and behind a gap. -/
inductive Spelled : List Char → List Token → Prop
  | nil : Spelled [] []
  | cons {gap word rest : List Char} {t : Token} {ts : List Token} (hgap : Trivia gap) (hword : Token.Spells word t)
    (hrest : Spelled rest ts) : Spelled (gap ++ word ++ rest) (t :: ts)

variable {gap word text rest body : List Char} {t : Token} {ts : List Token}

theorem isSeparator_of_mem {c : Char} (hc : c ∈ [' ', '\t', '\r', '\n']) : isSeparator c = true := by
  simp only [List.mem_cons, List.not_mem_nil, or_false] at hc
  rcases hc with rfl | rfl | rfl | rfl <;> rfl

theorem Trivia.isGap (h : Trivia gap) (rest : List Char) : Token.Gap (gap ++ rest) := by
  obtain ⟨-, c, hhead, hc⟩ := h
  obtain ⟨more, rfl⟩ := List.head?_eq_some_iff.mp hhead
  rintro d ⟨⟩
  exact isSeparator_of_mem hc

theorem Spelled.isGap (h : Spelled text ts) : Token.Gap text := by
  cases h with
  | nil => exact .nil
  | cons hgap hword hrest =>
    rw [List.append_assoc]
    exact hgap.isGap _

/-! ## Over a gap -/

/-- Passing over characters that begin with the one in front. -/
theorem scanFrom_pass_cons (c : Char) (word rest : List Char) (p : Position) :
    scanFrom word.length (p.advance c) (word ++ rest) = scanFrom 0 (p.past (c :: word)) rest := by
  rw [scanFrom_pass, Position.past_cons]

/-- A line comment is passed over up to the newline behind it. -/
theorem commentLength?_line (hbody : '\n' ∉ body) (rest : List Char) :
    commentLength? '/' ('/' :: (body ++ '\n' :: rest)) = some ('/' :: body).length := by
  have htake : (body ++ '\n' :: rest).takeWhile (· != '\n') = body := by
    rw [List.takeWhile_append_of_pos, List.takeWhile_cons_of_neg (by simp), List.append_nil]
    intro d hd
    simpa using ne_of_mem_of_not_mem hd hbody
  simp only [commentLength?]
  rw [htake, List.length_cons, Nat.add_comm]

/-- A block comment goes on to the first `*/`. -/
theorem blockCommentLength_eq (hbody : ¬ ['*', '/'] <:+: body) (rest : List Char) :
    blockCommentLength (body ++ '*' :: '/' :: rest) = body.length + 2 := by
  induction body with
  | nil => rfl
  | cons c body ih =>
    obtain ⟨hhere, hlater⟩ := not_or.mp (List.infix_cons_iff.not.mp hbody)
    have hopen : ∀ more, c = '*' → body ++ '*' :: '/' :: rest = '/' :: more → False := by
      rintro more rfl hmore
      cases body with
      | nil => cases hmore
      | cons d body =>
        cases hmore
        exact hhere ⟨body, rfl⟩
    rw [List.cons_append, blockCommentLength.eq_3 c _ hopen, ih hlater, List.length_cons]

theorem commentLength?_block (hbody : ¬ ['*', '/'] <:+: body) (rest : List Char) :
    commentLength? '/' ('*' :: (body ++ '*' :: '/' :: rest)) = some ('*' :: (body ++ ['*', '/'])).length := by
  simp only [commentLength?]
  rw [blockCommentLength_eq hbody]
  simp only [List.length_cons, List.length_append, List.length_nil]
  congr 1
  omega

/-- A comment is no token. -/
theorem scanFrom_comment {n : Nat} (hcomment : commentLength? '/' rest = some n) (p : Position) :
    scanFrom 0 p ('/' :: rest) = scanFrom n (p.advance '/') rest := by
  rw [scanFrom, hcomment]
  rfl

/-- No token is read in a gap. -/
theorem Filler.scanFrom (h : Filler gap) (rest : List Char) (p : Position) :
    scanFrom 0 p (gap ++ rest) = scanFrom 0 (p.past gap) rest := by
  induction h generalizing p with
  | nil => rfl
  | @blank c gap hc _ ih =>
    rw [List.cons_append, EventScript.scanFrom, if_pos (isSeparator_of_mem hc), ih, Position.past_cons]
  | @line body gap hbody _ ih =>
    have htext : '/' :: '/' :: (body ++ '\n' :: gap) ++ rest = '/' :: ('/' :: body ++ '\n' :: (gap ++ rest)) := by simp
    have hcomment : commentLength? '/' ('/' :: body ++ '\n' :: (gap ++ rest)) = some ('/' :: body).length :=
      commentLength?_line hbody _
    rw [htext, scanFrom_comment hcomment, scanFrom_pass_cons, EventScript.scanFrom, if_pos (by decide), ih]
    simp [Position.past_append]
  | @block body gap hbody _ ih =>
    have htext : '/' :: '*' :: (body ++ '*' :: '/' :: gap) ++ rest = '/' :: ('*' :: (body ++ ['*', '/']) ++ (gap ++ rest)) := by
      simp
    have hcomment : commentLength? '/' ('*' :: (body ++ ['*', '/']) ++ (gap ++ rest)) =
        some ('*' :: (body ++ ['*', '/'])).length := by
      rw [List.cons_append, List.append_assoc]
      exact commentLength?_block hbody _
    rw [htext, scanFrom_comment hcomment, scanFrom_pass_cons, ih]
    simp [Position.past_append]

/-! ## Over a token -/

/-- A token in front of a gap is read, and the scan goes on behind it. -/
theorem scanFrom_spells (hword : Token.Spells word t) (hrest : Token.Gap rest) (p : Position) :
    scanFrom 0 p (word ++ rest) = (scanFrom 0 (p.past word) rest).cons ⟨t, p⟩ := by
  obtain ⟨c, more, rfl, hread⟩ := Token.read_spells hword hrest
  rw [List.cons_append, scanFrom, Token.isSeparator_of_read hread, Token.commentLength?_of_read hrest hread, hread]
  simp only [Bool.false_eq_true, if_false]
  rw [scanFrom_pass_cons]

theorem Spelled.scanFrom (h : Spelled text ts) (p : Position) : ConsistsOf (scanFrom 0 p text) ts := by
  induction h generalizing p with
  | nil => exact ⟨rfl, p, rfl⟩
  | @cons gap word rest t ts hgap hword hrest ih =>
    obtain ⟨htokens, hending⟩ := ih ((p.past gap).past word)
    rw [List.append_assoc, hgap.1.scanFrom, scanFrom_spells hword hrest.isGap]
    exact ⟨congrArg (t :: ·) htokens, hending⟩

/-- Tokens that are written down, in whichever way each of them and with whatever white space and comments in front of it, are the
tokens of the text, and behind them the text ends. -/
theorem scan_spelled (h : Spelled text ts) : ConsistsOf (scan (String.ofList text)) ts := by
  unfold scan
  rw [String.toList_ofList]
  exact h.scanFrom _

/-- A keyword in mixed case, a number in base sixteen and a string with an escape, behind a comment that looks like the start of
another kind of comment, and behind one that is closed by the last of three stars. -/
theorem scan_spelled_comments :
    let text := [' ', 'i', 'F', '\t', '/', '/', '*', '\n', '0', 'X', '0', 'f', 'F', ' ', '/', '*', '*', '*', '/', '"', '\\', 'n', '"']
    let ts := [Token.keyword .ifWord, .int 255, .string "\n"]
    Spelled text ts ∧ ConsistsOf (scan (String.ofList text)) ts := by
  intro text ts
  have hblank : Trivia [' '] := ⟨.blank (by decide) .nil, ' ', rfl, by decide⟩
  have hline : Trivia ['\t', '/', '/', '*', '\n'] :=
    ⟨.blank (by decide) (@Filler.line ['*'] [] (by decide) .nil), '\t', rfl, by decide⟩
  have hblock : Trivia [' ', '/', '*', '*', '*', '/'] :=
    ⟨.blank (by decide) (@Filler.block ['*'] [] (by decide) .nil), ' ', rfl, by decide⟩
  have hkeyword : Token.Spells ['i', 'F'] (.keyword .ifWord) := .keyword .ifWord (by decide)
  have hnumber : Token.Spells ['0', 'X', '0', 'f', 'F'] (.int 255) := .hex (by decide) (.inr rfl) 1 (by decide)
  have hcontent : Token.SpellsContent (Token.escaped '\n' ++ []) ['\n'] := .cons (.inl rfl) .nil
  have hstring : Token.Spells ['"', '\\', 'n', '"'] (.string "\n") := .string hcontent
  have hspelled : Spelled text ts := .cons hblank hkeyword (.cons hline hnumber (.cons hblock hstring .nil))
  exact ⟨hspelled, scan_spelled hspelled⟩

end EventScript
