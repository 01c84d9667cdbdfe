import EventScript.Proofs.Text.Runs
import EventScript.Token.Scan
import Mathlib.Data.List.Basic
import Mathlib.Data.List.TakeWhile

/-!
# Spelling tokens

A token can be written in several ways: keywords in either case, integers in base ten or sixteen, characters of a string with
escapes or without. `Token.Spells` says in which ones, and `read_spells` reads the token back from each of them, in front of white
space or the end of the text. `Token.spelling` chooses one way. So the tokens of a text that is written token by token, with a blank
behind each, are the ones it was written from: `scanFrom_spell`.
-/

namespace EventScript

namespace Token

/-- A character of a string literal, as an escape where it needs one. -/
def escaped : Char → List Char
  | '\n' => ['\\', 'n']
  | '\r' => ['\\', 'r']
  | '\t' => ['\\', 't']
  | '\\' => ['\\', '\\']
  | '"' => ['\\', '"']
  | c => [c]

/-- The token as it is written, its floating-point literals by `decimal`. -/
def spelling (decimal : Float → String) : Token → List Char
  | .int n => Nat.toDigits 10 n.toInt.toNat
  | .float x => (decimal x).toList
  | .string s => '"' :: (s.toList.flatMap escaped ++ ['"'])
  | .ident n => n.toList
  | .command n => '#' :: n.toList
  | .keyword k => k.spelling.toList
  | .symbol s => s.spelling.toList

/-- The word is a decimal with a point that has this value. -/
def SpellsFloat (word : String) (x : Float) : Prop :=
  ∃ whole fraction, word.toList = whole ++ '.' :: fraction ∧ whole ≠ [] ∧ fraction ≠ [] ∧
    (∀ c ∈ whole ++ fraction, c.isDigit = true) ∧
    Float.ofScientific (digitsValue 10 (whole ++ fraction)) true fraction.length = x

/-- The characters of a string literal stand for these: each is written as itself, unless it is a quote or a backslash, or as an
escape. -/
inductive SpellsContent : List Char → List Char → Prop
  | nil : SpellsContent [] []
  | cons {c : Char} {word text content : List Char} (hword : word = escaped c ∨ word = [c] ∧ c ≠ '\\' ∧ c ≠ '"')
    (hrest : SpellsContent text content) : SpellsContent (word ++ text) (c :: content)

/-- The ways to write a token down. -/
inductive Spells : List Char → Token → Prop
  | symbol (s : Symbol) : Spells s.spelling.toList (.symbol s)
  /-- Each letter of a keyword is in either case. -/
  | keyword {word : List Char} (k : Keyword) (hword : word.map Char.toUpper = k.spelling.toList) : Spells word (.keyword k)
  | ident {c : Char} {rest : List Char} (hstart : isNameStart c = true) (hrest : ∀ d ∈ rest, isNameChar d = true)
    (hkeyword : ∀ k : Keyword, k.spelling.toList ≠ (c :: rest).map Char.toUpper) :
    Spells (c :: rest) (.ident (String.ofList (c :: rest)))
  | command {n : String} (hne : n.toList ≠ []) (hchars : ∀ c ∈ n.toList, isNameChar c = true) (hupper : Text.upper n = n) :
    Spells ('#' :: n.toList) (.command n)
  /-- Zeros may stand in front. -/
  | decimal {n : Int64} (hn : 0 ≤ n) (zeros : Nat) :
    Spells (List.replicate zeros '0' ++ Nat.toDigits 10 n.toInt.toNat) (.int n)
  /-- The letters among the digits are in either case. -/
  | hex {n : Int64} {x : Char} {word : List Char} (hn : 0 ≤ n) (hx : x = 'x' ∨ x = 'X') (zeros : Nat)
    (hword : word.map Char.toLower = List.replicate zeros '0' ++ Nat.toDigits 16 n.toInt.toNat) :
    Spells ('0' :: x :: word) (.int n)
  | float {word : String} {x : Float} (hword : SpellsFloat word x) : Spells word.toList (.float x)
  | string {text content : List Char} (htext : SpellsContent text content) :
    Spells ('"' :: (text ++ ['"'])) (.string (String.ofList content))

/-- The name is read back as itself. -/
def ReadsAsName (n : String) : Prop :=
  ∃ c rest, n.toList = c :: rest ∧ read c rest = .ok (.ident n, rest.length)

/-- Behind the sign of a command word the name is read back as itself. -/
def ReadsAsCommand (n : String) : Prop := readCommand n.toList = .ok (.command n, n.toList.length)

/-- The token can be written down: names read as themselves, integers are not negative, and `decimal` has a spelling for a
floating-point number. -/
def Writable (decimal : Float → String) : Token → Prop
  | .int n => 0 ≤ n
  | .float x => SpellsFloat (decimal x) x
  | .ident n => ReadsAsName n
  | .command n => ReadsAsCommand n
  | _ => True

/-- Nothing, or something that starts with white space. -/
def Gap (follow : List Char) : Prop := ∀ c ∈ follow.head?, isSeparator c = true

/-- The end of the text is a gap. -/
theorem Gap.nil : Gap [] := fun _ h => nomatch h

/-- There are four characters of white space. -/
theorem isSeparator_cases {c : Char} (h : isSeparator c = true) : c = ' ' ∨ c = '\t' ∨ c = '\r' ∨ c = '\n' := by
  simpa [isSeparator, or_assoc] using h

/-- A gap is the end of the text or begins with one of them. -/
theorem Gap.cases {follow : List Char} (h : Gap follow) :
    follow = [] ∨ ∃ rest, follow = ' ' :: rest ∨ follow = '\t' :: rest ∨ follow = '\r' :: rest ∨ follow = '\n' :: rest := by
  cases follow with
  | nil => exact .inl rfl
  | cons c rest =>
    refine .inr ⟨rest, ?_⟩
    rcases isSeparator_cases (h c rfl) with rfl | rfl | rfl | rfl <;> simp

/-- What holds of no white space stops at a gap. -/
theorem Gap.stops {p : Char → Bool} {follow : List Char} (h : Gap follow) (hp : ∀ c, isSeparator c = true → p c = false) :
    Text.Stops p follow :=
  fun c hc => hp c (h c hc)

/-- A run of characters of one kind ends at a gap. -/
theorem Gap.takeWhile_append {p : Char → Bool} {follow word : List Char} (h : Gap follow)
    (hp : ∀ c, isSeparator c = true → p c = false) (hword : ∀ c ∈ word, p c = true) :
    (word ++ follow).takeWhile p = word := by
  rw [(h.stops hp).takeWhile, List.takeWhile_eq_self_iff.mpr hword]

/-- A word in front of a gap is dropped whole, and nothing of the gap. -/
theorem Gap.dropWhile_append {p : Char → Bool} {follow word : List Char} (h : Gap follow)
    (hp : ∀ c, isSeparator c = true → p c = false) (hword : ∀ c ∈ word, p c = true) :
    (word ++ follow).dropWhile p = follow := by
  rw [(h.stops hp).dropWhile, List.dropWhile_eq_nil_iff.mpr hword, List.nil_append]

/-! ## Each kind of token -/

/-- Whether a symbol starts here depends on the first character alone. -/
theorem readSymbol?_eq_none {c : Char} {rest : List Char} (h : readSymbol? c rest = none) (rest' : List Char) :
    readSymbol? c rest' = none := by
  unfold readSymbol? at h ⊢
  split at h
  case h_25 => rfl
  all_goals
    repeat' split at h
    all_goals cases h

/-- White space is in no name. -/
theorem isNameChar_eq_false {c : Char} (h : isSeparator c = true) : isNameChar c = false := by
  rcases isSeparator_cases h with rfl | rfl | rfl | rfl <;> decide

/-- Nor is it in a number. -/
theorem isDigit_eq_false {c : Char} (h : isSeparator c = true) : c.isDigit = false := by
  rcases isSeparator_cases h with rfl | rfl | rfl | rfl <;> decide

/-- A symbol is read as the longest one that starts there, and white space lengthens none. -/
theorem readSymbol?_spelling (s : Symbol) {follow : List Char} (h : Gap follow) :
    ∃ c rest, s.spelling.toList = c :: rest ∧ readSymbol? c (rest ++ follow) = some (s, rest.length) := by
  rcases h.cases with rfl | ⟨more, rfl | rfl | rfl | rfl⟩ <;> cases s <;> exact ⟨_, _, rfl, rfl⟩

/-- A name or a command word is read up to the gap behind it. -/
theorem takeWhile_isNameChar {rest follow : List Char} (h : Gap follow)
    (hrest : (rest.takeWhile isNameChar).length = rest.length) :
    rest.takeWhile isNameChar = rest ∧ (rest ++ follow).takeWhile isNameChar = rest := by
  have hall : rest.takeWhile isNameChar = rest := (List.takeWhile_prefix _).eq_of_length hrest
  refine ⟨hall, h.takeWhile_append (fun c => isNameChar_eq_false) ?_⟩
  exact List.takeWhile_eq_self_iff.mp hall

/-- A word takes the characters that a name may hold. -/
theorem readWord_length {c : Char} {rest : List Char} {t : Token} {n : Nat} (hread : readWord c rest = (t, n)) :
    (rest.takeWhile isNameChar).length = n := by
  have hsnd : (readWord c rest).2 = (rest.takeWhile isNameChar).length := by
    simp only [readWord]
    split <;> rfl
  rw [← hsnd, hread]

/-- A word that is read in full is read in front of a gap as well. -/
theorem readWord_append {c : Char} {rest follow : List Char} {t : Token} (h : Gap follow)
    (hread : readWord c rest = (t, rest.length)) : readWord c (rest ++ follow) = (t, rest.length) := by
  obtain ⟨hall, happend⟩ := takeWhile_isNameChar h (readWord_length hread)
  rw [← hread]
  unfold readWord
  rw [happend, hall]

/-- What starts a word: the first letter of a name, and of nothing else. -/
structure StartsWord (c : Char) : Prop where
  symbol : readSymbol? c [] = none
  command : c ≠ '#'
  quote : c ≠ '"'
  digit : c.isDigit = false
  name : isNameStart c = true

/-- What starts a word is read as a word. -/
theorem StartsWord.read {c : Char} (h : StartsWord c) (rest : List Char) :
    Token.read c rest = .ok (readWord c rest) := by
  unfold Token.read
  rw [readSymbol?_eq_none h.symbol rest]
  simp [h.command, h.quote, h.digit, h.name]

/-- A property of the characters up to 127 can be tried out on each of them. -/
theorem of_ascii {P : Char → Prop} (h : ∀ n < 128, P (Char.ofNat n)) {c : Char} (hc : c.toNat < 128) : P c :=
  Char.ofNat_toNat c ▸ h _ hc

/-- Only ASCII has ASCII for its upper case, as far as single letters of ASCII are folded. -/
theorem ascii_of_toUpper {c : Char} (h : c.toUpper.toNat < 128) : c.toNat < 128 := by
  unfold Char.toUpper at h
  split at h
  next hc => exact Nat.lt_of_le_of_lt (UInt32.le_iff_toNat_le.mp hc.2) (by decide)
  next => exact h

/-- The same of the lower case. -/
theorem ascii_of_toLower {c : Char} (h : c.toLower.toNat < 128) : c.toNat < 128 := by
  unfold Char.toLower at h
  split at h
  next hc => exact Nat.lt_of_le_of_lt (UInt32.le_iff_toNat_le.mp hc.2) (by decide)
  next => exact h

/-- A letter of a keyword, in either case, may start a name. -/
theorem isNameStart_of_toUpper {c : Char} (h : c.toUpper.isUpper = true) : isNameStart c = true := by
  have hlt : c.toUpper.toNat < 128 :=
    Nat.lt_of_le_of_lt (UInt32.le_iff_toNat_le.mp (of_decide_eq_true h).2) (by decide)
  exact of_ascii (P := fun c => c.toUpper.isUpper = true → isNameStart c = true) (by decide +kernel) (ascii_of_toUpper hlt) h

/-- What may start a name may stand in it. -/
theorem isNameChar_of_isNameStart {c : Char} (h : isNameStart c = true) : isNameChar c = true := by
  unfold isNameStart at h
  unfold isNameChar Text.isAlphanumeric
  rcases Bool.or_eq_true_iff.mp h with h | h <;> simp [h]

/-- No symbol, quote or digit may start a name. -/
theorem startsWord_of_isNameStart {c : Char} (h : isNameStart c = true) : StartsWord c where
  symbol := by
    unfold readSymbol?
    split <;> first | rfl | exact absurd h (by decide)
  command := by
    rintro rfl
    exact absurd h (by decide)
  quote := by
    rintro rfl
    exact absurd h (by decide)
  digit := by
    refine Bool.eq_false_iff.mpr fun hdigit => ?_
    have hlt : c.toNat < 128 := by
      simp only [Char.isDigit, Bool.and_eq_true, decide_eq_true_eq] at hdigit
      exact Nat.lt_of_le_of_lt (UInt32.le_iff_toNat_le.mp hdigit.2) (by decide)
    exact of_ascii (P := fun c => c.isDigit = true → isNameStart c = true → False) (by decide +kernel) hlt hdigit h
  name := h

/-- A word that is a keyword in upper case is that keyword. -/
theorem ofWord?_of_upper {word : String} {k : Keyword} (h : word.map Char.toUpper = k.spelling) :
    Keyword.ofWord? word = some k := by
  unfold Keyword.ofWord?
  rw [h]
  cases k <;> decide

/-- The spelling of a keyword is in upper case. -/
theorem map_toUpper_spelling (k : Keyword) : k.spelling.toList.map Char.toUpper = k.spelling.toList := by
  cases k <;> decide

/-- A keyword is read as itself, whichever of its letters are in capitals. -/
theorem read_keyword {word : List Char} (k : Keyword) (hword : word.map Char.toUpper = k.spelling.toList) {follow : List Char}
    (h : Gap follow) : ∃ c rest, word = c :: rest ∧ read c (rest ++ follow) = .ok (.keyword k, rest.length) := by
  have hupper : ∀ d ∈ k.spelling.toList, d.isUpper = true := by
    cases k <;> exact List.all_eq_true.mp rfl
  have hletters : ∀ d ∈ word, isNameStart d = true := fun d hd =>
    isNameStart_of_toUpper (hupper _ (hword ▸ List.mem_map_of_mem hd))
  obtain ⟨c, rest, rfl⟩ : ∃ c rest, word = c :: rest := by
    refine List.exists_cons_of_ne_nil ?_
    rintro rfl
    cases k <;> cases hword
  have hrest : ∀ d ∈ rest, isNameChar d = true := fun d hd =>
    isNameChar_of_isNameStart (hletters d (List.mem_cons_of_mem c hd))
  have hkeyword : Keyword.ofWord? (String.ofList (c :: rest)) = some k := by
    refine ofWord?_of_upper (String.toList_injective ?_)
    rw [String.toList_map, String.toList_ofList, hword]
  refine ⟨c, rest, rfl, ?_⟩
  rw [(startsWord_of_isNameStart (hletters c List.mem_cons_self)).read]
  congr 1
  refine readWord_append h ?_
  unfold readWord
  dsimp only
  rw [List.takeWhile_eq_self_iff.mpr hrest, hkeyword]

/-- Behind the sign of a command nothing but a command is read. -/
theorem readCommand_kind {rest : List Char} {t : Token} {n : Nat} (h : readCommand rest = .ok (t, n)) :
    ∃ m, t = .command m := by
  simp only [readCommand] at h
  split_ifs at h
  cases h
  exact ⟨_, rfl⟩

/-- Where a number begins, nothing but an integer or a floating-point number is read. -/
theorem readNumber_kind {c : Char} {rest : List Char} {t : Token} {n : Nat} (h : readNumber c rest = .ok (t, n)) :
    (∃ m, t = .int m) ∨ ∃ x, t = .float x := by
  have hhex : ∀ more, readHex more = .ok (t, n) → ∃ m, t = .int m := by
    intro more hmore
    simp only [readHex] at hmore
    split_ifs at hmore
    cases hmore
    exact ⟨_, rfl⟩
  have hinteger : ∀ whole, readDecimal.integer whole = .ok (t, n) → ∃ m, t = .int m := by
    intro whole hwhole
    simp only [readDecimal.integer] at hwhole
    split_ifs at hwhole
    cases hwhole
    exact ⟨_, rfl⟩
  unfold readNumber at h
  split at h
  · exact .inl (hhex _ h)
  · exact .inl (hhex _ h)
  · simp only [readDecimal] at h
    split at h
    · split_ifs at h
      · cases h
        exact .inr ⟨_, rfl⟩
      · exact .inl (hinteger _ h)
    · exact .inl (hinteger _ h)

/-- What is read as a name starts as words do. -/
theorem startsWord_of_read {c : Char} {rest : List Char} {n : String} {k : Nat}
    (h : read c rest = .ok (.ident n, k)) : StartsWord c := by
  unfold read at h
  split at h
  case h_1 => cases h
  case h_2 hsymbol =>
    split_ifs at h with hcommand hquote hdigit hstart
    · obtain ⟨m, hm⟩ := readCommand_kind h
      cases hm
    · cases hstring : readString 1 rest <;> rw [hstring] at h <;> cases h
    · obtain ⟨m, hm⟩ | ⟨x, hx⟩ := readNumber_kind h
      · cases hm
      · cases hx
    · exact ⟨readSymbol?_eq_none hsymbol [], by simpa using hcommand, by simpa using hquote, by simpa using hdigit, hstart⟩

/-- Any other word is no keyword. -/
theorem ofWord?_eq_none {word : String} (h : ∀ k : Keyword, k.spelling.toList ≠ word.toList.map Char.toUpper) :
    Keyword.ofWord? word = none := by
  unfold Keyword.ofWord?
  refine List.find?_eq_none.mpr fun k _ hk => h k ?_
  rw [eq_of_beq hk, String.toList_map]

/-- The names that are read as themselves: those that start like words and spell no keyword. -/
theorem readsAsName_iff {n : String} {c : Char} {rest : List Char} (hn : n.toList = c :: rest) :
    ReadsAsName n ↔ StartsWord c ∧ (∀ d ∈ rest, isNameChar d = true) ∧ Keyword.ofWord? n = none := by
  constructor
  · rintro ⟨c', rest', hn', hread⟩
    obtain ⟨rfl, rfl⟩ : c = c' ∧ rest = rest' := List.cons.inj (hn.symm.trans hn')
    have hstart := startsWord_of_read hread
    rw [hstart.read] at hread
    have hword := Except.ok.inj hread
    have hall := (takeWhile_isNameChar Gap.nil (readWord_length hword)).1
    refine ⟨hstart, List.takeWhile_eq_self_iff.mp hall, ?_⟩
    simp only [readWord] at hword
    rw [hall, ← hn, String.ofList_toList] at hword
    split at hword
    · cases hword
    · assumption
  · rintro ⟨hstart, hrest, hkeyword⟩
    refine ⟨c, rest, hn, ?_⟩
    rw [hstart.read]
    congr 1
    simp only [readWord]
    rw [List.takeWhile_eq_self_iff.mpr hrest, ← hn, String.ofList_toList, hkeyword]

/-- No keyword has one letter. -/
theorem readsAsName_letter {n : String} {c : Char} (hn : n.toList = [c]) (hc : isNameStart c = true) : ReadsAsName n := by
  refine (readsAsName_iff hn).mpr ⟨startsWord_of_isNameStart hc, List.forall_mem_nil _, ofWord?_eq_none fun k hk => ?_⟩
  rw [hn] at hk
  have hlength := congrArg List.length hk
  cases k <;> cases hlength

/-- A name is read up to the gap behind it. -/
theorem read_name {c : Char} {rest : List Char} (hstart : isNameStart c = true) (hrest : ∀ d ∈ rest, isNameChar d = true)
    (hkeyword : ∀ k : Keyword, k.spelling.toList ≠ (c :: rest).map Char.toUpper) {follow : List Char} (h : Gap follow) :
    read c (rest ++ follow) = .ok (.ident (String.ofList (c :: rest)), rest.length) := by
  have hname : String.toList (String.ofList (c :: rest)) = c :: rest := String.toList_ofList
  have hword : Keyword.ofWord? (String.ofList (c :: rest)) = none := ofWord?_eq_none (by rwa [hname])
  rw [(startsWord_of_isNameStart hstart).read]
  congr 1
  refine readWord_append h ?_
  unfold readWord
  dsimp only
  rw [List.takeWhile_eq_self_iff.mpr hrest, hword]

/-- A name that is read as itself spells itself. -/
theorem ReadsAsName.spells {n : String} (h : ReadsAsName n) : Spells n.toList (.ident n) := by
  obtain ⟨c, rest, hn, -⟩ := id h
  obtain ⟨hstart, hrest, hkeyword⟩ := (readsAsName_iff hn).mp h
  have hspells : Spells (c :: rest) (.ident (String.ofList (c :: rest))) := by
    refine .ident hstart.name hrest fun k hk => ?_
    have hupper : n.map Char.toUpper = k.spelling := String.toList_injective (by rw [String.toList_map, hn, hk])
    cases (ofWord?_of_upper hupper).symm.trans hkeyword
  rwa [← hn, String.ofList_toList] at hspells

/-- A command word is read up to the gap behind it. -/
theorem read_command {n : String} (hne : n.toList ≠ []) (hchars : ∀ c ∈ n.toList, isNameChar c = true)
    (hupper : Text.upper n = n) {follow : List Char} (h : Gap follow) :
    read '#' (n.toList ++ follow) = .ok (.command n, n.toList.length) := by
  show readCommand (n.toList ++ follow) = _
  simp only [readCommand]
  rw [h.takeWhile_append (fun c => isNameChar_eq_false) hchars, if_neg (by simpa using hne), String.ofList_toList, hupper]

/-- So does the name of a command, behind its sign. -/
theorem ReadsAsCommand.spells {n : String} (h : ReadsAsCommand n) : Spells ('#' :: n.toList) (.command n) := by
  simp only [ReadsAsCommand, readCommand] at h
  split_ifs at h with hempty
  obtain ⟨hname, hlength⟩ := Prod.mk.inj (Except.ok.inj h)
  have hall : n.toList.takeWhile isNameChar = n.toList := (List.takeWhile_prefix _).eq_of_length hlength
  rw [hall] at hempty hname
  refine .command (by simpa using hempty) (List.takeWhile_eq_self_iff.mp hall) ?_
  rw [String.ofList_toList] at hname
  exact Token.command.inj hname

/-! ### Numbers and strings -/

/-- The digit of a number has that number for its value. -/
theorem digitValue_digitChar {d : Nat} (hd : d < 16) : digitValue (Nat.digitChar d) = d := by
  decide +revert

/-- Up to sixteen it is a hexadecimal digit. -/
theorem isHexDigit_digitChar {d : Nat} (hd : d < 16) : isHexDigit (Nat.digitChar d) = true := by
  decide +revert

/-- The digits of a number have its value, in any base up to sixteen. -/
theorem digitsValue_toDigits {b : Nat} (hb : 1 < b) (hb' : b ≤ 16) (n : Nat) : digitsValue b (Nat.toDigits b n) = n := by
  induction n using Nat.strongRecOn with
  | _ n ih =>
    rw [Nat.toDigits_eq_if hb]
    split
    next hn => simp [digitsValue, digitValue_digitChar (Nat.lt_of_lt_of_le hn hb')]
    next hn =>
      have hless : n / b < n := Nat.div_lt_self (by omega) hb
      have hlast : n % b < 16 := Nat.lt_of_lt_of_le (Nat.mod_lt n (by omega)) hb'
      have hdigits := ih (n / b) hless
      unfold digitsValue at hdigits ⊢
      rw [List.foldl_append, hdigits, List.foldl_cons, List.foldl_nil, digitValue_digitChar hlast, Nat.div_add_mod']

/-- All digits to base sixteen are hexadecimal ones. -/
theorem isHexDigit_of_mem_toDigits {n : Nat} {c : Char} (hc : c ∈ Nat.toDigits 16 n) : isHexDigit c = true := by
  induction n using Nat.strongRecOn with
  | _ n ih =>
    rw [Nat.toDigits_eq_if (by decide)] at hc
    split at hc
    next hn => exact List.mem_singleton.mp hc ▸ isHexDigit_digitChar hn
    next hn =>
      rcases List.mem_append.mp hc with hc | hc
      · exact ih (n / 16) (Nat.div_lt_self (by omega) (by decide)) hc
      · exact List.mem_singleton.mp hc ▸ isHexDigit_digitChar (Nat.mod_lt n (by decide))

/-- Zeros in front do not count. -/
theorem digitsValue_zeros (b zeros : Nat) (digits : List Char) :
    digitsValue b (List.replicate zeros '0' ++ digits) = digitsValue b digits := by
  induction zeros with
  | zero => rfl
  | succ zeros ih =>
    have hzero : 0 * b + digitValue '0' = 0 := by
      rw [Nat.zero_mul]
      rfl
    unfold digitsValue at ih ⊢
    rw [List.replicate_succ, List.cons_append, List.foldl_cons, hzero, ih]

/-- A hexadecimal digit is one in either case. -/
theorem isHexDigit_of_toLower {c : Char} (h : isHexDigit c.toLower = true) :
    isHexDigit c = true ∧ digitValue c.toLower = digitValue c := by
  have hlt : c.toLower.toNat < 128 := by
    simp only [isHexDigit, Char.isDigit, Bool.or_eq_true, Bool.and_eq_true, decide_eq_true_eq] at h
    rcases h with (h | h) | h
    all_goals exact Nat.lt_of_le_of_lt (UInt32.le_iff_toNat_le.mp h.2) (by decide)
  exact of_ascii (P := fun c => isHexDigit c.toLower = true → isHexDigit c = true ∧ digitValue c.toLower = digitValue c)
    (by decide +kernel) (ascii_of_toLower hlt) h

/-- Digits may be in either case. -/
theorem digitsValue_toLower {b : Nat} {digits : List Char} (h : ∀ d ∈ digits, digitValue d.toLower = digitValue d) :
    digitsValue b (digits.map Char.toLower) = digitsValue b digits := by
  unfold digitsValue
  rw [List.foldl_map]
  refine List.foldl_ext _ _ _ fun n d hd => ?_
  rw [h d hd]

/-- An integer that is not negative can be a literal. -/
theorem toNat_le_maxLiteral {n : Int64} (hn : 0 ≤ n) : n.toInt.toNat ≤ maxLiteral ∧ Int64.ofNat n.toInt.toNat = n := by
  have hnonneg : 0 ≤ n.toInt := by simpa using Int64.le_iff_toInt_le.mp hn
  have hmax : n.toInt ≤ 9223372036854775807 := n.toInt_le
  constructor
  · simp only [maxLiteral]
    omega
  · rw [← Int64.ofInt_eq_ofNat, Int.toNat_of_nonneg hnonneg, Int64.ofInt_toInt]

/-- A digit starts a number. -/
theorem read_digit {c : Char} (h : c.isDigit = true) (rest : List Char) : read c rest = readNumber c rest := by
  have hsymbol : readSymbol? c [] = none := by
    unfold readSymbol?
    split <;> first | rfl | cases h
  have hcommand : c ≠ '#' := by
    rintro rfl
    cases h
  have hquote : c ≠ '"' := by
    rintro rfl
    cases h
  unfold read
  rw [readSymbol?_eq_none hsymbol rest]
  simp [hcommand, hquote, h]

/-- Without an `x` behind the first digit a number is decimal. -/
theorem readNumber_decimal {c : Char} {rest : List Char} (hx : rest.head? ≠ some 'x') (hX : rest.head? ≠ some 'X') :
    readNumber c rest = readDecimal c rest := by
  unfold readNumber
  split
  · exact absurd rfl hx
  · exact absurd rfl hX
  · rfl

/-- No gap begins with anything but white space. -/
theorem Gap.head?_ne {c : Char} {follow : List Char} (h : Gap follow) (hc : isSeparator c = false) :
    follow.head? ≠ some c := by
  intro hhead
  rw [h c hhead] at hc
  cases hc

/-- Digits in front of a gap begin with no other character. -/
theorem digits_head?_ne {c : Char} {digits follow : List Char} (hc : c.isDigit = false)
    (hdigits : ∀ d ∈ digits, d.isDigit = true) (hfollow : follow.head? ≠ some c) :
    (digits ++ follow).head? ≠ some c := by
  cases digits with
  | nil => exact hfollow
  | cons d digits =>
    rintro ⟨⟩
    rw [hdigits c List.mem_cons_self] at hc
    cases hc

/-- A number in base ten is read, behind any number of zeros. -/
theorem read_decimal {n : Int64} (hn : 0 ≤ n) (zeros : Nat) {follow : List Char} (h : Gap follow) :
    ∃ c rest, List.replicate zeros '0' ++ Nat.toDigits 10 n.toInt.toNat = c :: rest ∧
      read c (rest ++ follow) = .ok (.int n, rest.length) := by
  have hne : List.replicate zeros '0' ++ Nat.toDigits 10 n.toInt.toNat ≠ [] :=
    List.append_ne_nil_of_right_ne_nil _ Nat.toDigits_ne_nil
  obtain ⟨c, rest, hdigits⟩ := List.exists_cons_of_ne_nil hne
  have hall : ∀ d ∈ c :: rest, d.isDigit = true := by
    intro d hd
    rcases List.mem_append.mp (hdigits ▸ hd) with hd | hd
    · rw [List.eq_of_mem_replicate hd]
      rfl
    · exact Nat.isDigit_of_mem_toDigits (by decide) (by decide) hd
  have hrest : ∀ d ∈ rest, d.isDigit = true := fun d hd => hall d (List.mem_cons_of_mem c hd)
  refine ⟨c, rest, hdigits, ?_⟩
  rw [read_digit (hall c List.mem_cons_self), readNumber_decimal
    (digits_head?_ne rfl hrest (h.head?_ne rfl)) (digits_head?_ne rfl hrest (h.head?_ne rfl))]
  have hpoint : ∀ d more, follow ≠ '.' :: d :: more := fun d more hfollow => h.head?_ne (c := '.') rfl (by rw [hfollow]; rfl)
  have hvalue : digitsValue 10 (c :: rest) = n.toInt.toNat := by
    rw [← hdigits, digitsValue_zeros, digitsValue_toDigits (by decide) (by decide)]
  obtain ⟨hbound, hback⟩ := toNat_le_maxLiteral hn
  simp only [readDecimal]
  rw [h.takeWhile_append (fun c => isDigit_eq_false) hrest, h.dropWhile_append (fun c => isDigit_eq_false) hrest]
  split
  · exact absurd rfl (hpoint _ _)
  · simp only [readDecimal.integer]
    rw [hvalue, if_pos hbound, hback]
    rfl

/-- White space is no hexadecimal digit. -/
theorem isHexDigit_eq_false {c : Char} (h : isSeparator c = true) : isHexDigit c = false := by
  rcases isSeparator_cases h with rfl | rfl | rfl | rfl <;> decide

/-- Behind a zero and an `x` hexadecimal digits are read. -/
theorem readNumber_hex {x : Char} (hx : x = 'x' ∨ x = 'X') (rest : List Char) : readNumber '0' (x :: rest) = readHex rest := by
  rcases hx with rfl | rfl <;> rfl

/-- A number in base sixteen is read, in either case and behind any number of zeros. -/
theorem read_hex {n : Int64} {x : Char} {word : List Char} (hn : 0 ≤ n) (hx : x = 'x' ∨ x = 'X') (zeros : Nat)
    (hword : word.map Char.toLower = List.replicate zeros '0' ++ Nat.toDigits 16 n.toInt.toNat) {follow : List Char}
    (h : Gap follow) : read '0' (x :: word ++ follow) = .ok (.int n, (x :: word).length) := by
  have hall : ∀ d ∈ word, isHexDigit d = true ∧ digitValue d.toLower = digitValue d := by
    intro d hd
    refine isHexDigit_of_toLower ?_
    rcases List.mem_append.mp (hword ▸ List.mem_map_of_mem hd) with hd | hd
    · rw [List.eq_of_mem_replicate hd]
      rfl
    · exact isHexDigit_of_mem_toDigits hd
  have hne : word ≠ [] := by
    rintro rfl
    exact absurd hword.symm (List.append_ne_nil_of_right_ne_nil _ Nat.toDigits_ne_nil)
  have hvalue : digitsValue 16 word = n.toInt.toNat := by
    rw [← digitsValue_toLower fun d hd => (hall d hd).2, hword, digitsValue_zeros, digitsValue_toDigits (by decide) (by decide)]
  obtain ⟨hbound, hback⟩ := toNat_le_maxLiteral hn
  rw [read_digit rfl, List.cons_append, readNumber_hex hx]
  simp only [readHex]
  rw [h.takeWhile_append (fun c => isHexDigit_eq_false) fun d hd => (hall d hd).1, hvalue,
    if_neg (by simpa using hne), if_pos hbound, hback, List.length_cons, Nat.add_comm]

/-- A decimal with a point is read as the number that it spells. -/
theorem read_float {word : String} {x : Float} (hword : SpellsFloat word x) {follow : List Char} (h : Gap follow) :
    ∃ c rest, word.toList = c :: rest ∧ read c (rest ++ follow) = .ok (.float x, rest.length) := by
  obtain ⟨whole, fraction, hspelling, hwhole, hfraction, hdigits, hvalue⟩ := hword
  obtain ⟨c, whole, rfl⟩ := List.exists_cons_of_ne_nil hwhole
  obtain ⟨d, fraction, rfl⟩ := List.exists_cons_of_ne_nil hfraction
  have hrest : ∀ e ∈ whole, e.isDigit = true := fun e he => hdigits e (by simp [he])
  have hd : d.isDigit = true := hdigits d (by simp)
  have hmore : ∀ e ∈ fraction, e.isDigit = true := fun e he => hdigits e (by simp [he])
  refine ⟨c, whole ++ '.' :: d :: fraction, hspelling, ?_⟩
  rw [List.append_assoc, read_digit (hdigits c (by simp)), readNumber_decimal
    (digits_head?_ne rfl hrest (by simp)) (digits_head?_ne rfl hrest (by simp))]
  simp only [readDecimal]
  rw [List.takeWhile_append_of_pos hrest, List.dropWhile_append_of_pos hrest]
  simp only [List.cons_append]
  rw [List.dropWhile_cons_of_neg (by decide), List.takeWhile_cons_of_neg (by decide)]
  split
  case h_1 heq =>
    cases heq
    rw [if_pos hd, h.takeWhile_append (fun c => isDigit_eq_false) hmore, List.append_nil, ← List.cons_append, hvalue]
    simp only [List.length_append, List.length_cons]
    congr 2
    omega
  case h_2 hne => exact absurd rfl (hne d _)

/-- A character is written as an escape that stands for it, or as itself. -/
theorem escaped_cases (c : Char) :
    (∃ e, escaped c = ['\\', e] ∧ escape? e = some c) ∨ escaped c = [c] ∧ c ≠ '\\' ∧ c ≠ '"' := by
  unfold escaped
  split
  case h_6 hslash hquote => exact .inr ⟨rfl, hslash, hquote⟩
  all_goals exact .inl ⟨_, rfl, rfl⟩

/-- Escapes spell the characters that they stand for. -/
theorem spellsContent_escaped (s : List Char) : SpellsContent (s.flatMap escaped) s := by
  induction s with
  | nil => exact .nil
  | cons c s ih => exact .cons (.inl rfl) ih

/-- What a string literal stands for is read back, up to the quote behind it. -/
theorem readString_content {text content : List Char} (h : SpellsContent text content) (follow : List Char) (taken : Nat) :
    readString taken (text ++ '"' :: follow) = .ok (content, taken + text.length + 1) := by
  induction h generalizing taken with
  | nil => simp [readString]
  | @cons c word text content hword _ ih =>
    have hcases : (∃ e, word = ['\\', e] ∧ escape? e = some c) ∨ word = [c] ∧ c ≠ '\\' ∧ c ≠ '"' := by
      rcases hword with rfl | hplain
      · exact escaped_cases c
      · exact .inr hplain
    rw [List.append_assoc]
    rcases hcases with ⟨e, rfl, he⟩ | ⟨rfl, hslash, hquote⟩
    · rw [List.cons_append, List.cons_append, List.nil_append, readString, he]
      simp only [ih, Except.map, List.length_cons, List.cons_append, List.nil_append]
      congr 2
      omega
    · rw [List.cons_append, List.nil_append, readString]
      · simp only [ih, Except.map, List.length_cons, List.cons_append, List.nil_append]
        congr 2
        omega
      all_goals simp_all

/-- A string literal is read up to its closing quote. -/
theorem read_string {text content : List Char} (h : SpellsContent text content) (follow : List Char) :
    read '"' (text ++ ['"'] ++ follow) = .ok (.string (String.ofList content), (text ++ ['"']).length) := by
  show (readString 1 _).map _ = _
  rw [List.append_assoc, List.cons_append, List.nil_append, readString_content h]
  simp only [Except.map, List.length_append, List.length_singleton]
  congr 2
  omega

/-! ## Tokens in a row -/

/-- A token is read back from any way to write it, in front of a gap. -/
theorem read_spells {word : List Char} {t : Token} (ht : Spells word t) {follow : List Char} (h : Gap follow) :
    ∃ c rest, word = c :: rest ∧ read c (rest ++ follow) = .ok (t, rest.length) := by
  cases ht with
  | symbol s =>
    obtain ⟨c, rest, hspelling, hread⟩ := readSymbol?_spelling s h
    refine ⟨c, rest, hspelling, ?_⟩
    unfold read
    rw [hread]
  | keyword k hword => exact read_keyword k hword h
  | ident hstart hrest hkeyword => exact ⟨_, _, rfl, read_name hstart hrest hkeyword h⟩
  | command hne hchars hupper => exact ⟨_, _, rfl, read_command hne hchars hupper h⟩
  | decimal hn zeros => exact read_decimal hn zeros h
  | hex hn hx zeros hword => exact ⟨_, _, rfl, read_hex hn hx zeros hword h⟩
  | float hword => exact read_float hword h
  | string htext => exact ⟨_, _, rfl, read_string htext follow⟩

/-- The way that is chosen for a token is one to write it. -/
theorem spells_spelling {decimal : Float → String} {t : Token} (ht : t.Writable decimal) : Spells (t.spelling decimal) t := by
  cases t with
  | int n => exact .decimal ht 0
  | float x => exact .float ht
  | string s =>
    have hstring := Spells.string (spellsContent_escaped s.toList)
    rwa [String.ofList_toList] at hstring
  | ident n => exact ht.spells
  | command n => exact ht.spells
  | keyword k => exact .keyword k (map_toUpper_spelling k)
  | symbol s => exact .symbol s

/-- A token that can be written is read back in front of a gap. -/
theorem read_spelling {decimal : Float → String} {t : Token} (ht : t.Writable decimal) {follow : List Char}
    (h : Gap follow) :
    ∃ c rest, t.spelling decimal = c :: rest ∧ read c (rest ++ follow) = .ok (t, rest.length) :=
  read_spells (spells_spelling ht) h

/-- What is read as a token is no white space. -/
theorem isSeparator_of_read {c : Char} {rest : List Char} {r : Token × Nat} (h : read c rest = .ok r) :
    isSeparator c = false := by
  refine Bool.eq_false_iff.mpr fun hc => ?_
  have herror : read c rest = .error ⟨.unexpectedCharacter c, 0⟩ := by
    rcases isSeparator_cases hc with rfl | rfl | rfl | rfl <;> rfl
  rw [herror] at h
  cases h

/-- What is read as a token up to a gap is no comment. -/
theorem commentLength?_of_read {c : Char} {rest follow : List Char} {t : Token} (h : Gap follow)
    (hread : read c (rest ++ follow) = .ok (t, rest.length)) : commentLength? c (rest ++ follow) = none := by
  by_cases hc : c = '/'
  · subst hc
    have hslash : read '/' (rest ++ follow) = .ok (.symbol .slash, 0) := rfl
    rw [hslash] at hread
    have hrest : rest = [] := List.length_eq_zero_iff.mp (congrArg Prod.snd (Except.ok.inj hread)).symm
    rw [hrest, List.nil_append]
    rcases h.cases with rfl | ⟨more, rfl | rfl | rfl | rfl⟩ <;> rfl
  · unfold commentLength?
    split
    · exact absurd rfl hc
    · exact absurd rfl hc
    · rfl

end Token

/-- Passing over characters only moves the place. -/
theorem scanFrom_pass (word rest : List Char) : ∀ p : Position,
    scanFrom word.length p (word ++ rest) = scanFrom 0 (p.past word) rest := by
  induction word with
  | nil => intro p; rfl
  | cons c word ih =>
    intro p
    rw [List.length_cons, List.cons_append, scanFrom, ih, Position.past_cons]

/-- The tokens, each with a blank behind it. -/
def spell (decimal : Float → String) (ts : List Token) : List Char := ts.flatMap fun t => t.spelling decimal ++ [' ']

/-- The text consists of these tokens. -/
def ConsistsOf (list : TokenList) (ts : List Token) : Prop :=
  list.tokens.map (·.token) = ts ∧ ∃ p, list.ending = .complete p

/-- Tokens that are written down are the tokens of the text. -/
theorem scanFrom_spell {decimal : Float → String} {ts : List Token} (hts : ∀ t ∈ ts, t.Writable decimal) :
    ∀ p : Position, ConsistsOf (scanFrom 0 p (spell decimal ts)) ts := by
  induction ts with
  | nil => exact fun p => ⟨rfl, p, rfl⟩
  | cons t ts ih =>
    intro p
    have hgap : Token.Gap (' ' :: spell decimal ts) := by
      rintro c ⟨⟩
      rfl
    obtain ⟨c, rest, hspelling, hread⟩ := Token.read_spelling (hts t List.mem_cons_self) hgap
    have htext : spell decimal (t :: ts) = c :: (rest ++ ' ' :: spell decimal ts) := by
      rw [spell, List.flatMap_cons, hspelling]
      simp [spell]
    obtain ⟨htokens, hending⟩ := ih (fun u hu => hts u (List.mem_cons_of_mem t hu)) (((p.advance c).past rest).advance ' ')
    have hscan : scanFrom 0 p (spell decimal (t :: ts)) =
        (scanFrom 0 (((p.advance c).past rest).advance ' ') (spell decimal ts)).cons ⟨t, p⟩ := by
      rw [htext, scanFrom, Token.isSeparator_of_read hread, Token.commentLength?_of_read hgap hread, hread]
      simp only [Bool.false_eq_true, if_false]
      rw [scanFrom_pass, scanFrom]
      rfl
    rw [hscan]
    exact ⟨congrArg (t :: ·) htokens, hending⟩

end EventScript
