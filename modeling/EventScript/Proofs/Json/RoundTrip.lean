import Mathlib.Data.List.TakeWhile
import EventScript.Json.Reader
import EventScript.Json.Writer
import EventScript.Proofs.Text.Runs

/-!
# JSON that is read back

What is written of an object is read back as that object: integers, strings, truth values and `null` as they were, and a finite
double if its own text is read back as that double. A double that is not finite is written as `null` (`Stored.filed`), and so it
is read as `null`. A number is read to its last character: in front of a text that does not go on with a number it is the same as
at the end of a text (`readNumber_append`).
-/

namespace EventScript

/-- What a file keeps of a stored value. There is no number for a double that is not finite. -/
def Stored.filed : Stored → Stored
  | float x => if (Binary.ofFloat? x).isSome then float x else null
  | s => s

/-- The text of a finite double is read as that double. -/
def Stored.Exact : Stored → Prop
  | float x => (Binary.ofFloat? x).isSome → Stored.ofJson? (Json.writeFloat x) = some (float x)
  | _ => True

namespace Json

variable {follow : List Char}

/-! ## Where a number ends -/

/-- A character that a number may hold. -/
def isNumberChar (c : Char) : Bool := isDigit c || c == '+' || c == '-' || c == '.' || c == 'e' || c == 'E'

/-- What is in no number is no digit. -/
theorem isDigit_eq_false {c : Char} (h : isNumberChar c = false) : isDigit c = false := by
  simp only [isNumberChar, Bool.or_eq_false_iff] at h
  exact h.1.1.1.1.1

/-- What was read, with more text behind it. -/
def inFrontOf {α : Type} (follow : List Char) (r : α × List Char) : α × List Char := (r.1, r.2 ++ follow)

/-- Digits are added up to where a number stops, whatever follows. -/
theorem addDigits_append (h : Text.Stops isNumberChar follow) (significand : Nat) (cs : List Char) :
    addDigits significand (cs ++ follow) =
      ((addDigits significand cs).1, (addDigits significand cs).2.1, (addDigits significand cs).2.2 ++ follow) := by
  induction cs generalizing significand with
  | nil =>
    cases follow with
    | nil => rfl
    | cons c follow => simp [addDigits, isDigit_eq_false (h c rfl)]
  | cons c cs ih =>
    rw [List.cons_append, addDigits, addDigits, ih]
    split <;> rfl

/-- Whether a digit comes next does not depend on what stands behind the number. -/
theorem startsWithDigit_append (h : Text.Stops isNumberChar follow) (cs : List Char) :
    startsWithDigit (cs ++ follow) = startsWithDigit cs := by
  cases cs with
  | cons c cs => rfl
  | nil =>
    cases follow with
    | nil => rfl
    | cons c follow => exact isDigit_eq_false (h c rfl)

/-- A double is made in front of any text. -/
theorem double_append (negative : Bool) (significand : Nat) (exponent : Int) (rest follow : List Char) :
    double negative significand exponent (rest ++ follow) =
      (double negative significand exponent rest).map (inFrontOf follow) := by
  unfold double
  rw [Option.map_map]
  rfl

/-- Reads the digits of an exponent, behind its sign. -/
def readUnsigned (negative : Bool) (significand : Nat) (power : Int) (down : Bool) (cs : List Char) :
    Option (Stored × List Char) :=
  let digits := cs.takeWhile isDigit
  let rest := cs.dropWhile isDigit
  if digits.isEmpty then none
  else
    let n := spelled 0 digits
    if n ≤ exponentLimit then
      double negative significand (clampExponent (if down then power - n else power + n)) rest
    else if significand != 0 && !down then none
    else some (.float (signed negative 0), rest)

/-- The digits of an exponent are read to their end. -/
theorem readUnsigned_append (h : Text.Stops isNumberChar follow) (negative : Bool) (significand : Nat) (power : Int)
    (down : Bool) (cs : List Char) :
    readUnsigned negative significand power down (cs ++ follow) =
      (readUnsigned negative significand power down cs).map (inFrontOf follow) := by
  have hdigits : Text.Stops isDigit follow := h.mono fun _ => isDigit_eq_false
  unfold readUnsigned
  simp only [hdigits.takeWhile, hdigits.dropWhile, double_append]
  split
  · rfl
  split
  · rfl
  split <;> rfl

/-- A reader that goes by whether the text begins with one of some characters of numbers reads to the last character of a number
if it does so either way. -/
theorem append_of_heads {read : List Char → Option (Stored × List Char)} (heads : List Char)
    (plain : List Char → Option (Stored × List Char)) (h : Text.Stops isNumberChar follow) (hheads : ∀ c ∈ heads, isNumberChar c = true)
    (hread : ∀ cs, Text.Stops heads.contains cs → read cs = plain cs)
    (hplain : ∀ cs, Text.Stops heads.contains cs → plain (cs ++ follow) = (plain cs).map (inFrontOf follow))
    (hhead : ∀ c ∈ heads, ∀ cs, read (c :: (cs ++ follow)) = (read (c :: cs)).map (inFrontOf follow)) (cs : List Char) :
    read (cs ++ follow) = (read cs).map (inFrontOf follow) := by
  by_cases hcs : Text.Stops heads.contains cs
  · have hfollow : Text.Stops heads.contains follow := h.mono fun c hc => by
      refine Bool.eq_false_iff.mpr fun hmem => ?_
      cases hc.symm.trans (hheads c (List.contains_iff_mem.mp hmem))
    rw [hread _ (hfollow.append hcs), hplain cs hcs, hread cs hcs]
  · obtain ⟨c, rest, rfl, hc⟩ := Text.not_stops hcs
    exact hhead c (List.contains_iff_mem.mp hc) rest

/-- So is an exponent with its sign. -/
theorem readExponent_append (h : Text.Stops isNumberChar follow) (negative : Bool) (significand : Nat) (power : Int)
    (cs : List Char) :
    readExponent negative significand power (cs ++ follow) =
      (readExponent negative significand power cs).map (inFrontOf follow) := by
  refine append_of_heads ['+', '-'] (readUnsigned negative significand power false) h (by simp [isNumberChar, isDigit]) (fun cs hcs => ?_)
    (fun cs _ => readUnsigned_append h negative significand power false cs) ?_ cs
  · unfold readExponent
    split
    next heq =>
      split at heq
      · cases hcs '+' rfl
      · cases hcs '-' rfl
      · cases heq
        rfl
  · simp only [List.forall_mem_cons, List.not_mem_nil]
    exact ⟨readUnsigned_append h negative significand power false,
      readUnsigned_append h negative significand power true, nofun⟩

/-- So is an `e` and what follows it. -/
theorem readPower_append (h : Text.Stops isNumberChar follow) (negative : Bool) (significand : Nat) (power : Int)
    (cs : List Char) :
    readPower negative significand power (cs ++ follow) =
      (readPower negative significand power cs).map (inFrontOf follow) := by
  refine append_of_heads ['e', 'E'] (double negative significand power) h (by simp [isNumberChar, isDigit]) (fun cs hcs => ?_)
    (fun cs _ => double_append negative significand power cs follow) ?_ cs
  · unfold readPower
    split
    · cases hcs 'e' rfl
    · cases hcs 'E' rfl
    · rfl
  · simp only [List.forall_mem_cons, List.not_mem_nil]
    exact ⟨readExponent_append h negative significand power, readExponent_append h negative significand power, nofun⟩

/-- So is a fraction. -/
theorem readFraction_append (h : Text.Stops isNumberChar follow) (negative : Bool) (significand : Nat) (power : Int)
    (cs : List Char) :
    readFraction negative significand power (cs ++ follow) =
      (readFraction negative significand power cs).map (inFrontOf follow) := by
  have hdigits : Text.Stops isDigit follow := h.mono fun _ => isDigit_eq_false
  unfold readFraction
  simp only [addDigits_append h, startsWithDigit_append h, hdigits.dropWhile, readPower_append h]
  split
  · rfl
  split <;> rfl

/-- So is what follows the first digits. -/
theorem readTail_append (h : Text.Stops isNumberChar follow) (negative : Bool) (significand : Nat) (cs : List Char) :
    readTail negative significand (cs ++ follow) = (readTail negative significand cs).map (inFrontOf follow) := by
  refine append_of_heads ['.', 'e', 'E'] (fun cs => some (whole negative significand, cs)) h (by simp [isNumberChar, isDigit])
    (fun cs hcs => ?_) (fun cs _ => rfl) ?_ cs
  · unfold readTail
    split
    · cases hcs '.' rfl
    · cases hcs 'e' rfl
    · cases hcs 'E' rfl
    · rfl
  · simp only [List.forall_mem_cons, List.not_mem_nil]
    exact ⟨readFraction_append h negative significand 0, readExponent_append h negative significand 0,
      readExponent_append h negative significand 0, nofun⟩

/-- The same behind more digits than an integer has. -/
theorem readLongTail_append (h : Text.Stops isNumberChar follow) (negative : Bool) (significand power : Nat)
    (cs : List Char) :
    readLongTail negative significand power (cs ++ follow) =
      (readLongTail negative significand power cs).map (inFrontOf follow) := by
  refine append_of_heads ['.'] (readPower negative significand power) h (by simp [isNumberChar, isDigit]) (fun cs hcs => ?_)
    (fun cs _ => readPower_append h negative significand power cs) ?_ cs
  · unfold readLongTail
    split
    · cases hcs '.' rfl
    · rfl
  · simp only [List.forall_mem_cons, List.not_mem_nil]
    exact ⟨readFraction_append h negative significand power, nofun⟩

/-- Reads the magnitude of a number that does not begin with a zero. -/
def readNonzero (negative : Bool) (cs : List Char) : Option (Stored × List Char) :=
  let (significand, count, rest) := addDigits 0 cs
  if count = 0 then none
  else if startsWithDigit rest then
    readLongTail negative significand (rest.takeWhile isDigit).length (rest.dropWhile isDigit)
  else readTail negative significand rest

/-- A number that begins with no zero is read to its end. -/
theorem readNonzero_append (h : Text.Stops isNumberChar follow) (negative : Bool) (cs : List Char) :
    readNonzero negative (cs ++ follow) = (readNonzero negative cs).map (inFrontOf follow) := by
  have hdigits : Text.Stops isDigit follow := h.mono fun _ => isDigit_eq_false
  unfold readNonzero
  simp only [addDigits_append h, startsWithDigit_append h, hdigits.takeWhile, hdigits.dropWhile, readLongTail_append h,
    readTail_append h]
  split
  · rfl
  split <;> rfl

/-- A number that begins with no zero is read as such. -/
theorem readMagnitude_of_stops {cs : List Char} (h : Text.Stops ['0'].contains cs) (negative : Bool) :
    readMagnitude negative cs = readNonzero negative cs := by
  unfold readMagnitude
  split
  · cases h '0' rfl
  · rfl

/-- A number without a sign is read to its end. -/
theorem readMagnitude_append (h : Text.Stops isNumberChar follow) (negative : Bool) (cs : List Char) :
    readMagnitude negative (cs ++ follow) = (readMagnitude negative cs).map (inFrontOf follow) := by
  refine append_of_heads ['0'] (readNonzero negative) h (by simp [isNumberChar, isDigit]) (fun cs hcs => readMagnitude_of_stops hcs negative)
    (fun cs _ => readNonzero_append h negative cs) ?_ cs
  simp only [List.forall_mem_cons, List.not_mem_nil]
  refine ⟨fun cs => ?_, nofun⟩
  unfold readMagnitude
  simp only [startsWithDigit_append h, readTail_append h]
  split <;> rfl

/-- Without a sign a number is its magnitude. -/
theorem readNumber_of_stops {cs : List Char} (h : Text.Stops ['-'].contains cs) : readNumber cs = readMagnitude false cs := by
  unfold readNumber
  split
  · cases h '-' rfl
  · rfl

/-- A number is read up to its last character. -/
theorem readNumber_append (h : Text.Stops isNumberChar follow) (cs : List Char) :
    readNumber (cs ++ follow) = (readNumber cs).map (inFrontOf follow) := by
  refine append_of_heads ['-'] (readMagnitude false) h (by simp [isNumberChar, isDigit]) (fun cs hcs => readNumber_of_stops hcs)
    (fun cs _ => readMagnitude_append h false cs) ?_ cs
  simp only [List.forall_mem_cons, List.not_mem_nil]
  exact ⟨readMagnitude_append h true, nofun⟩

/-! ## Scalars -/

/-- Where no digit comes next, none is added. -/
theorem addDigits_of_stops {cs : List Char} (h : Text.Stops isDigit cs) (significand : Nat) :
    addDigits significand cs = (significand, 0, cs) := by
  cases cs with
  | nil => rfl
  | cons c cs => simp [addDigits, h c rfl]

/-- A number begins with a minus sign or with a digit. -/
theorem startsNumber_of_readNumber {cs : List Char} {r : Stored × List Char} (h : readNumber cs = some r) :
    ∃ c rest, cs = c :: rest ∧ (c = '-' ∨ isDigit c = true) := by
  by_cases hminus : Text.Stops ['-'].contains cs
  · by_cases hdigit : Text.Stops isDigit cs
    · have hzero : Text.Stops ['0'].contains cs := hdigit.mono fun c hc => by
        refine Bool.eq_false_iff.mpr fun hmem => ?_
        rw [List.mem_singleton.mp (List.contains_iff_mem.mp hmem)] at hc
        cases hc
      rw [readNumber_of_stops hminus, readMagnitude_of_stops hzero, readNonzero, addDigits_of_stops hdigit] at h
      cases h
    · obtain ⟨c, rest, rfl, hc⟩ := Text.not_stops hdigit
      exact ⟨c, rest, rfl, .inr hc⟩
  · obtain ⟨c, rest, rfl, hc⟩ := Text.not_stops hminus
    exact ⟨c, rest, rfl, .inl (List.mem_singleton.mp (List.contains_iff_mem.mp hc))⟩

/-- What is read as a number is no other scalar. -/
theorem readScalar_of_readNumber {cs : List Char} {r : Stored × List Char} (h : readNumber cs = some r) :
    readScalar cs = some r := by
  obtain ⟨c, rest, rfl, hc⟩ := startsNumber_of_readNumber h
  unfold readScalar
  split
  case h_5 => exact h
  all_goals
    next heq =>
      cases heq
      rcases hc with hc | hc <;> cases hc

/-- A scalar that is a double is a number. -/
theorem readNumber_of_readScalar {cs : List Char} {x : Float} {rest : List Char}
    (h : readScalar cs = some (.float x, rest)) : readNumber cs = some (.float x, rest) := by
  unfold readScalar at h
  split at h
  case h_5 => exact h
  case h_4 rest =>
    cases hr : readString rest <;> rw [hr] at h <;> cases h
  all_goals cases h

/-- Digits that follow make a number no smaller. -/
theorem le_spelled (n : Nat) (digits : List Char) : n ≤ spelled n digits := by
  induction digits generalizing n with
  | nil => exact Nat.le_refl n
  | cons c digits ih => exact Nat.le_trans (by omega) (ih (10 * n + digitValue c))

/-- Digits are added as long as there is room for the number that they spell. -/
theorem addDigits_digits {digits : List Char} (hdigits : ∀ c ∈ digits, isDigit c = true) {start : Nat}
    (h : spelled start digits < UInt64.size) : addDigits start digits = (spelled start digits, digits.length, []) := by
  induction digits generalizing start with
  | nil => rfl
  | cons c digits ih =>
    have hroom : 10 * start + digitValue c < UInt64.size := Nat.lt_of_le_of_lt (le_spelled _ digits) h
    rw [addDigits, hdigits c List.mem_cons_self, decide_eq_true hroom, Bool.and_self, if_pos rfl,
      ih (fun d hd => hdigits d (List.mem_cons_of_mem c hd)) h]
    rfl

/-- A number in base ten is made of digits. -/
theorem isDigit_of_mem_toDigits {n : Nat} {c : Char} (hc : c ∈ Nat.toDigits 10 n) : isDigit c = true :=
  Nat.isDigit_of_mem_toDigits (by decide) (by decide) hc

/-- The digits of a number spell it. -/
theorem spelled_toDigits (n : Nat) : spelled 0 (Nat.toDigits 10 n) = n := by
  have hspelled : spelled 0 (Nat.toDigits 10 n) = Nat.ofDigitChars 10 (Nat.toDigits 10 n) 0 :=
    Nat.ofDigitChars_eq_foldl.symm
  exact hspelled.trans Nat.ofDigitChars_ten_toDigits

/-- A positive number is not written with a zero in front. -/
theorem toDigits_stops {n : Nat} (hn : 0 < n) : Text.Stops ['0'].contains (Nat.toDigits 10 n) := by
  induction n using Nat.strongRecOn with
  | ind n ih =>
    rw [Nat.toDigits_eq_if (by decide)]
    split
    next hlt =>
      have hdigit : ∀ d < 10, 0 < d → ['0'].contains d.digitChar = false := by decide
      exact .cons (hdigit n hlt hn) []
    next hge =>
      have hrest := ih (n / 10) (by omega) (by omega)
      cases hdigits : Nat.toDigits 10 (n / 10) with
      | nil => exact absurd hdigits Nat.toDigits_ne_nil
      | cons c digits =>
        rw [hdigits] at hrest
        exact .cons (hrest c rfl) _

/-- The digits of a number that fits the significand are read as that number. -/
theorem readMagnitude_toDigits {n : Nat} (h : n < UInt64.size) (negative : Bool) :
    readMagnitude negative (Nat.toDigits 10 n) = some (whole negative n, []) := by
  rcases Nat.eq_zero_or_pos n with rfl | hn
  · rfl
  · have hadd : addDigits 0 (Nat.toDigits 10 n) = (n, (Nat.toDigits 10 n).length, []) := by
      rw [addDigits_digits (fun _ => isDigit_of_mem_toDigits) (by rwa [spelled_toDigits]), spelled_toDigits]
    have hcount : (Nat.toDigits 10 n).length ≠ 0 := by simp
    rw [readMagnitude_of_stops (toDigits_stops hn), readNonzero, hadd]
    simp only [if_neg hcount]
    rfl

/-- An integer is read as that integer. -/
theorem readNumber_int (n : Int64) : readNumber (toString n.toInt).toList = some (.int n, []) := by
  have hlow := n.le_toInt
  have hhigh := n.toInt_lt
  rw [Int.toString_eq_repr, Int.repr_eq_if]
  split
  next hn =>
    have hsize : n.toInt.toNat < UInt64.size := by
      unfold UInt64.size
      omega
    have hstops : Text.Stops ['-'].contains (Nat.toDigits 10 n.toInt.toNat) := fun c hc => by
      have hdigit := isDigit_of_mem_toDigits (List.mem_of_mem_head? hc)
      refine Bool.eq_false_iff.mpr fun hmem => ?_
      rw [List.mem_singleton.mp (List.contains_iff_mem.mp hmem)] at hdigit
      cases hdigit
    have hfits : (n.toInt.toNat : Int) ≤ Int64.maxValue.toInt := by
      rw [Int.toNat_of_nonneg hn]
      exact n.toInt_le
    rw [Nat.repr_eq_ofList_toDigits, String.toList_ofList, readNumber_of_stops hstops, readMagnitude_toDigits hsize, whole,
      if_neg Bool.false_ne_true, if_pos hfits, Int.toNat_of_nonneg hn, Int64.ofInt_toInt]
  next hn =>
    have hsize : (-n.toInt).toNat < UInt64.size := by
      unfold UInt64.size
      omega
    have hnegated : -((-n.toInt).toNat : Int) = n.toInt := by omega
    have hfits : 0 < (-n.toInt).toNat ∧ Int64.minValue.toInt ≤ -((-n.toInt).toNat : Int) := by
      rw [hnegated]
      exact ⟨by omega, n.minValue_le_toInt⟩
    have htext : ("-" ++ (-n.toInt).toNat.repr).toList = '-' :: Nat.toDigits 10 (-n.toInt).toNat := by
      rw [String.toList_append]
      show '-' :: (-n.toInt).toNat.repr.toList = _
      rw [Nat.repr_eq_ofList_toDigits, String.toList_ofList]
    rw [htext, readNumber, readMagnitude_toDigits hsize, whole, if_pos rfl, if_pos hfits, hnegated, Int64.ofInt_toInt]

/-- The four hexadecimal digits of a unit. -/
theorem readString_unit {a b c d : Char} {u : Nat} (h : unit? a b c d = some u) (hsingle : u < 0xD800) (rest : List Char) :
    readString ('\\' :: 'u' :: a :: b :: c :: d :: rest) = consChar (Char.ofNat u) (readString rest) := by
  have hleading : isLeading u = false := by
    simp only [isLeading, Bool.and_eq_false_iff, decide_eq_false_iff_not]
    omega
  have htrailing : isTrailing u = false := by
    simp only [isTrailing, Bool.and_eq_false_iff, decide_eq_false_iff_not]
    omega
  rw [readString.eq_def]
  split
  case h_3 heq =>
    cases heq
    simp only [h, hleading, htrailing, Bool.false_eq_true, if_false]
  case h_4 heq =>
    cases heq
    simp only [h, hleading, htrailing, Bool.false_eq_true, if_false, Bool.or_self]
  case h_5 hne heq =>
    cases heq
    exact absurd rfl (hne _ _ _ _ _ rfl)
  case h_6 hne heq =>
    cases heq
    exact absurd rfl (hne _ _ rfl)
  all_goals
    next heq => cases heq

/-- A control character is written with the four digits of its own unit. -/
theorem readString_fourDigits {n : Nat} (h : n < 0x20) (rest : List Char) :
    readString ('\\' :: 'u' :: ((fourDigits n).toList ++ rest)) = consChar (Char.ofNat n) (readString rest) := by
  have hall : ∀ n < 0x20, (fourDigits n).toList.length = 4 ∧ Text.hexValue? 0 (fourDigits n).toList = some n := by
    decide +kernel
  obtain ⟨hlength, hvalue⟩ := hall n h
  match hdigits : (fourDigits n).toList, hlength with
  | [a, b, c, d], _ =>
    rw [hdigits] at hvalue
    exact readString_unit hvalue (by omega) rest

/-- An escape is read as the character that it stands for. -/
theorem readString_escape {c e : Char} (h : escaped? c = some e) (rest : List Char) :
    readString ('\\' :: c :: rest) = consChar e (readString rest) := by
  rw [readString.eq_def]
  split
  case h_5 heq =>
    cases heq
    rw [h]
  case h_6 hne heq =>
    cases heq
    exact absurd rfl (hne _ _ rfl)
  case h_3 heq =>
    cases heq
    cases h
  case h_4 heq =>
    cases heq
    cases h
  all_goals
    next heq => cases heq

/-- Any other character is read as itself. -/
theorem readString_plain {c : Char} (hspace : ¬c.toNat < 0x20) (hquote : c ≠ '"') (hslash : c ≠ '\\') (rest : List Char) :
    readString (c :: rest) = consChar c (readString rest) := by
  rw [readString.eq_def]
  split
  case h_6 heq =>
    cases heq
    simp [hspace, hslash]
  case h_2 heq =>
    cases heq
    exact absurd rfl hquote
  case h_1 heq => cases heq
  all_goals
    next heq =>
      cases heq
      exact absurd rfl hslash

/-- A character is written as an escape that stands for it, with the digits of its unit, or as itself. -/
theorem writeChar_cases (c : Char) :
    (∃ e, (writeChar c).toList = ['\\', e] ∧ escaped? e = some c) ∨
    c.toNat < 0x20 ∧ (writeChar c).toList = '\\' :: 'u' :: (fourDigits c.toNat).toList ∨
    ¬c.toNat < 0x20 ∧ c ≠ '"' ∧ c ≠ '\\' ∧ (writeChar c).toList = [c] := by
  unfold writeChar
  simp only [beq_iff_eq]
  iterate 7
    split
    next hc => exact .inl ⟨_, rfl, hc ▸ rfl⟩
  split
  next hcontrol => exact .inr (.inl ⟨hcontrol, String.toList_append⟩)
  next hquote hslash _ _ _ _ _ hcontrol => exact .inr (.inr ⟨hcontrol, hquote, hslash, String.toList_singleton c⟩)

/-- A character that is written in a string is read back. -/
theorem readString_writeChar (c : Char) (rest : List Char) :
    readString ((writeChar c).toList ++ rest) = consChar c (readString rest) := by
  rcases writeChar_cases c with ⟨e, htext, he⟩ | ⟨hcontrol, htext⟩ | ⟨hcontrol, hquote, hslash, htext⟩ <;> rw [htext]
  · exact readString_escape he rest
  · have hread := readString_fourDigits hcontrol rest
    rwa [Char.ofNat_toNat] at hread
  · exact readString_plain hcontrol hquote hslash rest

/-- A string that was written is read to its closing quote. -/
theorem readString_join (content follow : List Char) :
    readString ((String.join (content.map writeChar)).toList ++ '"' :: follow) = some (content, follow) := by
  rw [String.toList_join]
  induction content with
  | nil => rfl
  | cons c content ih =>
    rw [List.map_cons, List.flatMap_cons, List.append_assoc, readString_writeChar, ih]
    rfl

/-- A string is read back, whatever follows it. -/
theorem readString_writeString (s : String) (follow : List Char) :
    ∃ body, (writeString s).toList ++ follow = '"' :: body ∧ readString body = some (s.toList, follow) := by
  refine ⟨(String.join (s.toList.map writeChar)).toList ++ '"' :: follow, ?_, readString_join s.toList follow⟩
  simp [writeString]

/-- Space is skipped up to what is none, whatever follows. -/
theorem skipSpace_append {cs : List Char} (hcs : skipSpace cs ≠ []) (follow : List Char) :
    skipSpace (cs ++ follow) = skipSpace cs ++ follow := by
  unfold skipSpace at *
  rw [List.dropWhile_append, if_neg (by rwa [List.isEmpty_iff])]

/-- A whole text is what is read of it if nothing but white space is left. -/
theorem whole?_eq_some {α : Type} {read : List Char → Option (α × List Char)} {text : String} {a : α}
    (h : whole? read text = some a) :
    ∃ rest, read (skipSpace text.toList) = some (a, rest) ∧ ∀ c ∈ rest, isSpace c = true := by
  unfold whole? at h
  split at h
  next b rest hread =>
    split at h
    next hempty =>
      cases h
      exact ⟨rest, hread, List.dropWhile_eq_nil_iff.mp (List.isEmpty_iff.mp hempty)⟩
    next => cases h
  next => cases h

/-- No white space stands in front of a number. -/
theorem skipSpace_of_readNumber {cs : List Char} {r : Stored × List Char} (h : readNumber cs = some r) : skipSpace cs = cs := by
  obtain ⟨c, rest, rfl, hc⟩ := startsNumber_of_readNumber h
  refine List.dropWhile_cons_of_neg fun hspace => ?_
  simp only [isSpace, Bool.or_eq_true, beq_iff_eq] at hspace
  rcases hspace with ((rfl | rfl) | rfl) | rfl <;> rcases hc with hc | hc <;> cases hc

/-- A text that holds a number is read as that number, also in front of other text. -/
theorem readScalar_number (h : Text.Stops isNumberChar follow) {cs : List Char} {r : Stored × List Char}
    (hread : readNumber (skipSpace cs) = some r) : readScalar (skipSpace (cs ++ follow)) = some (inFrontOf follow r) := by
  obtain ⟨c, rest, htext, -⟩ := startsNumber_of_readNumber hread
  rw [skipSpace_append (by rw [htext]; exact List.cons_ne_nil c rest)]
  refine readScalar_of_readNumber ?_
  rw [readNumber_append h, hread]
  rfl

/-- What a file keeps of a value is read from its text, also in front of other text. -/
theorem readScalar_json {s : Stored} (hs : s.Exact) (h : Text.Stops isNumberChar follow) :
    ∃ space, (∀ c ∈ space, isSpace c = true) ∧
      readScalar (skipSpace (s.json.toList ++ follow)) = some (s.filed, space ++ follow) := by
  cases s with
  | null => exact ⟨[], nofun, rfl⟩
  | bool b => cases b <;> exact ⟨[], nofun, rfl⟩
  | int n =>
    have hread := readNumber_int n
    exact ⟨[], nofun, readScalar_number h ((congrArg readNumber (skipSpace_of_readNumber hread)).trans hread)⟩
  | float x =>
    show ∃ space, _ ∧ readScalar (skipSpace ((writeFloat x).toList ++ follow)) = _
    by_cases hfinite : (Binary.ofFloat? x).isSome
    · obtain ⟨space, hread, hspace⟩ := whole?_eq_some (hs hfinite)
      refine ⟨space, hspace, ?_⟩
      rw [readScalar_number h (readNumber_of_readScalar hread), Stored.filed, if_pos hfinite]
      rfl
    · rw [writeFloat, if_neg hfinite, Stored.filed, if_neg hfinite]
      exact ⟨[], nofun, rfl⟩
  | string s =>
    obtain ⟨body, htext, hbody⟩ := readString_writeString s follow
    refine ⟨[], nofun, ?_⟩
    show readScalar (skipSpace ((writeString s).toList ++ follow)) = _
    rw [htext]
    show (readString body).map _ = _
    rw [hbody]
    simp [Stored.filed]

/-! ## Objects -/

/-- A member stands on its line behind two spaces. -/
theorem skipSpace_writeMember (m : String × Stored) (follow : List Char) :
    skipSpace ((writeMember m).toList ++ follow) =
      (writeString m.1).toList ++ (':' :: ' ' :: (m.2.json.toList ++ follow)) := by
  have htext : (writeMember m).toList ++ follow =
      ' ' :: ' ' :: ((writeString m.1).toList ++ (':' :: ' ' :: (m.2.json.toList ++ follow))) := by
    simp [writeMember]
  obtain ⟨body, hbody, -⟩ := readString_writeString m.1 (':' :: ' ' :: (m.2.json.toList ++ follow))
  rw [htext, hbody]
  rfl

/-- A member is read back, with what a file keeps of its value. -/
theorem readMember_writeMember {m : String × Stored} (hm : m.2.Exact) (h : Text.Stops isNumberChar follow) :
    ∃ space, (∀ c ∈ space, isSpace c = true) ∧
      readMember (skipSpace ((writeMember m).toList ++ follow)) = some ((m.1, m.2.filed), space ++ follow) := by
  obtain ⟨space, hspace, hread⟩ := readScalar_json hm h
  obtain ⟨body, htext, hbody⟩ := readString_writeString m.1 (':' :: ' ' :: (m.2.json.toList ++ follow))
  refine ⟨space, hspace, ?_⟩
  have hcolon : skipSpace (':' :: ' ' :: (m.2.json.toList ++ follow)) = ':' :: ' ' :: (m.2.json.toList ++ follow) := rfl
  have hblank : skipSpace (' ' :: (m.2.json.toList ++ follow)) = skipSpace (m.2.json.toList ++ follow) := rfl
  rw [skipSpace_writeMember, htext]
  unfold readMember
  simp only [hbody, hcolon, hblank, hread, Option.map_some, String.ofList_toList]

/-- The lines of members, and the closing brace on the next one. -/
def memberLines (ms : List (String × Stored)) : List Char :=
  [',', '\n'].intercalate (ms.map fun m => (writeMember m).toList) ++ ['\n', '\x7d']

/-- The last member is followed by the closing brace on a line of its own. -/
theorem memberLines_singleton (m : String × Stored) : memberLines [m] = (writeMember m).toList ++ ['\n', '\x7d'] := by
  simp [memberLines]

/-- Any other one is followed by a comma and the next line. -/
theorem memberLines_cons (m n : String × Stored) (ms : List (String × Stored)) :
    memberLines (m :: n :: ms) = (writeMember m).toList ++ (',' :: '\n' :: memberLines (n :: ms)) := by
  simp [memberLines, List.intercalate_cons_cons]

/-- Behind the space a member begins with the quote of its name. -/
theorem skipSpace_memberLines (m : String × Stored) (ms : List (String × Stored)) :
    ∃ body, skipSpace (memberLines (m :: ms)) = '"' :: body := by
  obtain ⟨behind, hbehind⟩ : ∃ behind, memberLines (m :: ms) = (writeMember m).toList ++ behind := by
    cases ms with
    | nil => exact ⟨_, memberLines_singleton m⟩
    | cons n ms => exact ⟨_, memberLines_cons m n ms⟩
  obtain ⟨body, hbody, -⟩ := readString_writeString m.1 (':' :: ' ' :: (m.2.json.toList ++ behind))
  exact ⟨body, by rw [hbehind, skipSpace_writeMember, hbody]⟩

/-- Each member takes at least a character. -/
theorem length_le_memberLines (ms : List (String × Stored)) : ms.length ≤ (skipSpace (memberLines ms)).length := by
  induction ms with
  | nil => exact Nat.zero_le _
  | cons m rest ih =>
    cases rest with
    | nil =>
      rw [memberLines_singleton, skipSpace_writeMember]
      simp only [List.length_append, List.length_cons, List.length_nil]
      omega
    | cons n rest =>
      have hskip : (skipSpace (memberLines (n :: rest))).length ≤ (memberLines (n :: rest)).length :=
        List.IsSuffix.length_le (List.dropWhile_suffix _)
      rw [memberLines_cons, skipSpace_writeMember]
      simp only [List.length_append, List.length_cons] at *
      omega

/-- Members are read back up to the closing brace. -/
theorem readMembers_memberLines {ms : List (String × Stored)} (hms : ∀ m ∈ ms, m.2.Exact) (hne : ms ≠ []) {fuel : Nat}
    (hfuel : ms.length ≤ fuel) :
    readMembers fuel (skipSpace (memberLines ms)) = some (ms.map fun m => (m.1, m.2.filed), []) := by
  induction ms generalizing fuel with
  | nil => exact absurd rfl hne
  | cons m rest ih =>
    cases fuel with
    | zero => cases hfuel
    | succ fuel =>
      cases rest with
      | nil =>
        obtain ⟨space, hspace, hread⟩ := readMember_writeMember (hms m List.mem_cons_self)
          (.cons rfl _ : Text.Stops isNumberChar ['\n', '\x7d'])
        have hbrace : skipSpace (space ++ ['\n', '\x7d']) = ['\x7d'] := List.dropWhile_append_of_pos hspace
        rw [memberLines_singleton, readMembers, hread]
        simp only [hbrace]
        rfl
      | cons n rest =>
        obtain ⟨space, hspace, hread⟩ := readMember_writeMember (hms m List.mem_cons_self)
          (.cons rfl _ : Text.Stops isNumberChar (',' :: '\n' :: memberLines (n :: rest)))
        have hcomma : skipSpace (space ++ (',' :: '\n' :: memberLines (n :: rest))) = ',' :: '\n' :: memberLines (n :: rest) :=
          List.dropWhile_append_of_pos hspace
        have hline : skipSpace ('\n' :: memberLines (n :: rest)) = skipSpace (memberLines (n :: rest)) := rfl
        have hrest := ih (fun o ho => hms o (List.mem_cons_of_mem m ho)) (List.cons_ne_nil n rest)
          (Nat.le_of_succ_le_succ hfuel)
        rw [memberLines_cons, readMembers, hread]
        simp only [hcomma, hline, hrest]
        rfl

/-- An object with members has a line for each of them. -/
theorem writeObject_cons (m : String × Stored) (ms : List (String × Stored)) :
    (writeObject (m :: ms)).toList = '\x7b' :: '\n' :: memberLines (m :: ms) := by
  simp [writeObject, memberLines, String.toList_intercalate, Function.comp_def]

/-- The members that were written are read, each as a file keeps it. -/
theorem readObject_memberLines {m : String × Stored} {ms : List (String × Stored)} (hms : ∀ n ∈ m :: ms, n.2.Exact) :
    readObject ('\x7b' :: '\n' :: memberLines (m :: ms)) = some ((m :: ms).map fun m => (m.1, m.2.filed), []) := by
  have hread := readMembers_memberLines hms (List.cons_ne_nil m ms) (length_le_memberLines (m :: ms))
  have hline : skipSpace ('\n' :: memberLines (m :: ms)) = skipSpace (memberLines (m :: ms)) := rfl
  obtain ⟨body, hbody⟩ := skipSpace_memberLines m ms
  rw [hbody] at hread hline
  unfold readObject
  simp only [hline]
  exact hread

/-- An object that is written begins with a brace. -/
theorem writeObject_brace (ms : List (String × Stored)) : ∃ rest, (writeObject ms).toList = '\x7b' :: rest := by
  cases ms with
  | nil => exact ⟨['\x7d'], rfl⟩
  | cons m ms => exact ⟨'\n' :: memberLines (m :: ms), writeObject_cons m ms⟩

/-- An object is read back, with what a file keeps of its values. -/
theorem members?_writeObject {ms : List (String × Stored)} (hms : ∀ m ∈ ms, m.2.Exact) :
    members? (writeObject ms) = some (ms.map fun m => (m.1, m.2.filed)) := by
  cases ms with
  | nil => rfl
  | cons m ms =>
    have hbrace : skipSpace ('\x7b' :: '\n' :: memberLines (m :: ms)) = '\x7b' :: '\n' :: memberLines (m :: ms) := rfl
    rw [members?, whole?, writeObject_cons, hbrace, readObject_memberLines hms]
    rfl

end Json
end EventScript
