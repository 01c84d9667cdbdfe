import EventScript.Value.Arithmetic
import Mathlib.Algebra.Ring.Int.Defs
import Mathlib.Algebra.Ring.Nat

/-!
# The operators on integers

`BinaryOp.onIntegers?` is what an operator comes to on integers without a bound. The arithmetic operators and the negation come to that
or refuse, and they refuse whatever does not fit into 64 bits (`Checked`). A shift to the left refuses wrong amounts only: it keeps
the lowest 64 bits of the exact result, and so it is exact just if that fits (`integer_operators`).
-/

namespace EventScript

/-- The integer has 64 bits. -/
def FitsInt64 (n : Int) : Prop := Int64.minValue.toInt ≤ n ∧ n ≤ Int64.maxValue.toInt

instance (n : Int) : Decidable (FitsInt64 n) := inferInstanceAs (Decidable (_ ∧ _))

theorem fitsInt64_toInt (a : Int64) : FitsInt64 a.toInt := ⟨a.minValue_le_toInt, a.toInt_le⟩

theorem FitsInt64.toInt_ofInt {n : Int} (h : FitsInt64 n) : (Int64.ofInt n).toInt = n := by
  obtain ⟨hlow, hhigh⟩ := h
  rw [Int64.toInt_minValue] at hlow
  rw [Int64.toInt_maxValue] at hhigh
  exact Int64.toInt_ofInt_of_le hlow (by omega)

/-- The integer that is checked is the one that is given back. -/
theorem checkedInt64_eq_some_iff {n : Int} {r : Int64} : checkedInt64 n = some r ↔ n = r.toInt := by
  unfold checkedInt64
  constructor
  · intro h
    split at h
    next hfits =>
      cases h
      exact (FitsInt64.toInt_ofInt hfits).symm
    next => cases h
  · rintro rfl
    have hfits := fitsInt64_toInt r
    unfold FitsInt64 at hfits
    rw [if_pos hfits, Int64.ofInt_toInt]

theorem checkedInt64_eq_none_iff {n : Int} : checkedInt64 n = none ↔ ¬FitsInt64 n := by
  unfold checkedInt64 FitsInt64
  split
  next hfits => exact iff_of_false (Option.some_ne_none _) (not_not_intro hfits)
  next hfits => exact iff_of_true rfl hfits

/-- What the operator comes to on two integers, if it comes to an integer: quotients are cut off towards zero, and remainders have the
sign of the dividend. -/
def BinaryOp.onIntegers? : BinaryOp → Int → Int → Option Int
  | .add, a, b => some (a + b)
  | .sub, a, b => some (a - b)
  | .mul, a, b => some (a * b)
  | .div, a, b => if b = 0 then none else some (a.tdiv b)
  | .mod, a, b => if b = 0 then none else some (a.tmod b)
  | .shl, a, b => if 0 ≤ b ∧ b < 64 then some (a * 2 ^ b.toNat) else none
  | _, _, _ => none

namespace Value

/-- The operator is checked: any integer that it returns is the exact result, and it refuses where there is none or where it does not
fit. -/
structure Checked (exact : Option Int) (result : Except OperandFault Value) : Prop where
  exact_of_ok : ∀ r, result = .ok (.int r) → exact = some r.toInt
  error_of_unfit : (∀ n, exact = some n → ¬FitsInt64 n) → ∃ fault, result = .error fault

/-- What fits is returned. -/
def Returned (exact : Option Int) (result : Except OperandFault Value) : Prop :=
  ∀ r : Int64, exact = some r.toInt → result = .ok (.int r)

variable {exact : Option Int} {result : Except OperandFault Value} {a b : Int64}

/-! ## Checked arithmetic -/

theorem Checked.of_error {fault : OperandFault} (h : result = .error fault) : Checked exact result := by
  refine ⟨fun r hok => ?_, fun _ => ⟨fault, h⟩⟩
  cases h.symm.trans hok

/-- A result that goes through the check of the range. -/
theorem checked_of_range {n : Int} {fault : OperandFault}
    (h : result = match checkedInt64 n with | some r => .ok (.int r) | none => .error fault) :
    Checked (some n) result ∧ Returned (some n) result := by
  cases hrange : checkedInt64 n with
  | some r =>
    rw [hrange] at h
    have hn := checkedInt64_eq_some_iff.mp hrange
    refine ⟨⟨fun r' hok => ?_, fun hunfit => absurd ?_ (hunfit n rfl)⟩, fun r' hr' => ?_⟩
    · cases h.symm.trans hok
      exact congrArg some hn
    · rw [hn]
      exact fitsInt64_toInt r
    · rw [h, Int64.toInt_inj.mp (hn.symm.trans (Option.some.inj hr'))]
  | none =>
    rw [hrange] at h
    refine ⟨.of_error h, fun r' hr' => absurd ?_ (checkedInt64_eq_none_iff.mp hrange)⟩
    rw [Option.some.inj hr']
    exact fitsInt64_toInt r'

theorem checked_numeric (op : BinaryOp) (onInts : Int → Int → Int) (onFloats : Float → Float → Float) (a b : Int64) :
    Checked (some (onInts a.toInt b.toInt)) (numeric op onInts onFloats (.int a) (.int b)) ∧
      Returned (some (onInts a.toInt b.toInt)) (numeric op onInts onFloats (.int a) (.int b)) := checked_of_range rfl

/-- Division by zero has no result, and is refused. -/
theorem divides_by_zero (h : b.toInt = 0) : dividesByZero (.int a) (.int b) = true :=
  beq_iff_eq.mpr (Int64.toInt_inj.mp h)

theorem dividesByZero_eq_false (h : b.toInt ≠ 0) : dividesByZero (.int a) (.int b) = false :=
  beq_eq_false_iff_ne.mpr fun hb => h (congrArg Int64.toInt hb)

theorem checked_div : Checked (BinaryOp.div.onIntegers? a.toInt b.toInt) (binary .div (.int a) (.int b)) ∧
    Returned (BinaryOp.div.onIntegers? a.toInt b.toInt) (binary .div (.int a) (.int b)) := by
  simp only [BinaryOp.onIntegers?, binary]
  by_cases hb : b.toInt = 0
  · rw [if_pos hb, if_pos (divides_by_zero hb)]
    exact ⟨.of_error rfl, nofun⟩
  · rw [if_neg hb, dividesByZero_eq_false hb, if_neg Bool.false_ne_true]
    exact checked_numeric .div Int.tdiv (· / ·) a b

/-- The quotient is checked in front of the remainder. It fits unless the smallest integer is divided by -1. -/
theorem checked_mod : Checked (BinaryOp.mod.onIntegers? a.toInt b.toInt) (binary .mod (.int a) (.int b)) ∧
    (FitsInt64 (a.toInt.tdiv b.toInt) →
      Returned (BinaryOp.mod.onIntegers? a.toInt b.toInt) (binary .mod (.int a) (.int b))) := by
  simp only [BinaryOp.onIntegers?, binary]
  by_cases hb : b.toInt = 0
  · rw [if_pos hb, if_pos (divides_by_zero hb)]
    exact ⟨.of_error rfl, fun _ => nofun⟩
  · rw [if_neg hb, dividesByZero_eq_false hb, if_neg Bool.false_ne_true]
    split
    next hquotient =>
      rw [Option.isNone_iff_eq_none, checkedInt64_eq_none_iff] at hquotient
      exact ⟨.of_error rfl, fun hfits => absurd hfits hquotient⟩
    next =>
      have hremainder := checked_numeric .mod Int.tmod Decimal.remainder a b
      exact ⟨hremainder.1, fun _ => hremainder.2⟩

/-! ## Shifts -/

/-- Moving bits to the left multiplies, as far as 64 bits go. -/
theorem toInt_shiftLeft (hb : 0 ≤ b ∧ b < 64) :
    (a <<< b).toInt = (a.toInt * 2 ^ b.toInt.toNat).bmod (2 ^ 64) := by
  have hlow : 0 ≤ b.toInt := Int64.le_iff_toInt_le.mp hb.1
  have hhigh : b.toInt < 64 := Int64.lt_iff_toInt_lt.mp hb.2
  have hamount : (b.toBitVec.smod 64).toNat = b.toInt.toNat := by
    have hmod : (b.toBitVec.smod 64).toInt = b.toInt := by
      rw [BitVec.toInt_smod]
      exact Int.fmod_eq_of_lt hlow hhigh
    rw [BitVec.toInt_eq_toNat_cond] at hmod
    split at hmod <;> omega
  have hshift : (a <<< b).toBitVec = a.toBitVec <<< b.toInt.toNat := by
    rw [Int64.toBitVec_shiftLeft, BitVec.shiftLeft_eq', hamount]
  calc (a <<< b).toInt = ((a.toBitVec.toNat <<< b.toInt.toNat : Nat) : Int).bmod (2 ^ 64) := by
        rw [← Int64.toInt_toBitVec, hshift, BitVec.toInt_shiftLeft]
    _ = ((a.toBitVec.toNat : Int) * 2 ^ b.toInt.toNat).bmod (2 ^ 64) := by
        rw [Nat.shiftLeft_eq]
        push_cast
        rfl
    _ = (a.toInt * 2 ^ b.toInt.toNat).bmod (2 ^ 64) := by
        rw [← Int.bmod_mul_bmod, ← BitVec.toInt_eq_toNat_bmod]
        rfl

/-- A shift by a wrong amount has no result and is refused; any other one gives the lowest 64 bits of the result, and so the result
itself just if that fits. -/
theorem shift_left_cases :
    (BinaryOp.shl.onIntegers? a.toInt b.toInt = none ∧ binary .shl (.int a) (.int b) = .error (.shiftAmount b)) ∨
      ∃ n r, BinaryOp.shl.onIntegers? a.toInt b.toInt = some n ∧ binary .shl (.int a) (.int b) = .ok (.int r) ∧
        r.toInt = n.bmod (2 ^ 64) ∧ (r.toInt = n ↔ FitsInt64 n) := by
  simp only [BinaryOp.onIntegers?, binary, shift]
  by_cases hb : 0 ≤ b ∧ b < 64
  · have hb' : 0 ≤ b.toInt ∧ b.toInt < 64 := ⟨Int64.le_iff_toInt_le.mp hb.1, Int64.lt_iff_toInt_lt.mp hb.2⟩
    rw [if_pos hb, if_pos hb']
    have hbits := toInt_shiftLeft (a := a) hb
    refine .inr ⟨_, _, rfl, rfl, hbits, fun hexact => hexact ▸ fitsInt64_toInt _, fun hfits => ?_⟩
    rw [hbits]
    have hlow : -9223372036854775808 ≤ a.toInt * 2 ^ b.toInt.toNat := hfits.1
    have hhigh : a.toInt * 2 ^ b.toInt.toNat ≤ 9223372036854775807 := hfits.2
    exact Int.bmod_eq_of_le (by omega) (by omega)
  · have hb' : ¬(0 ≤ b.toInt ∧ b.toInt < 64) := fun h =>
      hb ⟨Int64.le_iff_toInt_le.mpr h.1, Int64.lt_iff_toInt_lt.mpr h.2⟩
    rw [if_neg hb, if_neg hb']
    exact .inl ⟨rfl, rfl⟩

/-! ## All of them -/

/-- On two integers `+`, `-`, `*`, `/` and `%` return the exact result and nothing else, and refuse where there is none or where it does
not fit; so does the negation of one. They refuse nothing more, but for the remainder of a division whose quotient does not fit. A
shift to the left refuses the amounts outside 0 to 63 only, and returns the lowest 64 bits of the exact result, which are the exact
result just if it fits. -/
theorem integer_operators (a b : Int64) :
    (∀ op ∈ [BinaryOp.add, .sub, .mul, .div, .mod],
      Checked (op.onIntegers? a.toInt b.toInt) (binary op (.int a) (.int b)) ∧
        (op ≠ .mod ∨ FitsInt64 (a.toInt.tdiv b.toInt) →
          Returned (op.onIntegers? a.toInt b.toInt) (binary op (.int a) (.int b)))) ∧
      (Checked (some (-a.toInt)) (unary .neg (.int a)) ∧ Returned (some (-a.toInt)) (unary .neg (.int a))) ∧
      ((BinaryOp.shl.onIntegers? a.toInt b.toInt = none ∧ binary .shl (.int a) (.int b) = .error (.shiftAmount b)) ∨
        ∃ n r, BinaryOp.shl.onIntegers? a.toInt b.toInt = some n ∧ binary .shl (.int a) (.int b) = .ok (.int r) ∧
          r.toInt = n.bmod (2 ^ 64) ∧ (r.toInt = n ↔ FitsInt64 n)) := by
  refine ⟨fun op hop => ?_, checked_of_range rfl, shift_left_cases⟩
  simp only [List.mem_cons, List.not_mem_nil, or_false] at hop
  rcases hop with rfl | rfl | rfl | rfl | rfl
  · have hsum := checked_numeric .add (· + ·) (· + ·) a b
    exact ⟨hsum.1, fun _ => hsum.2⟩
  · have hdifference := checked_numeric .sub (· - ·) (· - ·) a b
    exact ⟨hdifference.1, fun _ => hdifference.2⟩
  · have hproduct := checked_numeric .mul (· * ·) (· * ·) a b
    exact ⟨hproduct.1, fun _ => hproduct.2⟩
  · exact ⟨checked_div.1, fun _ => checked_div.2⟩
  · exact ⟨checked_mod.1, fun h => checked_mod.2 (h.resolve_left (absurd rfl))⟩

/-- The smallest integer is not divided by -1, since the quotient does not fit; and it is divided by 1. -/
theorem integer_operators_smallest :
    (∃ fault, binary .div (.int Int64.minValue) (.int (-1)) = .error fault) ∧
      binary .div (.int Int64.minValue) (.int 1) = .ok (.int Int64.minValue) := by
  have hmem : BinaryOp.div ∈ [BinaryOp.add, .sub, .mul, .div, .mod] := by decide
  have hunfit : ∀ n, BinaryOp.div.onIntegers? Int64.minValue.toInt (-1 : Int64).toInt = some n → ¬FitsInt64 n := by
    rintro n ⟨⟩
    decide
  exact ⟨((integer_operators Int64.minValue (-1)).1 .div hmem).1.error_of_unfit hunfit,
    ((integer_operators Int64.minValue 1).1 .div hmem).2 (.inl (by decide)) Int64.minValue (by decide)⟩

/-- A shift to the left is not checked: 1 moved by 63 bits is no 64-bit integer, and the smallest integer is returned. -/
theorem shift_left_checked_false :
    binary .shl (.int 1) (.int 63) = .ok (.int Int64.minValue) ∧
      ¬∀ a b : Int64, Checked (BinaryOp.shl.onIntegers? a.toInt b.toInt) (binary .shl (.int a) (.int b)) := by
  have hshift : binary .shl (.int 1) (.int 63) = .ok (.int Int64.minValue) := by decide +kernel
  refine ⟨hshift, fun hchecked => ?_⟩
  have hexact := (hchecked 1 63).exact_of_ok _ hshift
  exact absurd hexact (by decide +kernel)

end Value

end EventScript
