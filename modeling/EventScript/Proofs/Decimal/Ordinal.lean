import EventScript.Decimal.Binary
import Mathlib.Algebra.Group.Int.Defs
import Mathlib.Algebra.Group.Nat.Defs

/-!
# Doubles in a row

Every double other than not-a-number has its place among them: an integer that grows by one from each double to the next, with one place
for both zeros (`ordinal`). The comparisons of doubles are those of their places. The double nearest to an integer moves up with the
integer, and no two integers below 2^53 share one.
-/

namespace EventScript.Decimal

open Float.Model Float.Model.UnpackedFloat

/-! ## Places -/

/-- As doubles are when they are unpacked: 53 bits in the mantissa, or fewer at the lowest exponent. -/
def Regular : UnpackedFloat → Prop
  | .finite _ m e _ => m < 2 ^ 53 ∧ (2 ^ 52 ≤ m ∨ e = -1074) ∧ -1074 ≤ e ∧ e ≤ 971
  | _ => True

/-- The place of the double with this mantissa and exponent, counted from zero. -/
def place (m : Nat) (e : Int) : Int := (e + 1074) * 2 ^ 52 + m

/-- The place of an unpacked double, negative below zero. What is not a number has none. -/
def unpackedOrdinal : UnpackedFloat → Int
  | .infinity s => s.apply (2047 * 2 ^ 52)
  | .finite s m e _ => s.apply (place m e)
  | _ => 0

/-- The place of a double. -/
def ordinal (x : Float) : Int := unpackedOrdinal x.toModel.unpack

variable {s s' : Sign} {m m' : Nat} {e e' e'' : Int} {hm : 0 < m} {hm' : 0 < m'}

/-- The place of a regular double is positive and below that of infinity. -/
theorem place_bounds (h : Regular (.finite s m e hm)) : 0 < place m e ∧ place m e < 2047 * 2 ^ 52 := by
  obtain ⟨hbits, -, hlow, hhigh⟩ := h
  unfold place
  omega

/-- Of two finite doubles of one sign, the one with the larger exponent is further out; with equal exponents, the one with the larger
mantissa is. -/
theorem compare_place (h : Regular (.finite s m e hm)) (h' : Regular (.finite s' m' e' hm')) :
    (compare e e').then (compare m m') = compare (place m e) (place m' e') := by
  obtain ⟨hbits, hnormal, hlow, -⟩ := h
  obtain ⟨hbits', hnormal', hlow', -⟩ := h'
  unfold place
  rcases Int.lt_trichotomy e e' with he | rfl | he
  · rw [Int.compare_eq_lt.mpr he]
    exact (Int.compare_eq_lt.mpr (by omega)).symm
  · rw [Int.compare_eq_eq.mpr rfl]
    rcases Nat.lt_trichotomy m m' with hlt | rfl | hlt
    · exact (Nat.compare_eq_lt.mpr hlt).trans (Int.compare_eq_lt.mpr (by omega)).symm
    · exact (Nat.compare_eq_eq.mpr rfl).trans (Int.compare_eq_eq.mpr rfl).symm
    · exact (Nat.compare_eq_gt.mpr hlt).trans (Int.compare_eq_gt.mpr (by omega)).symm
  · rw [Int.compare_eq_gt.mpr he]
    exact (Int.compare_eq_gt.mpr (by omega)).symm

/-- So is its ordinal, on the positive side. -/
theorem ordinal_positive (h : Regular (.finite .positive m e hm)) :
    0 < unpackedOrdinal (.finite .positive m e hm) ∧ unpackedOrdinal (.finite .positive m e hm) < 2047 * 2 ^ 52 :=
  place_bounds h

/-- On the negative side it is below zero and above minus infinity. -/
theorem ordinal_negative (h : Regular (.finite .negative m e hm)) :
    -(2047 * 2 ^ 52) < unpackedOrdinal (.finite .negative m e hm) ∧ unpackedOrdinal (.finite .negative m e hm) < 0 := by
  obtain ⟨hpos, hlt⟩ := place_bounds h
  exact ⟨Int.neg_lt_neg hlt, Int.neg_neg_of_pos hpos⟩

/-- On either side it lies between the two infinities. -/
theorem ordinal_finite (h : Regular (.finite s m e hm)) :
    -(2047 * 2 ^ 52) < unpackedOrdinal (.finite s m e hm) ∧ unpackedOrdinal (.finite s m e hm) < 2047 * 2 ^ 52 := by
  cases s with
  | positive =>
    have := ordinal_positive h
    omega
  | negative =>
    have := ordinal_negative h
    omega

/-- The order of two integers is the other way round below zero. -/
theorem compare_neg (a b : Int) : compare (-a) (-b) = compare b a := by
  rcases Int.lt_trichotomy a b with h | rfl | h
  · rw [Int.compare_eq_gt.mpr h, Int.compare_eq_gt.mpr (by omega)]
  · rw [Int.compare_eq_eq.mpr rfl, Int.compare_eq_eq.mpr rfl]
  · rw [Int.compare_eq_lt.mpr h, Int.compare_eq_lt.mpr (by omega)]

/-- An integer below another one compares as less. -/
theorem some_lt {a b : Int} (h : a < b) : some Ordering.lt = some (compare a b) := congrArg some (Int.compare_eq_lt.mpr h).symm

/-- One above it compares as greater. -/
theorem some_gt {a b : Int} (h : b < a) : some Ordering.gt = some (compare a b) := congrArg some (Int.compare_eq_gt.mpr h).symm

/-- Two unpacked doubles compare as their places do. -/
theorem compare_unpacked {u v : UnpackedFloat} (hu : Regular u) (hv : Regular v) (hu' : u.isNaN = false) (hv' : v.isNaN = false) :
    u.compare v = some (compare (unpackedOrdinal u) (unpackedOrdinal v)) := by
  cases u with
  | notANumber => cases hu'
  | infinity s =>
    cases v with
    | notANumber => cases hv'
    | infinity s' => cases s <;> cases s' <;> rfl
    | zero s' => cases s <;> rfl
    | finite s' m' e' hm' =>
      have hplace := ordinal_finite hv
      cases s with
      | positive => exact some_gt hplace.2
      | negative => exact some_lt hplace.1
  | zero s =>
    cases v with
    | notANumber => cases hv'
    | infinity s' => cases s' <;> rfl
    | zero s' => rfl
    | finite s' m' e' hm' =>
      cases s' with
      | positive => exact some_lt (ordinal_positive hv).1
      | negative => exact some_gt (ordinal_negative hv).2
  | finite s m e hm =>
    cases v with
    | notANumber => cases hv'
    | infinity s' =>
      have hplace := ordinal_finite hu
      cases s' with
      | positive => cases s <;> exact some_lt hplace.2
      | negative => cases s <;> exact some_gt hplace.1
    | zero s' =>
      cases s with
      | positive => exact some_gt (ordinal_positive hu).1
      | negative => exact some_lt (ordinal_negative hu).2
    | finite s' m' e' hm' =>
      cases s with
      | positive =>
        cases s' with
        | positive => exact congrArg some (compare_place hu hv)
        | negative => exact some_gt (Int.lt_trans (ordinal_negative hv).2 (ordinal_positive hu).1)
      | negative =>
        cases s' with
        | positive => exact some_lt (Int.lt_trans (ordinal_negative hu).2 (ordinal_positive hv).1)
        | negative =>
          refine congrArg some ((congrArg Ordering.swap (compare_place hu hv)).trans ?_)
          exact (Int.compare_swap _ _).trans (compare_neg _ _).symm

/-! ## Packing -/

/-- A leading one in front of 52 bits. -/
theorem toNat_leading (bits : BitVec 52) : (1#1 ++ bits).toNat = 2 ^ 52 + bits.toNat := by
  rw [BitVec.toNat_append, ← Nat.shiftLeft_add_eq_or_of_lt bits.isLt, Nat.shiftLeft_eq]
  rfl

/-- Doubles are regular when they are unpacked. -/
theorem unpack_regular (x : Float.Model) : Regular x.unpack := by
  delta Float.Model.unpack UnpackedFloat.unpack
  extract_lets mantissa exponentBits exponent sign _
  have hmantissa : mantissa.toNat < 2 ^ 52 := mantissa.isLt
  have hbits : exponentBits.toNat < 2 ^ 11 := exponentBits.isLt
  have hexponent : exponent = exponentBits.toNat - 1075 := rfl
  by_cases hmax : exponentBits = -1#_
  · rw [if_pos hmax]
    by_cases hinfinite : mantissa = 0#_
    · rw [if_pos hinfinite]
      trivial
    · rw [if_neg hinfinite]
      trivial
  have hbelow : exponentBits.toNat ≠ 2047 := fun h => hmax (BitVec.toNat_inj.mp h)
  rw [if_neg hmax]
  by_cases hlowest : exponentBits = 0#_
  · have hzero : exponentBits.toNat = 0 := congrArg BitVec.toNat hlowest
    rw [if_pos hlowest]
    by_cases hnone : mantissa = 0#_
    · rw [dif_pos hnone]
      trivial
    · rw [dif_neg hnone]
      exact ⟨by omega, .inr (by omega), by omega, by omega⟩
  · have hnormal : exponentBits.toNat ≠ 0 := fun h => hlowest (BitVec.toNat_inj.mp h)
    have hleading := toNat_leading mantissa
    rw [if_neg hlowest]
    exact ⟨by omega, .inl (by omega), by omega, by omega⟩

/-- The sign is read back from the components, as the exponent and the mantissa are. -/
theorem sign_packComponents {spec : Format} (exponent : BitVec spec.exponentBits)
    (mantissa : BitVec spec.mantissaBitsWithoutImplicit) :
    Sign.ofBitVec (unpackSign (packComponents spec s exponent mantissa)) = s := by
  have hbits : unpackSign (packComponents spec s exponent mantissa) = s.toBitVec := by
    ext i hi
    obtain rfl : i = 0 := by omega
    delta unpackSign
    simp [packComponents, BitVec.getLsbD_append, BitVec.getElem_append]
  rw [hbits]
  cases s <;> rfl

/-- Doubles that are put together alike are the same. -/
theorem finite_congr (hs : s = s') (hmantissa : m = m') (he : e = e') :
    UnpackedFloat.finite s m e hm = .finite s' m' e' hm' := by
  subst hs hmantissa he
  rfl

/-- Where the exponent is neither the lowest nor the highest one, a leading one is put in front of the mantissa. -/
theorem unpack_normal {bits : BitVec (Format.numBits .binary64)} (hmax : unpackExponent bits ≠ -1#11)
    (hzero : unpackExponent bits ≠ 0#11) (hm : 0 < (1#1 ++ unpackMantissa bits).toNat) :
    UnpackedFloat.unpack .binary64 bits =
      .finite (Sign.ofBitVec (unpackSign bits)) (1#1 ++ unpackMantissa bits).toNat ((unpackExponent bits).toNat - 1075) hm := by
  delta UnpackedFloat.unpack
  extract_lets mantissa exponentBits exponent sign
  rw [if_neg hmax, if_neg hzero]
  rfl

/-- A double with a leading one in its mantissa is read back as it was packed. -/
theorem unpack_pack_normal (hlow : 2 ^ 52 ≤ m) (hhigh : m < 2 ^ 53) (he : -1074 ≤ e) (he' : e ≤ 971) :
    (Float.Model.pack (.finite s m e hm)).unpack = .finite s m e hm := by
  have hlog : m.log2 = 52 := (Nat.log2_eq_iff (by omega)).mpr ⟨hlow, hhigh⟩
  have hpack : UnpackedFloat.pack .binary64 (.finite s m e hm) =
      packComponents .binary64 s (BitVec.ofNat _ (e + 1075).toNat) (BitVec.ofNat _ m) := by
    have hbias : (e + (Format.exponentBias .binary64 : Int) + (52 : Nat)).toNat = (e + 1075).toNat :=
      congrArg Int.toNat (Int.add_assoc e 1023 52)
    delta UnpackedFloat.pack
    dsimp only
    rw [hbias, if_neg (by omega), if_pos (by rw [hlog]; rfl)]
  have hexponent : (BitVec.ofNat 11 (e + 1075).toNat).toNat = (e + 1075).toNat := by
    rw [BitVec.toNat_ofNat]
    omega
  have hmantissa : (1#1 ++ BitVec.ofNat 52 m).toNat = m := by
    rw [toNat_leading, BitVec.toNat_ofNat]
    omega
  have hmax : BitVec.ofNat 11 (e + 1075).toNat ≠ -1#11 := fun h => by
    have := hexponent.symm.trans (congrArg BitVec.toNat h)
    have : (-1#11).toNat = 2047 := rfl
    omega
  have hzero : BitVec.ofNat 11 (e + 1075).toNat ≠ 0#11 := fun h => by
    have := hexponent.symm.trans (congrArg BitVec.toNat h)
    have : (0#11).toNat = 0 := rfl
    omega
  change UnpackedFloat.unpack .binary64 (UnpackedFloat.pack .binary64 (.finite s m e hm)) = _
  rw [hpack, unpack_normal (by rwa [unpackExponent_packComponents]) (by rwa [unpackExponent_packComponents])
    (by rw [toNat_leading]; omega)]
  refine finite_congr (sign_packComponents _ _) ?_ ?_
  · rw [unpackMantissa_packComponents]
    exact hmantissa
  · rw [unpackExponent_packComponents, hexponent]
    omega

/-! ## Rounding -/

/-- The mantissa with the bits behind it, as one number. -/
def code (em : ExtendedMantissa) : Nat := 4 * em.mantissa + 2 * em.roundBit.toNat + em.stickyBit.toNat

/-- To shift by a place keeps the order of mantissas with the bits behind them. -/
theorem code_shiftRightOne_mono {a b : ExtendedMantissa} (h : code a ≤ code b) : code a.shiftRightOne ≤ code b.shiftRightOne := by
  obtain ⟨m, r, t⟩ := a
  obtain ⟨m', r', t'⟩ := b
  have hbit : ∀ k : Nat, (k % 2 != 0).toNat = k % 2 := fun k => by
    rcases Nat.mod_two_eq_zero_or_one k with h | h <;> rw [h] <;> rfl
  simp only [code, ExtendedMantissa.shiftRightOne, hbit] at h ⊢
  cases r <;> cases t <;> cases r' <;> cases t' <;> simp only [Bool.toNat_true, Bool.toNat_false, Bool.or_true, Bool.or_false] at h ⊢ <;>
    omega

/-- So does rounding. -/
theorem roundedMantissa_mono {a b : ExtendedMantissa} (h : code a ≤ code b) : a.roundedMantissa ≤ b.roundedMantissa := by
  obtain ⟨m, r, t⟩ := a
  obtain ⟨m', r', t'⟩ := b
  simp only [code] at h
  cases r <;> cases t <;> cases r' <;> cases t' <;>
    simp only [Bool.toNat_true, Bool.toNat_false, ExtendedMantissa.roundedMantissa, ExtendedMantissa.accuracy,
      Accuracy.roundToNearestEven] at h ⊢ <;>
    omega

/-- Rounding adds one at most. -/
theorem roundedMantissa_bounds (em : ExtendedMantissa) : em.mantissa ≤ em.roundedMantissa ∧ em.roundedMantissa ≤ em.mantissa + 1 := by
  obtain ⟨m, r, t⟩ := em
  cases r <;> cases t <;> simp only [ExtendedMantissa.roundedMantissa, ExtendedMantissa.accuracy, Accuracy.roundToNearestEven] <;> omega

/-- To shift by one place more is to shift once more. -/
theorem shiftRight_succ (em : ExtendedMantissa) (k : Nat) : em >>> (k + 1) = (em >>> k).shiftRightOne := rfl

/-- Shifting keeps the order. -/
theorem code_shiftRight_mono {a b : ExtendedMantissa} (h : code a ≤ code b) (k : Nat) : code (a >>> k) ≤ code (b >>> k) := by
  induction k with
  | zero => exact h
  | succ k ih => exact code_shiftRightOne_mono ih

/-- A shift divides the mantissa. -/
theorem mantissa_shiftRight (em : ExtendedMantissa) (k : Nat) : (em >>> k).mantissa = em.mantissa / 2 ^ k := by
  induction k with
  | zero => exact (Nat.div_one _).symm
  | succ k ih =>
    rw [shiftRight_succ]
    exact (congrArg (· / 2) ih).trans (Nat.div_div_eq_div_mul _ _ _)

/-- The mantissa that a positive integer is rounded to: its leading 53 bits, or the next number. -/
def significand (n : Nat) : Nat :=
  ((⟨n * 2 ^ (52 - n.log2), false, false⟩ : ExtendedMantissa) >>> (n.log2 - 52)).roundedMantissa

/-- The place of the double nearest to a natural number. -/
def nearest (n : Nat) : Int := if n = 0 then 0 else place (significand n) (n.log2 - 52)

/-- An integer with at most 53 bits is its own significand, shifted up. -/
theorem significand_exact {n : Nat} (h : n.log2 ≤ 52) : significand n = n * 2 ^ (52 - n.log2) := by
  unfold significand
  rw [Nat.sub_eq_zero_of_le h]
  rfl

/-- A significand has 53 bits, or is the next power of two. -/
theorem significand_bounds {n : Nat} (hn : n ≠ 0) : 2 ^ 52 ≤ significand n ∧ significand n ≤ 2 ^ 53 := by
  have hlow := Nat.log2_self_le hn
  have hhigh := Nat.lt_log2_self (n := n)
  by_cases hlog : n.log2 ≤ 52
  · rw [significand_exact hlog]
    constructor
    · calc 2 ^ 52 = 2 ^ n.log2 * 2 ^ (52 - n.log2) := by rw [← Nat.pow_add, Nat.add_sub_cancel' hlog]
        _ ≤ n * 2 ^ (52 - n.log2) := Nat.mul_le_mul_right _ hlow
    · calc n * 2 ^ (52 - n.log2) ≤ 2 ^ (n.log2 + 1) * 2 ^ (52 - n.log2) := Nat.mul_le_mul_right _ (Nat.le_of_lt hhigh)
        _ = 2 ^ 53 := by rw [← Nat.pow_add]; congr 1; omega
  · have hround := roundedMantissa_bounds ((⟨n * 2 ^ (52 - n.log2), false, false⟩ : ExtendedMantissa) >>> (n.log2 - 52))
    rw [mantissa_shiftRight, Nat.sub_eq_zero_of_le (by omega : 52 ≤ n.log2), Nat.pow_zero, Nat.mul_one] at hround
    have hlow' : 2 ^ 52 ≤ n / 2 ^ (n.log2 - 52) := by
      rw [Nat.le_div_iff_mul_le (Nat.two_pow_pos _), ← Nat.pow_add, Nat.add_sub_cancel' (by omega)]
      exact hlow
    have hhigh' : n / 2 ^ (n.log2 - 52) < 2 ^ 53 := by
      rw [Nat.div_lt_iff_lt_mul (Nat.two_pow_pos _), ← Nat.pow_add, show 53 + (n.log2 - 52) = n.log2 + 1 by omega]
      exact hhigh
    unfold significand
    rw [Nat.sub_eq_zero_of_le (by omega : 52 ≤ n.log2), Nat.pow_zero, Nat.mul_one]
    exact ⟨Nat.le_trans hlow' hround.1, Nat.le_trans hround.2 hhigh'⟩

/-- Among integers of one length, the larger one is rounded to the larger mantissa. -/
theorem significand_mono {n k : Nat} (hlog : n.log2 = k.log2) (h : n ≤ k) : significand n ≤ significand k := by
  unfold significand
  rw [hlog]
  refine roundedMantissa_mono (code_shiftRight_mono ?_ _)
  have := Nat.mul_le_mul_right (2 ^ (52 - k.log2)) h
  simp only [code, Bool.toNat_false]
  omega

/-- A larger number has no fewer bits. -/
theorem log2_mono {n k : Nat} (hn : n ≠ 0) (h : n ≤ k) : n.log2 ≤ k.log2 :=
  (Nat.le_log2 (by omega)).mpr (Nat.le_trans (Nat.log2_self_le hn) h)

/-- A positive number has its double above zero. -/
theorem nearest_pos {n : Nat} (hn : n ≠ 0) : 0 < nearest n := by
  have := significand_bounds hn
  rw [nearest, if_neg hn, place]
  omega

/-- Rounding keeps the order. -/
theorem nearest_mono {n k : Nat} (h : n ≤ k) : nearest n ≤ nearest k := by
  by_cases hk : k = 0
  · obtain rfl : n = k := by omega
    exact Int.le_refl _
  by_cases hn : n = 0
  · rw [hn]
    exact Int.le_of_lt (nearest_pos hk)
  have hbounds := significand_bounds hn
  have hbounds' := significand_bounds hk
  rw [nearest, if_neg hn, nearest, if_neg hk]
  unfold place
  rcases Nat.lt_or_eq_of_le (log2_mono hn h) with hlog | hlog
  · omega
  · have := significand_mono hlog h
    omega

/-- Below 2^53 nothing is rounded away. -/
theorem nearest_lt {n k : Nat} (hn : n < 2 ^ 53) (h : n < k) : nearest n < nearest k := by
  by_cases hzero : n = 0
  · rw [hzero]
    exact nearest_pos (by omega)
  have hlog : n.log2 ≤ 52 := Nat.le_of_lt_succ ((Nat.log2_lt hzero).mpr hn)
  have hbounds := significand_bounds (n := k) (by omega)
  rw [nearest, if_neg hzero, nearest, if_neg (by omega)]
  unfold place
  rcases Nat.lt_or_eq_of_le (log2_mono hzero (Nat.le_of_lt h)) with hlog' | hlog'
  · have hshort : n * 2 ^ (52 - n.log2) < 2 ^ 53 :=
      calc n * 2 ^ (52 - n.log2) < 2 ^ (n.log2 + 1) * 2 ^ (52 - n.log2) :=
            Nat.mul_lt_mul_of_pos_right Nat.lt_log2_self (Nat.two_pow_pos _)
        _ = 2 ^ 53 := by rw [← Nat.pow_add]; congr 1; omega
    rw [significand_exact hlog]
    omega
  · rw [significand_exact hlog, significand_exact (hlog' ▸ hlog), ← hlog']
    have := Nat.mul_lt_mul_of_pos_right h (Nat.two_pow_pos (52 - n.log2))
    omega

/-! ## Doubles for integers -/

/-- To double a number adds a bit. -/
theorem log2_mul_two_pow {n : Nat} (hn : n ≠ 0) (k : Nat) : (n * 2 ^ k).log2 = n.log2 + k := by
  have hlength : n.log2 + k + 1 = n.log2 + 1 + k := by omega
  rw [Nat.log2_eq_iff (Nat.mul_ne_zero hn (Nat.ne_of_gt (Nat.two_pow_pos k))), Nat.pow_add, hlength, Nat.pow_add]
  exact ⟨Nat.mul_le_mul_right _ (Nat.log2_self_le hn), Nat.mul_lt_mul_of_pos_right Nat.lt_log2_self (Nat.two_pow_pos k)⟩

/-- Above the lowest exponent a mantissa is shortened to 53 bits. -/
theorem shiftToTargetExponent_eq (h : -1022 ≤ m.log2 + e) : shiftToTargetExponent .binary64 m e .exact =
    ((⟨m, false, false⟩ : ExtendedMantissa) >>> (m.log2 - 52), e + (m.log2 - 52 : Nat)) := by
  have htarget : (Format.targetExponent .binary64 (totalExponent m e) - e).toNat = m.log2 - 52 := by
    have hbits : Format.mantissaBits .binary64 = 53 := rfl
    simp only [Format.targetExponent, totalExponent, hbits, Format.minExponent]
    omega
  simp only [shiftToTargetExponent, shiftToExponent, htarget]
  rfl

/-- A mantissa that rounding has filled up to 2^53 is halved, for the next exponent. -/
theorem shift_rounded {r : Nat} (hlow : 2 ^ 52 ≤ r) (hhigh : r ≤ 2 ^ 53) (he : -1074 ≤ e) :
    ∃ em e', shiftToTargetExponent .binary64 r e .exact = (em, e') ∧
      2 ^ 52 ≤ em.mantissa ∧ em.mantissa < 2 ^ 53 ∧ e ≤ e' ∧ e' ≤ e + 1 ∧ place em.mantissa e' = place r e := by
  rcases Nat.lt_or_eq_of_le hhigh with hlt | rfl
  · have hlog : r.log2 = 52 := (Nat.log2_eq_iff (by omega)).mpr ⟨hlow, hlt⟩
    refine ⟨_, _, shiftToTargetExponent_eq (by omega), ?_⟩
    rw [hlog]
    exact ⟨hlow, hlt, by omega, by omega, congrArg (place r) (Int.add_zero e)⟩
  · refine ⟨_, _, shiftToTargetExponent_eq (by rw [Nat.log2_two_pow]; omega), ?_⟩
    have hhalf : ((⟨2 ^ 53, false, false⟩ : ExtendedMantissa) >>> (53 - 52)).mantissa = 2 ^ 52 := rfl
    rw [Nat.log2_two_pow, hhalf]
    exact ⟨by decide, by decide, by omega, by omega, by unfold place; omega⟩

/-- Rounding shifts to the target exponent, rounds, and shifts once more where that has carried. -/
theorem roundWithAccuracy_eq {spec : Format} {accuracy : Accuracy} {em em' : ExtendedMantissa}
    (hfirst : shiftToTargetExponent spec m e accuracy = (em, e'))
    (hsecond : shiftToTargetExponent spec em.roundedMantissa e' .exact = (em', e'')) (hpos : 0 < em'.mantissa) :
    roundWithAccuracy spec s m e accuracy = .finite s em'.mantissa e'' hpos := by
  unfold roundWithAccuracy
  rw [hfirst]
  dsimp only
  rw [hsecond]
  exact dif_neg (Nat.ne_of_gt hpos)

/-- The double for a positive integer below 2^64 has a leading one in its mantissa, and stands at the place of the integer. -/
theorem round_positive {n : Nat} (hn : n ≠ 0) (hlog : n.log2 < 64) :
    ∃ m e hm, UnpackedFloat.round .binary64 .positive n 0 = .finite .positive m e hm ∧
      2 ^ 52 ≤ m ∧ m < 2 ^ 53 ∧ -1074 ≤ e ∧ e ≤ 971 ∧ place m e = nearest n := by
  have hwide : UnpackedFloat.round .binary64 .positive n 0 =
      roundWithAccuracy .binary64 .positive (n * 2 ^ (52 - n.log2)) (0 - (52 - n.log2 : Nat)) .exact := by
    have htarget : (0 - Format.targetExponent .binary64 (totalExponent n 0)).toNat = 52 - n.log2 := by
      have hbits : Format.mantissaBits .binary64 = 53 := rfl
      simp only [Format.targetExponent, totalExponent, hbits, Format.minExponent]
      omega
    simp only [UnpackedFloat.round, decreaseExponent, htarget, Nat.shiftLeft_eq]
  have hlog' := log2_mul_two_pow hn (52 - n.log2)
  have hfirst : shiftToTargetExponent .binary64 (n * 2 ^ (52 - n.log2)) (0 - (52 - n.log2 : Nat)) .exact =
      ((⟨n * 2 ^ (52 - n.log2), false, false⟩ : ExtendedMantissa) >>> (n.log2 - 52), (n.log2 : Int) - 52) := by
    rw [shiftToTargetExponent_eq (by omega), hlog', show n.log2 + (52 - n.log2) - 52 = n.log2 - 52 by omega]
    congr 1
    omega
  obtain ⟨hlow, hhigh⟩ := significand_bounds hn
  obtain ⟨em, e, hsecond, hm, hm', he, he', hplace⟩ := shift_rounded (e := n.log2 - 52) hlow hhigh (by omega)
  refine ⟨em.mantissa, e, Nat.lt_of_lt_of_le (by decide) hm, ?_, hm, hm', by omega, by omega, ?_⟩
  · exact hwide.trans (roundWithAccuracy_eq hfirst hsecond _)
  · rw [hplace, nearest, if_neg hn]

/-- The double of a positive integer is regular, and in the place of the nearest one. -/
theorem unpack_toFloat {n : Nat} (hn : n ≠ 0) (hfits : n < 2 ^ 64) :
    ∃ m e hm, n.toUInt64.toFloat.toModel.unpack = .finite .positive m e hm ∧
      2 ^ 52 ≤ m ∧ m < 2 ^ 53 ∧ -1074 ≤ e ∧ e ≤ 971 ∧ place m e = nearest n := by
  obtain ⟨m, e, hm, hround, hshape⟩ := round_positive hn ((Nat.log2_lt hn).mpr hfits)
  refine ⟨m, e, hm, ?_, hshape⟩
  obtain ⟨hlow, hhigh, he, he', -⟩ := hshape
  have hmodel : n.toUInt64.toFloat.toModel = Float.Model.pack (UnpackedFloat.ofNat .binary64 n.toUInt64.toNat) := rfl
  have hnat : n.toUInt64.toNat = n := UInt64.toNat_ofNat_of_lt hfits
  have hofNat : UnpackedFloat.ofNat .binary64 n = UnpackedFloat.round .binary64 .positive n 0 := by
    unfold UnpackedFloat.ofNat UnpackedFloat.ofInt UnpackedFloat.normalize
    rw [Int.compare_eq_gt.mpr (by omega : (n : Int) > 0)]
    rfl
  rw [hmodel, hnat, hofNat, hround, unpack_pack_normal hlow hhigh he he']

/-- The double for a natural number is a number and stands at its place, and what it is negated to stands opposite. -/
theorem ordinal_toFloat {n : Nat} (hfits : n < 2 ^ 64) :
    (n.toUInt64.toFloat.isNaN = false ∧ ordinal n.toUInt64.toFloat = nearest n) ∧
      (-n.toUInt64.toFloat).isNaN = false ∧ ordinal (-n.toUInt64.toFloat) = -nearest n := by
  have hneg : ∀ x : Float, (-x).toModel.unpack = (Float.Model.pack x.toModel.unpack.neg).unpack := fun _ => rfl
  by_cases hn : n = 0
  · rw [hn]
    decide +kernel
  obtain ⟨m, e, hm, hunpack, hlow, hhigh, he, he', hplace⟩ := unpack_toFloat hn hfits
  have hopposite : (-n.toUInt64.toFloat).toModel.unpack = .finite .negative m e hm := by
    rw [hneg, hunpack]
    exact unpack_pack_normal hlow hhigh he he'
  unfold ordinal Float.isNaN Float.Model.isNaN
  rw [hopposite, hunpack]
  exact ⟨⟨rfl, hplace⟩, rfl, congrArg (- ·) hplace⟩

/-- The place of the double nearest to an integer, on either side of zero. -/
def nearestInt (n : Int) : Int := if n < 0 then -nearest n.natAbs else nearest n.natAbs

/-- The double that an integer is compared as is a number, and stands at its place. -/
theorem ordinal_ofInt64 (n : Int64) : (ofInt64 n).isNaN = false ∧ ordinal (ofInt64 n) = nearestInt n.toInt := by
  have hfits : n.toInt.natAbs < 2 ^ 64 := by
    have hlow := n.minValue_le_toInt
    have hhigh := n.toInt_le
    rw [Int64.toInt_minValue] at hlow
    rw [Int64.toInt_maxValue] at hhigh
    omega
  have hsign : n < 0 ↔ n.toInt < 0 := Int64.lt_iff_toInt_lt
  obtain ⟨hpos, hneg⟩ := ordinal_toFloat hfits
  unfold ofInt64 nearestInt
  by_cases h : n.toInt < 0
  · rw [if_pos (hsign.mpr h), if_pos h]
    exact hneg
  · rw [if_neg (mt hsign.mp h), if_neg h]
    exact hpos

/-- Converting integers keeps the order. -/
theorem nearestInt_mono {n k : Int} (h : n ≤ k) : nearestInt n ≤ nearestInt k := by
  have hzero : ∀ n : Nat, 0 ≤ nearest n := fun n => nearest_mono (Nat.zero_le n)
  unfold nearestInt
  split
  next hn =>
    split
    next hk => exact Int.neg_le_neg (nearest_mono (by omega))
    next => exact Int.le_trans (Int.neg_nonpos_of_nonneg (hzero _)) (hzero _)
  next hn =>
    rw [if_neg (by omega)]
    exact nearest_mono (by omega)

/-- It keeps different integers apart as long as one of them has at most 53 bits. -/
theorem nearestInt_lt {n k : Int} (hn : n.natAbs < 2 ^ 53 ∨ k.natAbs < 2 ^ 53) (h : n < k) : nearestInt n < nearestInt k := by
  have hzero : ∀ n : Nat, 0 ≤ nearest n := fun n => nearest_mono (Nat.zero_le n)
  unfold nearestInt
  split
  next hn =>
    split
    next hk => exact Int.neg_lt_neg (nearest_lt (by omega) (by omega))
    next => exact Int.lt_of_lt_of_le (Int.neg_neg_of_pos (nearest_pos (by omega))) (hzero _)
  next hn =>
    rw [if_neg (by omega)]
    exact nearest_lt (by omega) (by omega)

/-! ## Comparing doubles -/

variable {x y : Float}

/-- Unpacked doubles that are numbers compare as their places do. -/
theorem compare_eq_ordinal (hx : x.isNaN = false) (hy : y.isNaN = false) :
    x.toModel.unpack.compare y.toModel.unpack = some (compare (ordinal x) (ordinal y)) :=
  compare_unpacked (unpack_regular _) (unpack_regular _) hx hy

/-- Two doubles are equal if they stand at one place. -/
theorem beq_iff_ordinal (hx : x.isNaN = false) (hy : y.isNaN = false) : (x == y) = true ↔ ordinal x = ordinal y := by
  have hbeq : (x == y) = (x.toModel.unpack.compare y.toModel.unpack == some .eq) := rfl
  rw [hbeq, compare_eq_ordinal hx hy, beq_iff_eq, Option.some_inj]
  exact Int.compare_eq_eq

/-- One double is less than the other if it stands in front of it. -/
theorem lt_iff_ordinal (hx : x.isNaN = false) (hy : y.isNaN = false) : x < y ↔ ordinal x < ordinal y := by
  have hlt : x < y ↔ (x.toModel.unpack.compare y.toModel.unpack == some .lt) = true := decide_eq_true_iff
  rw [hlt, compare_eq_ordinal hx hy, beq_iff_eq, Option.some_inj]
  exact Int.compare_eq_lt

end EventScript.Decimal
