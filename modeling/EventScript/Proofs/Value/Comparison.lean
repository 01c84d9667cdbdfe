import EventScript.Value.Arithmetic
import EventScript.Proofs.Decimal.Ordinal

/-!
# Comparing values

Numbers are compared by the places of their doubles; only two integers are compared further, where their doubles are the same
(`numberOrder`). Hence any two values that have an order are in exactly one, and the comparisons of the language follow it. Three values
agree with each other unless two of them are different integers and the third is the double of both (`Merged`): integers are compared
exactly with each other, and rounded with a double.
-/

namespace EventScript

/-- What a comparison answers about two values in this order. -/
def BinaryOp.holds? : BinaryOp → Ordering → Option Bool
  | .eq, o => some (o == .eq)
  | .ne, o => some (o != .eq)
  | .lt, o => some (o == .lt)
  | .le, o => some (o != .gt)
  | .gt, o => some (o == .gt)
  | .ge, o => some (o != .lt)
  | _, _ => none

namespace Value

def isNaN : Value → Bool
  | float x => x.isNaN
  | _ => false

/-- The values have an order: they are two numbers or two strings. -/
def Comparable : Value → Value → Prop
  | string _, string _ => True
  | a, b => a.isNumber = true ∧ b.isNumber = true

/-- Two different integers and the double that is nearest to both, in any order. -/
def Merged (a b c : Value) : Prop :=
  ∃ (m n : Int64) (x : Float), [a, b, c].Perm [int m, int n, float x] ∧ m ≠ n ∧
    (int m).equals (float x) = true ∧ (int n).equals (float x) = true

/-- The two values are in this order, and all that compares them says so. -/
structure Judged (a b : Value) (o : Ordering) : Prop where
  forward : a.compare? b = some o
  backward : b.compare? a = some o.swap
  equal : a.equals b = (o == .eq)
  operators : ∀ op test, op.holds? o = some test → binary op a b = .ok (.bool test)

variable {a b c : Value}

/-! ## Numbers -/

/-- The place of the double that a number is compared as. -/
def rank : Value → Int
  | int n => Decimal.nearestInt n.toInt
  | float x => Decimal.ordinal x
  | _ => 0

/-- How two values compare whose doubles are the same. -/
def tie : Value → Value → Ordering
  | int m, int n => compare m.toInt n.toInt
  | _, _ => .eq

/-- The order of two numbers. -/
def numberOrder (a b : Value) : Ordering := (compare (rank a) (rank b)).then (tie a b)

/-- Two doubles that are numbers compare as their places do. -/
theorem compareFloat?_eq {x y : Float} (hx : x.isNaN = false) (hy : y.isNaN = false) :
    compareFloat? x y = some (compare (Decimal.ordinal x) (Decimal.ordinal y)) := by
  have hlt := Decimal.lt_iff_ordinal hx hy
  have hgt := Decimal.lt_iff_ordinal hy hx
  have heq := Decimal.beq_iff_ordinal hx hy
  unfold compareFloat?
  rcases Int.lt_trichotomy (Decimal.ordinal x) (Decimal.ordinal y) with h | h | h
  · rw [if_pos (hlt.mpr h), Int.compare_eq_lt.mpr h]
  · rw [if_neg (mt hlt.mp (by omega)), if_neg (mt hgt.mp (by omega)), if_pos (heq.mpr h), Int.compare_eq_eq.mpr h]
  · rw [if_neg (mt hlt.mp (by omega)), if_pos (hgt.mpr h), Int.compare_eq_gt.mpr h]

/-- The order of integers is that of their doubles, and among integers with one double their own. -/
theorem compare_ints (m n : Int64) : compare m.toInt n.toInt = numberOrder (int m) (int n) := by
  have hmono := fun {j k : Int} => Decimal.nearestInt_mono (n := j) (k := k)
  unfold numberOrder rank tie
  rcases Int.lt_trichotomy (Decimal.nearestInt m.toInt) (Decimal.nearestInt n.toInt) with h | h | h
  · rw [Int.compare_eq_lt.mpr h]
    exact Int.compare_eq_lt.mpr (Int.not_le.mp fun hle => Int.not_le.mpr h (hmono hle))
  · rw [Int.compare_eq_eq.mpr h]
    rfl
  · rw [Int.compare_eq_gt.mpr h]
    exact Int.compare_eq_gt.mpr (Int.not_le.mp fun hle => Int.not_le.mpr h (hmono hle))

/-- A double in front is never tied: the places alone decide. -/
theorem numberOrder_float_left (x : Float) (b : Value) : numberOrder (float x) b = compare (rank (float x)) (rank b) := Ordering.then_eq

/-- Neither is a double behind. -/
theorem numberOrder_float_right (a : Value) (x : Float) : numberOrder a (float x) = compare (rank a) (rank (float x)) := by
  cases a <;> exact Ordering.then_eq

/-- The double nearest to an integer is a number. -/
theorem ofInt64_isNaN (n : Int64) : (Decimal.ofInt64 n).isNaN = false := (Decimal.ordinal_ofInt64 n).1

/-- It stands in the place that the integer is compared by. -/
theorem ordinal_ofInt64 (n : Int64) : Decimal.ordinal (Decimal.ofInt64 n) = rank (int n) := (Decimal.ordinal_ofInt64 n).2

/-- Two numbers have the order of their places, and behind those of their integers. -/
theorem compare?_numbers (ha : a.isNumber = true) (hb : b.isNumber = true) (ha' : a.isNaN = false) (hb' : b.isNaN = false) :
    a.compare? b = some (numberOrder a b) := by
  cases a with
  | int m =>
    cases b with
    | int n => exact congrArg some (compare_ints m n)
    | float y =>
      rw [numberOrder_float_right, ← ordinal_ofInt64]
      exact compareFloat?_eq (ofInt64_isNaN m) hb'
    | _ => cases hb
  | float x =>
    rw [numberOrder_float_left]
    cases b with
    | int n =>
      rw [← ordinal_ofInt64]
      exact compareFloat?_eq ha' (ofInt64_isNaN n)
    | float y => exact compareFloat?_eq ha' hb'
    | _ => cases hb
  | _ => cases ha

/-- They are equal exactly if that order makes no difference between them. -/
theorem equals_numbers (ha : a.isNumber = true) (hb : b.isNumber = true) (ha' : a.isNaN = false) (hb' : b.isNaN = false) :
    a.equals b = true ↔ numberOrder a b = .eq := by
  cases a with
  | int m =>
    cases b with
    | int n =>
      rw [← compare_ints, Int.compare_eq_eq, Int64.toInt_inj]
      exact beq_iff_eq
    | float y =>
      rw [numberOrder_float_right, ← ordinal_ofInt64, Int.compare_eq_eq]
      exact Decimal.beq_iff_ordinal (ofInt64_isNaN m) hb'
    | _ => cases hb
  | float x =>
    rw [numberOrder_float_left, Int.compare_eq_eq]
    cases b with
    | int n =>
      rw [← ordinal_ofInt64]
      exact Decimal.beq_iff_ordinal ha' (ofInt64_isNaN n)
    | float y => exact Decimal.beq_iff_ordinal ha' hb'
    | _ => cases hb
  | _ => cases ha

/-- A tie is broken the other way round from the other side. -/
theorem tie_swap (a b : Value) : tie b a = (tie a b).swap := by
  cases a with
  | int m =>
    cases b with
    | int n => exact (Int.compare_swap _ _).symm
    | _ => rfl
  | _ => cases b <;> rfl

/-- So is the order of two numbers. -/
theorem numberOrder_swap (a b : Value) : numberOrder b a = (numberOrder a b).swap := by
  rw [numberOrder, numberOrder, Ordering.swap_then, Int.compare_swap, tie_swap]

/-- Of two numbers in a row the second has the place of the first or a further one, and ties are in order as well. -/
theorem numberOrder_isLE_iff : (numberOrder a b).isLE = true ↔ rank a < rank b ∨ rank a = rank b ∧ (tie a b).isLE = true := by
  unfold numberOrder
  rcases Int.lt_trichotomy (rank a) (rank b) with h | h | h
  · rw [Int.compare_eq_lt.mpr h]
    exact iff_of_true rfl (.inl h)
  · rw [Int.compare_eq_eq.mpr h]
    exact ⟨fun htie => .inr ⟨h, htie⟩, fun hor => (hor.resolve_left (by omega)).2⟩
  · rw [Int.compare_eq_gt.mpr h]
    exact iff_of_false Bool.false_ne_true (by omega)

/-- Numbers are in one place if their doubles and their integers are. -/
theorem numberOrder_eq_iff : numberOrder a b = .eq ↔ rank a = rank b ∧ tie a b = .eq := by
  rw [numberOrder, Ordering.then_eq_eq, Int.compare_eq_eq]

/-- One number comes first by its double, or by its integer where the doubles are the same. -/
theorem numberOrder_lt_iff : numberOrder a b = .lt ↔ rank a < rank b ∨ rank a = rank b ∧ tie a b = .lt := by
  rw [numberOrder, Ordering.then_eq_lt, Int.compare_eq_lt, Int.compare_eq_eq]

/-! ## Three numbers -/

/-- Three numbers in one place, of which two are different integers, are merged. -/
theorem merged_of_rank {m n : Int64} {x : Float} (hperm : [a, b, c].Perm [int m, int n, float x]) (hne : m ≠ n)
    (hx : x.isNaN = false) (hm : rank (int m) = rank (float x)) (hn : rank (int n) = rank (float x)) : Merged a b c := by
  have hequals : ∀ k : Int64, rank (int k) = rank (float x) → (int k).equals (float x) = true := fun k hk => by
    exact (equals_numbers (b := float x) rfl rfl rfl hx).mpr (numberOrder_eq_iff.mpr ⟨hk, rfl⟩)
  exact ⟨m, n, x, hperm, hne, hequals m hm, hequals n hn⟩

/-- Nothing is in front of itself. -/
theorem tie_self (v : Value) : tie v v = .eq := by
  cases v with
  | int n => exact Int.compare_eq_eq.mpr rfl
  | _ => rfl

/-- Numbers with one double among which there is a double do not differ in anything, unless they merge. -/
theorem ties_of_float {x : Float} (ha : a.isNumber = true) (hb : b.isNumber = true) (hc : c.isNumber = true) (hx : float x ∈ [a, b, c])
    (hx' : x.isNaN = false) (hab : rank a = rank b) (hbc : rank b = rank c) (hmerged : ¬Merged a b c) :
    tie a b = .eq ∧ tie b c = .eq ∧ tie a c = .eq := by
  have hsame : ∀ {m n : Int64}, [a, b, c].Perm [int m, int n, float x] → rank (int m) = rank (float x) →
      rank (int n) = rank (float x) → tie (int m) (int n) = .eq := fun {m n} hperm hm hn => by
    obtain rfl : m = n := Decidable.byContradiction fun hne => hmerged (merged_of_rank hperm hne hx' hm hn)
    exact tie_self (int m)
  cases a with
  | int m =>
    cases b with
    | int n =>
      cases c with
      | int k => simp at hx
      | float y =>
        obtain rfl : x = y := by simpa using hx
        exact ⟨hsame (.refl _) (hab.trans hbc) hbc, rfl, rfl⟩
      | _ => cases hc
    | float y =>
      cases c with
      | int k =>
        obtain rfl : x = y := by simpa using hx
        exact ⟨rfl, rfl, hsame (.cons _ (.swap _ _ _)) hab hbc.symm⟩
      | float z => exact ⟨rfl, rfl, rfl⟩
      | _ => cases hc
    | _ => cases hb
  | float y =>
    cases b with
    | int n =>
      cases c with
      | int k =>
        obtain rfl : x = y := by simpa using hx
        exact ⟨rfl, hsame (List.perm_append_comm : ([float x] ++ [int n, int k]).Perm _) hab.symm (hab.trans hbc).symm, rfl⟩
      | float z => exact ⟨rfl, rfl, rfl⟩
      | _ => cases hc
    | float z => cases c <;> exact ⟨rfl, rfl, rfl⟩
    | _ => cases hb
  | _ => cases ha

/-- Without a double the ties are the order of the integers. -/
theorem exists_ints (ha : a.isNumber = true) (hb : b.isNumber = true) (hc : c.isNumber = true) (h : ∀ x, float x ∉ [a, b, c]) :
    ∃ m n k, a = int m ∧ b = int n ∧ c = int k := by
  cases a with
  | int m =>
    cases b with
    | int n =>
      cases c with
      | int k => exact ⟨m, n, k, rfl, rfl, rfl⟩
      | float x => exact absurd (by simp) (h x)
      | _ => cases hc
    | float x => exact absurd (by simp) (h x)
    | _ => cases hb
  | float x => exact absurd (by simp) (h x)
  | _ => cases ha

/-- Ties follow each other in a row, unless the numbers merge. -/
theorem tie_trans (ha : a.isNumber = true) (hb : b.isNumber = true) (hc : c.isNumber = true) (ha' : a.isNaN = false)
    (hb' : b.isNaN = false) (hc' : c.isNaN = false) (hmerged : ¬Merged a b c) (hab : rank a = rank b) (hbc : rank b = rank c)
    (h : (tie a b).isLE = true) (h' : (tie b c).isLE = true) :
    (tie a c).isLE = true ∧ (tie a c = .eq ↔ tie a b = .eq ∧ tie b c = .eq) := by
  by_cases hfloat : ∃ x, float x ∈ [a, b, c]
  · obtain ⟨x, hx⟩ := hfloat
    have hx' : x.isNaN = false := by
      simp only [List.mem_cons, List.not_mem_nil, or_false] at hx
      rcases hx with rfl | rfl | rfl
      · exact ha'
      · exact hb'
      · exact hc'
    obtain ⟨htie, htie', htie''⟩ := ties_of_float ha hb hc hx hx' hab hbc hmerged
    rw [htie, htie', htie'']
    exact ⟨rfl, iff_of_true rfl ⟨rfl, rfl⟩⟩
  · obtain ⟨m, n, k, rfl, rfl, rfl⟩ := exists_ints ha hb hc (not_exists.mp hfloat)
    simp only [tie, Int.isLE_compare, Int.compare_eq_eq] at h h' ⊢
    omega

/-- Numbers follow each other in a row, unless they merge; and the first equals the last just if both equal the one between. -/
theorem numberOrder_trans (ha : a.isNumber = true) (hb : b.isNumber = true) (hc : c.isNumber = true) (ha' : a.isNaN = false)
    (hb' : b.isNaN = false) (hc' : c.isNaN = false) (hmerged : ¬Merged a b c) (h : (numberOrder a b).isLE = true)
    (h' : (numberOrder b c).isLE = true) :
    (numberOrder a c).isLE = true ∧ (numberOrder a c = .eq ↔ numberOrder a b = .eq ∧ numberOrder b c = .eq) := by
  rw [numberOrder_isLE_iff] at h h' ⊢
  simp only [numberOrder_eq_iff]
  by_cases hranks : rank a = rank b ∧ rank b = rank c
  · obtain ⟨hab, hbc⟩ := hranks
    have htie := (h.resolve_left (by omega)).2
    have htie' := (h'.resolve_left (by omega)).2
    obtain ⟨hle, heq⟩ := tie_trans ha hb hc ha' hb' hc' hmerged hab hbc htie htie'
    refine ⟨.inr ⟨hab.trans hbc, hle⟩, ?_⟩
    rw [heq, ← hab.trans hbc, ← hab]
    simp only [true_and]
  · have hlt : rank a < rank c := by omega
    exact ⟨.inl hlt, iff_of_false (by omega) (by omega)⟩

/-- What is less than something less is less, whether numbers merge or not. -/
theorem numberOrder_lt_trans (h : numberOrder a b = .lt) (h' : numberOrder b c = .lt) : numberOrder a c = .lt := by
  rw [numberOrder_lt_iff] at h h' ⊢
  by_cases hranks : rank a = rank b ∧ rank b = rank c
  · obtain ⟨hab, hbc⟩ := hranks
    have htie := (h.resolve_left (by omega)).2
    have htie' := (h'.resolve_left (by omega)).2
    refine .inr ⟨hab.trans hbc, ?_⟩
    cases a with
    | int m =>
      cases b with
      | int n =>
        cases c with
        | int k =>
          simp only [tie, Int.compare_eq_lt] at htie htie' ⊢
          omega
        | _ => cases htie'
      | _ => cases htie
    | _ => cases htie
  · omega

/-! ## What is not a number -/

/-- The value without what equality does not look at: the name of a handle's type. -/
def essence : Value → Value
  | handle h => handle ⟨h.identity, ""⟩
  | v => v

/-- Where one of two values is no number, they are equal if they have the same essence. -/
theorem equals_iff_essence (h : a.isNumber = false ∨ b.isNumber = false) : a.equals b = true ↔ a.essence = b.essence := by
  cases a <;> cases b <;> simp [equals, essence, isNumber] at h ⊢

/-- The essence of a number is a number, and no other one is. -/
theorem isNumber_essence (v : Value) : v.essence.isNumber = v.isNumber := by
  cases v <;> rfl

/-- What is equal to a number is one. -/
theorem isNumber_of_equals (h : a.equals b = true) : a.isNumber = b.isNumber := by
  by_cases hor : a.isNumber = false ∨ b.isNumber = false
  · rw [← isNumber_essence a, (equals_iff_essence hor).mp h, isNumber_essence]
  · rw [not_or, Bool.not_eq_false, Bool.not_eq_false] at hor
    rw [hor.1, hor.2]

/-! ## Equality -/

/-- Every value other than not-a-number is equal to itself. -/
theorem equals_self (ha : a.isNaN = false) : a.equals a = true := by
  cases hnumber : a.isNumber with
  | true => exact (equals_numbers hnumber hnumber ha ha).mpr (numberOrder_eq_iff.mpr ⟨rfl, tie_self a⟩)
  | false => exact (equals_iff_essence (.inl hnumber)).mpr rfl

/-- Equality goes in both directions. -/
theorem equals_symm (ha : a.isNaN = false) (hb : b.isNaN = false) (h : a.equals b = true) : b.equals a = true := by
  have hkind := isNumber_of_equals h
  cases hnumber : a.isNumber with
  | true =>
    rw [equals_numbers hnumber (hkind ▸ hnumber) ha hb] at h
    rw [equals_numbers (hkind ▸ hnumber) hnumber hb ha, numberOrder_swap, h]
    rfl
  | false =>
    rw [equals_iff_essence (.inl hnumber)] at h
    rw [equals_iff_essence (.inr hnumber), h]

/-- It goes on from one value to the next, unless three numbers are merged. -/
theorem equals_trans (ha : a.isNaN = false) (hb : b.isNaN = false) (hc : c.isNaN = false) (hmerged : ¬Merged a b c)
    (h : a.equals b = true) (h' : b.equals c = true) : a.equals c = true := by
  have hkind := isNumber_of_equals h
  have hkind' := isNumber_of_equals h'
  cases hnumber : a.isNumber with
  | true =>
    have hb' := hkind ▸ hnumber
    have hc' := hkind' ▸ hb'
    rw [equals_numbers hnumber hb' ha hb] at h
    rw [equals_numbers hb' hc' hb hc] at h'
    have htrans := numberOrder_trans hnumber hb' hc' ha hb hc hmerged (by rw [h]; rfl) (by rw [h']; rfl)
    exact (equals_numbers hnumber hc' ha hc).mpr (htrans.2.mpr ⟨h, h'⟩)
  | false =>
    rw [equals_iff_essence (.inl hnumber)] at h
    rw [equals_iff_essence (.inl (hkind ▸ hnumber))] at h'
    exact (equals_iff_essence (.inl hnumber)).mpr (h.trans h')

/-! ## The comparisons of the language -/

/-- Where two values have an order and equality agrees with it, each comparison answers as the order says. -/
theorem operators_of_order {o : Ordering} (horder : a.compare? b = some o) (hequals : a.equals b = (o == .eq)) (op : BinaryOp)
    (test : Bool) (h : op.holds? o = some test) : binary op a b = .ok (.bool test) := by
  cases op with
  | eq =>
    cases h
    simp only [binary, hequals]
  | ne =>
    cases h
    simp only [binary, hequals]
    rfl
  | lt | le | gt | ge =>
    cases h
    simp only [binary, ordered, horder]
  | _ => cases h

/-- Numbers are judged by their order. -/
theorem judged_numbers (ha : a.isNumber = true) (hb : b.isNumber = true) (ha' : a.isNaN = false) (hb' : b.isNaN = false) :
    Judged a b (numberOrder a b) := by
  have horder := compare?_numbers ha hb ha' hb'
  have hequals : a.equals b = (numberOrder a b == .eq) := by
    rw [Bool.eq_iff_iff, beq_iff_eq]
    exact equals_numbers ha hb ha' hb'
  refine ⟨horder, ?_, hequals, operators_of_order horder hequals⟩
  rw [compare?_numbers hb ha hb' ha', numberOrder_swap]

/-- Strings are judged by theirs. -/
theorem judged_strings (s t : String) : Judged (string s) (string t) (compare s t) := by
  have hequals : (string s).equals (string t) = (compare s t == .eq) := by
    rw [Bool.eq_iff_iff, beq_iff_eq, Std.LawfulEqOrd.compare_eq_iff_eq]
    exact beq_iff_eq
  exact ⟨rfl, congrArg some Std.OrientedOrd.eq_swap, hequals, operators_of_order rfl hequals⟩

/-- Only two numbers and two strings have an order. -/
theorem compare?_cases {o : Ordering} (h : a.compare? b = some o) :
    (a.isNumber = true ∧ b.isNumber = true) ∨ ∃ s t, a = string s ∧ b = string t ∧ o = compare s t := by
  cases a with
  | int m => cases b <;> first | exact .inl ⟨rfl, rfl⟩ | cases h
  | float x => cases b <;> first | exact .inl ⟨rfl, rfl⟩ | cases h
  | string s =>
    cases b with
    | string t => exact .inr ⟨s, t, rfl, rfl, (Option.some.inj h).symm⟩
    | _ => cases h
  | _ => cases b <;> cases h

/-- Two values that have an order are in one of them. -/
theorem exists_judged (ha : a.isNaN = false) (hb : b.isNaN = false) (h : Comparable a b) : ∃ o, Judged a b o := by
  cases a with
  | string s =>
    cases b with
    | string t => exact ⟨_, judged_strings s t⟩
    | _ => cases h.1
  | _ => exact ⟨_, judged_numbers h.1 h.2 ha hb⟩

/-- To be less goes on from one value to the next, merged or not. -/
theorem compare?_lt_trans (ha : a.isNaN = false) (hb : b.isNaN = false) (hc : c.isNaN = false) (h : a.compare? b = some .lt)
    (h' : b.compare? c = some .lt) : a.compare? c = some .lt := by
  rcases compare?_cases h with ⟨ha', hb'⟩ | ⟨s, t, rfl, rfl, hlt⟩
  · rcases compare?_cases h' with ⟨-, hc'⟩ | ⟨t, u, rfl, rfl, hlt⟩
    · rw [compare?_numbers ha' hb' ha hb, Option.some_inj] at h
      rw [compare?_numbers hb' hc' hb hc, Option.some_inj] at h'
      rw [compare?_numbers ha' hc' ha hc, numberOrder_lt_trans h h']
    · cases hb'
  · rcases compare?_cases h' with ⟨hb', -⟩ | ⟨t, u, ht, rfl, hlt'⟩
    · cases hb'
    · cases ht
      exact congrArg some (Std.TransCmp.lt_trans hlt.symm hlt'.symm)

/-- So does to be at most, unless three numbers are merged. -/
theorem compare?_trans {o p : Ordering} (ha : a.isNaN = false) (hb : b.isNaN = false) (hc : c.isNaN = false) (hmerged : ¬Merged a b c)
    (h : a.compare? b = some o) (h' : b.compare? c = some p) (hle : o.isLE = true) (hle' : p.isLE = true) :
    ∃ q, a.compare? c = some q ∧ q.isLE = true ∧ (q = .eq ↔ o = .eq ∧ p = .eq) := by
  rcases compare?_cases h with ⟨ha', hb'⟩ | ⟨s, t, rfl, rfl, rfl⟩
  · rcases compare?_cases h' with ⟨-, hc'⟩ | ⟨t, u, rfl, rfl, rfl⟩
    · rw [compare?_numbers ha' hb' ha hb, Option.some_inj] at h
      rw [compare?_numbers hb' hc' hb hc, Option.some_inj] at h'
      subst h h'
      exact ⟨_, compare?_numbers ha' hc' ha hc, numberOrder_trans ha' hb' hc' ha hb hc hmerged hle hle'⟩
    · cases hb'
  · rcases compare?_cases h' with ⟨hb', -⟩ | ⟨t', u, ht, rfl, rfl⟩
    · cases hb'
    · cases ht
      refine ⟨_, rfl, Std.TransCmp.isLE_trans hle hle', ?_⟩
      simp only [Std.LawfulEqOrd.compare_eq_iff_eq]
      constructor
      · rintro rfl
        have heq := Std.LawfulEqOrd.eq_of_compare (Std.OrientedCmp.isLE_antisymm hle hle')
        exact ⟨heq, heq.symm⟩
      · exact fun ⟨heq, heq'⟩ => heq.trans heq'

/-- Integers that merge have more than 53 bits. -/
theorem Merged.wide (ha : a.isNaN = false) (hb : b.isNaN = false) (hc : c.isNaN = false) (h : Merged a b c) {k : Int64}
    (hk : int k ∈ [a, b, c]) : 2 ^ 53 ≤ k.toInt.natAbs := by
  obtain ⟨m, n, x, hperm, hne, hm, hn⟩ := h
  have hx : (float x).isNaN = false := by
    have hmem : float x ∈ [a, b, c] := hperm.mem_iff.mpr (by simp)
    simp only [List.mem_cons, List.not_mem_nil, or_false] at hmem
    rcases hmem with rfl | rfl | rfl
    · exact ha
    · exact hb
    · exact hc
  have hrank : ∀ j : Int64, (int j).equals (float x) = true → rank (int j) = rank (float x) := fun j hj =>
    (numberOrder_eq_iff.mp ((equals_numbers rfl rfl rfl hx).mp hj)).1
  have hsame : Decimal.nearestInt m.toInt = Decimal.nearestInt n.toInt := (hrank m hm).trans (hrank n hn).symm
  have hwide : 2 ^ 53 ≤ m.toInt.natAbs ∧ 2 ^ 53 ≤ n.toInt.natAbs := by
    have hne' : m.toInt ≠ n.toInt := mt Int64.toInt_inj.mp hne
    have hlt := @Decimal.nearestInt_lt m.toInt n.toInt
    have hgt := @Decimal.nearestInt_lt n.toInt m.toInt
    omega
  have hmem := hperm.mem_iff.mp hk
  simp only [List.mem_cons, int.injEq, reduceCtorEq, List.not_mem_nil, or_false] at hmem
  rcases hmem with rfl | rfl
  · exact hwide.1
  · exact hwide.2

/-- Equality is reflexive and symmetric, and two numbers or two strings are in exactly one order, which all comparisons and those the
other way round agree on. What is less than something less is less. Equality and order are transitive as well, unless two of the three
values are different integers and the third a double that equals both, which takes integers of more than 53 bits. -/
theorem comparison_coherent (a b c : Value) (ha : a.isNaN = false) (hb : b.isNaN = false) (hc : c.isNaN = false) :
    a.equals a = true ∧ a.equals b = b.equals a ∧ (Comparable a b → ∃ o, Judged a b o) ∧
      (a.compare? b = some .lt → b.compare? c = some .lt → a.compare? c = some .lt) ∧
      (¬Merged a b c →
        (a.equals b = true → b.equals c = true → a.equals c = true) ∧
          ∀ o p, a.compare? b = some o → b.compare? c = some p → o.isLE = true → p.isLE = true →
            ∃ q, a.compare? c = some q ∧ q.isLE = true ∧ (q = .eq ↔ o = .eq ∧ p = .eq)) ∧
      (Merged a b c → ∀ k, int k ∈ [a, b, c] → 2 ^ 53 ≤ k.toInt.natAbs) :=
  ⟨equals_self ha, Bool.eq_iff_iff.mpr ⟨equals_symm ha hb, equals_symm hb ha⟩, exists_judged ha hb, compare?_lt_trans ha hb hc,
    fun hmerged => ⟨equals_trans ha hb hc hmerged, fun _ _ => compare?_trans ha hb hc hmerged⟩, fun h _ => h.wide ha hb hc⟩

/-- 1, 1.5 and 2 are in a row, whichever of them are doubles. -/
theorem comparison_coherent_mixed :
    ∃ o, (int 1).compare? (int 2) = some o ∧ o.isLE = true ∧
      (o = .eq ↔ (int 1).compare? (float 1.5) = some .eq ∧ (float 1.5).compare? (int 2) = some .eq) := by
  have hlt : (int 1).compare? (float 1.5) = some .lt := by decide +kernel
  have hlt' : (float 1.5).compare? (int 2) = some .lt := by decide +kernel
  obtain ⟨-, -, -, -, htrans, hwide⟩ := comparison_coherent (int 1) (float 1.5) (int 2) rfl (by decide +kernel) rfl
  have hmerged : ¬Merged (int 1) (float 1.5) (int 2) := fun h => absurd (hwide h 1 (by simp)) (by decide)
  obtain ⟨o, ho, hle, heq⟩ := (htrans hmerged).2 _ _ hlt hlt' rfl rfl
  refine ⟨o, ho, hle, ?_⟩
  rw [hlt, hlt', heq]
  decide

/-- Equality is not transitive: 2^53 + 1 equals the double 2^53, which equals 2^53, and the integers are not equal. -/
theorem comparison_coherent_false :
    ¬∀ a b c : Value, a.isNaN = false → b.isNaN = false → c.isNaN = false → a.equals b = true → b.equals c = true →
      a.equals c = true := by
  intro htrans
  have heq := htrans (int 9007199254740993) (float 9007199254740992.0) (int 9007199254740992) rfl (by decide +kernel) rfl
    (by decide +kernel) (by decide +kernel)
  exact absurd heq (by decide +kernel)

end Value

end EventScript
