import EventScript.Text.CaseMapping
import Mathlib.Data.List.Chain

/-!
# Search trees of code points

The tables of code points are rising lists of rows, and a code point is looked up along the list. A `Search` holds the rows of such a list
in a tree and finds the same row in a few steps (`Search.find?_ofRows`), so that what the tables say of thousands of code points can be
decided.
-/

namespace EventScript.Text

/-- A row of a table: the first and the last code point that it is about, and what it says of them. -/
abbrev Row (β : Type) := Nat × Nat × β

namespace Row

variable {β : Type}

def first (r : Row β) : Nat := r.1

def last (r : Row β) : Nat := r.2.1

def value (r : Row β) : β := r.2.2

/-- The row is about this code point. -/
def holds (n : Nat) (r : Row β) : Bool := Nat.ble r.first n && Nat.ble n r.last

/-- A row is about the code points from its first to its last one. -/
theorem holds_iff {n : Nat} {r : Row β} : holds n r = true ↔ r.first ≤ n ∧ n ≤ r.last := by
  rw [holds, Bool.and_eq_true, Nat.ble_eq, Nat.ble_eq]

/-- A row is not about a code point in front of it. -/
theorem not_holds_of_lt {n : Nat} {r : Row β} (h : n < r.first) : holds n r = false :=
  Bool.eq_false_iff.mpr fun hholds => absurd (holds_iff.mp hholds).1 (Nat.not_le_of_lt h)

/-- A row is not about a code point behind it. -/
theorem not_holds_of_gt {n : Nat} {r : Row β} (h : r.last < n) : holds n r = false :=
  Bool.eq_false_iff.mpr fun hholds => absurd (holds_iff.mp hholds).2 (Nat.not_le_of_lt h)

/-- A row that is not empty stands in front of one that starts behind it. -/
def Before (r r' : Row β) : Prop := r.first ≤ r.last ∧ r.last < r'.first

instance (r r' : Row β) : Decidable (r.Before r') := inferInstanceAs (Decidable (_ ∧ _))

instance : Trans (@Before β) Before Before :=
  ⟨fun h h' => ⟨h.1, Nat.lt_of_lt_of_le h.2 (Nat.le_trans h'.1 (Nat.le_of_lt h'.2))⟩⟩

end Row

/-- The rows stand one behind the other. -/
def Rising {β : Type} (rows : List (Row β)) : Prop := rows.IsChain Row.Before

instance {β : Type} (rows : List (Row β)) : Decidable (Rising rows) := inferInstanceAs (Decidable (List.IsChain _ _))

namespace Rising

variable {β : Type} {rows rest : List (Row β)} {r : Row β} {n : Nat}

/-- In a rising list each row stands in front of all later ones. -/
theorem pairwise (h : Rising rows) : rows.Pairwise Row.Before := List.IsChain.pairwise h

/-- The rows at the front of a rising list rise. -/
theorem left (h : Rising (rows ++ rest)) : Rising rows := List.IsChain.left_of_append h

/-- The rows at the end of a rising list rise. -/
theorem right (h : Rising (rows ++ rest)) : Rising rest := List.IsChain.right_of_append h

/-- Rising rows without the first one rise. -/
theorem tail (h : Rising (r :: rest)) : Rising rest := List.IsChain.tail h

/-- In front of a row, the rows behind it are not about a code point. -/
theorem find?_of_le_last (h : Rising (r :: rest)) (hn : n ≤ r.last) : rest.find? (Row.holds n) = none := by
  refine List.find?_eq_none.mpr fun r' hr' => ?_
  have hbefore := (List.pairwise_cons.mp h.pairwise).1 r' hr'
  rw [Row.not_holds_of_lt (Nat.lt_of_le_of_lt hn hbefore.2)]
  exact Bool.false_ne_true

/-- No row of a rising list is about a code point in front of the first one. -/
theorem find?_of_lt_first (h : Rising (r :: rest)) (hn : n < r.first) : (r :: rest).find? (Row.holds n) = none := by
  refine List.find?_eq_none.mpr fun r' hr' => ?_
  have hlt : n < r'.first := by
    rcases List.mem_cons.mp hr' with rfl | hr'
    · exact hn
    · obtain ⟨hfirst, hlast⟩ := (List.pairwise_cons.mp h.pairwise).1 r' hr'
      omega
  rw [Row.not_holds_of_lt hlt]
  exact Bool.false_ne_true

/-- Behind the first code point of a row, the rows in front of it are not about a code point. -/
theorem find?_of_first_le (h : Rising (rows ++ r :: rest)) (hn : r.first ≤ n) : rows.find? (Row.holds n) = none := by
  refine List.find?_eq_none.mpr fun r' hr' => ?_
  have hbefore := (List.pairwise_append.mp h.pairwise).2.2 r' hr' r List.mem_cons_self
  rw [Row.not_holds_of_gt (Nat.lt_of_lt_of_le hbefore.2 hn)]
  exact Bool.false_ne_true

end Rising

/-! ## Trees -/

/-- A search tree of rows. -/
inductive Search (β : Type) where
  | leaf
  | node (left : Search β) (first last : Nat) (value : β) (right : Search β)

namespace Search

variable {β : Type}

/-- The tree of this height of the first rows of a list, and the rows that are left. -/
def build : Nat → List (Row β) → Search β × List (Row β)
  | 0, rows => (leaf, rows)
  | height + 1, rows =>
    match build height rows with
    | (left, []) => (left, [])
    | (left, (first, last, value) :: rest) =>
      match build height rest with
      | (right, rest) => (node left first last value right, rest)

/-- The tree of a list of rows. -/
def ofRows (rows : List (Row β)) : Search β := (build (Nat.log2 rows.length + 1) rows).1

/-- The row that is about a code point. -/
def find? : Search β → Nat → Option (Row β)
  | leaf, _ => none
  | node left first last value right, n =>
    bif Nat.blt n first then left.find? n
    else bif Nat.ble n last then some (first, last, value)
    else right.find? n

/-- The rows of a tree, from left to right. -/
def rows : Search β → List (Row β)
  | leaf => []
  | node left first last value right => left.rows ++ (first, last, value) :: right.rows

/-- A tree and what is left over make up the list that the tree was built from. -/
theorem rows_build (height : Nat) (list : List (Row β)) : (build height list).1.rows ++ (build height list).2 = list := by
  induction height generalizing list with
  | zero => rfl
  | succ height ih =>
    have hleft := ih list
    unfold build
    split
    next left hbuild =>
      rw [hbuild] at hleft
      exact hleft
    next left first last value rest hbuild =>
      rw [hbuild] at hleft
      have hright := ih rest
      simp only [rows, List.append_assoc, List.cons_append, hright]
      exact hleft

/-- A tree takes so many rows that it is full, as far as there are that many. -/
theorem length_build (height : Nat) (list : List (Row β)) : (build height list).2.length = list.length - (1 <<< height - 1) := by
  induction height generalizing list with
  | zero => rfl
  | succ height ih =>
    have hdouble : 1 <<< (height + 1) = 1 <<< height + 1 <<< height := by rw [Nat.shiftLeft_succ, Nat.two_mul]
    have hpos : 0 < 1 <<< height := by rw [Nat.one_shiftLeft]; exact Nat.two_pow_pos height
    have hleft := ih list
    unfold build
    split
    next left hbuild =>
      rw [hbuild, List.length_nil] at hleft
      rw [List.length_nil]
      omega
    next left first last value rest hbuild =>
      rw [hbuild, List.length_cons] at hleft
      have hright := ih rest
      dsimp only
      omega

/-- The tree of a list has all of its rows. -/
theorem rows_ofRows (list : List (Row β)) : (ofRows list).rows = list := by
  have hroom : list.length < 1 <<< (Nat.log2 list.length + 1) := by
    rw [Nat.one_shiftLeft]
    exact Nat.lt_log2_self
  have hrest : (build (Nat.log2 list.length + 1) list).2 = [] := by
    rw [← List.length_eq_zero_iff, length_build]
    omega
  have hrows := rows_build (Nat.log2 list.length + 1) list
  rw [hrest, List.append_nil] at hrows
  exact hrows

/-- A tree of rising rows finds the row that the list finds. -/
theorem find?_eq {t : Search β} (h : Rising t.rows) (n : Nat) : t.find? n = t.rows.find? (Row.holds n) := by
  induction t with
  | leaf => rfl
  | node left first last value right ihleft ihright =>
    unfold rows at h ⊢
    rw [List.find?_append]
    unfold find?
    rcases Nat.lt_or_ge n first with hlt | hle
    · have hfirst : Nat.blt n first = true := by rwa [Nat.blt_eq]
      rw [hfirst, cond_true, ihleft h.left, h.right.find?_of_lt_first hlt, Option.or_none]
    have hfirst : Nat.blt n first = false := Bool.eq_false_iff.mpr (by rw [ne_eq, Nat.blt_eq]; omega)
    rw [hfirst, cond_false, h.find?_of_first_le hle, Option.none_or]
    rcases Nat.lt_or_ge last n with hgt | hle'
    · have hlast : Nat.ble n last = false := Bool.eq_false_iff.mpr (by rw [ne_eq, Nat.ble_eq]; omega)
      have hnot : ¬Row.holds n ((first, last, value) : Row β) = true := by
        rw [Row.not_holds_of_gt hgt]
        exact Bool.false_ne_true
      rw [hlast, cond_false, List.find?_cons_of_neg hnot, ihright h.right.tail]
    · have hlast : Nat.ble n last = true := by rwa [Nat.ble_eq]
      have hholds : Row.holds n ((first, last, value) : Row β) = true := Row.holds_iff.mpr ⟨hle, hle'⟩
      rw [hlast, cond_true, List.find?_cons_of_pos hholds]

/-- In the tree of a rising list the same row is found as in the list. -/
theorem find?_ofRows {list : List (Row β)} (h : Rising list) (n : Nat) : (ofRows list).find? n = list.find? (Row.holds n) := by
  have hrows := rows_ofRows list
  rw [find?_eq (by rwa [hrows]), hrows]

end Search

/-! ## The tables as rows -/

/-- The rows of a list of code points. -/
def keyed {β : Type} (list : List (Nat × β)) : List (Row β) := list.map fun entry => (entry.1, entry.1, entry.2)

/-- The rows of a list of ranges. -/
def spread (ranges : List (Nat × Nat)) : List (Row Unit) := ranges.map fun range => (range.1, range.2, ())

/-- A list of entries is looked up as the list of their rows. -/
theorem lookup_eq {β : Type} (list : List (Nat × β)) (n : Nat) :
    list.lookup n = ((keyed list).find? (Row.holds n)).map Row.value := by
  induction list with
  | nil => rfl
  | cons entry rest ih =>
    obtain ⟨key, b⟩ := entry
    by_cases hkey : n = key
    · subst hkey
      have hholds : Row.holds n ((n, n, b) : Row β) = true := Row.holds_iff.mpr ⟨Nat.le_refl n, Nat.le_refl n⟩
      rw [List.lookup_cons_self, keyed, List.map_cons, List.find?_cons_of_pos hholds]
      rfl
    · have hholds : ¬Row.holds n ((key, key, b) : Row β) = true := fun h =>
        hkey (Nat.le_antisymm (Row.holds_iff.mp h).2 (Row.holds_iff.mp h).1)
      have hbeq : (n == key) = false := by simpa using hkey
      rw [List.lookup_cons, hbeq, keyed, List.map_cons, List.find?_cons_of_neg hholds]
      exact ih

/-- A code point is in one of rising ranges if a row is about it. -/
theorem within_eq {ranges : List (Nat × Nat)} (h : Rising (spread ranges)) (n : Nat) :
    within ranges n = ((spread ranges).find? (Row.holds n)).isSome := by
  induction ranges with
  | nil => rfl
  | cons range rest ih =>
    obtain ⟨first, last⟩ := range
    unfold within
    split
    next hlt =>
      rw [spread, List.map_cons, Rising.find?_of_lt_first (r := ((first, last, ()) : Row Unit)) h hlt]
      rfl
    next hlt =>
      by_cases hle : n ≤ last
      · have hholds : Row.holds n ((first, last, ()) : Row Unit) = true := Row.holds_iff.mpr ⟨Nat.le_of_not_lt hlt, hle⟩
        rw [decide_eq_true hle, Bool.true_or, spread, List.map_cons, List.find?_cons_of_pos hholds]
        rfl
      · have hholds : ¬Row.holds n ((first, last, ()) : Row Unit) = true := fun h => hle (Row.holds_iff.mp h).2
        rw [decide_eq_false hle, Bool.false_or, spread, List.map_cons, List.find?_cons_of_neg hholds]
        exact ih h.tail

/-- What the row of a code point makes of it. -/
def runImage (n : Nat) : Option (Row (Nat × Nat)) → Nat
  | some r => bif (n - r.first) % r.value.1 == 0 then r.value.2 + (n - r.first) else n
  | none => n

/-- A code point is mapped by the row that is about it. -/
theorem mapRuns_eq {runs : List (Row (Nat × Nat))} (h : Rising runs) (n : Nat) :
    mapRuns runs n = runImage n (runs.find? (Row.holds n)) := by
  induction runs with
  | nil => rfl
  | cons run rest ih =>
    obtain ⟨first, last, step, image⟩ := run
    unfold mapRuns
    split
    next hlt => rw [h.find?_of_lt_first hlt]; rfl
    next hlt =>
      by_cases hle : n ≤ last
      · have hholds : Row.holds n ((first, last, step, image) : Row (Nat × Nat)) = true :=
          Row.holds_iff.mpr ⟨Nat.le_of_not_lt hlt, hle⟩
        rw [List.find?_cons_of_pos hholds, decide_eq_true hle, Bool.true_and, ih h.tail, h.find?_of_le_last hle]
        exact (Bool.cond_eq_ite ((n - first) % step == 0) (image + (n - first)) n).symm
      · have hholds : ¬Row.holds n ((first, last, step, image) : Row (Nat × Nat)) = true := fun h => hle (Row.holds_iff.mp h).2
        rw [List.find?_cons_of_neg hholds, decide_eq_false hle, Bool.false_and, ih h.tail]
        rfl

end EventScript.Text
