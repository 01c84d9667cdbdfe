import EventScript.Proofs.Files.Changes
import Mathlib.Data.List.Basic

/-!
# What lies below a directory

A listing gives the files below a directory, at any depth, by the way that leads to them from there.
-/

namespace EventScript

namespace Location

variable {root l m k : Location}

/-- What is below a location is reached from it by at least one more name. -/
theorem below?_eq_some_iff : root.below? m = some l ↔ m = root ++ l ∧ l ≠ [] := by
  induction root generalizing m with
  | nil =>
    cases m with
    | nil =>
      refine ⟨fun h => (by cases h), ?_⟩
      rintro ⟨h, hl⟩
      exact absurd h.symm hl
    | cons c m =>
      refine ⟨fun h => ?_, ?_⟩
      · cases h
        exact ⟨rfl, List.cons_ne_nil c m⟩
      · rintro ⟨rfl, -⟩
        rfl
  | cons r root ih =>
    cases m with
    | nil =>
      refine ⟨fun h => (by cases h), ?_⟩
      rintro ⟨h, -⟩
      cases h
    | cons c m =>
      by_cases hc : r = c
      · subst hc
        rw [below?, if_pos (beq_self_eq_true r), ih, List.cons_append, List.cons_inj_right]
      · rw [below?, if_neg (by simpa using hc), List.cons_append, List.cons_eq_cons]
        refine ⟨fun h => (by cases h), ?_⟩
        rintro ⟨⟨h, -⟩, -⟩
        exact absurd h.symm hc

/-- A location comes no later than itself. -/
theorem precedes_refl (l : Location) : l.precedes l = true := by
  induction l with
  | nil => rfl
  | cons a l ih => simp [precedes, ih]

/-- Of two locations one comes no later than the other. -/
theorem precedes_total (l m : Location) : (l.precedes m || m.precedes l) = true := by
  induction l generalizing m with
  | nil => simp [precedes]
  | cons a l ih =>
    cases m with
    | nil => simp [precedes]
    | cons b m =>
      have hrest := ih m
      simp only [precedes, Bool.or_eq_true, Bool.and_eq_true, decide_eq_true_eq, beq_iff_eq] at hrest ⊢
      by_cases hab : a < b
      · exact .inl (.inl hab)
      by_cases hba : b < a
      · exact .inr (.inl hba)
      have heq : a = b := String.le_antisymm (String.not_lt.mp hba) (String.not_lt.mp hab)
      subst heq
      rcases hrest with h | h
      · exact .inl (.inr ⟨rfl, h⟩)
      · exact .inr (.inr ⟨rfl, h⟩)

/-- The order of the locations is transitive. -/
theorem precedes_trans (h : l.precedes m = true) (h' : m.precedes k = true) : l.precedes k = true := by
  induction l generalizing m k with
  | nil => rfl
  | cons a l ih =>
    cases m with
    | nil => cases h
    | cons b m =>
      cases k with
      | nil => cases h'
      | cons c k =>
        simp only [precedes, Bool.or_eq_true, Bool.and_eq_true, decide_eq_true_eq, beq_iff_eq] at h h' ⊢
        rcases h with h | ⟨rfl, h⟩
        · rcases h' with h' | ⟨rfl, -⟩
          · exact .inl (String.lt_trans h h')
          · exact .inl h
        · rcases h' with h' | ⟨rfl, h'⟩
          · exact .inl h'
          · exact .inr ⟨rfl, ih h h'⟩

/-- Locations that come no later than each other are the same. -/
theorem precedes_antisymm (h : l.precedes m = true) (h' : m.precedes l = true) : l = m := by
  induction l generalizing m with
  | nil =>
    cases m with
    | nil => rfl
    | cons b m => cases h'
  | cons a l ih =>
    cases m with
    | nil => cases h
    | cons b m =>
      simp only [precedes, Bool.or_eq_true, Bool.and_eq_true, decide_eq_true_eq, beq_iff_eq] at h h'
      rcases h with h | ⟨rfl, h⟩
      · rcases h' with h' | ⟨rfl, -⟩
        · exact absurd h' (String.lt_asymm h)
        · exact absurd h (String.lt_irrefl _)
      · rcases h' with h' | ⟨-, h'⟩
        · exact absurd h' (String.lt_irrefl _)
        · rw [ih h h']

end Location

namespace Files

variable {files : Files} {root l : Location}

/-- At each location there is at most one entry. -/
def Proper (files : Files) : Prop := (files.entries.map Prod.fst).Nodup

instance (files : Files) : Decidable files.Proper := inferInstanceAs (Decidable (List.Nodup _))

/-- No access to come meets a fault. -/
def Quiet (files : Files) : Prop := ∀ n, files.accesses ≤ n → files.trouble n = none

/-- Where no access ever fails the next one does not. -/
theorem Quiet.now (h : files.Quiet) : files.trouble files.accesses = none := h _ (Nat.le_refl _)

/-- Where no access ever fails none fails behind the next one. -/
theorem Quiet.accessed (h : files.Quiet) : files.accessed.Quiet := fun n hn => h n (Nat.le_of_succ_le hn)

/-- Where every location is listed once, the entry found at it is the one that is listed. -/
theorem lookup_eq_some_iff_mem {entries : List (Location × Entry)} (hproper : (entries.map Prod.fst).Nodup) {e : Entry} :
    entries.lookup l = some e ↔ (l, e) ∈ entries := by
  induction entries with
  | nil => simp
  | cons head rest ih =>
    obtain ⟨k, f⟩ := head
    obtain ⟨hk, hrest⟩ := List.nodup_cons.mp hproper
    by_cases hl : l = k
    · subst hl
      have hnot : (l, e) ∉ rest := fun hmem => hk (List.mem_map.mpr ⟨_, hmem, rfl⟩)
      simp only [List.lookup_cons_self, Option.some.injEq, List.mem_cons, Prod.mk.injEq, true_and, hnot, or_false]
      exact eq_comm
    · rw [List.lookup_cons, show (l == k) = false from beq_false_of_ne hl, ih hrest]
      simp [hl]

/-- The files below a directory. -/
def below (files : Files) (root : Location) : List Location :=
  files.entries.filterMap fun (l, e) =>
    match e with
    | .file _ => root.below? l
    | .directory => none

/-- A directory is listed with all files below it by one access, where the access does not fail. -/
theorem listBelow_quiet (hquiet : files.trouble files.accesses = none) (hdirectory : files.isDirectory root = true) :
    listBelow root files = (.ok (files.below root), files.accessed) := by
  have hentry : files.accessed.entry? root = some .directory := isDirectory_iff.mp hdirectory
  unfold listBelow
  rw [access_bind_quiet hquiet, Run.get_bind, hentry]
  rfl

/-- What is below a directory are the files at longer locations that start with its own. -/
theorem mem_below_iff (hproper : files.Proper) :
    l ∈ files.below root ↔ l ≠ [] ∧ ∃ c, files.entry? (root ++ l) = some (.file c) := by
  have hentry (c : Content) (hl : l ≠ []) : files.entry? (root ++ l) = some (.file c) ↔ (root ++ l, .file c) ∈ files.entries := by
    unfold entry?
    rw [if_neg (by simp [hl]), lookup_eq_some_iff_mem hproper]
  unfold below
  rw [List.mem_filterMap]
  refine ⟨?_, ?_⟩
  · rintro ⟨⟨m, e⟩, hmem, hbelow⟩
    cases e with
    | directory => cases hbelow
    | file c =>
      obtain ⟨rfl, hl⟩ := Location.below?_eq_some_iff.mp hbelow
      exact ⟨hl, c, (hentry c hl).mpr hmem⟩
  · rintro ⟨hl, c, hfile⟩
    exact ⟨(root ++ l, .file c), (hentry c hl).mp hfile, Location.below?_eq_some_iff.mpr ⟨rfl, hl⟩⟩

end Files

end EventScript
