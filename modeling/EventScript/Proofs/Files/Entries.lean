import EventScript.Files.Resolution
import EventScript.Proofs.Run.Basic

/-!
# Paths and changing files

What stands at a location after a file is put or erased, and where paths lead then: as long as directories stay, paths lead where
they led.
-/

namespace EventScript

namespace Files

variable {files files' : Files} {l m : Location}

/-! ## Entries -/

/-- What is at a location depends on the entries only. -/
theorem entry?_of_entries (h : files'.entries = files.entries) (l : Location) : files'.entry? l = files.entry? l := by
  unfold entry?
  rw [h]

/-- An entry that is taken out of the list is not found any more. -/
theorem lookup_filter_self (entries : List (Location × Entry)) (l : Location) :
    (entries.filter (·.1 != l)).lookup l = none := by
  induction entries with
  | nil => rfl
  | cons head rest ih =>
    obtain ⟨k, e⟩ := head
    by_cases hk : k = l
    · subst hk
      rw [List.filter_cons_of_neg (by simp)]
      exact ih
    · rw [List.filter_cons_of_pos (by simpa using hk), List.lookup_cons, ih]
      rw [show (l == k) = false from beq_false_of_ne (Ne.symm hk)]

/-- The other entries are found as before. -/
theorem lookup_filter_of_ne (entries : List (Location × Entry)) (h : m ≠ l) :
    (entries.filter (·.1 != l)).lookup m = entries.lookup m := by
  induction entries with
  | nil => rfl
  | cons head rest ih =>
    obtain ⟨k, e⟩ := head
    by_cases hk : k = l
    · subst hk
      rw [List.filter_cons_of_neg (by simp), List.lookup_cons, ih]
      rw [show (m == k) = false from beq_false_of_ne h]
    · rw [List.filter_cons_of_pos (by simpa using hk), List.lookup_cons, List.lookup_cons, ih]

/-- What is put at a location is there. -/
theorem put_self (hl : l ≠ []) (e : Entry) : Files.entry? (files.put l e) l = some e := by
  unfold entry? put
  rw [if_neg hl, List.lookup_append, lookup_filter_self]
  simp

/-- What is put at one location leaves the others as they are. -/
theorem put_of_ne (files : Files) (h : m ≠ l) (e : Entry) : Files.entry? (files.put l e) m = files.entry? m := by
  unfold entry? put
  rw [List.lookup_append, lookup_filter_of_ne _ h]
  have hlast : [(l, e)].lookup m = none := by simp [List.lookup_cons, beq_false_of_ne h]
  rw [hlast, Option.or_none]

/-- What is erased at one location leaves the others as they are. -/
theorem erase_of_ne (h : m ≠ l) : Files.entry? (files.erase l) m = files.entry? m := by
  unfold entry? erase
  rw [lookup_filter_of_ne _ h]

/-! ## Directories -/

/-- Every directory stays one. -/
def KeepsDirectories (files files' : Files) : Prop := ∀ l, files.isDirectory l = true → files'.isDirectory l = true

/-- A location is a directory where a directory is found at it. -/
theorem isDirectory_iff : files.isDirectory l = true ↔ files.entry? l = some .directory := by
  unfold isDirectory
  exact beq_iff_eq

/-- Directories hang on the entries alone. -/
theorem keepsDirectories_of_entries (h : files'.entries = files.entries) : KeepsDirectories files files' := by
  intro l hl
  rw [isDirectory_iff] at hl ⊢
  unfold entry? at hl ⊢
  rw [h]
  exact hl

/-- A file takes the place of no directory. -/
theorem KeepsDirectories.put (h : files.isDirectory l = false) (c : Content) : KeepsDirectories files (files.put l (.file c)) := by
  intro m hm
  have hne : m ≠ l := by
    rintro rfl
    rw [h] at hm
    cases hm
  rw [isDirectory_iff] at hm ⊢
  rw [put_of_ne _ hne, hm]

/-- Where a file is put no directory comes to be. -/
theorem keepsDirectories_of_put (files : Files) (hl : l ≠ []) (c : Content) : KeepsDirectories (files.put l (.file c)) files := by
  intro m hm
  rw [isDirectory_iff] at hm ⊢
  by_cases hne : m = l
  · subst hne
    rw [put_self hl] at hm
    cases hm
  · rw [put_of_ne _ hne] at hm
    exact hm

/-- A file that is erased leaves all directories. -/
theorem KeepsDirectories.erase {c : Content} (h : files.entry? l = some (.file c)) : KeepsDirectories files (files.erase l) := by
  intro m hm
  rw [isDirectory_iff] at hm ⊢
  have hne : m ≠ l := by
    rintro rfl
    rw [h] at hm
    cases hm
  rw [erase_of_ne hne, hm]

/-- Where something is erased no directory comes to be. -/
theorem keepsDirectories_of_erase (files : Files) (l : Location) : KeepsDirectories (files.erase l) files := by
  intro m hm
  rw [isDirectory_iff] at hm ⊢
  by_cases hne : m = l
  · subst hne
    unfold entry? erase at hm
    unfold entry?
    split at hm
    next hroot => rw [if_pos hroot]
    next hroot =>
      rw [lookup_filter_self] at hm
      cases hm
  · rw [erase_of_ne hne] at hm
    exact hm

/-- What is no directory behind a change that keeps directories was none before. -/
theorem KeepsDirectories.isDirectory_eq_false (h : KeepsDirectories files files') (hl : files'.isDirectory l = false) :
    files.isDirectory l = false := by
  cases hdirectory : files.isDirectory l with
  | false => rfl
  | true => cases (h l hdirectory).symm.trans hl

/-- Changes that keep directories keep them one after the other. -/
theorem KeepsDirectories.trans {files'' : Files} (h : KeepsDirectories files files') (h' : KeepsDirectories files' files'') :
    KeepsDirectories files files'' := fun l hl => h' l (h l hl)

/-! ## Walks -/

/-- A walk along more names goes on where the first names lead to. -/
theorem walk_append (files : Files) (l : Location) (xs ys : List String) :
    files.walk l (xs ++ ys) = files.walk l xs >>= fun m => files.walk m ys := by
  induction xs generalizing l with
  | nil => rfl
  | cons part rest ih =>
    simp only [List.cons_append, walk]
    cases files.entry? l with
    | none => rfl
    | some e =>
      cases e with
      | file c => rfl
      | directory =>
        dsimp only
        split
        · exact ih l
        split
        · exact ih l.dropLast
        split
        · rfl
        · exact ih (l ++ [part])

/-- What a walk leads through are directories, so it leads to the same location as long as they stay. -/
theorem walk_of_keepsDirectories (h : KeepsDirectories files files') {l : Location} {parts : List String}
    (hwalk : files.walk l parts = .ok m) : files'.walk l parts = .ok m := by
  induction parts generalizing l with
  | nil => exact hwalk
  | cons part rest ih =>
    unfold walk at hwalk ⊢
    cases hentry : files.entry? l with
    | none =>
      rw [hentry] at hwalk
      cases hwalk
    | some e =>
      cases e with
      | file c =>
        rw [hentry] at hwalk
        cases hwalk
      | directory =>
        rw [isDirectory_iff.mp (h l (isDirectory_iff.mpr hentry))]
        rw [hentry] at hwalk
        dsimp only at hwalk ⊢
        split
        next hidle =>
          rw [if_pos hidle] at hwalk
          exact ih hwalk
        next hidle =>
          rw [if_neg hidle] at hwalk
          split
          next hback =>
            rw [if_pos hback] at hwalk
            exact ih hwalk
          next hback =>
            rw [if_neg hback] at hwalk
            split
            next hlong =>
              rw [if_pos hlong] at hwalk
              cases hwalk
            next hlong =>
              rw [if_neg hlong] at hwalk
              exact ih hwalk

/-- Parts that lead nowhere lead to where they start. -/
theorem walk_idle {l : Location} {parts : List String} (hparts : ∀ part ∈ parts, Path.idle part = true)
    (hwalk : files.walk l parts = .ok m) : m = l := by
  induction parts generalizing l with
  | nil => exact (Except.ok.inj hwalk).symm
  | cons part rest ih =>
    unfold walk at hwalk
    split at hwalk
    · cases hwalk
    · cases hwalk
    · rw [if_pos (hparts part (List.mem_cons_self ..))] at hwalk
      exact ih (fun p hp => hparts p (List.mem_cons_of_mem _ hp)) hwalk

/-- The directory around a name. -/
theorem walk_around {l : Location} {before : List String} (hwalk : files.walk l (before ++ [""]) = .ok m) :
    files.walk l before = .ok m ∧ files.entry? m = some .directory := by
  rw [walk_append] at hwalk
  cases hbefore : files.walk l before with
  | error f =>
    rw [hbefore] at hwalk
    cases hwalk
  | ok d =>
    rw [hbefore] at hwalk
    replace hwalk : files.walk d [""] = .ok m := hwalk
    unfold walk at hwalk
    cases hentry : files.entry? d with
    | none =>
      rw [hentry] at hwalk
      cases hwalk
    | some e =>
      cases e with
      | file c =>
        rw [hentry] at hwalk
        cases hwalk
      | directory =>
        rw [hentry] at hwalk
        cases (Except.ok.inj hwalk : d = m)
        exact ⟨rfl, hentry⟩

end Files

end EventScript
