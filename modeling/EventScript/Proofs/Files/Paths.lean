import EventScript.Proofs.Files.Entries

/-!
# Where paths lead

A path that names a place for a file leads to that location, and the location has the file name of the path: `Path.locate_of_spot`,
`Path.getLast?_locate` and `Path.getLast?_target`.
-/

namespace EventScript.Path

variable {files files' : Files} {p : Path} {l : Location} {s : Spot}

/-- The parts of a path that names a place, and the directory around it. -/
theorem spot_eq_ok (h : p.spot files = .ok s) :
    ∃ before slashes : List String, p.parts = before ++ s.name :: slashes ∧ (∀ part ∈ slashes, part = "") ∧ s.name ≠ "" ∧
      files.walk [] (before ++ [""]) = .ok s.directory ∧ s.slashed = decide (p.parts.getLast? = some "") ∧
      p.check = .ok () := by
  unfold spot at h
  cases hcheck : p.check with
  | error f =>
    rw [hcheck] at h
    cases h
  | ok _ =>
    rw [hcheck] at h
    cases hdropped : p.parts.reverse.dropWhile (· == "") with
    | nil =>
      rw [hdropped] at h
      cases h
    | cons name around =>
      rw [hdropped] at h
      cases hwalk : files.walk [] (around.reverse ++ [""]) with
      | error f =>
        simp only [hwalk] at h
        cases h
      | ok directory =>
        simp only [hwalk] at h
        cases h
        have hparts := List.takeWhile_append_dropWhile (p := (· == "")) (l := p.parts.reverse)
        have hempty := List.all_eq_true.mp (List.all_takeWhile (p := (· == "")) (l := p.parts.reverse))
        have hhead := List.head?_dropWhile_not (· == "") p.parts.reverse
        rw [hdropped] at hparts hhead
        generalize p.parts.reverse.takeWhile (· == "") = slashes at hparts hempty
        refine ⟨around.reverse, slashes.reverse, ?_, fun part hpart => ?_, by simpa using hhead, hwalk, rfl, rfl⟩
        · rw [← List.reverse_reverse p.parts, ← hparts]
          simp
        · exact beq_iff_eq.mp (hempty part (List.mem_reverse.mp hpart))

/-- A place that no slash stands behind is named by the last part of the path. -/
theorem parts_of_spot (h : p.spot files = .ok s) (hslashed : s.slashed = false) :
    ∃ before, p.parts = before ++ [s.name] ∧ s.name ≠ "" ∧ files.walk [] before = .ok s.directory ∧
      files.entry? s.directory = some .directory ∧ p.check = .ok () := by
  obtain ⟨before, slashes, hparts, hempty, hname, hwalk, hslash, hcheck⟩ := spot_eq_ok h
  rw [hslashed] at hslash
  have hlast := of_decide_eq_false hslash.symm
  obtain ⟨hdirectory, hentry⟩ := Files.walk_around hwalk
  rcases List.eq_nil_or_concat slashes with rfl | ⟨rest, last, rfl⟩
  · exact ⟨before, hparts, hname, hdirectory, hentry, hcheck⟩
  · have hend : last = "" := hempty last (by simp)
    subst hend
    have hmore : p.parts = (before ++ s.name :: rest) ++ [""] := by
      rw [hparts]
      simp
    exact absurd (by rw [hmore, List.getLast?_concat]) hlast

theorem names_of_pointed (h : s.pointed = false) : s.name ≠ "." ∧ s.name ≠ ".." := by
  unfold Spot.pointed at h
  simpa using h

theorem idle_eq_false {name : String} (hname : name ≠ "") (hpoint : name ≠ ".") : idle name = false := by
  unfold idle
  simp [hname, hpoint]

/-- A path that names a place leads there if nothing stands behind the name. -/
theorem locate_of_spot (h : p.spot files = .ok s) (hpointed : s.pointed = false) (hslashed : s.slashed = false)
    (hlong : s.overlong = false) : p.locate files = .ok s.location := by
  obtain ⟨before, hparts, hname, hwalk, hentry, hcheck⟩ := parts_of_spot h hslashed
  obtain ⟨hpoint, hback⟩ := names_of_pointed hpointed
  have hshort : ¬nameLimit < s.name.utf8ByteSize := of_decide_eq_false hlong
  have hlast : files.walk s.directory [s.name] = .ok s.location := by
    unfold Files.walk
    rw [hentry]
    simp only [idle_eq_false hname hpoint, Bool.false_eq_true, if_false, if_neg hback, if_neg hshort]
    rfl
  unfold locate
  rw [hcheck, hparts]
  show files.walk [] (before ++ [s.name]) = _
  rw [Files.walk_append, hwalk]
  exact hlast

/-- A path names the same place as long as directories stay. -/
theorem spot_of_keepsDirectories (hkeeps : Files.KeepsDirectories files files') (h : p.spot files = .ok s) :
    p.spot files' = .ok s := by
  unfold spot at h ⊢
  cases hcheck : p.check with
  | error f =>
    rw [hcheck] at h
    cases h
  | ok _ =>
    rw [hcheck] at h
    cases hdropped : p.parts.reverse.dropWhile (· == "") with
    | nil =>
      rw [hdropped] at h
      cases h
    | cons name around =>
      rw [hdropped] at h
      cases hwalk : files.walk [] (around.reverse ++ [""]) with
      | error f =>
        simp only [hwalk] at h
        cases h
      | ok directory =>
        simp only [hwalk] at h
        simp only [Files.walk_of_keepsDirectories hkeeps hwalk]
        exact h

theorem locate_of_keepsDirectories (hkeeps : Files.KeepsDirectories files files') (h : p.locate files = .ok l) :
    p.locate files' = .ok l := by
  unfold locate at h ⊢
  cases hcheck : p.check with
  | error f =>
    rw [hcheck] at h
    cases h
  | ok _ =>
    rw [hcheck] at h
    exact Files.walk_of_keepsDirectories hkeeps h

theorem target_of_keepsDirectories (hkeeps : Files.KeepsDirectories files files') (h : p.target files = .ok l) :
    p.target files' = .ok l := by
  unfold target at h ⊢
  cases hs : p.spot files with
  | error f =>
    rw [hs] at h
    cases h
  | ok s =>
    rw [hs] at h
    rw [spot_of_keepsDirectories hkeeps hs]
    exact h

theorem move_of_keepsDirectories {q : Path} {m : Location} (hkeeps : Files.KeepsDirectories files files')
    (h : p.move q files = .ok (l, m)) : p.move q files' = .ok (l, m) := by
  unfold move at h ⊢
  cases hs : p.spot files with
  | error f =>
    rw [hs] at h
    cases h
  | ok s =>
    cases ht : q.spot files with
    | error f =>
      rw [hs, ht] at h
      cases h
    | ok t =>
      rw [hs, ht] at h
      rw [spot_of_keepsDirectories hkeeps hs, spot_of_keepsDirectories hkeeps ht]
      exact h

theorem fileName?_eq_some_iff {name : String} : p.fileName? = some name ↔ p.steps.getLast? = some name ∧ name ≠ ".." := by
  unfold fileName?
  split
  next hback => simp [hback, eq_comm]
  next last hlast =>
    constructor
    · intro hname
      exact ⟨hname, fun hback => hlast (hback ▸ hname)⟩
    · exact fun hname => hname.1

/-- A walk ends at a location with the name of the last part that leads somewhere. -/
theorem getLast?_walk {m : Location} {parts : List String} {name : String} (hwalk : files.walk m parts = .ok l)
    (hlast : (parts.filter fun part => !idle part).getLast? = some name) (hback : name ≠ "..") : l.getLast? = some name := by
  induction parts generalizing m with
  | nil => cases hlast
  | cons part rest ih =>
    unfold Files.walk at hwalk
    split at hwalk
    · cases hwalk
    · cases hwalk
    split at hwalk
    next hidle =>
      rw [List.filter_cons_of_neg (by simp [hidle])] at hlast
      exact ih hwalk hlast
    next hidle =>
      rw [List.filter_cons_of_pos (by simp [hidle])] at hlast
      cases hrest : rest.filter fun part => !idle part with
      | cons next others =>
        rw [hrest, List.getLast?_cons_cons, ← hrest] at hlast
        split at hwalk
        · exact ih hwalk hlast
        split at hwalk
        · cases hwalk
        · exact ih hwalk hlast
      | nil =>
        rw [hrest] at hlast
        obtain rfl : part = name := Option.some.inj hlast
        rw [if_neg hback] at hwalk
        split at hwalk
        · cases hwalk
        have hidle : ∀ other ∈ rest, idle other = true := by
          intro other hother
          have hnone := List.filter_eq_nil_iff.mp hrest other hother
          simpa using hnone
        rw [Files.walk_idle hidle hwalk, List.getLast?_concat]

/-- A path leads to a location with its file name. -/
theorem getLast?_locate (h : p.locate files = .ok l) {name : String} (hname : p.fileName? = some name) :
    l.getLast? = some name := by
  obtain ⟨hlast, hback⟩ := fileName?_eq_some_iff.mp hname
  unfold locate at h
  cases hcheck : p.check with
  | error f =>
    rw [hcheck] at h
    cases h
  | ok _ =>
    rw [hcheck] at h
    exact getLast?_walk h hlast hback

/-- The place at which a file is written. -/
theorem target_eq_ok (h : p.target files = .ok l) :
    ∃ s, p.spot files = .ok s ∧ s.pointed = false ∧ s.slashed = false ∧ s.location = l := by
  unfold target at h
  cases hspot : p.spot files with
  | error f =>
    rw [hspot] at h
    cases h
  | ok s =>
    rw [hspot] at h
    replace h : (if s.pointed || s.slashed then Except.error FileFault.isDirectory
      else if s.overlong then .error FileFault.invalidFilename else .ok s.location) = .ok l := h
    split at h
    · cases h
    next hplain =>
      split at h
      · cases h
      simp only [Bool.or_eq_true, not_or, Bool.not_eq_true] at hplain
      exact ⟨s, rfl, hplain.1, hplain.2, Except.ok.inj h⟩

/-- The places that a file is moved from and to. -/
theorem move_eq_ok {q : Path} {m : Location} (h : p.move q files = .ok (l, m)) :
    ∃ s t, p.spot files = .ok s ∧ s.location = l ∧ q.spot files = .ok t ∧ t.location = m ∧ t.pointed = false ∧
      t.slashed = false ∧ t.overlong = false := by
  unfold move at h
  cases hs : p.spot files with
  | error f =>
    rw [hs] at h
    cases h
  | ok s =>
    cases ht : q.spot files with
    | error f =>
      rw [hs, ht] at h
      cases h
    | ok t =>
      rw [hs, ht] at h
      replace h : (if s.pointed || t.pointed then Except.error FileFault.busy
        else if s.overlong || t.overlong then .error .invalidFilename
        else if s.slashed || t.slashed then .error .notDirectory
        else .ok (s.location, t.location)) = .ok (l, m) := h
      split at h
      · cases h
      next hpointed =>
        split at h
        · cases h
        next hlong =>
          split at h
          · cases h
          next hslashed =>
            cases h
            simp only [Bool.or_eq_true, not_or, Bool.not_eq_true] at hpointed hlong hslashed
            exact ⟨s, t, rfl, rfl, rfl, rfl, hpointed.2, hslashed.2, hlong.2⟩

/-- A file is written at a location with the file name of its path. -/
theorem getLast?_target (h : p.target files = .ok l) : p.fileName? = l.getLast? := by
  obtain ⟨s, hspot, hpointed, hslashed, rfl⟩ := target_eq_ok h
  obtain ⟨before, hparts, hname, -⟩ := parts_of_spot hspot hslashed
  obtain ⟨hpoint, hback⟩ := names_of_pointed hpointed
  unfold Spot.location
  rw [List.getLast?_concat, fileName?_eq_some_iff]
  refine ⟨?_, hback⟩
  unfold steps
  rw [hparts, List.filter_append, List.filter_cons_of_pos (by simp [idle_eq_false hname hpoint])]
  exact List.getLast?_concat

end EventScript.Path
