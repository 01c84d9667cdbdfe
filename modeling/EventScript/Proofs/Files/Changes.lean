import EventScript.Proofs.Files.Paths

/-!
# What operations do to files

An operation that fails changes no entry. One that succeeds has done its work: what stands at which location then.
-/

namespace EventScript

namespace Files

variable {files files' : Files} {l m : Location}

/-- The files after one more access. -/
def accessed (files : Files) : Files := { files with accesses := files.accesses + 1 }

/-- An access meets its fault, if there is one for it, and counts itself in any case. -/
theorem access_apply (files : Files) :
    access files = ((files.trouble files.accesses).elim (.ok ()) .error, files.accessed) := by
  unfold access
  rw [Run.get_bind]
  cases htrouble : files.trouble files.accesses with
  | none => rfl
  | some fault => rfl

/-- An operation that starts with an access fails there, or goes on with the entries that were there. -/
theorem access_bind {α : Type} {f : Unit → FileAct α} {r : Except FileFault α} (h : (access >>= f) files = (r, files')) :
    (∃ fault, r = .error fault ∧ files' = files.accessed) ∨ f () files.accessed = (r, files') := by
  have haccess := access_apply files
  cases htrouble : files.trouble files.accesses with
  | none =>
    rw [htrouble] at haccess
    exact .inr ((Run.bind_ok haccess).symm.trans h)
  | some fault =>
    rw [htrouble] at haccess
    cases (Run.bind_error haccess).symm.trans h
    exact .inl ⟨fault, rfl, rfl⟩

/-- An access that meets no fault leaves the operation to itself. -/
theorem access_bind_quiet {α : Type} {f : Unit → FileAct α} (hquiet : files.trouble files.accesses = none) :
    (access >>= f) files = f () files.accessed := by
  have haccess := access_apply files
  rw [hquiet] at haccess
  exact Run.bind_ok haccess

/-- Without trouble what is written stands at the location, unless a directory does. -/
theorem write_quiet (hquiet : files.trouble files.accesses = none) (hfree : files.isDirectory l = false) (c : Content) :
    write l c files = (.ok (), files.accessed.put l (.file c)) := by
  have hfree : files.accessed.isDirectory l = false := hfree
  unfold write
  rw [access_bind_quiet hquiet, Run.get_bind, hfree]
  rfl

/-- Without trouble a file moves to the other location, unless a directory stands there. -/
theorem rename_quiet (hquiet : files.trouble files.accesses = none) {c : Content} (hentry : files.entry? l = some (.file c))
    (hfree : files.isDirectory m = false) :
    rename l m files = (.ok (), (files.accessed.erase l).put m (.file c)) := by
  have hentry : files.accessed.entry? l = some (.file c) := hentry
  have hfree : files.accessed.isDirectory m = false := hfree
  unfold rename
  rw [access_bind_quiet hquiet, Run.get_bind, hentry]
  dsimp only
  rw [hfree]
  rfl

/-- Without trouble the text of a file is read. -/
theorem readText_quiet (hquiet : files.trouble files.accesses = none) {text : String}
    (hentry : files.entry? l = some (.file (.text text))) : readText l files = (.ok text, files.accessed) := by
  have hentry : files.accessed.entry? l = some (.file (.text text)) := hentry
  unfold readText
  rw [access_bind_quiet hquiet, Run.get_bind, hentry]
  rfl

/-- The faults of accesses are given once and for all. -/
theorem readText_trouble (l : Location) (files : Files) : (readText l files).2.trouble = files.trouble := by
  refine Run.bind_keeps trouble (fun files => ?_) (fun _ files => ?_) files
  · rw [access_apply]
    rfl
  · rw [Run.get_bind]
    rcases files.entry? l with _ | ⟨_ | _⟩ | _ <;> rfl

/-- To read changes no entry. -/
theorem readText_entries {r : Except FileFault String} (h : readText l files = (r, files')) :
    files'.entries = files.entries := by
  rcases access_bind h with ⟨fault, -, rfl⟩ | h
  · rfl
  · rw [Run.get_bind] at h
    rcases hentry : files.accessed.entry? l with _ | ⟨_ | _⟩ | _ <;> simp only [hentry] at h <;> cases h <;> rfl

/-- What was read stands there. -/
theorem readText_eq_ok {text : String} (h : readText l files = (.ok text, files')) :
    files.entry? l = some (.file (.text text)) := by
  rcases access_bind h with ⟨fault, hfault, -⟩ | h
  · cases hfault
  · rw [Run.get_bind] at h
    rcases hentry : files.accessed.entry? l with _ | ⟨s | bytes⟩ | _ <;> simp only [hentry] at h <;> cases h
    exact hentry

/-- A write that fails changes no entry. -/
theorem write_eq_error {c : Content} {fault : FileFault} (h : write l c files = (.error fault, files')) :
    files'.entries = files.entries := by
  rcases access_bind h with ⟨fault, -, rfl⟩ | h
  · rfl
  · rw [Run.get_bind] at h
    split at h <;> cases h
    rfl

/-- One that succeeds puts the content where no directory stands. -/
theorem write_eq_ok {c : Content} (h : write l c files = (.ok (), files')) :
    files.isDirectory l = false ∧ files' = files.accessed.put l (.file c) := by
  rcases access_bind h with ⟨fault, hfault, -⟩ | h
  · cases hfault
  · rw [Run.get_bind] at h
    split at h
    · cases h
    next hfree =>
      cases h
      exact ⟨Bool.not_eq_true _ ▸ hfree, rfl⟩

/-- A move that fails changes no entry. -/
theorem rename_eq_error {fault : FileFault} (h : rename l m files = (.error fault, files')) :
    files'.entries = files.entries := by
  rcases access_bind h with ⟨fault, -, rfl⟩ | h
  · rfl
  · rw [Run.get_bind] at h
    rcases hentry : files.accessed.entry? l with _ | c | _ <;> simp only [hentry] at h
    · cases h
      rfl
    · split at h <;> cases h
      rfl
    · cases h
      rfl

/-- One that succeeds takes a file from one location to another where no directory stands. -/
theorem rename_eq_ok (h : rename l m files = (.ok (), files')) :
    ∃ c, files.entry? l = some (.file c) ∧ files.isDirectory m = false ∧
      files' = (files.accessed.erase l).put m (.file c) := by
  rcases access_bind h with ⟨fault, hfault, -⟩ | h
  · cases hfault
  · rw [Run.get_bind] at h
    rcases hentry : files.accessed.entry? l with _ | c | _ <;> simp only [hentry] at h
    · cases h
    · split at h
      · cases h
      next hfree =>
        cases h
        exact ⟨c, hentry, Bool.not_eq_true _ ▸ hfree, rfl⟩
    · cases h

end Files

section

variable {α β : Type} {files : Files} {query : Files → Except FileFault α} {f : α → FileAct β}

/-- A question that is answered changes nothing for the rest. -/
theorem FileAct.ofQuery_bind_ok {a : α} (h : query files = .ok a) : (FileAct.ofQuery query >>= f) files = f a files := by
  have hquery : FileAct.ofQuery query files = (.ok a, files) := by rw [FileAct.ofQuery, h]
  exact Run.bind_ok hquery

/-- One that is not is the end of it. -/
theorem FileAct.ofQuery_bind_error {fault : FileFault} (h : query files = .error fault) :
    (FileAct.ofQuery query >>= f) files = (.error fault, files) := by
  have hquery : FileAct.ofQuery query files = (.error fault, files) := by rw [FileAct.ofQuery, h]
  exact Run.bind_error hquery

end

namespace Path

variable {files files' : Files} {p q : Path}

/-- To read along a path changes no entry. -/
theorem readText_entries {r : Except FileFault String} (h : p.readText files = (r, files')) :
    files'.entries = files.entries := by
  unfold readText at h
  cases hlocate : p.locate files with
  | error fault =>
    rw [FileAct.ofQuery_bind_error hlocate] at h
    cases h
    rfl
  | ok l =>
    rw [FileAct.ofQuery_bind_ok hlocate] at h
    exact Files.readText_entries h

/-- What was read stands where the path leads. -/
theorem readText_eq_ok {text : String} (h : p.readText files = (.ok text, files')) :
    ∃ l, p.locate files = .ok l ∧ files.entry? l = some (.file (.text text)) := by
  unfold readText at h
  cases hlocate : p.locate files with
  | error fault =>
    rw [FileAct.ofQuery_bind_error hlocate] at h
    cases h
  | ok l =>
    rw [FileAct.ofQuery_bind_ok hlocate] at h
    exact ⟨l, rfl, Files.readText_eq_ok h⟩

/-- A write along a path that fails changes no entry. -/
theorem write_eq_error {c : Content} {fault : FileFault} (h : p.write c files = (.error fault, files')) :
    files'.entries = files.entries := by
  unfold write at h
  cases htarget : p.target files with
  | error fault =>
    rw [FileAct.ofQuery_bind_error htarget] at h
    cases h
    rfl
  | ok l =>
    rw [FileAct.ofQuery_bind_ok htarget] at h
    exact Files.write_eq_error h

/-- One that succeeds puts the content where the path leads to, or would lead to. -/
theorem write_eq_ok {c : Content} (h : p.write c files = (.ok (), files')) :
    ∃ l, p.target files = .ok l ∧ files.isDirectory l = false ∧ files' = files.accessed.put l (.file c) := by
  unfold write at h
  cases htarget : p.target files with
  | error fault =>
    rw [FileAct.ofQuery_bind_error htarget] at h
    cases h
  | ok l =>
    rw [FileAct.ofQuery_bind_ok htarget] at h
    exact ⟨l, rfl, Files.write_eq_ok h⟩

/-- A move between paths that fails changes no entry. -/
theorem rename_eq_error {fault : FileFault} (h : p.rename q files = (.error fault, files')) :
    files'.entries = files.entries := by
  unfold rename at h
  cases hmove : p.move q files with
  | error fault =>
    rw [FileAct.ofQuery_bind_error hmove] at h
    cases h
    rfl
  | ok places =>
    rw [FileAct.ofQuery_bind_ok hmove] at h
    exact Files.rename_eq_error h

/-- One that succeeds takes a file from where the one path leads to where the other one does. -/
theorem rename_eq_ok (h : p.rename q files = (.ok (), files')) :
    ∃ l m c, p.move q files = .ok (l, m) ∧ files.entry? l = some (.file c) ∧ files.isDirectory m = false ∧
      files' = (files.accessed.erase l).put m (.file c) := by
  unfold rename at h
  cases hmove : p.move q files with
  | error fault =>
    rw [FileAct.ofQuery_bind_error hmove] at h
    cases h
  | ok places =>
    obtain ⟨l, m⟩ := places
    rw [FileAct.ofQuery_bind_ok hmove] at h
    obtain ⟨c, hentry, hfree, rfl⟩ := Files.rename_eq_ok h
    exact ⟨l, m, c, rfl, hentry, hfree, rfl⟩

end Path

end EventScript
