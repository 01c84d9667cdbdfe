import EventScript.Globals.FileStore
import EventScript.Proofs.Files.Changes

/-!
# What a store's file holds

The variables in the file of a store, apart from the faults that reading it may meet. A read that succeeds takes them
(`contents_of_read`), a write that succeeds replaces them (`contents_of_write`), and a write that fails leaves them unless its
draft is the file itself (`contents_of_write_error`).
-/

namespace EventScript.FileStore

variable {files files' : Files} {p : Path} {vars : Variables}

/-- The variables that a text holds, if it is one that a store reads. -/
def held (text : String) : Option Variables :=
  if Text.blank text then some ∅ else (Json.members? text).map Variables.ofMembers

/-- The variables that the file at a path holds, if it can be read. A missing file holds none. -/
def contents (p : Path) (files : Files) : Option Variables :=
  if p.exists? files then (p.text? files).bind held else some ∅

/-- A file with a text in it holds what the text says. -/
theorem contents_of_text {l : Location} {text : String} (hl : p.locate files = .ok l)
    (htext : files.entry? l = some (.file (.text text))) : contents p files = held text := by
  unfold contents Path.exists? Path.text?
  simp only [hl, htext]
  rfl

/-- A file that is missing holds nothing. -/
theorem contents_of_missing (h : p.exists? files = false) : contents p files = some ∅ := by
  unfold contents
  rw [h]
  rfl

/-- What a file holds hangs on where its path leads and what stands there. -/
theorem contents_congr (hlocate : ∀ l, p.locate files = .ok l ↔ p.locate files' = .ok l)
    (hentry : ∀ l, p.locate files = .ok l → files.entry? l = Files.entry? files' l) : contents p files = contents p files' := by
  unfold contents Path.exists? Path.text?
  cases hl : p.locate files with
  | ok l =>
    simp only [(hlocate l).mp hl, hentry l hl]
  | error fault =>
    cases hl' : p.locate files' with
    | ok l => cases ((hlocate l).mpr hl').symm.trans hl
    | error fault' => rfl

/-- What a file holds depends on the entries only. -/
theorem contents_of_entries (h : files'.entries = files.entries) : contents p files' = contents p files := by
  refine contents_congr (fun l => ⟨?_, ?_⟩) fun l _ => Files.entry?_of_entries h l
  · exact Path.locate_of_keepsDirectories (Files.keepsDirectories_of_entries h.symm)
  · exact Path.locate_of_keepsDirectories (Files.keepsDirectories_of_entries h)

/-! ## Reading -/

/-- An operation that goes well is one of the files that does. -/
theorem ofAct_eq_ok {α : Type} {a : FileAct α} {x : α} (h : Filing.ofAct a files = (.ok x, files')) :
    a files = (.ok x, files') := by
  unfold Filing.ofAct at h
  rcases hr : a files with ⟨fault | y, t⟩ <;> rw [hr] at h <;> cases h
  rfl

/-- An operation that fails is one of the files that does. -/
theorem ofAct_eq_error {α : Type} {a : FileAct α} {f : Fault} (h : Filing.ofAct a files = (.error f, files')) :
    ∃ fault, a files = (.error fault, files') := by
  unfold Filing.ofAct at h
  rcases hr : a files with ⟨fault | y, t⟩ <;> rw [hr] at h <;> cases h
  exact ⟨fault, rfl⟩

/-- What is made of a text that was read. -/
theorem read_apply (h : p.exists? files = true) :
    read p files = (Filing.ofAct p.readText >>= fun text => (held text).elim (throw .json) pure : Filing Variables) files := by
  unfold read
  rw [Run.get_bind, if_pos h]
  refine congrFun (bind_congr fun text => ?_) files
  unfold held
  cases Text.blank text with
  | true => rfl
  | false =>
    cases Json.members? text with
    | some members => rfl
    | none => rfl

/-- A file that is missing is read as an empty one. -/
theorem read_missing (h : p.exists? files = false) : read p files = (.ok ∅, files) := by
  unfold read
  rw [Run.get_bind, if_neg (by rw [h]; exact Bool.false_ne_true)]
  rfl

/-- A read that succeeds takes what the file holds. -/
theorem contents_of_read (h : read p files = (.ok vars, files')) : contents p files = some vars := by
  cases hexists : p.exists? files with
  | false =>
    cases (read_missing hexists).symm.trans h
    exact contents_of_missing hexists
  | true =>
    rw [read_apply hexists] at h
    obtain ⟨text, t, htext, hvars⟩ := Run.ok_of_bind h
    obtain ⟨l, hl, hentry⟩ := Path.readText_eq_ok (ofAct_eq_ok htext)
    rw [contents_of_text hl hentry]
    cases hheld : held text with
    | none =>
      rw [hheld] at hvars
      cases hvars
    | some held =>
      rw [hheld] at hvars
      cases hvars
      rfl

/-- Reading changes no entry. -/
theorem read_entries {r : Except Fault Variables} (h : read p files = (r, files')) : files'.entries = files.entries := by
  cases hexists : p.exists? files with
  | false =>
    cases (read_missing hexists).symm.trans h
    rfl
  | true =>
    rw [read_apply hexists] at h
    rcases hread : Filing.ofAct p.readText files with ⟨fault | text, t⟩
    · cases (Run.bind_error hread).symm.trans h
      obtain ⟨fault, hfault⟩ := ofAct_eq_error hread
      exact Path.readText_entries hfault
    · rw [Run.bind_ok hread] at h
      have ht : files' = t := by
        cases hheld : held text <;> rw [hheld] at h <;> cases h <;> rfl
      rw [ht]
      exact Path.readText_entries (ofAct_eq_ok hread)

/-- What the file holds is read if the access meets no fault. -/
theorem read_of_contents (hquiet : files.trouble files.accesses = none) (h : contents p files = some vars) :
    ∃ files', read p files = (.ok vars, files') := by
  unfold contents at h
  cases hexists : p.exists? files with
  | false =>
    rw [hexists, if_neg Bool.false_ne_true] at h
    cases h
    exact ⟨files, read_missing hexists⟩
  | true =>
    rw [hexists, if_pos rfl] at h
    obtain ⟨text, htext, hheld⟩ := Option.bind_eq_some_iff.mp h
    obtain ⟨l, hl, hentry⟩ : ∃ l, p.locate files = .ok l ∧ files.entry? l = some (.file (.text text)) := by
      unfold Path.text? at htext
      split at htext
      · next l hl =>
        refine ⟨l, hl, ?_⟩
        split at htext
        · next hentry =>
          cases htext
          exact hentry
        · cases htext
      · cases htext
    have hread : Filing.ofAct p.readText files = (.ok text, files.accessed) := by
      unfold Filing.ofAct Path.readText
      rw [FileAct.ofQuery_bind_ok hl, Files.readText_quiet hquiet hentry]
    rw [read_apply hexists, Run.bind_ok hread, hheld]
    exact ⟨_, rfl⟩

/-- Reading does not change which accesses fail. -/
theorem read_trouble (p : Path) (files : Files) : (read p files).2.trouble = files.trouble := by
  cases hexists : p.exists? files with
  | false => rw [read_missing hexists]
  | true =>
    rw [read_apply hexists]
    refine Run.bind_keeps Files.trouble (fun files => ?_) (fun text files => ?_) files
    · have hfiling : (Filing.ofAct p.readText files).2 = (p.readText files).2 := by
        unfold Filing.ofAct
        rcases p.readText files with ⟨_ | _, _⟩ <;> rfl
      rw [hfiling]
      exact Run.bind_keeps Files.trouble (fun _ => rfl) Files.readText_trouble files
    · cases held text <;> rfl

/-! ## Writing -/

/-- A write that succeeds replaces what the file holds. -/
theorem contents_of_write (h : write p vars files = (.ok (), files')) :
    contents p files' = held (Json.writeObject vars.storedMembers) := by
  unfold write at h
  obtain ⟨_, written, hwrite, hrename⟩ := Run.ok_of_bind h
  obtain ⟨l, htarget, hfree, rfl⟩ := Path.write_eq_ok hwrite
  obtain ⟨l', m, c, hmove, hentry, hfree', rfl⟩ := Path.rename_eq_ok hrename
  obtain ⟨s, hs, -, -, hsl⟩ := Path.target_eq_ok htarget
  obtain ⟨s', t, hs', hsl', ht, htm, hpointed, hslashed, hlong⟩ := Path.move_eq_ok hmove
  subst hsl hsl' htm
  have hl : s.location ≠ [] := by simp [Spot.location]
  have hm : t.location ≠ [] := by simp [Spot.location]
  -- the draft still stands where it was written, and so it is what is moved
  have hkept : Files.KeepsDirectories files (files.accessed.put s.location _) :=
    .put (show files.accessed.isDirectory s.location = false from hfree) (.text (Json.writeObject vars.storedMembers))
  obtain rfl : s' = s := Except.ok.inj (hs'.symm.trans (Path.spot_of_keepsDirectories hkept hs))
  obtain rfl : c = .text (Json.writeObject vars.storedMembers) := by
    rw [Files.put_self hl] at hentry
    exact (Entry.file.inj (Option.some.inj hentry)).symm
  -- moving it takes no directory away on the way to the file
  refine contents_of_text (l := t.location) ?_ (Files.put_self hm _)
  refine Path.locate_of_keepsDirectories ?_ (Path.locate_of_spot ht hpointed hslashed hlong)
  have hempty := (Files.keepsDirectories_of_erase _ s'.location).isDirectory_eq_false hfree'
  exact Files.KeepsDirectories.trans (Files.KeepsDirectories.erase hentry) (.put hempty _)

/-- A write that fails leaves what the file holds, or else its draft is the file itself and holds what was written. -/
theorem contents_of_write_fails {fault : FileFault} (h : write p vars files = (.error fault, files')) :
    contents p files' = contents p files ∨
    contents p files' = held (Json.writeObject vars.storedMembers) ∧
      ∃ l, p.locate files = .ok l ∧ (draft p).target files = .ok l := by
  unfold write at h
  rcases Run.error_of_bind h with hwrite | ⟨_, written, hwrite, hrename⟩
  · exact .inl (contents_of_entries (Path.write_eq_error hwrite))
  obtain ⟨l, htarget, hfree, rfl⟩ := Path.write_eq_ok hwrite
  rw [contents_of_entries (Path.rename_eq_error hrename)]
  have hl : l ≠ [] := by
    obtain ⟨s, -, -, -, rfl⟩ := Path.target_eq_ok htarget
    simp [Spot.location]
  have hkept : Files.KeepsDirectories files (files.accessed.put l (.file (.text (Json.writeObject vars.storedMembers)))) :=
    .put (show files.accessed.isDirectory l = false from hfree) _
  have hback := Files.keepsDirectories_of_put files.accessed hl (.text (Json.writeObject vars.storedMembers))
  by_cases hself : p.locate files = .ok l
  · exact .inr ⟨contents_of_text (Path.locate_of_keepsDirectories hkept hself) (Files.put_self hl _), l, hself, htarget⟩
  · have hother : ∀ m, p.locate files = .ok m → m ≠ l := by
      rintro m hm rfl
      exact hself hm
    refine .inl (contents_congr (fun m => ⟨?_, ?_⟩) fun m hm => ?_).symm
    · exact Path.locate_of_keepsDirectories hkept
    · exact Path.locate_of_keepsDirectories hback
    · exact (Files.put_of_ne files.accessed (hother m hm) _).symm

/-- A write that fails leaves what the file holds, unless the draft has the name of the file itself. -/
theorem contents_of_write_error (hname : (draft p).fileName? ≠ p.fileName?) {fault : FileFault}
    (h : write p vars files = (.error fault, files')) : contents p files' = contents p files := by
  rcases contents_of_write_fails h with hsame | ⟨-, l, hl, htarget⟩
  · exact hsame
  · have hdraft := Path.getLast?_target htarget
    cases hp : p.fileName? with
    | some name =>
      rw [Path.getLast?_locate hl hp, ← hp] at hdraft
      exact absurd hdraft hname
    | none =>
      have hself : draft p = p := by
        unfold draft Path.withExtension
        rw [hp]
      exact absurd (congrArg Path.fileName? hself) hname

end EventScript.FileStore
