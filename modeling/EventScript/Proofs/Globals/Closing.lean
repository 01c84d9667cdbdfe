import Mathlib.Logic.Relation
import EventScript.Proofs.Globals.Reference

/-!
# Stores that are dropped

A store that is dropped is closed, and what it holds is opened again, as long as its file can be written: `reopened_as_dropped`. There
is one gap. The saver makes the last save, the first close stops it, and the store takes writes all the same. What was written behind
a close and is neither flushed nor taken back is lost when the store is dropped (`dropped_behind_close`), and nobody is told.
-/

namespace EventScript

namespace FileStore

variable {files files' : Files} {p : Path} {vars : Variables} {store : FileStore}

/-! ## Files that can always be written -/

/-- The file is read or written, whatever comes of it. -/
def Accessed (p : Path) (files files' : Files) : Prop :=
  (∃ r, read p files = (r, files')) ∨ ∃ vars r, write p vars files = (r, files')

/-- However often the file has been read and written, it can be written once more. -/
def Writable (p : Path) (files : Files) : Prop :=
  ∀ files', Relation.ReflTransGen (Accessed p) files files' → ∀ vars, ∃ files'', write p vars files' = (.ok (), files'')

/-- What can be written to can be written to after any accesses. -/
theorem Writable.after (h : Writable p files) (haccessed : Accessed p files files') : Writable p files' :=
  fun _ hreach => h _ (.head haccessed hreach)

/-- A write succeeds there, and leaves it so. -/
theorem Writable.write (h : Writable p files) (vars : Variables) :
    ∃ files', write p vars files = (.ok (), files') ∧ Writable p files' := by
  obtain ⟨files', hwrite⟩ := h files .refl vars
  exact ⟨files', hwrite, h.after (.inr ⟨vars, _, hwrite⟩)⟩

/-- Nothing is in the way of the draft at `l`, nor of its move to `m`. -/
structure Clear (p : Path) (l m : Location) (files : Files) : Prop where
  quiet : ∀ n, files.trouble n = none
  target : (draft p).target files = .ok l
  move : (draft p).move p files = .ok (l, m)
  draft_free : files.isDirectory l = false
  free : files.isDirectory m = false

namespace Clear

variable {l m : Location}

/-- Directories alone can be in the way. -/
theorem of_keepsDirectories (h : Clear p l m files) (hkeeps : Files.KeepsDirectories files files')
    (hback : Files.KeepsDirectories files' files) (htrouble : files'.trouble = files.trouble) : Clear p l m files' where
  quiet := by
    rw [htrouble]
    exact h.quiet
  target := Path.target_of_keepsDirectories hkeeps h.target
  move := Path.move_of_keepsDirectories hkeeps h.move
  draft_free := hback.isDirectory_eq_false h.draft_free
  free := hback.isDirectory_eq_false h.free

/-- Neither location is the root. -/
theorem ne_nil (h : Clear p l m files) : l ≠ [] ∧ m ≠ [] := by
  obtain ⟨s, -, -, -, rfl⟩ := Path.target_eq_ok h.target
  obtain ⟨-, t, -, -, -, rfl, -⟩ := Path.move_eq_ok h.move
  exact ⟨by simp [Spot.location], by simp [Spot.location]⟩

/-- The draft is written, and the way stays clear. -/
theorem write_draft (h : Clear p l m files) (c : Content) :
    (draft p).write c files = (.ok (), files.accessed.put l (.file c)) ∧ Clear p l m (files.accessed.put l (.file c)) := by
  have hfree : files.accessed.isDirectory l = false := h.draft_free
  constructor
  · unfold Path.write
    rw [FileAct.ofQuery_bind_ok h.target]
    exact Files.write_quiet (h.quiet _) h.draft_free c
  · exact h.of_keepsDirectories (.put hfree c) (Files.keepsDirectories_of_put files.accessed h.ne_nil.1 c) rfl

/-- The draft moves over the file, and the way stays clear. -/
theorem move_draft (h : Clear p l m files) {c : Content} (hentry : files.entry? l = some (.file c)) :
    (draft p).rename p files = (.ok (), (files.accessed.erase l).put m (.file c)) ∧
      Clear p l m ((files.accessed.erase l).put m (.file c)) := by
  have hentry' : files.accessed.entry? l = some (.file c) := hentry
  have hfree : files.accessed.isDirectory m = false := h.free
  have herased := (Files.keepsDirectories_of_erase files.accessed l).isDirectory_eq_false hfree
  constructor
  · unfold Path.rename
    rw [FileAct.ofQuery_bind_ok h.move]
    exact Files.rename_quiet (h.quiet _) hentry h.free
  · refine h.of_keepsDirectories ?_ ?_ rfl
    · exact Files.KeepsDirectories.trans (Files.KeepsDirectories.erase hentry') (.put herased c)
    · exact (Files.keepsDirectories_of_put _ h.ne_nil.2 c).trans (Files.keepsDirectories_of_erase files.accessed l)

/-- The text is put at the draft, and the draft is moved over the file. -/
theorem write_eq (h : Clear p l m files) (vars : Variables) :
    ∃ files', write p vars files = (.ok (), files') ∧ Clear p l m files' := by
  obtain ⟨hwrite, hwritten⟩ := h.write_draft (.text (Json.writeObject vars.storedMembers))
  obtain ⟨hmove, hmoved⟩ := hwritten.move_draft (Files.put_self h.ne_nil.1 _)
  exact ⟨_, (Run.bind_ok hwrite).trans hmove, hmoved⟩

/-- Accesses leave the way clear. -/
theorem of_accessed (h : Clear p l m files) (haccessed : Accessed p files files') : Clear p l m files' := by
  rcases haccessed with ⟨r, hread⟩ | ⟨vars, r, hwrite⟩
  · have hentries := read_entries hread
    have htrouble := read_trouble p files
    rw [hread] at htrouble
    exact h.of_keepsDirectories (Files.keepsDirectories_of_entries hentries) (Files.keepsDirectories_of_entries hentries.symm)
      htrouble
  · obtain ⟨_, hok, hclear⟩ := h.write_eq vars
    cases hok.symm.trans hwrite
    exact hclear

/-- Where the way is clear the file can be written. -/
theorem writable (h : Clear p l m files) : Writable p files := by
  intro files' hreach vars
  have hclear : Clear p l m files' := by
    induction hreach with
    | refl => exact h
    | tail _ haccessed ih => exact ih.of_accessed haccessed
  obtain ⟨files'', hwrite, -⟩ := hclear.write_eq vars
  exact ⟨files'', hwrite⟩

end Clear

/-- Where no access meets a fault of its own, a file that can be written once can always be. -/
theorem writable_of_write (hquiet : ∀ n, files.trouble n = none) (h : write p vars files = (.ok (), files')) :
    Writable p files := by
  unfold write at h
  obtain ⟨_, written, hwrite, hrename⟩ := Run.ok_of_bind h
  obtain ⟨l, htarget, hfree, rfl⟩ := Path.write_eq_ok hwrite
  obtain ⟨l', m, c, hmove, -, hfree', -⟩ := Path.rename_eq_ok hrename
  obtain ⟨s, hs, -, -, rfl⟩ := Path.target_eq_ok htarget
  obtain ⟨s', -, hs', rfl, -⟩ := Path.move_eq_ok hmove
  have hl : s.location ≠ [] := by simp [Spot.location]
  have hkept : Files.KeepsDirectories files (files.accessed.put s.location _) :=
    .put (show files.accessed.isDirectory s.location = false from hfree) (.text (Json.writeObject vars.storedMembers))
  have hback := Files.keepsDirectories_of_put files.accessed hl (.text (Json.writeObject vars.storedMembers))
  obtain rfl : s' = s := Except.ok.inj (hs'.symm.trans (Path.spot_of_keepsDirectories hkept hs))
  exact Clear.writable
    { quiet := hquiet
      target := htarget
      move := Path.move_of_keepsDirectories hback hmove
      draft_free := hfree
      free := hkept.isDirectory_eq_false hfree' }

end FileStore

/-! ## What is done with an open store -/

/-- What is done with an open store. -/
inductive StoreCall where
  | set (name : String) (v : Value)
  | remove (name : String)
  | flush
  | reload
  | close
  /-- The saver saves by itself, as long as it is at work. -/
  | tick

namespace FileStore

/-- The store and the files after a call. -/
def call (store : FileStore) : StoreCall → StateM Files FileStore
  | .set name v => pure ((store.set name v).toOption.getD store)
  | .remove name => pure (store.remove name).2
  | .flush => Prod.snd <$> store.save
  | .reload => Prod.snd <$> store.reload
  | .close => store.close
  | .tick => if store.saving then Prod.snd <$> store.save else pure store

/-- The store and the files after calls in order. -/
def calls (store : FileStore) : List StoreCall → StateM Files FileStore
  | [] => pure store
  | c :: rest => store.call c >>= fun after => after.calls rest

/-! ## The saver -/

section

variable {files : Files} {store : FileStore}

/-- A save leaves the saver at work or stopped. -/
theorem save_saving (store : FileStore) (files : Files) : (store.save files).1.2.saving = store.saving := by
  rcases save_cases store files with ⟨-, hsave⟩ | ⟨files', -, hsave⟩ | ⟨fault, files', -, hsave⟩ <;> rw [hsave]

/-- It leaves the variables as they are. -/
theorem save_cache (store : FileStore) (files : Files) : (store.save files).1.2.cache = store.cache := by
  rcases save_cases store files with ⟨-, hsave⟩ | ⟨files', -, hsave⟩ | ⟨fault, files', -, hsave⟩ <;> rw [hsave]

/-- Only to close the store stops its saver. -/
theorem call_saving (store : FileStore) {c : StoreCall} (hc : c ≠ .close) (files : Files) :
    (store.call c files).1.saving = store.saving := by
  cases c with
  | set name v =>
    show ((store.set name v).toOption.getD store).saving = _
    rcases store.set_cases name v with ⟨-, hset⟩ | ⟨-, hset⟩ | ⟨-, -, hset⟩ <;> rw [hset] <;> rfl
  | remove name =>
    show (store.remove name).2.saving = _
    rcases store.remove_cases name with ⟨v, -, hremove⟩ | ⟨-, hremove⟩ <;> rw [hremove]
  | flush => exact save_saving store files
  | reload =>
    show (store.reload files).1.2.saving = _
    rcases store.reload_cases files with ⟨vars, files', -, hreload⟩ | ⟨f, files', -, hreload⟩ <;> rw [hreload]
  | close => exact absurd rfl hc
  | tick =>
    unfold call
    split
    · exact save_saving store files
    · rfl

/-- Calls that do not close the store leave the saver. -/
theorem calls_saving (store : FileStore) {cs : List StoreCall} (hcs : .close ∉ cs) (files : Files) :
    (store.calls cs files).1.saving = store.saving := by
  induction cs generalizing store files with
  | nil => rfl
  | cons c rest ih =>
    obtain ⟨hc, hrest⟩ := List.ne_and_not_mem_of_not_mem_cons hcs
    exact (ih _ hrest _).trans (store.call_saving hc.symm files)

/-- To close a store whose saver is stopped does nothing. -/
theorem close_stopped (h : store.saving = false) (files : Files) : store.close files = (store, files) := by
  unfold close
  rw [if_neg (by rw [h]; exact Bool.false_ne_true)]
  rfl

/-- A store that is opened has what was read, and its saver is at work. -/
theorem start_eq_ok {p : Path} {opened : Files} (h : start p files = (.ok store, opened)) :
    ∃ vars, read p files = (.ok vars, opened) ∧ store = ⟨p, vars, false, true⟩ := by
  rcases start_cases p files with ⟨vars, files', hread, hok⟩ | ⟨f, files', -, herror⟩
  · cases hok.symm.trans h
    exact ⟨vars, hread, rfl⟩
  · cases herror.symm.trans h

end

/-! ## The invariant -/

/-- A store of the path, whose variables can be written and read back. Where its flag is down the file holds them. -/
structure Kept (Fits : String → Value → Prop) (p : Path) (store : FileStore) (files : Files) : Prop where
  path : store.path = p
  fits : Variables.All Fits store.cache
  saved : ∀ vars, contents p files = some vars → Variables.All Fits vars
  clean : store.dirty = false → contents p files = some store.cache
  writable : Writable p files

namespace Kept

variable {Fits : String → Value → Prop} {p : Path} {store : FileStore} {files : Files}

/-- Changing variables raises the flag. -/
theorem change (h : Kept Fits p store files) {vars : Variables} (hvars : Variables.All Fits vars) :
    Kept Fits p { store with cache := vars, dirty := true } files :=
  ⟨h.path, hvars, h.saved, nofun, h.writable⟩

/-- A store may stop its saver and is kept. -/
theorem stop (h : Kept Fits p store files) : Kept Fits p { store with saving := false } files :=
  ⟨h.path, h.fits, h.saved, h.clean, h.writable⟩

/-- Opening takes what the file holds. -/
theorem of_start {opened : Files} (hstart : start p files = (.ok store, opened)) (hfits : Variables.All Fits store.cache)
    (hwritable : Writable p opened) : Kept Fits p store opened := by
  obtain ⟨vars, hread, rfl⟩ := start_eq_ok hstart
  have hcontents : contents p opened = some vars :=
    (contents_of_entries (read_entries hread)).trans (contents_of_read hread)
  refine ⟨rfl, hfits, fun held hheld => ?_, fun _ => hcontents, hwritable⟩
  cases hcontents.symm.trans hheld
  exact hfits

variable (hjson : ∀ vars, Variables.All Fits vars → held (Json.writeObject vars.storedMembers) = some vars)

include hjson

/-- A save takes the flag down and leaves the variables in the file. -/
theorem save (h : Kept Fits p store files) :
    ∃ files', store.save files = ((.ok (), { store with dirty := false }), files') ∧
      Kept Fits p { store with dirty := false } files' := by
  rcases save_cases store files with ⟨hdirty, hsave⟩ | ⟨files', hwrite, hsave⟩ | ⟨fault, files', hwrite, -⟩
  · have hsame : { store with dirty := false } = store := by rw [← hdirty]
    rw [hsame]
    exact ⟨files, hsave, h⟩
  · rw [h.path] at hwrite
    have hcontents := (contents_of_write hwrite).trans (hjson _ h.fits)
    refine ⟨files', hsave, h.path, h.fits, fun vars hvars => ?_, fun _ => hcontents, h.writable.after (.inr ⟨_, _, hwrite⟩)⟩
    cases hcontents.symm.trans hvars
    exact h.fits
  · rw [h.path] at hwrite
    obtain ⟨_, hok, -⟩ := h.writable.write store.cache
    cases hok.symm.trans hwrite

/-- It is kept when it is closed, with a save or without. -/
theorem close (h : Kept Fits p store files) : Kept Fits p (store.close files).1 (store.close files).2 := by
  cases hsaving : store.saving with
  | true =>
    obtain ⟨files', hsave, hkept⟩ := h.save hjson
    rw [close_apply hsaving, hsave]
    exact hkept.stop
  | false =>
    rw [close_stopped hsaving]
    exact h

/-- Every call keeps a store, if what is set fits. -/
theorem call (h : Kept Fits p store files) (c : StoreCall)
    (hc : ∀ name v, c = .set name v → v ≠ .null → v.kind ≠ .object → Fits name v) :
    Kept Fits p (store.call c files).1 (store.call c files).2 := by
  have hsaved : Kept Fits p (store.save files).1.2 (store.save files).2 := by
    obtain ⟨files', hsave, hkept⟩ := h.save hjson
    rw [hsave]
    exact hkept
  cases c with
  | set name v =>
    show Kept Fits p ((store.set name v).toOption.getD store) files
    rcases store.set_cases name v with ⟨-, hset⟩ | ⟨rfl, hset⟩ | ⟨hkind, hnull, hset⟩
    · rw [hset]
      exact h
    · rw [hset]
      exact h.change (h.fits.erase name)
    · rw [hset]
      exact h.change (h.fits.insert (hc name v rfl hnull hkind))
  | remove name =>
    show Kept Fits p (store.remove name).2 files
    rcases store.remove_cases name with ⟨v, -, hremove⟩ | ⟨-, hremove⟩
    · rw [hremove]
      exact h.change (h.fits.erase name)
    · rw [hremove]
      exact h
  | flush => exact hsaved
  | reload =>
    show Kept Fits p (store.reload files).1.2 (store.reload files).2
    rcases store.reload_cases files with ⟨vars, files', hread, hreload⟩ | ⟨f, files', hread, hreload⟩
    all_goals
      rw [h.path] at hread
      rw [hreload]
      have hsame := contents_of_entries (p := p) (read_entries hread)
      have hwritable := h.writable.after (.inl ⟨_, hread⟩)
    · have hcontents := contents_of_read hread
      exact ⟨h.path, h.saved vars hcontents, hsame.symm ▸ h.saved, fun _ => hsame.trans hcontents, hwritable⟩
    · exact ⟨h.path, h.fits, hsame.symm ▸ h.saved, hsame.symm ▸ h.clean, hwritable⟩
  | close => exact h.close hjson
  | tick =>
    unfold FileStore.call
    split
    · exact hsaved
    · exact h

/-- So does any history of calls. -/
theorem calls (h : Kept Fits p store files) (cs : List StoreCall)
    (hcs : ∀ name v, .set name v ∈ cs → v ≠ .null → v.kind ≠ .object → Fits name v) :
    Kept Fits p (store.calls cs files).1 (store.calls cs files).2 := by
  induction cs generalizing store files with
  | nil => exact h
  | cons c rest ih =>
    have hcall := h.call hjson c fun name v hset => hcs name v (hset ▸ List.mem_cons_self ..)
    exact ih hcall fun name v hmem => hcs name v (List.mem_cons_of_mem _ hmem)

/-- What is closed is in the file, if the saver has been at work until then or nothing was left to save. -/
theorem close_contents (h : Kept Fits p store files) (hlast : store.saving = false → store.dirty = false) :
    contents p (store.close files).2 = some store.cache := by
  cases hsaving : store.saving with
  | true =>
    obtain ⟨files', hsave, hkept⟩ := h.save hjson
    rw [close_apply hsaving, hsave]
    exact hkept.clean rfl
  | false =>
    rw [close_stopped hsaving]
    exact h.clean (hlast hsaving)

end Kept

/-! ## Dropping a store -/

section

variable {Fits : String → Value → Prop} {p : Path} {store : FileStore} {files opened : Files}

/-- What the file holds is opened if the access meets no fault. -/
theorem start_of_contents {vars : Variables} (hquiet : files.trouble files.accesses = none) (h : contents p files = some vars) :
    ∃ files', start p files = (.ok ⟨p, vars, false, true⟩, files') := by
  obtain ⟨files', hread⟩ := read_of_contents hquiet h
  exact ⟨files', Run.bind_ok hread⟩

/-- A store is opened and used in any way, its file can always be written, and then it is dropped. If it is opened again it has exactly
the variables that it had when it was dropped, unless it was closed before and has been written since, without a flush. What is written
has to read back as what it was. -/
theorem reopened_as_dropped
    (hjson : ∀ vars, Variables.All Fits vars → held (Json.writeObject vars.storedMembers) = some vars)
    (hstart : start p files = (.ok store, opened)) (hfits : Variables.All Fits store.cache) (hwritable : Writable p opened)
    (cs : List StoreCall) (hcs : ∀ name v, .set name v ∈ cs → v ≠ .null → v.kind ≠ .object → Fits name v) :
    let last := (store.calls cs opened).1
    let left := (last.close (store.calls cs opened).2).2
    (.close ∈ cs → last.dirty = false) →
      contents p left = some last.cache ∧
        (left.trouble left.accesses = none → ∃ files', start p left = (.ok ⟨p, last.cache, false, true⟩, files')) := by
  intro last left hclosed
  have hkept := (Kept.of_start hstart hfits hwritable).calls hjson cs hcs
  have hsaving : store.saving = true := by
    obtain ⟨vars, -, rfl⟩ := start_eq_ok hstart
    rfl
  have hcontents : contents p left = some last.cache := by
    refine hkept.close_contents hjson fun hstopped => ?_
    by_cases hclose : .close ∈ cs
    · exact hclosed hclose
    · cases ((store.calls_saving hclose opened).trans hsaving).symm.trans hstopped
  exact ⟨hcontents, fun hquiet => start_of_contents hquiet hcontents⟩

/-- A store is written, flushed, written again, closed and flushed after a last write. -/
theorem reopened_as_dropped_flushed :
    let p : Path := ⟨["var.json"]⟩
    let store : FileStore := ⟨p, ∅, false, true⟩
    let cs : List StoreCall := [.set "x" (.bool true), .flush, .remove "x", .close, .set "x" (.bool true), .flush]
    let left := ((store.calls cs .empty).1.close (store.calls cs .empty).2).2
    start p .empty = (.ok store, .empty) ∧ (store.calls cs .empty).1.cache["x"]? = some (.bool true) ∧
      ∃ files', start p left = (.ok ⟨p, (store.calls cs .empty).1.cache, false, true⟩, files') := by
  intro p store cs left
  have hjson (vars : Variables) (hvars : Variables.All (fun name v => name = "x" ∧ v = .bool true) vars) :
      held (Json.writeObject vars.storedMembers) = some vars := by
    rcases hvars.single with rfl | rfl
    · rfl
    · rfl
  have hstart : start p .empty = (.ok store, .empty) := by
    dsimp only [p, store]
    rfl
  have hwritable : Writable p .empty := by
    have hwrite : write p ∅ .empty = (.ok (), (write p ∅ .empty).2) := by
      dsimp only [p]
      rfl
    exact writable_of_write (fun _ => rfl) hwrite
  obtain ⟨-, hreopened⟩ := reopened_as_dropped hjson hstart
    (by
      intro name v hv
      cases Std.ExtTreeMap.getElem?_empty.symm.trans hv)
    hwritable cs
    (by
      intro name v hmem _ _
      simpa [cs] using hmem)
    fun _ => by
      dsimp only [p, store, cs]
      rfl
  refine ⟨hstart, ?_, hreopened ?_⟩
  · dsimp only [p, store, cs]
    rfl
  · dsimp only [left, p, store, cs]
    rfl

/-! ## What is lost -/

/-- Once the saver is stopped, only a flush or a reload touches the file. -/
theorem call_stopped (h : store.saving = false) {c : StoreCall} (hflush : c ≠ .flush) (hreload : c ≠ .reload) (files : Files) :
    (store.call c files).1.saving = false ∧ (store.call c files).2 = files := by
  cases c with
  | flush => exact absurd rfl hflush
  | reload => exact absurd rfl hreload
  | close =>
    show (store.close files).1.saving = false ∧ (store.close files).2 = files
    rw [close_stopped h]
    exact ⟨h, rfl⟩
  | tick =>
    unfold call
    rw [if_neg (by rw [h]; exact Bool.false_ne_true)]
    exact ⟨h, rfl⟩
  | set name v => exact ⟨(store.call_saving (c := .set name v) nofun files).trans h, rfl⟩
  | remove name => exact ⟨(store.call_saving (c := .remove name) nofun files).trans h, rfl⟩

/-- Without a saver, nothing but a flush or a reload touches the files. -/
theorem calls_stopped (h : store.saving = false) {cs : List StoreCall} (hcs : ∀ c ∈ cs, c ≠ .flush ∧ c ≠ .reload)
    (files : Files) : (store.calls cs files).1.saving = false ∧ (store.calls cs files).2 = files := by
  induction cs generalizing store files with
  | nil => exact ⟨h, rfl⟩
  | cons c rest ih =>
    obtain ⟨hflush, hreload⟩ := hcs c (List.mem_cons_self ..)
    obtain ⟨hstopped, hfiles⟩ := call_stopped h hflush hreload files
    obtain ⟨hend, hleft⟩ := ih hstopped (fun d hd => hcs d (List.mem_cons_of_mem _ hd)) (store.call c files).2
    exact ⟨hend, hleft.trans hfiles⟩

/-- What is written behind a close is lost if neither a flush nor a reload comes after it: the file is left with the variables that
the store had when it was closed. -/
theorem dropped_behind_close
    (hjson : ∀ vars, Variables.All Fits vars → held (Json.writeObject vars.storedMembers) = some vars)
    (hkept : Kept Fits p store files) (hsaving : store.saving = true) {cs : List StoreCall}
    (hcs : ∀ c ∈ cs, c ≠ .flush ∧ c ≠ .reload) :
    let closed := store.close files
    let last := closed.1.calls cs closed.2
    contents p (last.1.close last.2).2 = some store.cache := by
  intro closed last
  have hclosed : closed.1.saving = false := by
    show (store.close files).1.saving = false
    rw [close_apply hsaving]
  obtain ⟨hstopped, hfiles⟩ := calls_stopped hclosed hcs closed.2
  rw [close_stopped hstopped, hfiles]
  exact hkept.close_contents hjson fun hdown => by cases hsaving.symm.trans hdown

/-- A new store is closed, takes a write and is dropped. The next store has nothing of it. -/
theorem reopened_as_dropped_false :
    let p : Path := ⟨["var.json"]⟩
    let store : FileStore := ⟨p, ∅, false, true⟩
    let cs : List StoreCall := [.close, .set "x" (.bool true)]
    let last := (store.calls cs .empty).1
    let left := (last.close (store.calls cs .empty).2).2
    start p .empty = (.ok store, .empty) ∧ Writable p .empty ∧ last.cache["x"]? = some (.bool true) ∧
      start p left = (.ok ⟨p, ∅, false, true⟩, left) := by
  intro p store cs last left
  have hwrite : write p ∅ .empty = (.ok (), (write p ∅ .empty).2) := by
    dsimp only [p]
    rfl
  refine ⟨?_, writable_of_write (fun _ => rfl) hwrite, ?_, ?_⟩
  · dsimp only [p, store]
    rfl
  · dsimp only [last, p, store, cs]
    rfl
  · dsimp only [left, last, p, store, cs]
    rfl

end

end FileStore

end EventScript
