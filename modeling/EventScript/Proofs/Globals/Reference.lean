import EventScript.Globals.Basic
import EventScript.Globals.Place
import EventScript.Proofs.Globals.Contents

/-!
# A store as two maps

To whom uses it, a store is two maps: the variables it has now, and those that its file holds. `Reference.Step` says what each
operation does to the two, as it succeeds or fails; `run_follows` says that a store never does anything else, whatever is done with
it and whichever accesses to files fail. What carries the proof is `Backed`: a store whose flag is down has the variables that its
file holds.
-/

namespace EventScript

/-! ## What may be done with a store -/

/-- What is done with the store at a place. -/
inductive StoreStep where
  /-- A store is opened. One that is open is given up before. -/
  | occupy
  | get (name : String)
  | has (name : String)
  | set (name : String) (v : Value)
  | remove (name : String)
  | flush
  | reload
  /-- The saver saves by itself. -/
  | tick
  /-- The store is given up. -/
  | vacate

/-- What comes of it. -/
inductive StoreAnswer where
  | value (v : Option Value)
  | flag (b : Bool)
  /-- Of what may fail. For a tick and for a store that is given up this is what the saver has to report. -/
  | outcome (r : Except Fault Unit)
  /-- What the saver of the store before had to report, and what came of opening. -/
  | reopened (last r : Except Fault Unit)
  /-- No store is open. -/
  | closed

/-- What the saver has to report on its last save. -/
def FileStore.lastSave (store : FileStore) (files : Files) : Except Fault Unit :=
  if store.saving then (store.save files).1.1 else .ok ()

namespace StorePlace

/-- A step at a place where a store is open. -/
def stepWith (store : FileStore) (s : StorePlace) : StoreStep → StoreAnswer × StorePlace
  | .occupy => (.reopened (store.lastSave s.files) ((occupy s).1.map fun _ => ()), (occupy s).2)
  | .get name => (.value ((Globals.file store).get? name), s)
  | .has name => (.flag ((Globals.file store).has name), s)
  | .set name v =>
    (.outcome ((store.set name v).map fun _ => ()), { s with store := some ((store.set name v).toOption.getD store) })
  | .remove name => (.value (store.remove name).1, { s with store := some (store.remove name).2 })
  | .flush => (.outcome (onStore store FileStore.save s).1, (onStore store FileStore.save s).2)
  | .reload => (.outcome (onStore store FileStore.reload s).1, (onStore store FileStore.reload s).2)
  | .tick => (.outcome (onStore store FileStore.save s).1, (onStore store FileStore.save s).2)
  | .vacate => (.outcome (store.lastSave s.files), (vacate s).2)

/-- A step at a place where no store is open. -/
def stepWithout (s : StorePlace) : StoreStep → StoreAnswer × StorePlace
  | .occupy => (.outcome ((occupy s).1.map fun _ => ()), (occupy s).2)
  | _ => (.closed, s)

def step (s : StorePlace) (op : StoreStep) : StoreAnswer × StorePlace := s.store.elim (s.stepWithout op) (stepWith · s op)

/-- Steps in order, and what comes of each. -/
def run (s : StorePlace) : List StoreStep → List StoreAnswer × StorePlace
  | [] => ([], s)
  | op :: rest => ((s.step op).1 :: ((s.step op).2.run rest).1, ((s.step op).2.run rest).2)

end StorePlace

/-! ## The two maps -/

/-- The variables that an open store has, and those that the file holds if it can be read. -/
structure Reference where
  current : Option Variables
  saved : Option Variables

namespace Reference

/-- What a step does to the two maps when this comes of it. -/
inductive Step : Reference → StoreStep → StoreAnswer → Reference → Prop
  | get (current saved name) : Step ⟨some current, saved⟩ (.get name) (.value (current[name]?)) ⟨some current, saved⟩
  | has (c saved name) : Step ⟨some c, saved⟩ (.has name) (.flag (c.contains name)) ⟨some c, saved⟩
  | set {c saved name v} (h : v.kind ≠ .object) (hnull : v ≠ .null) :
    Step ⟨some c, saved⟩ (.set name v) (.outcome (.ok ())) ⟨some (c.insert name v), saved⟩
  | unset (c saved name) : Step ⟨some c, saved⟩ (.set name .null) (.outcome (.ok ())) ⟨some (c.erase name), saved⟩
  | refused {c saved name v} (h : v.kind = .object) :
    Step ⟨some c, saved⟩ (.set name v) (.outcome (.error (.storage .object))) ⟨some c, saved⟩
  | remove (current saved name) :
    Step ⟨some current, saved⟩ (.remove name) (.value (current[name]?)) ⟨some (current.erase name), saved⟩
  | flushed (c saved) : Step ⟨some c, saved⟩ .flush (.outcome (.ok ())) ⟨some c, some c⟩
  | unflushed (c saved f) : Step ⟨some c, saved⟩ .flush (.outcome (.error f)) ⟨some c, saved⟩
  | reloaded (c saved) : Step ⟨some c, some saved⟩ .reload (.outcome (.ok ())) ⟨some saved, some saved⟩
  | unloaded (c saved f) : Step ⟨some c, saved⟩ .reload (.outcome (.error f)) ⟨some c, saved⟩
  | ticked (c saved) : Step ⟨some c, saved⟩ .tick (.outcome (.ok ())) ⟨some c, some c⟩
  | missed (c saved f) : Step ⟨some c, saved⟩ .tick (.outcome (.error f)) ⟨some c, saved⟩
  | dropped (c saved) : Step ⟨some c, saved⟩ .vacate (.outcome (.ok ())) ⟨none, some c⟩
  | lost (c saved f) : Step ⟨some c, saved⟩ .vacate (.outcome (.error f)) ⟨none, saved⟩
  | opened (saved) : Step ⟨none, some saved⟩ .occupy (.outcome (.ok ())) ⟨some saved, some saved⟩
  | unopened (saved f) : Step ⟨none, saved⟩ .occupy (.outcome (.error f)) ⟨none, saved⟩
  | reopened {c saved last r middle after} (hdrop : Step ⟨some c, saved⟩ .vacate (.outcome last) middle)
    (hopen : Step middle .occupy (.outcome r) after) : Step ⟨some c, saved⟩ .occupy (.reopened last r) after
  | closed {saved op} (h : op ≠ .occupy) : Step ⟨none, saved⟩ op .closed ⟨none, saved⟩

/-- What steps in order do to the two maps. -/
inductive Run : Reference → List StoreStep → List StoreAnswer → Reference → Prop
  | nil (r) : Run r [] [] r
  | cons {r op a middle ops as after} (hstep : Step r op a middle) (hrest : Run middle ops as after) :
    Run r (op :: ops) (a :: as) after

end Reference

/-! ## What the operations of a store come to -/

/-- To erase what is not bound changes nothing. -/
theorem Variables.erase_of_unbound {vars : Variables} {name : String} (h : vars[name]? = none) : vars.erase name = vars := by
  refine Std.ExtTreeMap.ext_getElem? fun other => ?_
  rw [Std.ExtTreeMap.getElem?_erase]
  split
  next hother => rw [← Std.LawfulEqCmp.eq_of_compare hother, h]
  next => rfl

namespace FileStore

variable {files : Files} {store : FileStore}

/-- An object is refused, `null` unbinds the name, and anything else is bound to it. -/
theorem set_cases (store : FileStore) (name : String) (v : Value) :
    v.kind = .object ∧ store.set name v = .error (.storage .object) ∨
    v = .null ∧ store.set name v = .ok { store with cache := store.cache.erase name, dirty := true } ∨
    v.kind ≠ .object ∧ v ≠ .null ∧ store.set name v = .ok { store with cache := store.cache.insert name v, dirty := true } := by
  unfold set
  by_cases hkind : v.kind = .object
  · rw [Value.toStored?_eq_none_iff.mpr hkind, hkind]
    exact .inl ⟨rfl, rfl⟩
  · obtain ⟨stored, hstored⟩ : ∃ stored, v.toStored? = some stored :=
      Option.ne_none_iff_exists'.mp fun hnone => hkind (Value.toStored?_eq_none_iff.mp hnone)
    rw [hstored]
    cases v with
    | null => exact .inr (.inl ⟨rfl, rfl⟩)
    | _ => exact .inr (.inr ⟨hkind, nofun, rfl⟩)

/-- Only what is bound is removed. -/
theorem remove_cases (store : FileStore) (name : String) :
    (∃ v, store.cache[name]? = some v ∧
      store.remove name = (some v, { store with cache := store.cache.erase name, dirty := true })) ∨
    store.cache[name]? = none ∧ store.remove name = (none, store) := by
  unfold remove
  cases store.cache[name]? with
  | some v => exact .inl ⟨v, rfl, rfl⟩
  | none => exact .inr ⟨rfl, rfl⟩

/-- A store with the flag down has nothing to save. -/
theorem save_of_clean (h : store.dirty = false) (files : Files) : store.save files = ((.ok (), store), files) := by
  unfold save
  rw [if_neg (by rw [h]; exact Bool.false_ne_true)]
  rfl

/-- A save that succeeds takes the flag down. -/
theorem save_of_write {files' : Files} (hdirty : store.dirty = true)
    (hwrite : write store.path store.cache files = (.ok (), files')) :
    store.save files = ((.ok (), { store with dirty := false }), files') := by
  have hact : (Filing.ofAct (write store.path store.cache)).run files = (.ok (), files') := by
    show Filing.ofAct _ files = _
    rw [Filing.ofAct, hwrite]
  unfold save
  rw [if_pos hdirty, stateM_bind_apply, hact]
  rfl

/-- One that fails leaves the store as it was. -/
theorem save_of_write_error {files' : Files} {fault : FileFault} (hdirty : store.dirty = true)
    (hwrite : write store.path store.cache files = (.error fault, files')) :
    store.save files = ((.error (.file fault), store), files') := by
  have hact : (Filing.ofAct (write store.path store.cache)).run files = (.error (.file fault), files') := by
    show Filing.ofAct _ files = _
    rw [Filing.ofAct, hwrite]
  unfold save
  rw [if_pos hdirty, stateM_bind_apply, hact]
  rfl

/-- A save writes nothing where the flag is down; else it takes the flag down if the write succeeds. -/
theorem save_cases (store : FileStore) (files : Files) :
    store.dirty = false ∧ store.save files = ((.ok (), store), files) ∨
    (∃ files', write store.path store.cache files = (.ok (), files') ∧
      store.save files = ((.ok (), { store with dirty := false }), files')) ∨
    ∃ fault files', write store.path store.cache files = (.error fault, files') ∧
      store.save files = ((.error (.file fault), store), files') := by
  cases hdirty : store.dirty with
  | false => exact .inl ⟨rfl, save_of_clean hdirty files⟩
  | true =>
    rcases hwrite : write store.path store.cache files with ⟨fault | _, files'⟩
    · exact .inr (.inr ⟨fault, files', rfl, save_of_write_error hdirty hwrite⟩)
    · exact .inr (.inl ⟨files', rfl, save_of_write hdirty hwrite⟩)

/-- Taking the cache from the file again either takes what the file holds, or leaves the store as it was. No entry changes. -/
theorem reload_cases (store : FileStore) (files : Files) :
    (∃ vars files', read store.path files = (.ok vars, files') ∧
      store.reload files = ((.ok (), { store with cache := vars, dirty := false }), files')) ∨
    ∃ f files', read store.path files = (.error f, files') ∧ store.reload files = ((.error f, store), files') := by
  unfold reload
  rw [stateM_bind_apply]
  rcases hread : read store.path files with ⟨f | vars, files'⟩
  · have hrun : (read store.path).run files = (.error f, files') := hread
    rw [hrun]
    exact .inr ⟨f, files', rfl, rfl⟩
  · have hrun : (read store.path).run files = (.ok vars, files') := hread
    rw [hrun]
    exact .inl ⟨vars, files', rfl, rfl⟩

/-- A store that is closed for the first time is saved. -/
theorem close_apply (h : store.saving = true) :
    store.close files = ({ (store.save files).1.2 with saving := false }, (store.save files).2) := by
  unfold close
  rw [if_pos h]
  rfl

/-- A store is opened with what is read, or it is not opened. -/
theorem start_cases (p : Path) (files : Files) :
    (∃ vars files', read p files = (.ok vars, files') ∧ start p files = (.ok ⟨p, vars, false, true⟩, files')) ∨
    ∃ f files', read p files = (.error f, files') ∧ start p files = (.error f, files') := by
  unfold start
  rcases Run.cases (read p) files with ⟨vars, files', hread⟩ | ⟨f, files', hread⟩
  · exact .inl ⟨vars, files', hread, Run.bind_ok hread⟩
  · exact .inr ⟨f, files', hread, Run.bind_error hread⟩

end FileStore

/-! ## The invariant -/

/-- All bindings are such. -/
def Variables.All (Fits : String → Value → Prop) (vars : Variables) : Prop := ∀ name v, vars[name]? = some v → Fits name v

/-- A store that is open at the path. Where its flag is down, its variables are the saved ones. -/
structure FileStore.Backed (Fits : String → Value → Prop) (p : Path) (saved : Option Variables) (store : FileStore) : Prop where
  path : store.path = p
  saving : store.saving = true
  fits : Variables.All Fits store.cache
  clean : store.dirty = false → saved = some store.cache

/-- The two maps are those of the store at the place. -/
structure StorePlace.Reflects (Fits : String → Value → Prop) (p : Path) (s : StorePlace) (r : Reference) : Prop where
  path : s.path = p
  saved : FileStore.contents p s.files = r.saved
  current : s.store.map (·.cache) = r.current
  fits : ∀ vars, r.saved = some vars → Variables.All Fits vars
  backed : ∀ store, s.store = some store → store.Backed Fits p r.saved

section

variable {Fits : String → Value → Prop} {p : Path} {files : Files} {store : FileStore} {s : StorePlace} {r : Reference}

/-- A binding that is such may join others. -/
theorem Variables.All.insert {vars : Variables} (h : Variables.All Fits vars) {name : String} {v : Value} (hv : Fits name v) :
    Variables.All Fits (vars.insert name v) := by
  intro other w hw
  rw [Std.ExtTreeMap.getElem?_insert] at hw
  split at hw
  next hsame =>
    cases hw
    exact Std.LawfulEqCmp.eq_of_compare hsame ▸ hv
  next => exact h other w hw

/-- Fewer bindings are such as well. -/
theorem Variables.All.erase {vars : Variables} (h : Variables.All Fits vars) (name : String) :
    Variables.All Fits (vars.erase name) := by
  intro other w hw
  rw [Std.ExtTreeMap.getElem?_erase] at hw
  split at hw
  · cases hw
  · exact h other w hw

/-- There are two ways to bind no name but one, and it to one value only. -/
theorem Variables.All.single {vars : Variables} {n : String} {w : Value}
    (h : Variables.All (fun name v => name = n ∧ v = w) vars) : vars = ∅ ∨ vars = (∅ : Variables).insert n w := by
  have hother (name : String) (hname : ¬compare n name = .eq) : vars[name]? = none := by
    cases hbound : vars[name]? with
    | none => rfl
    | some v => exact absurd (by rw [(h name v hbound).1]; exact Std.ReflCmp.compare_self) hname
  cases hbound : vars[n]? with
  | none =>
    refine .inl (Std.ExtTreeMap.ext_getElem? fun name => ?_)
    rw [Std.ExtTreeMap.getElem?_empty]
    by_cases hname : compare n name = .eq
    · rw [← Std.LawfulEqCmp.eq_of_compare hname, hbound]
    · exact hother name hname
  | some v =>
    refine .inr (Std.ExtTreeMap.ext_getElem? fun name => ?_)
    rw [Std.ExtTreeMap.getElem?_insert]
    split
    next hname => rw [← Std.LawfulEqCmp.eq_of_compare hname, hbound, (h n v hbound).2]
    next hname => rw [hother name hname, Std.ExtTreeMap.getElem?_empty]

/-- A save that succeeds leaves the variables of the store in the file, also if it writes nothing; one that fails leaves what the
file holds and the flag. -/
theorem FileStore.Backed.save {saved : Option Variables} (h : store.Backed Fits p saved)
    (hjson : ∀ vars, Variables.All Fits vars → held (Json.writeObject vars.storedMembers) = some vars)
    (hkept : ∀ files files' vars fault, write p vars files = (.error fault, files') → contents p files' = contents p files)
    (hsaved : contents p files = saved) :
    (∃ files', store.save files = ((.ok (), { store with dirty := false }), files') ∧ contents p files' = some store.cache) ∨
    ∃ f files', store.save files = ((.error f, store), files') ∧ contents p files' = saved := by
  obtain ⟨rfl, hsaving, hfits, hclean⟩ := h
  rcases save_cases store files with ⟨hdirty, hsave⟩ | ⟨files', hwrite, hsave⟩ | ⟨fault, files', hwrite, hsave⟩
  · refine .inl ⟨files, ?_, hsaved.trans (hclean hdirty)⟩
    rw [hsave, ← hdirty]
  · exact .inl ⟨files', hsave, (contents_of_write hwrite).trans (hjson _ hfits)⟩
  · exact .inr ⟨_, files', hsave, (hkept _ _ _ _ hwrite).trans hsaved⟩

namespace StorePlace

/-- To close where no store is open does nothing. -/
theorem vacate_none (files : Files) (p : Path) : vacate ⟨files, p, none⟩ = ((), ⟨files, p, none⟩) := rfl

/-- A store is opened at a place where none is, or the place stays empty. -/
theorem occupy_none (files : Files) (p : Path) :
    (∃ vars files', FileStore.read p files = (.ok vars, files') ∧
      occupy ⟨files, p, none⟩ = (.ok ⟨p, vars, false, true⟩, ⟨files', p, some ⟨p, vars, false, true⟩⟩)) ∨
    ∃ f files', FileStore.read p files = (.error f, files') ∧
      occupy ⟨files, p, none⟩ = (.error f, ⟨files', p, none⟩) := by
  rcases FileStore.start_cases p files with ⟨vars, files', hread, hstart⟩ | ⟨f, files', hread, hstart⟩
  · refine .inl ⟨vars, files', hread, ?_⟩
    simp only [occupy, stateM_bind_apply, stateM_get_apply, vacate_none, onFiles, hstart]
    rfl
  · refine .inr ⟨f, files', hread, ?_⟩
    simp only [occupy, stateM_bind_apply, stateM_get_apply, vacate_none, onFiles, hstart]
    rfl

/-- What is done with the store is done with the files, and both are kept. -/
theorem onStore_apply {α : Type} (store : FileStore) (a : FileStore → StateM Files (α × FileStore)) (s : StorePlace) :
    onStore store a s = ((a store s.files).1.1, ⟨(a store s.files).2, s.path, some (a store s.files).1.2⟩) := rfl

/-- Giving up a store saves it. -/
theorem Reflects.vacate (h : Reflects Fits p ⟨files, p, some store⟩ r)
    (hjson : ∀ vars, Variables.All Fits vars → FileStore.held (Json.writeObject vars.storedMembers) = some vars)
    (hkept : ∀ files files' vars fault, FileStore.write p vars files = (.error fault, files') →
      FileStore.contents p files' = FileStore.contents p files) :
    ∃ r', r.Step .vacate (.outcome (store.lastSave files)) r' ∧ Reflects Fits p ⟨(store.close files).2, p, none⟩ r' := by
  obtain ⟨-, hsaved, hcurrent, hfits, hbacked⟩ := h
  obtain ⟨current, saved⟩ := r
  cases hcurrent
  have hback := hbacked store rfl
  rw [FileStore.close_apply hback.saving]
  unfold FileStore.lastSave
  rw [if_pos hback.saving]
  rcases hback.save hjson hkept hsaved with ⟨files', hsave, hcontents⟩ | ⟨f, files', hsave, hcontents⟩
  · rw [hsave]
    refine ⟨_, .dropped _ _, rfl, hcontents, rfl, ?_, fun _ hnone => by cases hnone⟩
    rintro vars ⟨⟩
    exact hback.fits
  · rw [hsave]
    exact ⟨_, .lost _ _ f, rfl, hcontents, rfl, hfits, fun _ hnone => by cases hnone⟩

/-- Opening a store takes what the file holds. -/
theorem Reflects.occupy (h : Reflects Fits p ⟨files, p, none⟩ r) :
    ∃ r', r.Step .occupy (.outcome ((StorePlace.occupy ⟨files, p, none⟩).1.map fun _ => ())) r' ∧
      Reflects Fits p (StorePlace.occupy ⟨files, p, none⟩).2 r' := by
  obtain ⟨-, hsaved, hcurrent, hfits, -⟩ := h
  obtain ⟨current, saved⟩ := r
  cases hcurrent
  rcases occupy_none files p with ⟨vars, files', hread, hoccupy⟩ | ⟨f, files', hread, hoccupy⟩
  · have hcontents : FileStore.contents p files' = saved :=
      (FileStore.contents_of_entries (FileStore.read_entries hread)).trans hsaved
    obtain rfl : saved = some vars := hsaved.symm.trans (FileStore.contents_of_read hread)
    rw [hoccupy]
    refine ⟨_, .opened vars, rfl, hcontents, rfl, hfits, ?_⟩
    rintro store ⟨⟩
    exact ⟨rfl, rfl, hfits vars rfl, fun _ => rfl⟩
  · have hcontents : FileStore.contents p files' = saved :=
      (FileStore.contents_of_entries (FileStore.read_entries hread)).trans hsaved
    rw [hoccupy]
    exact ⟨_, .unopened saved f, rfl, hcontents, rfl, hfits, fun _ hnone => by cases hnone⟩

/-- Changing variables of the store raises the flag, and changes nothing in the file. -/
theorem Reflects.change (h : Reflects Fits p ⟨files, p, some store⟩ r) {vars : Variables} (hvars : Variables.All Fits vars) :
    Reflects Fits p ⟨files, p, some { store with cache := vars, dirty := true }⟩ ⟨some vars, r.saved⟩ := by
  refine ⟨rfl, h.saved, rfl, h.fits, ?_⟩
  rintro changed ⟨⟩
  have hback := h.backed store rfl
  exact ⟨hback.path, hback.saving, hvars, fun hdown => by cases hdown⟩

/-- To set a variable changes the first map, as it is answered. -/
theorem Reflects.set (h : Reflects Fits p ⟨files, p, some store⟩ r) (name : String) (v : Value)
    (hv : v ≠ .null → v.kind ≠ .object → Fits name v) :
    ∃ r', r.Step (.set name v) (.outcome ((store.set name v).map fun _ => ())) r' ∧
      Reflects Fits p ⟨files, p, some ((store.set name v).toOption.getD store)⟩ r' := by
  obtain ⟨current, saved⟩ := r
  have hcurrent : some store.cache = current := h.current
  subst hcurrent
  have hfits := (h.backed store rfl).fits
  rcases store.set_cases name v with ⟨hkind, hset⟩ | ⟨rfl, hset⟩ | ⟨hkind, hnull, hset⟩
  · rw [hset]
    exact ⟨_, .refused hkind, h⟩
  · rw [hset]
    exact ⟨_, .unset _ _ name, h.change (hfits.erase name)⟩
  · rw [hset]
    exact ⟨_, .set hkind hnull, h.change (hfits.insert (hv hnull hkind))⟩

/-- To remove one does, too. -/
theorem Reflects.remove (h : Reflects Fits p ⟨files, p, some store⟩ r) (name : String) :
    ∃ r', r.Step (.remove name) (.value (store.remove name).1) r' ∧
      Reflects Fits p ⟨files, p, some (store.remove name).2⟩ r' := by
  obtain ⟨current, saved⟩ := r
  have hcurrent : some store.cache = current := h.current
  subst hcurrent
  have hfits := (h.backed store rfl).fits
  refine ⟨⟨some (store.cache.erase name), saved⟩, ?_⟩
  rcases store.remove_cases name with ⟨v, hbound, hremove⟩ | ⟨hbound, hremove⟩
  · rw [hremove, ← hbound]
    exact ⟨.remove _ _ name, h.change (hfits.erase name)⟩
  · rw [hremove, ← hbound]
    refine ⟨.remove _ _ name, ?_⟩
    rw [Variables.erase_of_unbound hbound]
    exact h

/-- Saving an open store brings the file up to it or leaves the file, and never touches the store's variables. -/
theorem Reflects.save (h : Reflects Fits p ⟨files, p, some store⟩ r)
    (hjson : ∀ vars, Variables.All Fits vars → FileStore.held (Json.writeObject vars.storedMembers) = some vars)
    (hkept : ∀ files files' vars fault, FileStore.write p vars files = (.error fault, files') →
      FileStore.contents p files' = FileStore.contents p files) :
    (onStore store FileStore.save ⟨files, p, some store⟩).1 = .ok () ∧
      Reflects Fits p (onStore store FileStore.save ⟨files, p, some store⟩).2 ⟨r.current, r.current⟩ ∨
    ∃ f, (onStore store FileStore.save ⟨files, p, some store⟩).1 = .error f ∧
      Reflects Fits p (onStore store FileStore.save ⟨files, p, some store⟩).2 r := by
  have hback := h.backed store rfl
  have hcurrent : some store.cache = r.current := h.current
  rw [onStore_apply]
  rcases hback.save hjson hkept h.saved with ⟨files', hsave, hcontents⟩ | ⟨f, files', hsave, hcontents⟩
  · rw [hsave]
    refine .inl ⟨rfl, rfl, hcontents.trans hcurrent, hcurrent, ?_, ?_⟩
    · intro vars hvars
      cases hcurrent.trans hvars
      exact hback.fits
    · rintro saved ⟨⟩
      exact ⟨hback.path, hback.saving, hback.fits, fun _ => hcurrent.symm⟩
  · rw [hsave]
    refine .inr ⟨f, rfl, rfl, hcontents, hcurrent, h.fits, ?_⟩
    rintro kept ⟨⟩
    exact hback

/-- Taking the variables from the file again, or else leaving both as they were. -/
theorem Reflects.reload (h : Reflects Fits p ⟨files, p, some store⟩ r) :
    ∃ r', r.Step .reload (.outcome (onStore store FileStore.reload ⟨files, p, some store⟩).1) r' ∧
      Reflects Fits p (onStore store FileStore.reload ⟨files, p, some store⟩).2 r' := by
  obtain ⟨-, hsaved, hcurrent, hfits, hbacked⟩ := h
  obtain ⟨current, saved⟩ := r
  cases hcurrent
  have hback := hbacked store rfl
  rw [onStore_apply]
  rcases store.reload_cases files with ⟨vars, files', hread, hreload⟩ | ⟨f, files', hread, hreload⟩
  · rw [hback.path] at hread
    have hcontents : FileStore.contents p files' = saved :=
      (FileStore.contents_of_entries (FileStore.read_entries hread)).trans hsaved
    obtain rfl : saved = some vars := hsaved.symm.trans (FileStore.contents_of_read hread)
    rw [hreload]
    refine ⟨_, .reloaded _ vars, rfl, hcontents, rfl, hfits, ?_⟩
    rintro loaded ⟨⟩
    exact ⟨hback.path, hback.saving, hfits vars rfl, fun _ => rfl⟩
  · rw [hback.path] at hread
    have hcontents : FileStore.contents p files' = saved :=
      (FileStore.contents_of_entries (FileStore.read_entries hread)).trans hsaved
    rw [hreload]
    refine ⟨_, .unloaded _ saved f, rfl, hcontents, rfl, hfits, ?_⟩
    rintro kept ⟨⟩
    exact hback

/-- Where no store is open, nothing but opening does anything. -/
theorem stepWithout_of_ne {op : StoreStep} (h : op ≠ .occupy) : s.stepWithout op = (.closed, s) := by
  cases op with
  | occupy => exact absurd rfl h
  | _ => rfl

/-- What a step does to the two maps is what the reference allows it to do. -/
theorem step_follows
    (hjson : ∀ vars, Variables.All Fits vars → FileStore.held (Json.writeObject vars.storedMembers) = some vars)
    (hkept : ∀ files files' vars fault, FileStore.write p vars files = (.error fault, files') →
      FileStore.contents p files' = FileStore.contents p files)
    (h : s.Reflects Fits p r) (op : StoreStep)
    (hop : ∀ name v, op = .set name v → v ≠ .null → v.kind ≠ .object → Fits name v) :
    ∃ r', r.Step op (s.step op).1 r' ∧ (s.step op).2.Reflects Fits p r' := by
  obtain ⟨files, path, opened⟩ := s
  obtain rfl : path = p := h.path
  obtain ⟨current, saved⟩ := r
  cases opened with
  | none =>
    have hclosed : current = none := h.current.symm
    subst hclosed
    by_cases hoccupy : op = .occupy
    · subst hoccupy
      exact h.occupy
    · have hstep : step ⟨files, path, none⟩ op = (.closed, ⟨files, path, none⟩) := stepWithout_of_ne hoccupy
      rw [hstep]
      exact ⟨_, .closed hoccupy, h⟩
  | some store =>
    have hcurrent : current = some store.cache := h.current.symm
    subst hcurrent
    cases op with
    | occupy =>
      obtain ⟨middle, hdrop, hmiddle⟩ := h.vacate hjson hkept
      obtain ⟨after, hopen, hafter⟩ := hmiddle.occupy
      exact ⟨after, .reopened hdrop hopen, hafter⟩
    | get name => exact ⟨_, .get _ _ name, h⟩
    | has name => exact ⟨_, .has _ _ name, h⟩
    | set name v => exact h.set name v (hop name v rfl)
    | remove name => exact h.remove name
    | flush =>
      rcases h.save hjson hkept with ⟨hresult, hafter⟩ | ⟨f, hresult, hafter⟩
      · refine ⟨_, ?_, hafter⟩
        show Reference.Step _ _ (.outcome (onStore store FileStore.save ⟨files, path, some store⟩).1) _
        rw [hresult]
        exact .flushed _ saved
      · refine ⟨_, ?_, hafter⟩
        show Reference.Step _ _ (.outcome (onStore store FileStore.save ⟨files, path, some store⟩).1) _
        rw [hresult]
        exact .unflushed _ saved f
    | reload => exact h.reload
    | tick =>
      rcases h.save hjson hkept with ⟨hresult, hafter⟩ | ⟨f, hresult, hafter⟩
      · refine ⟨_, ?_, hafter⟩
        show Reference.Step _ _ (.outcome (onStore store FileStore.save ⟨files, path, some store⟩).1) _
        rw [hresult]
        exact .ticked _ saved
      · refine ⟨_, ?_, hafter⟩
        show Reference.Step _ _ (.outcome (onStore store FileStore.save ⟨files, path, some store⟩).1) _
        rw [hresult]
        exact .missed _ saved f
    | vacate => exact h.vacate hjson hkept

/-- Steps in order do to the two maps what each does, one behind the other. -/
theorem run_follows
    (hjson : ∀ vars, Variables.All Fits vars → FileStore.held (Json.writeObject vars.storedMembers) = some vars)
    (hkept : ∀ files files' vars fault, FileStore.write p vars files = (.error fault, files') →
      FileStore.contents p files' = FileStore.contents p files)
    (ops : List StoreStep) (hops : ∀ name v, .set name v ∈ ops → v ≠ .null → v.kind ≠ .object → Fits name v)
    (h : s.Reflects Fits p r) :
    ∃ r', r.Run ops (s.run ops).1 r' ∧ (s.run ops).2.Reflects Fits p r' := by
  induction ops generalizing s r with
  | nil => exact ⟨r, .nil r, h⟩
  | cons op rest ih =>
    obtain ⟨middle, hstep, hmiddle⟩ := step_follows hjson hkept h op fun name v hop =>
      hops name v (hop ▸ List.mem_cons_self ..)
    obtain ⟨after, hrest, hafter⟩ := ih (fun name v hmem => hops name v (List.mem_cons_of_mem _ hmem)) hmiddle
    exact ⟨after, .cons hstep hrest, hafter⟩

/-- Whatever is done at a place for a store, and whichever accesses to files fail, what comes of it and what is left in the store
and in the file are what the two maps say. What is written has to read back as what it was, for all maps with bindings that fit,
and a write that fails has to leave the file. -/
theorem store_follows (Fits : String → Value → Prop)
    (hjson : ∀ vars, Variables.All Fits vars → FileStore.held (Json.writeObject vars.storedMembers) = some vars)
    (hkept : ∀ files files' vars fault, FileStore.write p vars files = (.error fault, files') →
      FileStore.contents p files' = FileStore.contents p files)
    (files : Files) (hfile : ∀ vars, FileStore.contents p files = some vars → Variables.All Fits vars)
    (ops : List StoreStep) (hops : ∀ name v, .set name v ∈ ops → v ≠ .null → v.kind ≠ .object → Fits name v) :
    ∃ after, Reference.Run ⟨none, FileStore.contents p files⟩ ops (run ⟨files, p, none⟩ ops).1 after ∧
      (run ⟨files, p, none⟩ ops).2.store.map (·.cache) = after.current ∧
      FileStore.contents p (run ⟨files, p, none⟩ ops).2.files = after.saved := by
  have hstart : Reflects Fits p ⟨files, p, none⟩ ⟨none, FileStore.contents p files⟩ :=
    ⟨rfl, rfl, rfl, hfile, fun _ hnone => by cases hnone⟩
  obtain ⟨after, hrun, hafter⟩ := run_follows hjson hkept ops hops hstart
  exact ⟨after, hrun, hafter.current, hafter.saved⟩

/-- The first move of the draft fails: the write is not lost, and the next flush saves it. -/
theorem store_follows_failing_move :
    let files : Files := ⟨[], 0, fun n => if n = 1 then some .busy else none⟩
    let p : Path := ⟨["var.json"]⟩
    let x : Variables := (∅ : Variables).insert "x" (.bool true)
    let ops : List StoreStep := [.occupy, .set "x" (.bool true), .flush, .get "x", .flush, .vacate, .occupy, .get "x"]
    (run ⟨files, p, none⟩ ops).1 =
        [.outcome (.ok ()), .outcome (.ok ()), .outcome (.error (.file .busy)), .value (some (.bool true)), .outcome (.ok ()),
          .outcome (.ok ()), .outcome (.ok ()), .value (some (.bool true))] ∧
      ∃ after, Reference.Run ⟨none, FileStore.contents p files⟩ ops (run ⟨files, p, none⟩ ops).1 after ∧
        after.current = some x ∧ after.saved = some x := by
  intro files p x ops
  have hjson (vars : Variables) (hvars : Variables.All (fun name v => name = "x" ∧ v = .bool true) vars) :
      FileStore.held (Json.writeObject vars.storedMembers) = some vars := by
    rcases hvars.single with rfl | rfl
    · rfl
    · rfl
  have hfile : FileStore.contents p files = some ∅ := by
    dsimp only [p, files]
    rfl
  have hend : run ⟨files, p, none⟩ ops =
      ([.outcome (.ok ()), .outcome (.ok ()), .outcome (.error (.file .busy)), .value (some (.bool true)), .outcome (.ok ()),
        .outcome (.ok ()), .outcome (.ok ()), .value (some (.bool true))],
        ⟨⟨[(["var.json"], .file (.text "\x7b\n  \"x\": true\n\x7d"))], 5, files.trouble⟩, p, some ⟨p, x, false, true⟩⟩) := by
    dsimp only [p, files, x, ops]
    rfl
  obtain ⟨after, hrun, hcurrent, hsaved⟩ := store_follows (p := p) (fun name v => name = "x" ∧ v = .bool true) hjson
    (fun _ _ _ _ hwrite => FileStore.contents_of_write_error (by decide) hwrite) files
    (by
      intro vars hvars name v hv
      cases hfile.symm.trans hvars
      cases Std.ExtTreeMap.getElem?_empty.symm.trans hv)
    ops
    (by
      intro name v hmem _ _
      simpa [ops] using hmem)
  refine ⟨congrArg Prod.fst hend, after, hrun, ?_, ?_⟩
  · rw [← hcurrent, hend]
    rfl
  · rw [← hsaved, hend]
    dsimp only [p, files, x]
    rfl

end StorePlace

end

end EventScript
