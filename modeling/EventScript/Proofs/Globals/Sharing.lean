import EventScript.Proofs.Globals.Rereading
import EventScript.Proofs.Threads.Updates

/-!
# A store that threads share

A `SharedStore` is a store, its files, the lock on its file, and the threads that use it. To set, to remove, to save and to take the
variables from the file again are each several steps of one thread, and the steps of different threads come in any order. The lock keeps
saves and reloads apart, and nothing keeps writes from either.

The flag notes that the cache is ahead of the file. A write changes the cache and then raises the flag, and a save takes the flag down
before it looks at the cache, so that no write slips through between the two. A reload replaces the cache and takes the flag down
afterwards. A write that does both in between is overlooked (`Overtaken`): the flag is down over it, and nobody saves it. As long as all
values are such as come back from a file, this is the only way in which the flag can be wrong: `Run.saved_at_rest`.

The steps are those of the store that runs: what it does in one go, call by call, is a run of them (`run_calls`).
-/

namespace EventScript

namespace SharedStore

/-- How far a thread is with what it does to the store. -/
inductive Stage where
  | idle
  /-- It has changed the cache, and the flag is yet to be raised. -/
  | changed
  /-- It has the lock for a save. -/
  | saving
  /-- It has taken the flag down for a save. -/
  | taken
  /-- It has these variables to write. -/
  | writing (vars : Variables)
  /-- The write has failed, and the flag is yet to be raised again. -/
  | failed
  /-- It has the lock for a reload. -/
  | reloading
  /-- It has read these variables. -/
  | loaded (vars : Variables)
  /-- It has replaced the cache, and the flag is yet to be taken down. -/
  | renewed
  /-- It has yet to give the lock back. -/
  | done

/-- The thread has the lock. -/
def Stage.locks : Stage → Bool
  | .idle | .changed => false
  | _ => true

/-- What a thread does in one step. -/
inductive Action where
  | set (name : String) (v : Value)
  | remove (name : String)
  /-- To raise the flag over a write. -/
  | raise
  | lock
  /-- To take the flag down for a save, if it is up. -/
  | take
  | snapshot
  | write
  /-- To raise the flag again behind a write that failed. -/
  | restore
  | read
  | renew
  /-- To take the flag down for a reload. -/
  | lower
  | unlock

/-- The step changes the cache for a write. -/
def Action.IsChange : Action → Prop
  | .set _ _ | .remove _ => True
  | _ => False

end SharedStore

open SharedStore

/-- A store and the threads that use it. -/
structure SharedStore where
  store : FileStore
  files : Files
  /-- Who has the lock on the file. -/
  lock : Option Nat
  stage : Nat → Stage

namespace SharedStore

/-- A store that was just opened. -/
def opened (store : FileStore) (files : Files) : SharedStore := ⟨store, files, none, fun _ => .idle⟩

def put (s : SharedStore) (k : Nat) (x : Stage) : SharedStore := { s with stage := Function.update s.stage k x }

/-- One step of one thread. A write that is refused, and the removal of a name that is not bound, are no steps. -/
inductive Step : SharedStore → Nat × Action → SharedStore → Prop
  | set {s : SharedStore} {k name v next} : s.stage k = .idle → s.store.set name v = .ok next →
      Step s (k, .set name v) ({ s with store := { s.store with cache := next.cache } }.put k .changed)
  | remove {s : SharedStore} {k name v next} : s.stage k = .idle → s.store.remove name = (some v, next) →
      Step s (k, .remove name) ({ s with store := { s.store with cache := next.cache } }.put k .changed)
  | raise {s : SharedStore} {k} : s.stage k = .changed →
      Step s (k, .raise) ({ s with store := { s.store with dirty := true } }.put k .idle)
  | lockSave {s : SharedStore} {k} : s.stage k = .idle → s.lock = none → Step s (k, .lock) ({ s with lock := some k }.put k .saving)
  | lockReload {s : SharedStore} {k} : s.stage k = .idle → s.lock = none →
      Step s (k, .lock) ({ s with lock := some k }.put k .reloading)
  /-- Nothing is to be saved. -/
  | skip {s : SharedStore} {k} : s.stage k = .saving → s.store.dirty = false → Step s (k, .take) (s.put k .done)
  | take {s : SharedStore} {k} : s.stage k = .saving → s.store.dirty = true →
      Step s (k, .take) ({ s with store := { s.store with dirty := false } }.put k .taken)
  | snapshot {s : SharedStore} {k} : s.stage k = .taken → Step s (k, .snapshot) (s.put k (.writing s.store.cache))
  | write {s : SharedStore} {k vars files'} : s.stage k = .writing vars →
      FileStore.write s.store.path vars s.files = (.ok (), files') → Step s (k, .write) ({ s with files := files' }.put k .done)
  | unwritten {s : SharedStore} {k vars fault files'} : s.stage k = .writing vars →
      FileStore.write s.store.path vars s.files = (.error fault, files') →
      Step s (k, .write) ({ s with files := files' }.put k .failed)
  | restore {s : SharedStore} {k} : s.stage k = .failed →
      Step s (k, .restore) ({ s with store := { s.store with dirty := true } }.put k .done)
  | read {s : SharedStore} {k vars files'} : s.stage k = .reloading →
      FileStore.read s.store.path s.files = (.ok vars, files') → Step s (k, .read) ({ s with files := files' }.put k (.loaded vars))
  | unread {s : SharedStore} {k f files'} : s.stage k = .reloading →
      FileStore.read s.store.path s.files = (.error f, files') → Step s (k, .read) ({ s with files := files' }.put k .done)
  | renew {s : SharedStore} {k vars} : s.stage k = .loaded vars →
      Step s (k, .renew) ({ s with store := { s.store with cache := vars } }.put k .renewed)
  | lower {s : SharedStore} {k} : s.stage k = .renewed →
      Step s (k, .lower) ({ s with store := { s.store with dirty := false } }.put k .done)
  | unlock {s : SharedStore} {k} : s.stage k = .done → Step s (k, .unlock) ({ s with lock := none }.put k .idle)

/-- Steps in order, each with the thread that takes it. -/
inductive Run (start : SharedStore) : List (Nat × Action) → SharedStore → Prop
  | nil : Run start [] start
  | snoc {es s e s'} (h : Run start es s) (hstep : Step s e s') : Run start (es ++ [e]) s'

/-- A run may go on from where another one has come to. -/
theorem Run.trans {start s s' : SharedStore} {es es' : List (Nat × Action)} (h : Run start es s) (h' : Run s es' s') :
    Run start (es ++ es') s' := by
  induction h' with
  | nil => rwa [List.append_nil]
  | snoc _ hstep ih =>
    rw [← List.append_assoc]
    exact ih.snoc hstep

/-- A thread has changed the cache and raised the flag while another one had replaced the cache and not yet taken the flag down for it.
No save has looked at the cache since, and no reload has replaced it. -/
def Overtaken (es : List (Nat × Action)) : Prop :=
  ∃ before i window after k a, es = before ++ (i, .renew) :: (window ++ (i, .lower) :: after) ∧ (i, .lower) ∉ window ∧
    Action.IsChange a ∧ [(k, a), (k, .raise)].Sublist window ∧ ∀ e ∈ after, e.2 ≠ .snapshot ∧ e.2 ≠ .renew

variable {s s' start : SharedStore} {k : Nat} {e : Nat × Action} {es : List (Nat × Action)} {p : Path}

/-- A write that has been overtaken stays so, until a save looks at the cache or a reload replaces it. -/
theorem Overtaken.snoc (h : Overtaken es) (hsnapshot : e.2 ≠ .snapshot) (hrenew : e.2 ≠ .renew) : Overtaken (es ++ [e]) := by
  obtain ⟨before, i, window, after, k, a, rfl, hlower, ha, hwrite, hafter⟩ := h
  refine ⟨before, i, window, after ++ [e], k, a, by simp, hlower, ha, hwrite, fun d hd => ?_⟩
  rcases List.mem_append.mp hd with hd | hd
  · exact hafter d hd
  · obtain rfl := List.mem_singleton.mp hd
    exact ⟨hsnapshot, hrenew⟩

/-! ## The operations of a store as steps -/

/-- A thread that is idle again, after whatever it has done. -/
theorem put_idle (h : s.stage k = .idle) : Function.update s.stage k .idle = s.stage := by
  rw [← h, Function.update_eq_self]

/-- To set a variable is to change the cache and to raise the flag. -/
theorem run_set {name : String} {v : Value} {next : FileStore} (hidle : s.stage k = .idle)
    (hset : s.store.set name v = .ok next) : ∃ es, Run s es { s with store := next } := by
  have hnext : { s.store with cache := next.cache, dirty := true } = next := by
    rcases s.store.set_cases name v with ⟨-, herror⟩ | ⟨-, hok⟩ | ⟨-, -, hok⟩
    · cases herror.symm.trans hset
    · cases hok.symm.trans hset
      rfl
    · cases hok.symm.trans hset
      rfl
  have hrun := (Run.nil.snoc (.set hidle hset)).snoc (.raise (Function.update_self ..))
  simp only [put, Function.update_idem, put_idle hidle] at hrun
  rw [hnext] at hrun
  exact ⟨_, hrun⟩

/-- To remove one is the same, if it is bound. -/
theorem run_remove (name : String) (hidle : s.stage k = .idle) : ∃ es, Run s es { s with store := (s.store.remove name).2 } := by
  rcases s.store.remove_cases name with ⟨v, -, hremove⟩ | ⟨-, hremove⟩
  · have hrun := (Run.nil.snoc (.remove hidle hremove)).snoc (.raise (Function.update_self ..))
    simp only [put, Function.update_idem, put_idle hidle] at hrun
    rw [hremove]
    exact ⟨_, hrun⟩
  · rw [hremove]
    exact ⟨[], .nil⟩

/-- To save is to take the lock, to take the flag down, to look at the cache, to write, and to give the lock back. -/
theorem run_save (hidle : s.stage k = .idle) (hlock : s.lock = none) :
    ∃ es, Run s es { s with store := (s.store.save s.files).1.2, files := (s.store.save s.files).2 } := by
  obtain ⟨store, files, lock, stage⟩ := s
  obtain rfl : lock = none := hlock
  have hlocked := Run.nil.snoc (.lockSave hidle rfl)
  cases hdirty : store.dirty with
  | false =>
    have hrun := (hlocked.snoc (.skip (Function.update_self ..) hdirty)).snoc (.unlock (Function.update_self ..))
    simp only [put, Function.update_idem, put_idle hidle] at hrun
    rw [FileStore.save_of_clean hdirty]
    exact ⟨_, hrun⟩
  | true =>
    have hsnapshot := (hlocked.snoc (.take (Function.update_self ..) hdirty)).snoc (.snapshot (Function.update_self ..))
    rcases hwrite : FileStore.write store.path store.cache files with ⟨fault | _, files'⟩
    · have hrestored := (hsnapshot.snoc (.unwritten (Function.update_self ..) hwrite)).snoc (.restore (Function.update_self ..))
      have hrun := hrestored.snoc (.unlock (Function.update_self ..))
      simp only [put, Function.update_idem, put_idle hidle, ← hdirty] at hrun
      rw [FileStore.save_of_write_error hdirty hwrite]
      exact ⟨_, hrun⟩
    · have hrun := (hsnapshot.snoc (.write (Function.update_self ..) hwrite)).snoc (.unlock (Function.update_self ..))
      simp only [put, Function.update_idem, put_idle hidle] at hrun
      rw [FileStore.save_of_write hdirty hwrite]
      exact ⟨_, hrun⟩

/-- To reload is to take the lock, to read, to replace the cache, to take the flag down, and to give the lock back. -/
theorem run_reload (hidle : s.stage k = .idle) (hlock : s.lock = none) :
    ∃ es, Run s es { s with store := (s.store.reload s.files).1.2, files := (s.store.reload s.files).2 } := by
  obtain ⟨store, files, lock, stage⟩ := s
  obtain rfl : lock = none := hlock
  have hlocked := Run.nil.snoc (.lockReload hidle rfl)
  rcases store.reload_cases files with ⟨vars, files', hread, hreload⟩ | ⟨f, files', hread, hreload⟩
  · have hrenewed := (hlocked.snoc (.read (Function.update_self ..) hread)).snoc (.renew (Function.update_self ..))
    have hrun := (hrenewed.snoc (.lower (Function.update_self ..))).snoc (.unlock (Function.update_self ..))
    simp only [put, Function.update_idem, put_idle hidle] at hrun
    rw [hreload]
    exact ⟨_, hrun⟩
  · have hrun := (hlocked.snoc (.unread (Function.update_self ..) hread)).snoc (.unlock (Function.update_self ..))
    simp only [put, Function.update_idem, put_idle hidle] at hrun
    rw [hreload]
    exact ⟨_, hrun⟩

/-- What a store does in one go, a thread may do in steps while the others rest. To close a store is to save it and to stop its saver,
which no one else sees. -/
theorem run_call {c : StoreCall} (hc : c ≠ .close) (hidle : s.stage k = .idle) (hlock : s.lock = none) :
    ∃ es, Run s es { s with store := (s.store.call c s.files).1, files := (s.store.call c s.files).2 } := by
  cases c with
  | set name v =>
    show ∃ es, Run s es { s with store := (s.store.set name v).toOption.getD s.store }
    cases hset : s.store.set name v with
    | error f => exact ⟨[], .nil⟩
    | ok next => exact run_set hidle hset
  | remove name => exact run_remove name hidle
  | flush => exact run_save hidle hlock
  | reload => exact run_reload hidle hlock
  | close => exact absurd rfl hc
  | tick =>
    unfold FileStore.call
    split
    · exact run_save hidle hlock
    · exact ⟨[], .nil⟩

/-- And so is any history of calls among the runs of the threads, from whatever they have come to when all are idle: the steps are
those of the store that runs. -/
theorem run_calls {cs : List StoreCall} (hcs : .close ∉ cs) (hidle : s.stage k = .idle) (hlock : s.lock = none) :
    ∃ es, Run s es { s with store := (s.store.calls cs s.files).1, files := (s.store.calls cs s.files).2 } := by
  induction cs generalizing s with
  | nil => exact ⟨[], .nil⟩
  | cons c rest ih =>
    obtain ⟨hc, hrest⟩ := List.ne_and_not_mem_of_not_mem_cons hcs
    obtain ⟨es, hfirst⟩ := run_call hc.symm hidle hlock
    obtain ⟨es', hlater⟩ :=
      ih (s := { s with store := (s.store.call c s.files).1, files := (s.store.call c s.files).2 }) hrest hidle hlock
    exact ⟨es ++ es', hfirst.trans hlater⟩

/-! ## The lock -/

/-- The lock is with the thread that is at a save or a reload. -/
def Exclusive (s : SharedStore) : Prop := ∀ k, (s.stage k).locks = true ↔ s.lock = some k

/-- A thread that keeps what it has of the lock keeps it exclusive. -/
theorem Exclusive.put (h : Exclusive s) {x : Stage} (hx : x.locks = (s.stage k).locks) (hlock : s'.lock = s.lock)
    (hstage : s'.stage = Function.update s.stage k x) : Exclusive s' := by
  intro j
  rw [hstage, hlock, ← h j, Function.update_apply]
  split
  next hj => rw [hx, hj]
  next => rfl

/-- No step gives the lock to a second thread. -/
theorem Step.exclusive (hstep : Step s e s') (h : Exclusive s) : Exclusive s' := by
  cases hstep with
  | @lockSave k hidle hnone | @lockReload k hidle hnone =>
    intro j
    show (Function.update s.stage k _ j).locks = true ↔ some k = some j
    rw [Function.update_apply, Option.some.injEq]
    split
    next hj => exact ⟨fun _ => hj.symm, fun _ => rfl⟩
    next hj =>
      rw [h j, hnone]
      exact ⟨nofun, fun hk => absurd hk.symm hj⟩
  | @unlock k hdone =>
    have hk : s.lock = some k := (h k).mp (by rw [hdone]; rfl)
    intro j
    show (Function.update s.stage k _ j).locks = true ↔ none = some j
    rw [Function.update_apply]
    split
    next => exact ⟨nofun, nofun⟩
    next hj =>
      rw [h j, hk, Option.some.injEq]
      exact ⟨fun hkj => absurd hkj.symm hj, nofun⟩
  | set hk | remove hk | raise hk | skip hk | take hk | snapshot hk | write hk | unwritten hk | restore hk | read hk | unread hk
  | renew hk | lower hk => exact h.put (by rw [hk]; rfl) rfl rfl

/-- Where one thread has the lock, no other is at a save or a reload. -/
theorem Exclusive.only (h : Exclusive s) {j : Nat} {x y : Stage} (hk : (s.stage k).locks = true)
    (hj : Function.update s.stage k x j = y) (hy : y.locks = true) : j = k ∧ x = y := by
  rcases of_update hj with hsame | ⟨hne, hj⟩
  · exact hsame
  · rw [← hj] at hy
    exact absurd (Option.some.inj (((h j).mp hy).symm.trans ((h k).mp hk))) hne

/-! ## What is not yet in the file -/

/-- The flag is up, or a thread is about to raise it. -/
def Noted (s : SharedStore) : Prop := s.store.dirty = true ∨ ∃ k, s.stage k = .changed

/-- The thread has taken the flag down for a save that has not come to its end. -/
def Stage.saves : Stage → Bool
  | .taken | .writing _ | .failed => true
  | _ => false

/-- The thread has nothing in hand: neither variables nor the flag hang on what it does next. -/
def Stage.isFree : Stage → Bool
  | .idle | .saving | .reloading | .done => true
  | _ => false

/-- The variables are in the file unless the flag notes that they are not, a save is at it, or a reload has taken the flag down over
them. -/
def Owed (p : Path) (es : List (Nat × Action)) (s : SharedStore) : Prop :=
  FileStore.contents p s.files = some s.store.cache ∨ s.Noted ∨ (∃ k, (s.stage k).saves = true) ∨ Overtaken es

/-- A thread that has nothing in hand goes on, and leaves the variables and the flag. -/
theorem Owed.pass (h : Owed p es s) {x : Stage} (hstore : s'.store = s.store)
    (hcontents : FileStore.contents p s'.files = FileStore.contents p s.files) (hstage : s'.stage = Function.update s.stage k x)
    (hk : (s.stage k).isFree = true) (hsnapshot : e.2 ≠ .snapshot) (hrenew : e.2 ≠ .renew) : Owed p (es ++ [e]) s' := by
  have hother {j : Nat} {y : Stage} (hj : s.stage j = y) (hy : y.isFree = false) : s'.stage j = y := by
    have hjk : j ≠ k := by
      rintro rfl
      cases hk.symm.trans ((congrArg Stage.isFree hj).trans hy)
    rw [hstage, Function.update_of_ne hjk, hj]
  rcases h with hsame | (hup | ⟨j, hj⟩) | ⟨j, hj⟩ | hovertaken
  · exact .inl (by rw [hcontents, hstore, hsame])
  · exact .inr (.inl (.inl (by rw [hstore, hup])))
  · exact .inr (.inl (.inr ⟨j, hother hj rfl⟩))
  · refine .inr (.inr (.inl ⟨j, ?_⟩))
    rw [hother rfl]
    · exact hj
    · cases hstagej : s.stage j <;> rw [hstagej] at hj <;> first | rfl | cases hj
  · exact .inr (.inr (.inr (hovertaken.snoc hsnapshot hrenew)))

/-- A thread has replaced the cache for a reload, and its flag is yet to be taken down. The cache is what the file holds, or a thread has
changed it since, which may have raised the flag. -/
def Window (p : Path) (es : List (Nat × Action)) (s : SharedStore) (i : Nat) : Prop :=
  ∃ before window, es = before ++ (i, .renew) :: window ∧ (i, .lower) ∉ window ∧
    (FileStore.contents p s.files = some s.store.cache ∨
      (∃ k a, s.stage k = .changed ∧ Action.IsChange a ∧ (k, a) ∈ window) ∨
      ∃ k a, Action.IsChange a ∧ [(k, a), (k, .raise)].Sublist window)

namespace Window

variable {i : Nat}

/-- A reload that has replaced the cache has what is in the file. -/
theorem renew (es : List (Nat × Action)) (h : FileStore.contents p s.files = some s.store.cache) :
    Window p (es ++ [(i, .renew)]) s i := ⟨es, [], rfl, List.not_mem_nil, .inl h⟩

/-- What stands between the two steps of a reload goes on with any step that leaves the variables. -/
theorem snoc (h : Window p es s i) (he : e.2 ≠ .lower) (hcontents : FileStore.contents p s'.files = FileStore.contents p s.files)
    (hcache : s'.store.cache = s.store.cache) (hchanged : ∀ k, s.stage k = .changed → s'.stage k = .changed) :
    Window p (es ++ [e]) s' i := by
  obtain ⟨before, window, rfl, hlower, hcases⟩ := h
  refine ⟨before, window ++ [e], by simp, ?_, ?_⟩
  · simp only [List.mem_append, List.mem_singleton, not_or]
    exact ⟨hlower, fun hi => he (congrArg Prod.snd hi).symm⟩
  · rw [hcontents, hcache]
    exact hcases.imp_right (Or.imp (fun ⟨k, a, hk, ha, hmem⟩ => ⟨k, a, hchanged k hk, ha, List.mem_append_left _ hmem⟩)
      fun ⟨k, a, ha, hsub⟩ => ⟨k, a, ha, hsub.trans (List.sublist_append_left ..)⟩)

/-- A write in between is noted where the cache is changed. -/
theorem change (h : Window p es s i) {a : Action} (ha : Action.IsChange a) (hk : s'.stage k = .changed) :
    Window p (es ++ [(k, a)]) s' i := by
  obtain ⟨before, window, rfl, hlower, -⟩ := h
  refine ⟨before, window ++ [(k, a)], by simp, ?_, .inr (.inl ⟨k, a, hk, ha, List.mem_append_right _ (.head _)⟩)⟩
  simp only [List.mem_append, List.mem_singleton, not_or]
  refine ⟨hlower, fun hi => ?_⟩
  cases hi
  exact ha

/-- The flag is raised over a write: over one that came before the cache was replaced, or else the write is overtaken. -/
theorem raise (h : Window p es s i) (hcontents : FileStore.contents p s'.files = FileStore.contents p s.files)
    (hcache : s'.store.cache = s.store.cache) (hstage : s'.stage = Function.update s.stage k .idle) :
    Window p (es ++ [(k, .raise)]) s' i := by
  obtain ⟨before, window, rfl, hlower, hcases⟩ := h
  refine ⟨before, window ++ [(k, .raise)], by simp, ?_, ?_⟩
  · simp only [List.mem_append, List.mem_singleton, not_or]
    exact ⟨hlower, nofun⟩
  · rw [hcontents, hcache]
    rcases hcases with hsame | ⟨j, a, hj, ha, hmem⟩ | ⟨j, a, ha, hsub⟩
    · exact .inl hsame
    · by_cases hjk : j = k
      · subst hjk
        exact .inr (.inr ⟨j, a, ha, (List.singleton_sublist.mpr hmem).append (List.Sublist.refl [_])⟩)
      · refine .inr (.inl ⟨j, a, ?_, ha, List.mem_append_left _ hmem⟩)
        rw [hstage, Function.update_of_ne hjk]
        exact hj
    · exact .inr (.inr ⟨j, a, ha, hsub.trans (List.sublist_append_left ..)⟩)

/-- The flag is taken down, over an overtaken write or over none that has raised it. -/
theorem lower (h : Window p es s i) :
    FileStore.contents p s.files = some s.store.cache ∨ (∃ k, s.stage k = .changed) ∨ Overtaken (es ++ [(i, .lower)]) := by
  obtain ⟨before, window, rfl, hlower, hsame | ⟨k, a, hk, -, -⟩ | ⟨k, a, ha, hsub⟩⟩ := h
  · exact .inl hsame
  · exact .inr (.inl ⟨k, hk⟩)
  · exact .inr (.inr ⟨before, i, window, [], k, a, by simp, hlower, ha, hsub, nofun⟩)

end Window

/-- What is in the cache and in the file comes back from a file, and the cache is in the file or will be. -/
structure Sound (p : Path) (es : List (Nat × Action)) (s : SharedStore) : Prop where
  path : s.store.path = p
  exclusive : Exclusive s
  cache : Variables.All (fun _ v => v.Lasts) s.store.cache
  file : ∀ vars, FileStore.contents p s.files = some vars → Variables.All (fun _ v => v.Lasts) vars
  writing : ∀ k vars, s.stage k = .writing vars → Variables.All (fun _ v => v.Lasts) vars ∧ (vars = s.store.cache ∨ s.Noted)
  loaded : ∀ k vars, s.stage k = .loaded vars → FileStore.contents p s.files = some vars
  window : ∀ k, s.stage k = .renewed → Window p es s k
  owed : Owed p es s

/-- A store that was just opened has the variables of its file. -/
theorem sound_opened {store : FileStore} {files opened : Files} (h : FileStore.start p files = (.ok store, opened))
    (hcache : Variables.All (fun _ v => v.Lasts) store.cache) : Sound p [] (SharedStore.opened store opened) := by
  obtain ⟨vars, hread, rfl⟩ := FileStore.start_eq_ok h
  have hcontents : FileStore.contents p opened = some vars :=
    (FileStore.contents_of_entries (FileStore.read_entries hread)).trans (FileStore.contents_of_read hread)
  exact {
    path := rfl
    exclusive := fun k => ⟨nofun, nofun⟩
    cache := hcache
    file := fun held hheld => by
      cases hcontents.symm.trans hheld
      exact hcache
    writing := nofun
    loaded := nofun
    window := nofun
    owed := .inl hcontents }

/-- The thread that is moved to a save is at one. -/
theorem exists_saves {x : Stage} (hstage : s'.stage = Function.update s.stage k x) (hx : x.saves = true) :
    ∃ k, (s'.stage k).saves = true := ⟨k, by rwa [hstage, Function.update_self]⟩

namespace Sound

/-- Changing the cache is noted by who does it. -/
theorem change (h : Sound p es s) {a : Action} (ha : Action.IsChange a) (hidle : s.stage k = .idle) {vars : Variables}
    (hvars : Variables.All (fun _ v => v.Lasts) vars) :
    Sound p (es ++ [(k, a)]) ({ s with store := { s.store with cache := vars } }.put k .changed) := by
  have hchanged : Function.update s.stage k .changed k = .changed := Function.update_self ..
  exact {
    path := h.path
    exclusive := h.exclusive.put (by rw [hidle]; rfl) rfl rfl
    cache := hvars
    file := h.file
    writing := fun j vars hj => ⟨(h.writing j vars (of_update_of_ne hj nofun)).1, .inr (.inr ⟨k, hchanged⟩)⟩
    loaded := fun j vars hj => h.loaded j vars (of_update_of_ne hj nofun)
    window := fun j hj => (h.window j (of_update_of_ne hj nofun)).change ha hchanged
    owed := .inr (.inl (.inr ⟨k, hchanged⟩)) }

/-- To raise the flag ends what a write is due. -/
theorem raise (h : Sound p es s) (hk : s.stage k = .changed) :
    Sound p (es ++ [(k, .raise)]) ({ s with store := { s.store with dirty := true } }.put k .idle) where
  path := h.path
  exclusive := h.exclusive.put (by rw [hk]; rfl) rfl rfl
  cache := h.cache
  file := h.file
  writing := fun j vars hj => ⟨(h.writing j vars (of_update_of_ne hj nofun)).1, .inr (.inl rfl)⟩
  loaded := fun j vars hj => h.loaded j vars (of_update_of_ne hj nofun)
  window := fun j hj => (h.window j (of_update_of_ne hj nofun)).raise rfl rfl rfl
  owed := .inr (.inl (.inl rfl))

/-- To take the lock leaves all that a store is due. -/
theorem lock (h : Sound p es s) (hidle : s.stage k = .idle) (hlock : s.lock = none) {x : Stage} (hx : x = .saving ∨ x = .reloading) :
    Sound p (es ++ [(k, .lock)]) ({ s with lock := some k }.put k x) := by
  have hstep : Step s (k, .lock) ({ s with lock := some k }.put k x) := by
    rcases hx with rfl | rfl
    · exact .lockSave hidle hlock
    · exact .lockReload hidle hlock
  have hfree : (s.stage k).isFree = true := by
    rw [hidle]
    rfl
  have hchanged (j : Nat) (hj : s.stage j = .changed) : Function.update s.stage k x j = .changed :=
    update_of_eq_of_ne hidle nofun hj
  have hkept {j : Nat} {y : Stage} (hj : Function.update s.stage k x j = y) (hy : y.isFree = false) : s.stage j = y :=
    of_update_of_ne hj (by
      rintro rfl
      rcases hx with rfl | rfl <;> cases hy)
  exact {
    path := h.path
    exclusive := hstep.exclusive h.exclusive
    cache := h.cache
    file := h.file
    writing := fun j vars hj =>
      (h.writing j vars (hkept hj rfl)).imp_right (Or.imp_right (Or.imp_right fun ⟨i, hi⟩ => ⟨i, hchanged i hi⟩))
    loaded := fun j vars hj => h.loaded j vars (hkept hj rfl)
    window := fun j hj => (h.window j (hkept hj rfl)).snoc nofun rfl rfl hchanged
    owed := h.owed.pass rfl rfl rfl hfree nofun nofun }

/-- The thread that has the lock goes on. No other thread has anything to write or has read anything. -/
theorem hold (h : Sound p es s) {x : Stage} (hk : (s.stage k).locks = true) (hstep : Step s e s')
    (hstage : s'.stage = Function.update s.stage k x) (hpath : s'.store.path = s.store.path)
    (hcache : Variables.All (fun _ v => v.Lasts) s'.store.cache)
    (hfile : ∀ vars, FileStore.contents p s'.files = some vars → Variables.All (fun _ v => v.Lasts) vars)
    (hwriting : ∀ vars, x = .writing vars → vars = s'.store.cache)
    (hloaded : ∀ vars, x = .loaded vars → FileStore.contents p s'.files = some vars)
    (hwindow : x = .renewed → Window p (es ++ [e]) s' k) (howed : Owed p (es ++ [e]) s') : Sound p (es ++ [e]) s' where
  path := hpath.trans h.path
  exclusive := hstep.exclusive h.exclusive
  cache := hcache
  file := hfile
  writing := fun j vars hj => by
    obtain ⟨-, hx⟩ := h.exclusive.only hk (hstage ▸ hj) rfl
    obtain rfl := hwriting vars hx
    exact ⟨hcache, .inl rfl⟩
  loaded := fun j vars hj => by
    obtain ⟨-, hx⟩ := h.exclusive.only hk (hstage ▸ hj) rfl
    exact hloaded vars hx
  window := fun j hj => by
    obtain ⟨rfl, hx⟩ := h.exclusive.only hk (hstage ▸ hj) rfl
    exact hwindow hx
  owed := howed

/-- What was written is in the file, and it is the cache unless that has changed since. -/
theorem written (h : Sound p es s) {vars : Variables} {files' : Files} (hk : s.stage k = .writing vars)
    (hwrite : FileStore.write s.store.path vars s.files = (.ok (), files')) :
    Sound p (es ++ [(k, .write)]) ({ s with files := files' }.put k .done) := by
  obtain ⟨hvars, hahead⟩ := h.writing k vars hk
  have hstep := Step.write hk hwrite
  rw [h.path] at hwrite
  have hcontents : FileStore.contents p files' = some vars :=
    (FileStore.contents_of_write hwrite).trans (FileStore.held_writeObject_of_lasts hvars)
  refine h.hold (by rw [hk]; rfl) hstep rfl rfl h.cache (fun vars' hvars' => ?_) nofun nofun nofun ?_
  · cases hcontents.symm.trans hvars'
    exact hvars
  · -- what was written is what the cache was when the flag was taken down
    rcases hahead with rfl | hup | ⟨j, hj⟩
    · exact .inl hcontents
    · exact .inr (.inl (.inl hup))
    · exact .inr (.inl (.inr ⟨j, update_of_eq_of_ne hk nofun hj⟩))

/-- A write that failed has still to raise the flag. -/
theorem unwritten (h : Sound p es s) {vars : Variables} {fault : FileFault} {files' : Files} (hk : s.stage k = .writing vars)
    (hwrite : FileStore.write s.store.path vars s.files = (.error fault, files')) :
    Sound p (es ++ [(k, .write)]) ({ s with files := files' }.put k .failed) := by
  obtain ⟨hvars, -⟩ := h.writing k vars hk
  have hstep := Step.unwritten hk hwrite
  rw [h.path] at hwrite
  refine h.hold (by rw [hk]; rfl) hstep rfl rfl h.cache (fun vars' hvars' => ?_) nofun nofun nofun
    (.inr (.inr (.inl (exists_saves rfl rfl))))
  rcases FileStore.contents_of_write_fails hwrite with hsame | ⟨hheld, -⟩
  · exact h.file vars' (hsame.symm.trans hvars')
  · cases (hheld.trans (FileStore.held_writeObject_of_lasts hvars)).symm.trans hvars'
    exact hvars

/-- Whatever a thread reads, the file stays as it is. -/
theorem read (h : Sound p es s) {r : Except Fault Variables} {x : Stage} {files' : Files} (hk : s.stage k = .reloading)
    (hread : FileStore.read s.store.path s.files = (r, files'))
    (hstep : Step s (k, .read) ({ s with files := files' }.put k x)) (hx : ∀ vars, x = .loaded vars → r = .ok vars)
    (hother : x ≠ .renewed ∧ ∀ vars, x ≠ .writing vars) : Sound p (es ++ [(k, .read)]) ({ s with files := files' }.put k x) := by
  rw [h.path] at hread
  have hcontents : FileStore.contents p files' = FileStore.contents p s.files :=
    FileStore.contents_of_entries (FileStore.read_entries hread)
  refine h.hold (by rw [hk]; rfl) hstep rfl rfl h.cache (fun vars hvars => h.file vars (hcontents.symm.trans hvars))
    (fun vars hw => absurd hw (hother.2 vars)) (fun vars hl => ?_) (fun hw => absurd hw hother.1)
    (h.owed.pass rfl hcontents rfl (by rw [hk]; rfl) nofun nofun)
  rw [hx vars hl] at hread
  exact hcontents.trans (FileStore.contents_of_read hread)

/-- To take the flag down behind a reload is sound, unless a write came in between. -/
theorem lower (h : Sound p es s) (hk : s.stage k = .renewed) :
    Sound p (es ++ [(k, .lower)]) ({ s with store := { s.store with dirty := false } }.put k .done) := by
  refine h.hold (by rw [hk]; rfl) (.lower hk) rfl rfl h.cache h.file nofun nofun nofun ?_
  rcases (h.window k hk).lower with hsame | ⟨j, hj⟩ | hovertaken
  · exact .inl hsame
  · exact .inr (.inl (.inr ⟨j, update_of_eq_of_ne hk nofun hj⟩))
  · exact .inr (.inr (.inr hovertaken))

/-- Every step keeps a store sound, if the values that are set come back from a file. -/
theorem step (h : Sound p es s) (hstep : Step s e s') (hset : ∀ k name v, e = (k, .set name v) → v.Lasts) :
    Sound p (es ++ [e]) s' := by
  have hstep' := hstep
  cases hstep with
  | @set k name v next hidle hok =>
    have hchange : Action.IsChange (.set name v) := trivial
    refine h.change hchange hidle ?_
    rcases s.store.set_cases name v with ⟨-, herror⟩ | ⟨-, hunbound⟩ | ⟨-, -, hbound⟩
    · cases herror.symm.trans hok
    · cases hunbound.symm.trans hok
      exact h.cache.erase name
    · cases hbound.symm.trans hok
      exact h.cache.insert (hset k name v rfl)
  | @remove k name v next hidle hremove =>
    have hchange : Action.IsChange (.remove name) := trivial
    refine h.change hchange hidle ?_
    rcases s.store.remove_cases name with ⟨w, -, hbound⟩ | ⟨-, hunbound⟩
    · cases hbound.symm.trans hremove
      exact h.cache.erase name
    · cases hunbound.symm.trans hremove
  | raise hk => exact h.raise hk
  | lockSave hidle hlock => exact h.lock hidle hlock (.inl rfl)
  | lockReload hidle hlock => exact h.lock hidle hlock (.inr rfl)
  | skip hk | unlock hk =>
    exact h.hold (by rw [hk]; rfl) hstep' rfl rfl h.cache h.file nofun nofun nofun
      (h.owed.pass rfl rfl rfl (by rw [hk]; rfl) nofun nofun)
  | take hk hup =>
    exact h.hold (by rw [hk]; rfl) hstep' rfl rfl h.cache h.file nofun nofun nofun (.inr (.inr (.inl (exists_saves rfl rfl))))
  | snapshot hk =>
    exact h.hold (by rw [hk]; rfl) hstep' rfl rfl h.cache h.file (fun vars hx => (Stage.writing.inj hx).symm) nofun nofun
      (.inr (.inr (.inl (exists_saves rfl rfl))))
  | write hk hwrite => exact h.written hk hwrite
  | unwritten hk hwrite => exact h.unwritten hk hwrite
  | restore hk =>
    exact h.hold (by rw [hk]; rfl) hstep' rfl rfl h.cache h.file nofun nofun nofun (.inr (.inl (.inl rfl)))
  | read hk hread =>
    exact h.read hk hread hstep' (fun vars hx => congrArg Except.ok (Stage.loaded.inj hx)) ⟨nofun, nofun⟩
  | unread hk hread => exact h.read hk hread hstep' nofun ⟨nofun, nofun⟩
  | @renew k vars hk =>
    have hcontents := h.loaded k vars hk
    exact h.hold (by rw [hk]; rfl) hstep' rfl rfl (h.file vars hcontents) h.file nofun nofun (fun _ => .renew es hcontents)
      (.inl hcontents)
  | lower hk => exact h.lower hk

end Sound

/-- Whatever the threads do in whatever order. -/
theorem Run.sound (h : Run start es s) (hstart : Sound p [] start)
    (hset : ∀ k name v, (k, .set name v) ∈ es → v.Lasts) : Sound p es s := by
  induction h with
  | nil => exact hstart
  | snoc _ hstep ih =>
    refine (ih fun k name v hmem => hset k name v (List.mem_append_left _ hmem)).step hstep fun k name v he => ?_
    exact hset k name v (he ▸ List.mem_append_right _ (.head _))

/-- Any number of threads set, remove, save and reload, in any order of their steps, and no one else touches the file. Where none of them
is at anything and the flag is down, the file holds exactly the variables of the cache, unless a reload has taken the flag down over a
write that came behind it; and a save that succeeds leaves them there, whatever the flag says. -/
theorem Run.saved_at_rest {store : FileStore} {files opened : Files} (hstart : FileStore.start p files = (.ok store, opened))
    (hcache : Variables.All (fun _ v => v.Lasts) store.cache) (h : Run (.opened store opened) es s)
    (hset : ∀ k name v, (k, .set name v) ∈ es → v.Lasts) (hrest : ∀ k, s.stage k = .idle) (hovertaken : ¬Overtaken es) :
    (s.store.dirty = false → FileStore.contents p s.files = some s.store.cache) ∧
    ∀ last files', s.store.save s.files = ((.ok (), last), files') → FileStore.contents p files' = some s.store.cache := by
  have hsound := h.sound (sound_opened hstart hcache) hset
  have hclean (hdown : s.store.dirty = false) : FileStore.contents p s.files = some s.store.cache := by
    rcases hsound.owed with hsame | (hup | ⟨k, hk⟩) | ⟨k, hk⟩ | hgone
    · exact hsame
    · cases hdown.symm.trans hup
    · cases (hrest k).symm.trans hk
    · rw [hrest k] at hk
      cases hk
    · exact absurd hgone hovertaken
  refine ⟨hclean, fun last files' hsave => ?_⟩
  cases hdirty : s.store.dirty with
  | false =>
    cases (FileStore.save_of_clean hdirty s.files).symm.trans hsave
    exact hclean hdirty
  | true =>
    have hsaved := FileStore.contents_of_save (fun name v hv => (hsound.cache name v hv).exact) hdirty hsave
    rwa [hsound.path, Variables.filed_of_lasts _ hsound.cache] at hsaved

/-- Where nothing was reloaded, nothing was overtaken. -/
theorem Overtaken.lower_mem (h : Overtaken es) : ∃ i, (i, .lower) ∈ es := by
  obtain ⟨before, i, window, after, -, -, rfl, -⟩ := h
  exact ⟨i, by simp⟩

/-- One thread begins to save between the two steps of a write of another one. -/
theorem saved_at_rest_between :
    let store : FileStore := ⟨⟨["var.json"]⟩, ∅, false, true⟩
    let es : List (Nat × Action) :=
      [(0, .set "x" (.bool true)), (1, .lock), (0, .raise), (1, .take), (1, .snapshot), (1, .write), (1, .unlock)]
    ∃ s, Run (.opened store .empty) es s ∧ (∀ k, s.stage k = .idle) ∧ s.store.dirty = false ∧
      s.store.cache["x"]? = some (.bool true) ∧ FileStore.contents store.path s.files = some s.store.cache := by
  intro store es
  obtain ⟨files', hwrite, -⟩ := FileStore.clear_empty.write_eq ((∅ : Variables).insert "x" (.bool true))
  obtain ⟨s, hrun, hrest, hdown, hbound⟩ : ∃ s, Run (.opened store .empty) es s ∧ (∀ k, s.stage k = .idle) ∧
      s.store.dirty = false ∧ s.store.cache["x"]? = some (.bool true) := by
    have h₁ := (@Run.nil (.opened store .empty)).snoc (@Step.set _ 0 "x" (.bool true) _ rfl rfl)
    have h₂ := h₁.snoc (@Step.lockSave _ 1 rfl rfl)
    have h₃ := h₂.snoc (@Step.raise _ 0 rfl)
    have h₄ := h₃.snoc (@Step.take _ 1 rfl rfl)
    have h₅ := h₄.snoc (@Step.snapshot _ 1 rfl)
    have h₆ := h₅.snoc (@Step.write _ 1 _ files' rfl hwrite)
    have h₇ := h₆.snoc (@Step.unlock _ 1 rfl)
    refine ⟨_, h₇, fun k => ?_, rfl, Std.ExtTreeMap.getElem?_insert_self⟩
    match k with
    | 0 | 1 | _ + 2 => rfl
  have hstart : FileStore.start ⟨["var.json"]⟩ .empty = (.ok store, .empty) := by
    dsimp only [store]
    rfl
  have hcache : Variables.All (fun _ v => v.Lasts) store.cache := by
    intro name v hv
    cases Std.ExtTreeMap.getElem?_empty.symm.trans hv
  have hset : ∀ k name v, (k, .set name v) ∈ es → v.Lasts := by
    intro k name v hmem
    obtain rfl : v = .bool true := by simp_all [es]
    exact Value.lasts_of_kind nofun nofun
  have hovertaken : ¬Overtaken es := by
    intro h
    obtain ⟨i, hi⟩ := h.lower_mem
    simp [es] at hi
  exact ⟨s, hrun, hrest, hdown, hbound, (hrun.saved_at_rest hstart hcache hset hrest hovertaken).1 hdown⟩

/-- A write comes whole between the two steps by which a reload replaces the cache and takes the flag down: the flag is down, and the
file does not have it. Neither has it a double that is not finite, although the save that takes the flag down for it succeeds. -/
theorem saved_at_rest_false :
    let store : FileStore := ⟨⟨["var.json"]⟩, ∅, false, true⟩
    FileStore.start store.path .empty = (.ok store, .empty) ∧
    (∃ s, Run (.opened store .empty) [(0, .lock), (0, .read), (0, .renew), (1, .set "x" (.bool true)), (1, .raise), (0, .lower),
        (0, .unlock)] s ∧
      (∀ k, s.stage k = .idle) ∧ s.store.dirty = false ∧ FileStore.contents store.path s.files ≠ some s.store.cache) ∧
    ∃ s, Run (.opened store .empty) [(0, .set "x" (.float (0.0 / 0.0))), (0, .raise), (0, .lock), (0, .take), (0, .snapshot),
        (0, .write), (0, .unlock)] s ∧
      (∀ k, s.stage k = .idle) ∧ s.store.dirty = false ∧ FileStore.contents store.path s.files ≠ some s.store.cache := by
  intro store
  refine ⟨?_, ?_, ?_⟩
  · dsimp only [store]
    rfl
  · have hread : FileStore.read ⟨["var.json"]⟩ .empty = (.ok ∅, .empty) := rfl
    have h₁ := (@Run.nil (.opened store .empty)).snoc (@Step.lockReload _ 0 rfl rfl)
    have h₂ := h₁.snoc (@Step.read _ 0 _ _ rfl hread)
    have h₃ := h₂.snoc (@Step.renew _ 0 _ rfl)
    have h₄ := h₃.snoc (@Step.set _ 1 "x" (.bool true) _ rfl rfl)
    have h₅ := h₄.snoc (@Step.raise _ 1 rfl)
    have h₆ := h₅.snoc (@Step.lower _ 0 rfl)
    have h₇ := h₆.snoc (@Step.unlock _ 0 rfl)
    refine ⟨_, h₇, fun k => ?_, rfl, ?_⟩
    · match k with
      | 0 | 1 | _ + 2 => rfl
    · intro hsame
      have hcontents : FileStore.contents ⟨["var.json"]⟩ .empty = some ∅ := FileStore.contents_of_missing rfl
      have hempty : (∅ : Variables) = (∅ : Variables).insert "x" (.bool true) := Option.some.inj (hcontents.symm.trans hsame)
      have hbound := congrArg (fun vars : Variables => vars["x"]?) hempty
      cases Std.ExtTreeMap.getElem?_empty.symm.trans (hbound.trans Std.ExtTreeMap.getElem?_insert_self)
  · let v : Value := .float (0.0 / 0.0)
    have hinfinite : v.isFinite = false := by decide +kernel
    obtain ⟨files', hwrite, -⟩ := FileStore.clear_empty.write_eq ((∅ : Variables).insert "x" v)
    have h₁ := (@Run.nil (.opened store .empty)).snoc (@Step.set _ 0 "x" v _ rfl rfl)
    have h₂ := h₁.snoc (@Step.raise _ 0 rfl)
    have h₃ := h₂.snoc (@Step.lockSave _ 0 rfl rfl)
    have h₄ := h₃.snoc (@Step.take _ 0 rfl rfl)
    have h₅ := h₄.snoc (@Step.snapshot _ 0 rfl)
    have h₆ := h₅.snoc (@Step.write _ 0 _ files' rfl hwrite)
    have h₇ := h₆.snoc (@Step.unlock _ 0 rfl)
    refine ⟨_, h₇, fun k => ?_, rfl, ?_⟩
    · match k with
      | 0 | _ + 1 => rfl
    · intro hsame
      have hexact : Variables.All (fun _ v => v.Exact) ((∅ : Variables).insert "x" v) := by
        refine Variables.All.insert (fun _ _ hw => ?_) (Value.exact_of_infinite hinfinite)
        cases Std.ExtTreeMap.getElem?_empty.symm.trans hw
      have hcontents := (FileStore.contents_of_write hwrite).trans (FileStore.held_writeObject hexact)
      have hfiled : Variables.filed ((∅ : Variables).insert "x" v) = (∅ : Variables).insert "x" v :=
        Option.some.inj (hcontents.symm.trans hsame)
      have hbound := congrArg (fun vars : Variables => vars["x"]?) hfiled
      simp only [Variables.getElem?_filed, Std.ExtTreeMap.getElem?_insert_self, Option.bind_some,
        Value.filed?_eq_null.mpr (.inr hinfinite)] at hbound
      exact Value.noConfusion (show Value.null = .float (0.0 / 0.0) from Option.some.inj hbound)

end SharedStore

end EventScript
