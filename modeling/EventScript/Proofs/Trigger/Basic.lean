import EventScript.Proofs.Run.Basic
import EventScript.Proofs.Trigger.Queues
import EventScript.Trigger.Activation

/-!
# Parts of an activation as functions

What the parts of an activation come to: the start of a trigger, the run of a script between its first phase and its last, the
call across the bridge, and the wait for an answer. For those with many ends there is one lemma that tells the ends apart.
-/

namespace EventScript

/-- An empty registry has nothing under any name. -/
theorem Registry.get?_empty {α : Type} (fold : String → String) (name : String) : (empty fold : Registry α).get? name = none :=
  Std.ExtTreeMap.getElem?_empty

/-- What is found behind a registration is what was registered or was found before. -/
theorem Registry.get?_insert_cases {α : Type} {r : Registry α} {name other : String} {entry found : α}
    (h : (r.insert name entry).get? other = some found) : found = entry ∨ r.get? other = some found := by
  have hlookup := Std.ExtTreeMap.getElem?_insert.symm.trans h
  split at hlookup
  · exact .inl (Option.some.inj hlookup).symm
  · exact .inr hlookup

namespace Engine

variable {H : Type} {e e' : Engine H} {scope scope' : Scope (Engine H)}

/-- A crash of the run becomes a stop of the one that waits for it. -/
theorem spread_apply (m : StateM (Scope (Engine H)) Conclusion) (s : Scope (Engine H)) :
    spread m s =
      match m s with
      | (.ok v, s') => (.ok v, s')
      | (.error (.panicked p), s') => (.error (.panicked p), s')
      | (.error .outOfFuel, s') => (.error .outOfFuel, s') := by
  have hlift : (liftM m : Run (Engine H) Conclusion) s = (.ok (m s).1, (m s).2) := rfl
  unfold spread
  rw [Run.bind_ok hlift]
  rcases m s with ⟨(p | _) | v, s'⟩
  all_goals rfl

/-! ## What the engine's own acts leave -/

/-- Nothing is done, or the clock is read. -/
def AtMostReads (e e' : Engine H) : Prop := e' = e ∨ e' = (readClock e).2

/-- To ask whether an actor cools down at most reads the clock. -/
theorem isCooling_reads (t : Trigger) (c : Context H) (e : Engine H) : e.AtMostReads (isCooling t c e).2 := by
  unfold isCooling
  cases c.actor with
  | none => exact .inl rfl
  | some actor => exact .inr rfl

/-- To set a deadline at most reads it. -/
theorem start_reads (timeout : Option Duration) (e : Engine H) : e.AtMostReads (Deadline.start timeout e).2 := by
  cases timeout with
  | none => exact .inl rfl
  | some t => exact .inr rfl

/-- To tell what is left of a cooldown is to read the clock. -/
theorem reservedPlaceholder_reads (a : Activation H) (caller : Caller) (name : String) (e : Engine H) :
    e.AtMostReads (reservedPlaceholder a caller name e).2 := by
  unfold reservedPlaceholder cooldownLeft
  split
  · cases caller.actor with
    | none => exact .inl rfl
    | some actor => exact .inr rfl
  · exact .inl rfl

/-- The settings stay, and the clock goes on. -/
structure Ages (e e' : Engine H) : Prop where
  settings : e'.settings = e.settings
  time : e'.clock.time = e.clock.time
  readings : e.clock.readings ≤ e'.clock.readings

/-- An engine with the same settings and clock is no younger. -/
theorem Ages.of_clock {e e' : Engine H} (hsettings : e'.settings = e.settings) (hclock : e'.clock = e.clock) : e.Ages e' :=
  ⟨hsettings, congrArg Clock.time hclock, Nat.le_of_eq (congrArg Clock.readings hclock).symm⟩

/-- No engine is younger than itself. -/
theorem Ages.refl (e : Engine H) : e.Ages e := .of_clock rfl rfl

/-- To age twice is to age. -/
theorem Ages.trans {e e' e'' : Engine H} (h : e.Ages e') (h' : e'.Ages e'') : e.Ages e'' :=
  ⟨h'.settings.trans h.settings, h'.time.trans h.time, Nat.le_trans h.readings h'.readings⟩

/-- To read the clock ages an engine by one reading. -/
theorem ages_readClock (e : Engine H) : e.Ages (readClock e).2 := ⟨rfl, rfl, Nat.le_succ _⟩

/-- What at most reads the clock ages the engine. -/
theorem AtMostReads.ages {e e' : Engine H} (h : e.AtMostReads e') : e.Ages e' := by
  rcases h with rfl | rfl
  · exact .refl _
  · exact ages_readClock e

/-- An engine that has aged finds it no earlier. -/
theorem Ages.now_le {e e' : Engine H} (h : e.Ages e') : e.clock.now ≤ e'.clock.now := by
  unfold Clock.now
  rw [h.time]
  exact e.clock.monotone _ _ h.readings

/-- Work of the host changes what code of the host reaches, and nothing else. -/
theorem workHere_state (w : Work H) (e : Engine H) : (workHere w e).2 = { e with reach := (w e.reach).2 } := by
  unfold workHere
  rcases w e.reach with ⟨_ | _, _⟩ <;> rfl

/-- To write a global variable changes the variables, and nothing else. -/
theorem writeGlobal_state (key : String) (v : Value) (e : Engine H) :
    ∃ globals, (writeGlobal key v e).2 = { e with reach := { e.reach with globals := globals } } := by
  unfold writeGlobal
  cases e.reach.globals.set key v with
  | ok globals => exact ⟨globals, rfl⟩
  | error f => exact ⟨e.reach.globals, rfl⟩

/-! ## What is registered -/

/-- What scripts find registered. No script changes it. -/
structure Registries (H : Type) where
  commands : Registry (Command H)
  placeholders : Registry (Placeholder H)
  named : Std.ExtTreeMap String Trigger compare

def registries (e : Engine H) : Registries H := ⟨e.commands, e.placeholders, e.named⟩

/-- What at most reads the clock changes no registry. -/
theorem AtMostReads.registries (h : e.AtMostReads e') : e'.registries = e.registries := by
  rcases h with rfl | rfl <;> rfl

/-- Neither does work of the host. -/
theorem registries_workHere (w : Work H) (e : Engine H) : (workHere w e).2.registries = e.registries := by
  rw [workHere_state]
  rfl

/-- Neither does a global variable. -/
theorem registries_writeGlobal (key : String) (v : Value) (e : Engine H) :
    (writeGlobal key v e).2.registries = e.registries := by
  obtain ⟨globals, h⟩ := writeGlobal_state key v e
  rw [h]
  rfl

/-- Neither does the question whether an actor cools down. -/
theorem registries_isCooling (t : Trigger) (c : Context H) (e : Engine H) :
    (isCooling t c e).2.registries = e.registries := (isCooling_reads t c e).registries

/-! ## Answers -/

/-- Who waits for an activation that has come to nothing waits for ever. -/
theorem wait_of_none {id : Nat} (h : e.conclusions[id]? = none) : wait ⟨id, none⟩ e = (.error .outOfFuel, e) := by
  simp only [wait, Run.get_bind, h]
  rfl

/-- To wait for a worker is to learn its conclusion. -/
theorem wait_of_some {id : Nat} {c : Conclusion} (h : e.conclusions[id]? = some c) : wait ⟨id, none⟩ e = answerOf c e := by
  simp only [wait, Run.get_bind, h]

/-- The answer is read off, and changes nothing. -/
theorem answerOf_state (c : Conclusion) (e : Engine H) : (answerOf c e).2 = e := by
  rcases c with (_ | _) | (_ | _) <;> rfl

/-- Waiting changes nothing. -/
theorem wait_state (h : Handle) (e : Engine H) : (wait h e).2 = e := by
  obtain ⟨id, _ | v⟩ := h
  · cases hconclusion : e.conclusions[id]? with
    | none => rw [wait_of_none hconclusion]
    | some c => rw [wait_of_some hconclusion, answerOf_state]
  · exact answerOf_state (.ok v) e

/-! ## The start of a trigger -/

section

variable (run : RunSync H) {t : Trigger} {c : Context H} {vars : Variables}

/-- Workers that take a job have it with the variables as they are. -/
theorem enqueue_ok {a : Activation H} {workers : Pool (Job H)} (h : e.workers.submit ⟨a, vars⟩ = .ok workers) :
    enqueue a ⟨vars, e⟩ = (.ok (), ⟨vars, { e with workers := workers }⟩) := by
  simp only [enqueue, h]

/-- Workers that take none fail the start. -/
theorem enqueue_error {a : Activation H} {f : Fault} (h : e.workers.submit ⟨a, vars⟩ = .error f) :
    enqueue a ⟨vars, e⟩ = (.error (.failed f), ⟨vars, e⟩) := by
  simp only [enqueue, h]

/-- An engine that accepts nothing starts nothing, and changes nothing. -/
theorem activateWith_closed (mode : Mode) (h : e.accepting = false) :
    activateWith run t c mode ⟨vars, e⟩ = (.error (.failed .shuttingDown), ⟨vars, e⟩) := by
  simp only [activateWith, Run.get_bind, h]
  rfl

/-- One that does looks at the cooldown first, and then at how to run. -/
theorem activateWith_open (mode : Mode) (h : e.accepting = true) :
    activateWith run t c mode ⟨vars, e⟩ =
      (if (isCooling t c e).1 then do
        let id ← toRun (newActivation .cancelled)
        pure ⟨id, some (.ok .cancelled)⟩
      else do
        let id ← toRun (newActivation .created)
        match mode with
        | .sync =>
          let v ← run ⟨id, t, c, mode⟩
          pure ⟨id, some v⟩
        | .async =>
          enqueue ⟨id, t, c, mode⟩
          pure ⟨id, none⟩ : Run (Engine H) Handle) ⟨vars, (isCooling t c e).2⟩ := by
  simp only [activateWith, Run.get_bind, h]
  rfl

/-- While an actor cools down, the activation is cancelled before it begins. -/
theorem activateWith_cooling (mode : Mode) (h : e.accepting = true) (hcooling : (isCooling t c e).1 = true) :
    activateWith run t c mode ⟨vars, e⟩ =
      (.ok ⟨(isCooling t c e).2.nextActivation, some (.ok .cancelled)⟩,
        ⟨vars, (newActivation .cancelled (isCooling t c e).2).2⟩) := by
  rw [activateWith_open run mode h, if_pos hcooling]
  rfl

/-- Otherwise it runs on the spot. -/
theorem activateWith_sync (h : e.accepting = true) (hcooling : (isCooling t c e).1 = false) :
    activateWith run t c .sync ⟨vars, e⟩ =
      (run ⟨(isCooling t c e).2.nextActivation, t, c, .sync⟩ >>= fun v =>
        pure ⟨(isCooling t c e).2.nextActivation, some v⟩) ⟨vars, (newActivation .created (isCooling t c e).2).2⟩ := by
  rw [activateWith_open run .sync h, if_neg (Bool.eq_false_iff.mp hcooling)]
  rfl

/-- Or it is queued before the workers. -/
theorem activateWith_async (h : e.accepting = true) (hcooling : (isCooling t c e).1 = false) :
    activateWith run t c .async ⟨vars, e⟩ =
      (enqueue ⟨(isCooling t c e).2.nextActivation, t, c, .async⟩ >>= fun _ =>
        pure ⟨(isCooling t c e).2.nextActivation, none⟩) ⟨vars, (newActivation .created (isCooling t c e).2).2⟩ := by
  rw [activateWith_open run .async h, if_neg (Bool.eq_false_iff.mp hcooling)]
  rfl

end

/-! ## The run of a script -/

/-- An activation that runs here ends with its script, in a verdict or in a panic. -/
theorem runHere_cases {fuel depth : Nat} {onMain : Bool} {handOver : HandOver H} {runSync : RunSync H} {a : Activation H}
    {conclusion : Conclusion} (h : runHere fuel onMain depth handOver runSync a scope = (conclusion, scope')) :
    let running := scope.world.setPhase a.id .running
    let start := Deadline.start running.settings.execution.activationTimeout running
    let host := triggerSurroundings a ⟨a.context.id, a.context.event, a.context.actor, a.mode, onMain, depth⟩ start.1 handOver
      runSync
    ∃ r scope₁, host.executeAll host.enter fuel a.trigger.script.statements ⟨scope.locals, start.2⟩ = (r, scope₁) ∧
      (r = .error .outOfFuel ∧ conclusion = .error .outOfFuel ∨ r ≠ .error .outOfFuel ∧
        ((∃ v, conclusion = .ok v ∧ scope' = { scope₁ with world := scope₁.world.setPhase a.id (.ofVerdict v) }) ∨
          ∃ p, conclusion = .error (.panicked p) ∧ scope' = { scope₁ with locals := ∅ })) := by
  intro running start host
  obtain ⟨deadline, world, hstart⟩ : ∃ deadline world,
    Deadline.start running.settings.execution.activationTimeout running = (deadline, world) := ⟨_, _, rfl⟩
  obtain ⟨r, scope₁, hrun⟩ : ∃ r scope₁, host.executeAll host.enter fuel a.trigger.script.statements ⟨scope.locals, start.2⟩ =
    (r, scope₁) := ⟨_, _, rfl⟩
  refine ⟨r, scope₁, hrun, ?_⟩
  simp only [start, host, hstart] at hrun
  unfold runHere at h
  simp only [stateM_bind_apply, stateM_get_apply, stateM_modify_apply] at h
  simp only [running] at hstart
  simp only [hstart, stateM_bind_apply, stateM_modify_apply, Host.run_apply, hrun] at h
  rcases r with (_ | _ | f | p | _) | signal
  · cases h
    exact .inr ⟨nofun, .inl ⟨_, rfl, rfl⟩⟩
  · cases h
    exact .inr ⟨nofun, .inl ⟨_, rfl, rfl⟩⟩
  · cases h
    exact .inr ⟨nofun, .inl ⟨_, rfl, rfl⟩⟩
  · cases h
    exact .inr ⟨nofun, .inr ⟨p, rfl, rfl⟩⟩
  · cases h
    exact .inl ⟨rfl, rfl⟩
  · cases h
    exact .inr ⟨nofun, .inl ⟨_, rfl, rfl⟩⟩

/-! ## The call across the bridge -/

/-- One task after the other, as long as they end. -/
theorem runTasks_cons {fuel : Nat} {t : MainTask H} {rest : List (MainTask H)} {r : Except Halt Unit}
    (h : runTasks fuel (t :: rest) e = (r, e')) (hr : r ≠ .error .outOfFuel) :
    ∃ c e₁, runTask fuel t e = (c, e₁) ∧ c ≠ .error .outOfFuel ∧ runTasks fuel rest e₁ = (r, e') := by
  obtain ⟨c, e₁, htask⟩ : ∃ c e₁, runTask fuel t e = (c, e₁) := ⟨_, _, rfl⟩
  unfold runTasks at h
  rw [Run.bind_ok (Run.liftM_apply htask)] at h
  rcases c with (p | _) | x
  · exact ⟨_, e₁, htask, nofun, h⟩
  · cases h
    exact absurd rfl hr
  · exact ⟨_, e₁, htask, nofun, h⟩

/-- Tasks are only left undone where one of them does not end. -/
theorem runTasks_error {fuel : Nat} {ts : List (MainTask H)} {reason : Halt} (h : runTasks fuel ts e = (.error reason, e')) :
    reason = .outOfFuel := by
  induction ts generalizing e with
  | nil => cases h
  | cons t rest ih =>
    by_cases hreason : reason = .outOfFuel
    · exact hreason
    · obtain ⟨c, e₁, -, -, hrest⟩ := runTasks_cons h (fun hsame => hreason (Except.error.inj hsame))
      exact ih hrest

/-- Only the thread of the host takes up what is queued. -/
theorem runPending_cases {fuel : Nat} {r : Except Halt Nat} (h : runPending fuel e = (r, e')) (hr : r ≠ .error .outOfFuel) :
    e.hostIsMain = false ∧ e' = e ∨ e.hostIsMain = true ∧
      runTasks fuel e.bridge.collect.1 { e with bridge := e.bridge.collect.2 } = (.ok (), e') := by
  unfold runPending at h
  rw [Run.get_bind] at h
  cases hhost : e.hostIsMain with
  | false =>
    simp only [hhost, Bool.false_eq_true, if_false] at h
    cases h
    exact .inl ⟨rfl, rfl⟩
  | true =>
    refine .inr ⟨rfl, ?_⟩
    simp only [hhost, if_true, Run.set_bind] at h
    rcases Run.cases (runTasks fuel e.bridge.collect.1) { e with bridge := e.bridge.collect.2 } with
      ⟨_, e₁, htasks⟩ | ⟨reason, e₁, htasks⟩
    · rw [Run.bind_ok htasks] at h
      cases h
      exact htasks
    · cases runTasks_error htasks
      rw [Run.bind_error htasks] at h
      cases h
      exact absurd rfl hr

/-- A call is refused, or answered by the main thread after it has done what was queued before, or given up after a time. -/
theorem callMain_cases {fuel : Nat} {t : MainTask H} {r : Except Halt (Except BridgeFault t.Answer)}
    (h : callMain fuel t e = (r, e')) (hr : r ≠ .error .outOfFuel) :
    (∃ f, e.bridge.submit t = .error f ∧ r = .ok (.error f) ∧ e' = e) ∨
    ∃ b, e.bridge.submit t = .ok b ∧
      ((e.isServed = true ∧ ∃ e₁ c,
        runTasks fuel e.bridge.pending { e with bridge := { b with pending := [] } } = (.ok (), e₁) ∧
        runTask fuel t e₁ = (c, e') ∧ ((∃ x, c = .ok x ∧ r = .ok (.ok x)) ∨
          ∃ p, c = .error (.panicked p) ∧ r = .ok (.error (.panicked p)))) ∨
      e.isServed = false ∧ ∃ timeout, e.settings.execution.bridgeTimeout = some timeout ∧
        r = .ok (.error (.timedOut timeout)) ∧ e' = { e with bridge := b }) := by
  unfold callMain at h
  rw [Run.get_bind] at h
  cases hsubmit : e.bridge.submit t with
  | error f =>
    simp only [hsubmit] at h
    cases h
    exact .inl ⟨f, rfl, rfl, rfl⟩
  | ok b =>
    refine .inr ⟨b, rfl, ?_⟩
    simp only [hsubmit] at h
    cases hserved : e.isServed with
    | false =>
      refine .inr ⟨rfl, ?_⟩
      simp only [hserved, Bool.false_eq_true, if_false, Run.set_bind] at h
      cases htimeout : e.settings.execution.bridgeTimeout with
      | some timeout =>
        simp only [htimeout] at h
        cases h
        exact ⟨timeout, rfl, rfl, rfl⟩
      | none =>
        simp only [htimeout] at h
        cases h
        exact absurd rfl hr
    | true =>
      refine .inl ⟨rfl, ?_⟩
      have hpending : b.collect.1.dropLast = e.bridge.pending := by
        show b.pending.dropLast = _
        rw [Bridge.pending_submit hsubmit, List.dropLast_concat]
      simp only [hserved, if_true, Run.set_bind, hpending] at h
      rcases Run.cases (runTasks fuel e.bridge.pending) { e with bridge := b.collect.2 } with
        ⟨_, e₁, htasks⟩ | ⟨reason, e₁, htasks⟩
      · refine ⟨e₁, ?_⟩
        rw [Run.bind_ok htasks] at h
        obtain ⟨c, e₂, htask⟩ : ∃ c e₂, runTask fuel t e₁ = (c, e₂) := ⟨_, _, rfl⟩
        rw [Run.bind_ok (Run.liftM_apply htask)] at h
        rcases c with (p | _) | x
        · cases h
          exact ⟨_, htasks, htask, .inr ⟨p, rfl, rfl⟩⟩
        · cases h
          exact absurd rfl hr
        · cases h
          exact ⟨_, htasks, htask, .inl ⟨x, rfl, rfl⟩⟩
      · cases runTasks_error htasks
        rw [Run.bind_error htasks] at h
        cases h
        exact absurd rfl hr

/-- The variables go with an activation, and come back only with its verdict. -/
theorem runAcross_apply (fuel : Nat) (a : Activation H) (vars : Variables) (e : Engine H) :
    runAcross fuel a ⟨vars, e⟩ =
      match callMain fuel (.activation a vars) e with
      | (.ok (.ok (v, reached)), e') => (.ok v, ⟨reached, e'⟩)
      | (.ok (.error f), e') => (.ok (.error (.bridge f)), ⟨∅, e'.setPhase a.id .failed⟩)
      | (.error reason, e') => (.error reason, ⟨∅, e'⟩) := by
  unfold runAcross
  rw [Run.get_bind, Run.bind_ok (Run.modify_apply _ _), Run.bind_apply]
  simp only [Run.ofAct]
  rcases callMain fuel (.activation a vars) e with ⟨_ | _ | ⟨v, reached⟩, e'⟩
  all_goals rfl

/-! ## The workers -/

/-- What a job comes to is kept for those who wait for it. -/
theorem runJob_cases {fuel : Nat} {job : Job H} {r : Except Halt Unit} (h : runJob fuel job e = (r, e'))
    (hr : r ≠ .error .outOfFuel) :
    ∃ c scope, (if e.maxDepth = 0 then refuseDepth job.activation
        else runHere fuel false 1 (workAcross fuel) (runAcross fuel) job.activation) ⟨job.locals, e⟩ = (c, scope) ∧
      c ≠ .error .outOfFuel ∧
      e' = { scope.world with conclusions := scope.world.conclusions.insert job.activation.id c } := by
  unfold runJob at h
  obtain ⟨c, scope, hrun⟩ : ∃ c scope, (if e.maxDepth = 0 then refuseDepth job.activation
    else runHere fuel false 1 (workAcross fuel) (runAcross fuel) job.activation) ⟨job.locals, e⟩ = (c, scope) := ⟨_, _, rfl⟩
  simp only [hrun] at h
  rcases c with (p | _) | v
  · cases h
    exact ⟨_, scope, hrun, nofun, rfl⟩
  · cases h
    exact absurd rfl hr
  · cases h
    exact ⟨_, scope, hrun, nofun, rfl⟩

/-- An engine is shut down once: the workers carry out what is queued, and the global variables are written. -/
theorem shutDown_cases {fuel jobs : Nat} {r : Except Halt Unit} (h : shutDown fuel jobs e = (r, e')) :
    e.accepting = false ∧ e' = e ∨ e.accepting = true ∧ ∃ r₁ e₁,
      drain fuel jobs { e with accepting := false, bridge := e.bridge.shutDown, workers := e.workers.shutDown } = (r₁, e₁) ∧
      (r₁ = r ∧ e' = e₁ ∨ r₁ = .ok () ∧ e' = (onGlobals (H := H) Globals.flush e₁).2) := by
  unfold shutDown at h
  rw [Run.get_bind] at h
  cases haccepting : e.accepting with
  | false =>
    simp only [haccepting, Bool.false_eq_true, if_false] at h
    cases h
    exact .inl ⟨rfl, rfl⟩
  | true =>
    refine .inr ⟨rfl, ?_⟩
    simp only [haccepting, if_true, Run.set_bind] at h
    rcases Run.cases (drain fuel jobs)
      { e with accepting := false, bridge := e.bridge.shutDown, workers := e.workers.shutDown } with
      ⟨_, e₁, hdrain⟩ | ⟨reason, e₁, hdrain⟩
    · refine ⟨_, e₁, hdrain, .inr ⟨rfl, ?_⟩⟩
      rw [Run.bind_ok hdrain] at h
      exact (congrArg Prod.snd h).symm
    · rw [Run.bind_error hdrain] at h
      cases h
      exact ⟨_, _, hdrain, .inl ⟨rfl, rfl⟩⟩

end Engine

end EventScript
