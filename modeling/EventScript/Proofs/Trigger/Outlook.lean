import EventScript.Proofs.Trigger.Basic

/-!
# Activations among other threads

While an activation runs, other threads go on: they change what the engine holds, and one of them may shut the engine down. An
`Outlook` says how a run reaches the engine and what comes between: something may happen before a node is entered and before the
run looks at one of the gates that a shutdown closes. The definitions here are those of activations, with an outlook in place of
the engine itself. Where nothing comes between they are the same (`Outlook.drain_plain`).
-/

namespace EventScript

/-- What a shutdown closes, each in its own time. -/
inductive Gate where
  /-- The engine accepts activations. -/
  | accepting
  | bridge
  | workers
deriving DecidableEq, Repr

/-- How a run reaches the engine, and what other threads do meanwhile. -/
structure Outlook (H W : Type) where
  engine : W → Engine H
  put : Engine H → W → W
  /-- Before a node is entered, or the next job is taken up. -/
  pass : W → W
  /-- Before the run looks at a gate. -/
  look : Gate → W → W
  /-- While a task waits for the thread of the host. -/
  hold : W → W

namespace Outlook

variable {H W α : Type}

/-- There is no other thread. -/
def plain (H : Type) : Outlook H (Engine H) := ⟨id, fun e _ => e, id, fun _ => id, id⟩

section

variable (o : Outlook H W)

/-- A part that looks at no gate. -/
def onScope (m : StateM (Scope (Engine H)) α) : StateM (Scope W) α := fun s =>
  let r := m ⟨s.locals, o.engine s.world⟩
  (r.1, ⟨r.2.locals, o.put r.2.world s.world⟩)

def onEngine (m : StateM (Engine H) α) : StateM W α := fun w =>
  let r := m (o.engine w)
  (r.1, o.put r.2 w)

def run (m : Run (Engine H) α) : Run W α := o.onScope m

def act (m : Act (Engine H) α) : Act W α := o.onEngine m

/-- A part on variables of its own, which it gives back. -/
def inScope (vars : Variables) (m : StateM (Scope W) α) : StateM W (α × Variables) := fun w =>
  let r := m ⟨vars, w⟩
  ((r.1, r.2.locals), r.2.world)

/-- Looks at a gate. -/
def lookAt (g : Gate) : Run W Unit := modify fun s => { s with world := o.look g s.world }

/-! ## Host code -/

def workHere (w : Work H) : Act W (Except BridgeFault Value) := o.act (Engine.workHere w)

def perform (handOver : Work H → Act W (Except BridgeFault Value)) : Deed H α → Act W α
  | .act run => o.act (Engine.onReach run)
  | .handOver before work next => do
    o.act (Engine.onReach before)
    let answer ← handOver work
    perform handOver (next answer)

/-! ## Starting activations -/

section

variable (runSync : Activation H → Run W Verdict)

/-- Whether the engine accepts activations, as far as can be seen now. -/
def accepts : Run W Bool := do
  o.lookAt .accepting
  pure (o.engine (← get).world).accepting

def enqueue (a : Activation H) : Run W Unit := do
  o.lookAt .workers
  o.run (Engine.enqueue a)

def activateWith (t : Trigger) (c : Context H) (mode : Mode) : Run W Handle := do
  if ← o.accepts then
    if ← o.run (Engine.toRun (Engine.isCooling t c)) then
      let id ← o.run (Engine.toRun (Engine.newActivation .cancelled))
      pure ⟨id, some (.ok .cancelled)⟩
    else
      let id ← o.run (Engine.toRun (Engine.newActivation .created))
      match mode with
      | .sync =>
        let v ← runSync ⟨id, t, c, mode⟩
        pure ⟨id, some v⟩
      | .async =>
        o.enqueue ⟨id, t, c, mode⟩
        pure ⟨id, none⟩
  else Run.fail .shuttingDown

/-- The trigger of a name. -/
def named? (name : String) : Run (Engine H) (Option Trigger) := fun s => (.ok s.world.named[name]?, s)

def call (c : Context H) (args : List Value) : Run W Unit := do
  match Engine.callRequest args with
  | .error f => Run.fail (.runtime f)
  | .ok (name, mode) =>
    match ← o.run (named? name) with
    | none => Run.fail (.triggerNotFound name)
    | some t =>
      let h ← o.activateWith runSync t c mode
      if mode = .sync then
        let _ ← o.run (Run.ofAct (Engine.wait h))

def reservedCommand (a : Activation H) (caller : Caller) (name : String) (args : List Value) : Run W Bool :=
  if Text.upper name = "CALL" then do
    o.call runSync a.context args
    pure true
  else o.run (Engine.reservedCommand (fun _ => throw .outOfFuel) a caller name args)

end

/-- What a script finds around it that looks at no gate. -/
def alone (a : Activation H) (caller : Caller) (deadline : Option Deadline) : Host (Engine H) :=
  Engine.triggerSurroundings a caller deadline Engine.workHere fun _ => throw .outOfFuel

def surroundings (a : Activation H) (caller : Caller) (deadline : Option Deadline)
    (handOver : Work H → Act W (Except BridgeFault Value)) (runSync : Activation H → Run W Verdict) : Host W where
  isCancelled w := (alone a caller deadline).isCancelled (o.engine w)
  overdue? := do
    modify o.pass
    o.onEngine (alone a caller deadline).overdue?
  veto node := o.act ((alone a caller deadline).veto node)
  offerCommand name args := do
    if ← o.run (Engine.offerToHook (a.context.hook.onCommand caller name args)) then pure true
    else o.reservedCommand runSync a caller name args
  command? name w := ((o.engine w).commands.get? name).map fun c args => o.perform handOver (c caller args)
  offerPlaceholder name args := o.act ((alone a caller deadline).offerPlaceholder name args)
  placeholder? name w := ((o.engine w).placeholders.get? name).map fun p args => o.perform handOver (p caller args)
  readGlobal? name w := (alone a caller deadline).readGlobal? name (o.engine w)
  writeGlobal name v := o.act ((alone a caller deadline).writeGlobal name v)

/-! ## Running activations -/

/-- What is done about the end of a script. -/
def settle (a : Activation H) : Host.Outcome → StateM (Scope (Engine H)) Conclusion
  | .completed => Engine.conclude a (.ok .completed)
  | .halted .vetoed => Engine.conclude a (.ok .cancelled)
  | .halted .cancelled => Engine.conclude a (.ok .cancelled)
  | .halted (.failed f) => Engine.conclude a (.error f)
  | .halted (.panicked p) => do
    modify fun s => { s with locals := ∅ }
    pure (.error (.panicked p))
  | .halted .outOfFuel => pure (.error .outOfFuel)

/-- What is done before the first node. -/
def prepare (a : Activation H) : StateM (Scope (Engine H)) (Option Deadline) := do
  modify fun s => { s with world := s.world.setPhase a.id .running }
  let (deadline, world) := Deadline.start (← get).world.settings.execution.activationTimeout (← get).world
  modify fun s => { s with world := world }
  pure deadline

def runHere (fuel : Nat) (onMain : Bool) (depth : Nat) (handOver : Work H → Act W (Except BridgeFault Value))
    (runSync : Activation H → Run W Verdict) (a : Activation H) : StateM (Scope W) Conclusion := do
  let deadline ← o.onScope (prepare a)
  let caller : Caller := ⟨a.context.id, a.context.event, a.context.actor, a.mode, onMain, depth⟩
  let outcome ← (o.surroundings a caller deadline handOver runSync).run fuel a.trigger.script
  o.onScope (settle a outcome)

/-- A run as a part of the run that waits for it: a crash spreads. -/
def spread (m : StateM (Scope W) Conclusion) : Run W Verdict := do
  match ← liftM m with
  | .ok v => pure v
  | .error (.panicked p) => throw (.panicked p)
  | .error .outOfFuel => throw .outOfFuel

def runOnMain (fuel : Nat) : (levels depth : Nat) → Activation H → StateM (Scope W) Conclusion
  | 0, _, a => o.onScope (Engine.refuseDepth a)
  | levels + 1, depth, a =>
    o.runHere fuel true (depth + 1) o.workHere (fun b => spread (runOnMain fuel levels (depth + 1) b)) a

/-- How many activations may run each inside the one before. -/
def levels : StateM (Scope (Engine H)) Nat := fun s => (s.world.maxDepth, s)

/-- Runs an activation on the main thread, where it is the first one. -/
def runTop (fuel : Nat) (a : Activation H) : StateM (Scope W) Conclusion := do
  o.runOnMain fuel (← o.onScope levels) 0 a

def runTask (fuel : Nat) : (t : MainTask H) → StateM W (Except Crash t.Answer)
  | .work w => o.onEngine (Engine.runTask fuel (.work w))
  | .activation a vars => do
    let r ← inScope vars (o.runTop fuel a)
    pure (r.1.map fun v => (v, r.2))

def runTasks (fuel : Nat) : List (MainTask H) → Act W Unit
  | [] => pure ()
  | t :: rest => do
    match ← liftM (o.runTask fuel t) with
    | .error .outOfFuel => throw .outOfFuel
    | _ => runTasks fuel rest

/-- Lets the engine have its new queue; before the thread of the host the tasks then wait. -/
def putQueued (e : Engine H) (w : W) : W := if e.hostIsMain then o.hold (o.put e w) else o.put e w

/-- The task that is before the thread of the host is dropped: the bridge was shut down while it waited. -/
def drops (e : Engine H) : Bool := !e.bridge.accepting && e.hostIsMain

/-- What the main thread takes up, with the task that was queued last. -/
def takeUp : Act W (Except BridgeFault (List (MainTask H))) := fun w =>
  let e := o.engine w
  match drops e, e.isServed with
  | true, _ => (.ok (.error .droppedTask), w)
  | false, true => (.ok (.ok e.bridge.collect.1), o.put { e with bridge := e.bridge.collect.2 } w)
  | false, false =>
    match e.settings.execution.bridgeTimeout with
    | some timeout => (.ok (.error (.timedOut timeout)), w)
    | none => (.error .outOfFuel, w)

/-- Queues a task before the main thread, up to where the main thread takes it up. -/
def handIn (t : MainTask H) : Act W (Except BridgeFault (List (MainTask H))) := fun w =>
  let w := o.look .bridge w
  match (o.engine w).bridge.submit t with
  | .error f => (.ok (.error f), w)
  | .ok bridge => o.takeUp (o.putQueued { o.engine w with bridge := bridge } w)

def callMain (fuel : Nat) (t : MainTask H) : Act W (Except BridgeFault t.Answer) := do
  match ← o.handIn t with
  | .error f => pure (.error f)
  | .ok batch =>
    o.runTasks fuel batch.dropLast
    match ← liftM (o.runTask fuel t) with
    | .ok answer => pure (.ok answer)
    | .error (.panicked p) => pure (.error (.panicked p))
    | .error .outOfFuel => throw .outOfFuel

def workAcross (fuel : Nat) (w : Work H) : Act W (Except BridgeFault Value) := o.callMain fuel (.work w)

/-- Hands an activation over with the variables given; meanwhile the caller has none. -/
def runAcrossWith (fuel : Nat) (a : Activation H) (vars : Variables) : Run W Verdict := do
  modify fun s => { s with locals := ∅ }
  match ← Run.ofAct (o.callMain fuel (.activation a vars)) with
  | .ok (v, reached) =>
    modify fun s => { s with locals := reached }
    pure v
  | .error f =>
    o.run (modify fun s => { s with world := s.world.setPhase a.id .failed })
    pure (.error (.bridge f))

def runAcross (fuel : Nat) (a : Activation H) : Run W Verdict := do
  o.runAcrossWith fuel a (← get).locals

/-- Runs an activation on a worker, where it is the first one. -/
def runFirst (fuel : Nat) (a : Activation H) : StateM (Scope W) Conclusion := do
  match ← o.onScope levels with
  | 0 => o.onScope (Engine.refuseDepth a)
  | _ + 1 => o.runHere fuel false 1 (o.workAcross fuel) (o.runAcross fuel) a

/-- Keeps what an activation comes to for those who wait for it. -/
def keep (id : Nat) (c : Conclusion) : Act (Engine H) Unit :=
  modify fun e => { e with conclusions := e.conclusions.insert id c }

def runJob (fuel : Nat) (job : Job H) : Act W Unit := do
  let r ← liftM (inScope job.locals (o.runFirst fuel job.activation))
  match r.1 with
  | .error .outOfFuel => throw .outOfFuel
  | c => o.act (keep job.activation.id c)

/-- Takes the job in front. -/
def takeJob : Act (Engine H) (Option (Job H)) := fun e =>
  match e.workers.take? with
  | none => (.ok none, e)
  | some (job, workers) => (.ok (some job), { e with workers := workers })

def drain (fuel : Nat) : (jobs : Nat) → Act W Unit
  | 0 => pure ()
  | jobs + 1 => do
    modify o.pass
    match ← o.act takeJob with
    | none => pure ()
    | some job =>
      o.runJob fuel job
      drain fuel jobs

end

/-! ## Without other threads -/

section

variable (runSync : RunSync H) (handOver : HandOver H) (a : Activation H) (fuel : Nat)

/-- What the run sees of the world is the engine itself. -/
theorem engine_plain (e : Engine H) : (plain H).engine e = e := rfl

/-- To put an engine back is to have it. -/
theorem put_plain (e e' : Engine H) : (plain H).put e' e = e' := rfl

/-- Nothing happens before a gate is looked at. -/
theorem look_plain (g : Gate) (e : Engine H) : (plain H).look g e = e := rfl

/-- A part that looks at no gate is carried out as it is. -/
theorem onScope_plain (m : StateM (Scope (Engine H)) α) : (plain H).onScope m = m := rfl

/-- So is a part that may fail. -/
theorem run_plain (m : Run (Engine H) α) : (plain H).run m = m := rfl

/-- Host code hands its work over as in the engine. -/
theorem perform_plain (deed : Deed H α) : (plain H).perform handOver deed = Engine.perform handOver deed := by
  induction deed with
  | act => rfl
  | handOver before work next ih =>
    unfold perform Engine.perform
    exact bind_congr fun _ => bind_congr fun answer => ih answer

/-- A trigger is started as in the engine. -/
theorem activateWith_plain (t : Trigger) (c : Context H) (mode : Mode) :
    (plain H).activateWith runSync t c mode = Engine.activateWith runSync t c mode := by
  funext ⟨vars, e⟩
  have haccepts : (plain H).accepts ⟨vars, e⟩ = (.ok e.accepting, ⟨vars, e⟩) := rfl
  unfold activateWith
  rw [Run.bind_ok haccepts]
  cases haccepting : e.accepting with
  | false => exact (Engine.activateWith_closed runSync mode haccepting).symm
  | true =>
    rw [Engine.activateWith_open runSync mode haccepting]
    have hcooling : (plain H).run (Engine.toRun (Engine.isCooling t c)) ⟨vars, e⟩ =
        (.ok (Engine.isCooling t c e).1, ⟨vars, (Engine.isCooling t c e).2⟩) := rfl
    rw [if_pos rfl, Run.bind_ok hcooling]
    cases (Engine.isCooling t c e).1 <;> cases mode <;> rfl

/-- So is one that a script calls. -/
theorem call_plain (c : Context H) (args : List Value) : (plain H).call runSync c args = Engine.call runSync c args := by
  have hactivate : (plain H).activateWith runSync = Engine.activateWith runSync :=
    funext fun t => funext fun c => funext fun mode => activateWith_plain runSync t c mode
  unfold call Engine.call
  rw [hactivate]
  rfl

/-- The commands of the engine itself do what they do there. -/
theorem reservedCommand_plain (caller : Caller) (name : String) (args : List Value) :
    (plain H).reservedCommand runSync a caller name args = Engine.reservedCommand runSync a caller name args := by
  unfold reservedCommand Engine.reservedCommand
  rw [call_plain, run_plain]
  by_cases hcall : Text.upper name = "CALL"
  · simp only [if_pos hcall]
  · simp only [if_neg hcall]

/-- A script finds the engine itself around it. -/
theorem surroundings_plain (caller : Caller) (deadline : Option Deadline) :
    (plain H).surroundings a caller deadline handOver runSync =
      Engine.triggerSurroundings a caller deadline handOver runSync := by
  unfold surroundings
  simp only [perform_plain, reservedCommand_plain]
  rfl

/-- An activation runs where it is as in the engine. -/
theorem runHere_plain (onMain : Bool) (depth : Nat) :
    (plain H).runHere fuel onMain depth handOver runSync a = Engine.runHere fuel onMain depth handOver runSync a := by
  funext s
  obtain ⟨deadline, world, hstart⟩ : ∃ deadline world,
    Deadline.start (s.world.setPhase a.id .running).settings.execution.activationTimeout (s.world.setPhase a.id .running) =
      (deadline, world) := ⟨_, _, rfl⟩
  have hprepare : (plain H).onScope (prepare a) s = (deadline, ⟨s.locals, world⟩) := by
    show prepare a s = _
    simp only [prepare, stateM_bind_apply, stateM_get_apply, stateM_modify_apply, hstart]
    rfl
  obtain ⟨outcome, s', hrun⟩ : ∃ outcome s', (Engine.triggerSurroundings a
    ⟨a.context.id, a.context.event, a.context.actor, a.mode, onMain, depth⟩ deadline handOver runSync).run fuel
      a.trigger.script ⟨s.locals, world⟩ = (outcome, s') := ⟨_, _, rfl⟩
  unfold runHere Engine.runHere
  simp only [surroundings_plain, stateM_bind_apply, stateM_get_apply, stateM_modify_apply, hprepare, hstart, hrun]
  rcases outcome with _ | _ | _ | _ | _ | _
  all_goals rfl

/-- It runs on the main thread as in the engine, by induction on how many levels may still follow. -/
theorem runOnMain_plain (levels depth : Nat) (a : Activation H) :
    (plain H).runOnMain fuel levels depth a = Engine.runOnMain fuel levels depth a := by
  induction levels generalizing depth a with
  | zero => rfl
  | succ levels ih =>
    unfold runOnMain Engine.runOnMain
    simp only [ih]
    exact runHere_plain (fun b => Engine.spread (Engine.runOnMain fuel levels (depth + 1) b)) Engine.workHere a fuel true
      (depth + 1)

/-- The first activation on the main thread has all levels before it. -/
theorem runTop_plain (a : Activation H) (s : Scope (Engine H)) :
    (plain H).runTop fuel a s = Engine.runOnMain fuel s.world.maxDepth 0 a s := by
  unfold runTop levels
  simp only [onScope_plain, stateM_bind_apply, runOnMain_plain]

/-- The main thread does a task as in the engine. -/
theorem runTask_plain (t : MainTask H) : (plain H).runTask fuel t = Engine.runTask fuel t := by
  cases t with
  | work => rfl
  | activation a vars =>
    funext e
    unfold runTask Engine.runTask
    simp only [stateM_bind_apply, inScope, runTop_plain]
    rfl

/-- It does tasks one after the other as in the engine. -/
theorem runTasks_plain (ts : List (MainTask H)) : (plain H).runTasks fuel ts = Engine.runTasks fuel ts := by
  induction ts with
  | nil => rfl
  | cons t rest ih =>
    unfold runTasks Engine.runTasks
    rewrite [runTask_plain, ih]
    rfl

/-- While the queue is put back nothing comes between, whoever the main thread is. -/
theorem putQueued_plain (e e' : Engine H) : (plain H).putQueued e' e = e' := ite_self e'

/-- Where the bridge is open, what is queued is taken up if anyone serves it, and waits for too long otherwise. -/
theorem takeUp_plain {e : Engine H} (h : e.bridge.accepting = true) :
    (plain H).takeUp e =
      if e.isServed then (.ok (.ok e.bridge.collect.1), { e with bridge := e.bridge.collect.2 })
      else match e.settings.execution.bridgeTimeout with
        | some timeout => (.ok (.error (.timedOut timeout)), e)
        | none => (.error .outOfFuel, e) := by
  have hdrops : drops e = false := by simp [drops, h]
  simp only [takeUp, engine_plain, put_plain, hdrops]
  cases e.isServed <;> rfl

/-- A task is handed to the main thread as in the engine. -/
theorem callMain_plain (t : MainTask H) : (plain H).callMain fuel t = Engine.callMain fuel t := by
  funext e
  unfold callMain Engine.callMain
  rw [Run.get_bind]
  cases hsubmit : e.bridge.submit t with
  | error f =>
    have hin : (plain H).handIn t e = (.ok (.error f), e) := by simp only [handIn, engine_plain, look_plain, hsubmit]
    rw [Run.bind_ok hin]
  | ok b =>
    obtain ⟨haccepting, hb⟩ := Bridge.of_submit hsubmit
    have hqueued : ({ e with bridge := b } : Engine H).bridge.accepting = true := by rw [hb]; exact haccepting
    have hserved : ({ e with bridge := b } : Engine H).isServed = e.isServed := by rw [hb]; rfl
    have hin : (plain H).handIn t e = (plain H).takeUp { e with bridge := b } := by
      simp only [handIn, engine_plain, look_plain, hsubmit, putQueued_plain]
    rw [takeUp_plain hqueued, hserved] at hin
    simp only [runTasks_plain, runTask_plain]
    cases hs : e.isServed with
    | true =>
      rw [hs, if_pos rfl] at hin
      rw [Run.bind_ok hin]
      rfl
    | false =>
      rw [hs, if_neg Bool.false_ne_true] at hin
      cases htimeout : e.settings.execution.bridgeTimeout with
      | some timeout =>
        simp only [htimeout] at hin
        rw [Run.bind_ok hin]
        rfl
      | none =>
        simp only [htimeout] at hin
        rw [Run.bind_error hin]
        rfl

/-- So is work of the host. -/
theorem workAcross_plain (w : Work H) : (plain H).workAcross fuel w = Engine.workAcross fuel w := callMain_plain fuel (.work w)

/-- So is an activation, with the variables of its caller. -/
theorem runAcross_plain (a : Activation H) : (plain H).runAcross fuel a = Engine.runAcross fuel a := by
  unfold runAcross runAcrossWith Engine.runAcross
  simp only [callMain_plain]
  rfl

/-- The first activation on a worker runs as in the engine, unless there is no level for it. -/
theorem runFirst_plain (a : Activation H) (s : Scope (Engine H)) :
    (plain H).runFirst fuel a s =
      (if s.world.maxDepth = 0 then Engine.refuseDepth a
      else Engine.runHere fuel false 1 (Engine.workAcross fuel) (Engine.runAcross fuel) a) s := by
  have hwork : (plain H).workAcross fuel = Engine.workAcross fuel := funext fun w => workAcross_plain fuel w
  have hacross : (plain H).runAcross fuel = Engine.runAcross fuel := funext fun b => runAcross_plain fuel b
  unfold runFirst levels
  simp only [hwork, hacross, runHere_plain, onScope_plain, stateM_bind_apply]
  cases s.world.maxDepth with
  | zero => rw [if_pos rfl]
  | succ n => rw [if_neg (Nat.succ_ne_zero n)]

/-- A worker does a job as in the engine. -/
theorem runJob_plain (job : Job H) : (plain H).runJob fuel job = Engine.runJob fuel job := by
  funext e
  obtain ⟨c, s, hrun⟩ : ∃ c s, (if e.maxDepth = 0 then Engine.refuseDepth job.activation
    else Engine.runHere fuel false 1 (Engine.workAcross fuel) (Engine.runAcross fuel) job.activation) ⟨job.locals, e⟩ =
      (c, s) := ⟨_, _, rfl⟩
  have hscope : inScope job.locals ((plain H).runFirst fuel job.activation) e = ((c, s.locals), s.world) := by
    simp only [inScope, runFirst_plain, hrun]
  unfold runJob Engine.runJob
  rw [Run.bind_ok (Run.liftM_apply hscope)]
  simp only [hrun]
  rcases c with (_ | _) | _
  all_goals rfl

/-- Where nothing comes between, the workers carry out what is queued as they do in the engine itself. -/
theorem drain_plain (jobs : Nat) : (plain H).drain fuel jobs = Engine.drain fuel jobs := by
  induction jobs with
  | zero => rfl
  | succ jobs ih =>
    funext e
    unfold drain Engine.drain
    simp only [runJob_plain, ih]
    rw [Run.bind_ok (Run.modify_apply _ _), Run.get_bind]
    cases htake : e.workers.take? with
    | none =>
      have hjob : (plain H).act takeJob ((plain H).pass e) = (.ok none, e) := by
        show takeJob e = _
        unfold takeJob
        rw [htake]
      rw [Run.bind_ok hjob]
    | some taken =>
      have hjob : (plain H).act takeJob ((plain H).pass e) = (.ok (some taken.1), { e with workers := taken.2 }) := by
        show takeJob e = _
        unfold takeJob
        rw [htake]
      rw [Run.bind_ok hjob]
      rfl

end

end Outlook

end EventScript
