import EventScript.Trigger.Reserved

/-!
# Activations

How the scripts of triggers run, and on which thread. On the main thread a synchronous call runs inside its caller, at most
as deep as the settings allow (`Engine.runOnMain`). A worker starts at depth one of its own, and what it calls
synchronously crosses the bridge (`Engine.runAcross`); the main thread then starts at depth one too. The workers take
their jobs one after the other (`Engine.drain`).
-/

namespace EventScript.Engine

variable {H : Type}

/-- Ends an activation with a verdict. -/
def conclude (a : Activation H) (v : Verdict) : StateM (Scope (Engine H)) Conclusion := do
  modify fun s => { s with world := s.world.setPhase a.id (.ofVerdict v) }
  pure (.ok v)

/-- Refuses an activation at the depth limit; none of its nodes is entered. -/
def refuseDepth (a : Activation H) : StateM (Scope (Engine H)) Conclusion := do
  conclude a (.error (.runtime (.callDepth a.trigger.name (← get).world.maxDepth)))

/-- Runs the script of an activation on this thread, as the activation of the depth given. A panic of host code takes the
variables with it. -/
def runHere (fuel : Nat) (onMain : Bool) (depth : Nat) (handOver : HandOver H) (runSync : RunSync H) (a : Activation H) :
    StateM (Scope (Engine H)) Conclusion := do
  modify fun s => { s with world := s.world.setPhase a.id .running }
  let (deadline, world) := Deadline.start (← get).world.settings.execution.activationTimeout (← get).world
  modify fun s => { s with world := world }
  let caller : Caller := ⟨a.context.id, a.context.event, a.context.actor, a.mode, onMain, depth⟩
  match ← (triggerSurroundings a caller deadline handOver runSync).run fuel a.trigger.script with
  | .completed => conclude a (.ok .completed)
  | .halted .vetoed => conclude a (.ok .cancelled)
  | .halted .cancelled => conclude a (.ok .cancelled)
  | .halted (.failed f) => conclude a (.error f)
  | .halted (.panicked p) =>
    modify fun s => { s with locals := ∅ }
    pure (.error (.panicked p))
  | .halted .outOfFuel => pure (.error .outOfFuel)

/-- A run as a part of the run that waits for it: a crash spreads. -/
def spread (m : StateM (Scope (Engine H)) Conclusion) : Run (Engine H) Verdict := do
  match ← liftM m with
  | .ok v => pure v
  | .error (.panicked p) => throw (.panicked p)
  | .error .outOfFuel => throw .outOfFuel

/-- Runs an activation on the main thread, inside `depth` others and with `levels` more allowed. -/
def runOnMain (fuel : Nat) : (levels depth : Nat) → Activation H → StateM (Scope (Engine H)) Conclusion
  | 0, _, a => refuseDepth a
  | levels + 1, depth, a =>
    runHere fuel true (depth + 1) workHere (fun b => spread (runOnMain fuel levels (depth + 1) b)) a

/-- Carries out a task on the main thread, which is running nothing else. -/
def runTask (fuel : Nat) : (t : MainTask H) → StateM (Engine H) (Except Crash t.Answer)
  | .work w => fun e =>
    let (r, reach) := w e.reach
    (r.mapError .panicked, { e with reach := reach })
  | .activation a vars => fun e =>
    let (r, s) := runOnMain fuel e.maxDepth 0 a ⟨vars, e⟩
    (r.map fun v => (v, s.locals), s.world)

/-- Carries out tasks in order; what comes of them is for those who wait. A task that does not end keeps the main thread. -/
def runTasks (fuel : Nat) : List (MainTask H) → Act (Engine H) Unit
  | [] => pure ()
  | t :: rest => do
    match ← liftM (runTask fuel t) with
    | .error .outOfFuel => throw .outOfFuel
    | _ => runTasks fuel rest

/-- The main thread of the host takes up what is queued, and counts it. On another thread nothing happens. -/
def runPending (fuel : Nat) : Act (Engine H) Nat := do
  let e ← get
  if e.hostIsMain then
    let (batch, bridge) := e.bridge.collect
    set { e with bridge := bridge }
    runTasks fuel batch
    pure batch.length
  else pure 0

/-- Somebody takes up the tasks of the bridge while their callers wait. -/
def isServed (e : Engine H) : Bool := e.bridge.main == .dedicated || e.attended

/-- Hands a task to the main thread from another one and waits for the answer. What was queued before it comes first. Where
nobody takes up tasks the caller gives up after the timeout, and without one waits for ever; the task stays in the queue. -/
def callMain (fuel : Nat) (t : MainTask H) : Act (Engine H) (Except BridgeFault t.Answer) := do
  let e ← get
  match e.bridge.submit t with
  | .error f => pure (.error f)
  | .ok bridge =>
    if e.isServed then
      let (batch, emptied) := bridge.collect
      set { e with bridge := emptied }
      runTasks fuel batch.dropLast
      match ← liftM (runTask fuel t) with
      | .ok answer => pure (.ok answer)
      | .error (.panicked p) => pure (.error (.panicked p))
      | .error .outOfFuel => throw .outOfFuel
    else
      set { e with bridge := bridge }
      match e.settings.execution.bridgeTimeout with
      | some timeout => pure (.error (.timedOut timeout))
      | none => throw .outOfFuel

/-- Work for the main thread that comes from another one. -/
def workAcross (fuel : Nat) : HandOver H := fun w => callMain fuel (.work w)

/-- Runs an activation on the main thread for a caller on another one. The variables go with it and come back with the
verdict; if the bridge fails, they do not come back. -/
def runAcross (fuel : Nat) : RunSync H := fun a => do
  let vars := (← get).locals
  modify fun s => { s with locals := ∅ }
  match ← Run.ofAct (callMain fuel (.activation a vars)) with
  | .ok (v, reached) =>
    modify fun s => { s with locals := reached }
    pure v
  | .error f =>
    modify fun s => { s with world := s.world.setPhase a.id .failed }
    pure (.error (.bridge f))

/-- Runs a job on a worker. A job that does not end keeps the worker, and comes to no conclusion. -/
def runJob (fuel : Nat) (job : Job H) : Act (Engine H) Unit := fun e =>
  let run :=
    if e.maxDepth = 0 then refuseDepth job.activation
    else runHere fuel false 1 (workAcross fuel) (runAcross fuel) job.activation
  match run ⟨job.locals, e⟩ with
  | (.error .outOfFuel, s) => (.error .outOfFuel, s.world)
  | (c, s) => (.ok (), { s.world with conclusions := s.world.conclusions.insert job.activation.id c })

/-- Lets the workers carry out what is queued, in order and with all that is queued meanwhile; at most `jobs` of them. -/
def drain (fuel : Nat) : (jobs : Nat) → Act (Engine H) Unit
  | 0 => pure ()
  | jobs + 1 => do
    let e ← get
    match e.workers.take? with
    | none => pure ()
    | some (job, workers) =>
      set { e with workers := workers }
      runJob fuel job
      drain fuel jobs

/-- How a synchronous activation runs that the host starts. -/
def runForHost (fuel : Nat) : RunSync H := fun a => do
  let e := (← get).world
  if e.hostIsMain then spread (runOnMain fuel e.maxDepth 0 a) else runAcross fuel a

/-- Starts a trigger for the host. -/
def activate (fuel : Nat) (t : Trigger) (c : Context H) (mode : Mode) : Run (Engine H) Handle :=
  activateWith (runForHost fuel) t c mode

/-- Starts a named trigger for the host. -/
def callNamed (fuel : Nat) (name : String) (c : Context H) (mode : Mode) : Run (Engine H) Handle := do
  match (← get).world.named[name]? with
  | some t => activate fuel t c mode
  | none => Run.fail (.triggerNotFound name)

/-- Starts a trigger in its own mode on the variables that its context brings. -/
def fire (fuel : Nat) (t : Trigger) (c : Context H) : Act (Engine H) Handle := fun e =>
  let (r, s) := activate fuel t c t.mode ⟨c.bindings, e⟩
  (r, s.world)

/-- Does a unit of work on the main thread for the host. -/
def callOnMain (fuel : Nat) (w : Work H) : Act (Engine H) (Except BridgeFault Value) := do
  if (← get).hostIsMain then workHere w else workAcross fuel w

/-- Does a unit of work on the main thread for yet another thread, while the host takes up tasks. Tells as well how many tasks
the thread of the host took up. -/
def callFromElsewhere (fuel : Nat) (w : Work H) : Act (Engine H) (Except BridgeFault Value × Nat) := do
  let e ← get
  let answer ← workAcross fuel w
  pure (answer, if e.hostIsMain && e.bridge.accepting then e.bridge.pending.length + 1 else 0)

/-- Stops the engine: nothing new starts, the bridge closes, the workers carry out what is queued, and the global variables
are written. A second call does nothing. -/
def shutDown (fuel jobs : Nat) : Act (Engine H) Unit := do
  let e ← get
  if e.accepting then
    set { e with accepting := false, bridge := e.bridge.shutDown, workers := e.workers.shutDown }
    drain fuel jobs
    let _ ← liftM (onGlobals (H := H) Globals.flush)

end EventScript.Engine
