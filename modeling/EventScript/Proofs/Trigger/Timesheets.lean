import EventScript.Proofs.Trigger.Cancellation

/-!
# Activations with their times noted

A `Timesheet` is an engine next to notes about the activations that are under way on its clock: when each of them started, and what
the clock showed in front of the node it came to last. The definitions here are those of activations, with the notes taken as they run.
A node counts as visited when the hook is asked about it, behind the questions for the token and the deadline; there is none entered
without that.
-/

namespace EventScript

/-- An activation that is under way. -/
structure Stint where
  activation : Nat
  /-- What the clock shows next when it starts. -/
  start : Nat
  /-- What the clock showed in front of the node that it came to last; without one, its start. -/
  last : Nat
deriving DecidableEq, Repr

/-- A node that an activation comes to. -/
structure Visit where
  node : Node
  /-- What the clock showed in front of it. -/
  instant : Nat
  /-- The activation, and behind it those that wait for it, the innermost first. -/
  stints : List Stint

/-- An engine with the times of its activations. -/
structure Timesheet (H : Type) where
  engine : Engine H
  /-- The activations that are under way, the innermost first. -/
  stints : List Stint := []
  /-- What the clock showed when a node was about to be entered last. -/
  shown : Nat := 0
  visits : List Visit := []

namespace Timesheet

variable {H : Type}

/-- The engine is reached through its timesheet, and there are no other threads. -/
def outlook : Outlook H (Timesheet H) where
  engine := Timesheet.engine
  put e t := { t with engine := e }
  pass t := { t with shown := t.engine.clock.now }
  look _ := id
  hold := id

/-- An activation starts. -/
def begin (activation : Nat) (t : Timesheet H) : Timesheet H :=
  { t with stints := ⟨activation, t.engine.clock.now, t.engine.clock.now⟩ :: t.stints }

/-- The innermost activation ends, in whatever way. -/
def finish (t : Timesheet H) : Timesheet H := { t with stints := t.stints.tail }

/-- The innermost activation comes to a node. -/
def visit (node : Node) (t : Timesheet H) : Timesheet H :=
  let stints := t.stints.modifyHead fun s => { s with last := t.shown }
  { t with stints := stints, visits := t.visits ++ [⟨node, t.shown, stints⟩] }

/-- The host, with each node noted that the hook is asked about. -/
def noting (host : Host (Timesheet H)) : Host (Timesheet H) :=
  { host with
    veto := fun node => do
      modify (visit node)
      host.veto node }

/-! ## Running activations -/

section

variable (fuel : Nat)

/-- What an activation does behind its start. -/
def goOn (a : Activation H) (caller : Caller) (handOver : Work H → Act (Timesheet H) (Except BridgeFault Value))
    (runSync : Activation H → Run (Timesheet H) Verdict) (deadline : Option Deadline) :
    StateM (Scope (Timesheet H)) Conclusion := do
  let outcome ← (noting (outlook.surroundings a caller deadline handOver runSync)).run fuel a.trigger.script
  outlook.onScope (Outlook.settle a outcome)

def runHere (onMain : Bool) (depth : Nat) (handOver : Work H → Act (Timesheet H) (Except BridgeFault Value))
    (runSync : Activation H → Run (Timesheet H) Verdict) (a : Activation H) : StateM (Scope (Timesheet H)) Conclusion := do
  modify fun s => { s with world := s.world.begin a.id }
  let deadline ← outlook.onScope (Outlook.prepare a)
  let caller : Caller := ⟨a.context.id, a.context.event, a.context.actor, a.mode, onMain, depth⟩
  let c ← goOn fuel a caller handOver runSync deadline
  modify fun s => { s with world := s.world.finish }
  pure c

def runOnMain : (levels depth : Nat) → Activation H → StateM (Scope (Timesheet H)) Conclusion
  | 0, _, a => outlook.onScope (Engine.refuseDepth a)
  | levels + 1, depth, a =>
    runHere fuel true (depth + 1) outlook.workHere (fun b => Outlook.spread (runOnMain levels (depth + 1) b)) a

def runTop (a : Activation H) : StateM (Scope (Timesheet H)) Conclusion := do
  runOnMain fuel (← outlook.onScope Outlook.levels) 0 a

def runTask : (t : MainTask H) → StateM (Timesheet H) (Except Crash t.Answer)
  | .work w => outlook.onEngine (Engine.runTask fuel (.work w))
  | .activation a vars => do
    let r ← Outlook.inScope vars (runTop fuel a)
    pure (r.1.map fun v => (v, r.2))

def runTasks : List (MainTask H) → Act (Timesheet H) Unit
  | [] => pure ()
  | t :: rest => do
    match ← liftM (runTask fuel t) with
    | .error .outOfFuel => throw .outOfFuel
    | _ => runTasks rest

def callMain (t : MainTask H) : Act (Timesheet H) (Except BridgeFault t.Answer) := do
  match ← outlook.handIn t with
  | .error f => pure (.error f)
  | .ok batch =>
    runTasks fuel batch.dropLast
    match ← liftM (runTask fuel t) with
    | .ok answer => pure (.ok answer)
    | .error (.panicked p) => pure (.error (.panicked p))
    | .error .outOfFuel => throw .outOfFuel

def workAcross (w : Work H) : Act (Timesheet H) (Except BridgeFault Value) := callMain fuel (.work w)

/-- Hands an activation over with the variables given; meanwhile the caller has none. -/
def runAcrossWith (a : Activation H) (vars : Variables) : Run (Timesheet H) Verdict := do
  modify fun s => { s with locals := ∅ }
  match ← Run.ofAct (callMain fuel (.activation a vars)) with
  | .ok (v, reached) =>
    modify fun s => { s with locals := reached }
    pure v
  | .error f =>
    outlook.run (modify fun s => { s with world := s.world.setPhase a.id .failed })
    pure (.error (.bridge f))

def runAcross (a : Activation H) : Run (Timesheet H) Verdict := do
  runAcrossWith fuel a (← get).locals

def runFirst (a : Activation H) : StateM (Scope (Timesheet H)) Conclusion := do
  match ← outlook.onScope Outlook.levels with
  | 0 => outlook.onScope (Engine.refuseDepth a)
  | _ + 1 => runHere fuel false 1 (workAcross fuel) (runAcross fuel) a

def runJob (job : Job H) : Act (Timesheet H) Unit := do
  let r ← liftM (Outlook.inScope job.locals (runFirst fuel job.activation))
  match r.1 with
  | .error .outOfFuel => throw .outOfFuel
  | c => outlook.act (Outlook.keep job.activation.id c)

def drain : (jobs : Nat) → Act (Timesheet H) Unit
  | 0 => pure ()
  | jobs + 1 => do
    modify outlook.pass
    match ← outlook.act Outlook.takeJob with
    | none => pure ()
    | some job =>
      runJob fuel job
      drain jobs

/-- How an activation runs that is started on the main thread or on another one, and that its caller waits for. -/
def runSyncFrom (onMain : Bool) (a : Activation H) : Run (Timesheet H) Verdict :=
  if onMain then Outlook.spread (runTop fuel a) else runAcross fuel a

def carryOut : Chore H → StateM (Timesheet H) Unit
  | .start onMain t c mode vars => do
    let _ ← Outlook.inScope vars (outlook.activateWith (runSyncFrom fuel onMain) t c mode)
  | .handOver w => do
    let _ ← (workAcross fuel w).run
  | .tasks => do
    let _ ← (outlook.act Outlook.takeTasks >>= runTasks fuel : Act (Timesheet H) Unit).run
  | .jobs count => do
    let _ ← (drain fuel count).run

/-- Does one thing after the other. -/
def carryOutAll : List (Chore H) → StateM (Timesheet H) Unit
  | [] => pure ()
  | chore :: rest => do
    modify outlook.pass
    carryOut fuel chore
    carryOutAll rest

end

end Timesheet

end EventScript
