import EventScript.Trigger.Surroundings

/-!
# Reserved commands

Three commands belong to the engine and not to the host: `CALL` starts another trigger, `CANCELEVENT` cancels the event, and
`COOLDOWN` starts a cooldown of the trigger for the actor. The placeholder `cooldown` tells what is left of it. The hook is
asked before them, and they come before what is registered under the same names.
-/

namespace EventScript

/-- A started activation. The verdict is missing while a worker has yet to give it. -/
structure Handle where
  activation : Nat
  verdict : Option Verdict

/-- How an activation runs that its caller waits for. -/
abbrev RunSync (H : Type) := Activation H → Run (Engine H) Verdict

namespace Engine

variable {H : Type}

/-- The actor of the context is cooling down for the trigger. -/
def isCooling (t : Trigger) (c : Context H) : StateM (Engine H) Bool := do
  match c.actor with
  | some actor =>
    let now ← readClock
    pure (((← get).cooldownsOf t.id).isCooling now actor.id)
  | none => pure false

/-- A number for a new activation, which is in the phase given. -/
def newActivation (p : Phase) : StateM (Engine H) Nat := fun e =>
  (e.nextActivation, { e.setPhase e.nextActivation p with nextActivation := e.nextActivation + 1 })

/-- A part of a run that cannot fail and does not see the variables of the activation. -/
def toRun (a : StateM (Engine H) α) : Run (Engine H) α := Run.ofAct (liftM a)

/-- Queues an activation before the workers, with a copy of the variables. -/
def enqueue (a : Activation H) : Run (Engine H) Unit := fun s =>
  match s.world.workers.submit ⟨a, s.locals⟩ with
  | .ok workers => (.ok (), { s with world := { s.world with workers := workers } })
  | .error f => (.error (.failed f), s)

/-- Starts a trigger on the variables at hand. An actor that is cooling down skips it. -/
def activateWith (runSync : RunSync H) (t : Trigger) (c : Context H) (mode : Mode) : Run (Engine H) Handle := do
  if !(← get).world.accepting then Run.fail .shuttingDown
  if ← toRun (isCooling t c) then
    let id ← toRun (newActivation .cancelled)
    pure ⟨id, some (.ok .cancelled)⟩
  else
    let id ← toRun (newActivation .created)
    match mode with
    | .sync =>
      let v ← runSync ⟨id, t, c, mode⟩
      pure ⟨id, some v⟩
    | .async =>
      enqueue ⟨id, t, c, mode⟩
      pure ⟨id, none⟩

/-- What a conclusion tells the one who waits for it. What ended in a panic on a worker was dropped. -/
def answerOf : Conclusion → Act (Engine H) Completion
  | .ok (.ok c) => pure c
  | .ok (.error f) => throw (.failed f)
  | .error (.panicked _) => throw (.failed (.runtime .dropped))
  | .error .outOfFuel => throw .outOfFuel

/-- Waits for an activation. One that no worker has finished yet gives no answer within the fuel. -/
def wait (h : Handle) : Act (Engine H) Completion := do
  match h.verdict with
  | some v => answerOf (.ok v)
  | none =>
    match (← get).conclusions[h.activation]? with
    | some c => answerOf c
    | none => throw .outOfFuel

/-- The name and the mode that a call asks for. -/
def callRequest : List Value → Except RuntimeFault (String × Mode)
  | [] => .error .callMissing
  | [.string name] => .ok (name, .sync)
  | .string name :: .bool sync :: _ => .ok (name, .ofFlag sync)
  | .string _ :: v :: _ => .error (.callFlag v.kind)
  | _ :: _ => .error .callName

/-- Calls a named trigger. A synchronous call waits for it. -/
def call (runSync : RunSync H) (c : Context H) (args : List Value) : Run (Engine H) Unit := do
  match callRequest args with
  | .error f => Run.fail (.runtime f)
  | .ok (name, mode) =>
    match (← get).world.named[name]? with
    | none => Run.fail (.triggerNotFound name)
    | some t =>
      let h ← activateWith runSync t c mode
      if mode = .sync then
        let _ ← Run.ofAct (wait h)

/-- Cancels the event of the caller, which only a synchronous activation may do, and only to an event that allows it. -/
def cancelEventFor (caller : Caller) : Act (Engine H) Unit := do
  if caller.mode = .async then throw (.failed (.runtime .cancelInAsync))
  else if caller.event.cancellable then modify fun e => e.cancelEvent caller.context
  else throw (.failed (.runtime (.notCancellable caller.event.name)))

/-- Starts a cooldown of a trigger for the actor, if there is one. -/
def startCooldown (t : Trigger) (actor : Option Actor) (args : List Value) : Act (Engine H) Unit := do
  match args.head?.bind Value.asFloat? with
  | none => throw (.failed (.runtime .cooldownArgument))
  | some seconds =>
    match actor with
    | some actor =>
      let now ← liftM (readClock (H := H))
      modify fun e => e.setCooldowns t.id ((e.cooldownsOf t.id).start now actor.id (Cooldowns.spanOfSeconds seconds))
    | none => pure ()

/-- The milliseconds that are left of a cooldown; none without an actor. -/
def cooldownLeft (t : Trigger) (actor : Option Actor) : Act (Engine H) Value := do
  match actor with
  | some actor =>
    let now ← liftM (readClock (H := H))
    let left := ((← get).cooldownsOf t.id).remaining now actor.id
    pure (.int (Int64.ofInt (min left.milliseconds Int64.maxValue.toInt)))
  | none => pure (.int 0)

/-- The reserved commands. `true` means that the name is one of them. -/
def reservedCommand (runSync : RunSync H) (a : Activation H) (caller : Caller) (name : String) (args : List Value) :
    Run (Engine H) Bool := do
  let upper := Text.upper name
  if upper = "CALL" then
    call runSync a.context args
    pure true
  else if upper = "CANCELEVENT" then
    Run.ofAct (cancelEventFor caller)
    pure true
  else if upper = "COOLDOWN" then
    Run.ofAct (startCooldown a.trigger caller.actor args)
    pure true
  else pure false

/-- The name in lower case, as far as the letters of ASCII go. -/
def asciiLower (s : String) : String := s.map Char.toLower

/-- The reserved placeholder. -/
def reservedPlaceholder (a : Activation H) (caller : Caller) (name : String) : Act (Engine H) (Option Value) := do
  if asciiLower name = "cooldown" then
    let v ← cooldownLeft a.trigger caller.actor
    pure (some v)
  else pure none

/-- What the script of a trigger finds around it: the reserved names come between the hook and the registries. -/
def triggerSurroundings (a : Activation H) (caller : Caller) (deadline : Option Deadline) (handOver : HandOver H)
    (runSync : RunSync H) : Host (Engine H) :=
  let base := surroundings caller a.context.hook deadline handOver
  { base with
    offerCommand := fun name args => do
      if ← base.offerCommand name args then pure true else reservedCommand runSync a caller name args
    offerPlaceholder := fun name args => do
      match ← base.offerPlaceholder name args with
      | some v => pure (some v)
      | none => reservedPlaceholder a caller name }

end Engine

end EventScript
