import EventScript.Rehearsal.Host
import EventScript.Trigger.Activation

/-!
# Rehearsal sessions

A session is an engine over the rehearsal host, with the contexts, the triggers and the variables that its user keeps at
hand. `Session.start` and `Session.fire` start an activation, let the workers finish all that is queued, wait for it, and
report what became of it.
-/

namespace EventScript.Rehearsal

/-- An engine and what its user has at hand. -/
structure Session where
  engine : Engine Rehearsal
  contexts : List (String × Context Rehearsal)
  /-- Triggers kept under a name, registered or not. -/
  kept : List (String × Trigger)
  /-- The variables that activations run on. -/
  locals : Variables

/-- What became of an activation that the user started. -/
structure Report where
  /-- The phase right after the start. Only a synchronous activation that started has one that does not hang on the workers. -/
  phase : Option Phase
  result : Except Halt Completion

namespace Session

/-- A session at its start. The contexts are numbered in their order; `cancelled` names those whose token is cancelled. -/
def new (engine : Engine Rehearsal) (contexts : List (String × Context Rehearsal)) (cancelled : List String) : Session :=
  let numbered := contexts.zipIdx.map fun ((name, c), id) => (name, { c with id := id })
  let ids := numbered.filterMap fun (name, c) => if cancelled.contains name then some c.id else none
  ⟨ids.foldl (fun e id => { e with reach := e.reach.cancel id }) (equip engine), numbered, [], ∅⟩

/-- Does to the engine what an operation on it does. -/
def onEngine {α : Type} (a : StateM (Engine Rehearsal) α) : StateM Session α := fun s =>
  let r := a s.engine
  (r.1, { s with engine := r.2 })

/-- Does to the engine what a change of it does. -/
def change (f : Engine Rehearsal → Engine Rehearsal) : StateM Session Unit :=
  modify fun s => { s with engine := f s.engine }

/-- The trigger of a name: a kept one first, a registered one second. -/
def trigger? (s : Session) (name : String) : Option Trigger :=
  match s.kept.lookup name with
  | some t => some t
  | none => s.engine.named[name]?

/-- Lets the workers finish and tells what became of what was started. -/
def settle (fuel jobs : Nat) (mode : Mode) (started : Except Halt Handle) : StateM Session Report := do
  let phases := (← get).engine.phases
  let _ ← onEngine (Engine.drain fuel jobs)
  match started with
  | .ok h =>
    let result ← onEngine (Engine.wait h)
    pure ⟨if mode = .sync then phases[h.activation]? else none, result⟩
  | .error halt => pure ⟨none, .error halt⟩

/-- Starts an activation on the variables of the session. -/
def start (fuel jobs : Nat) (mode : Mode) (run : Run (Engine Rehearsal) Handle) : StateM Session Report := do
  let s ← get
  let (started, scope) := run ⟨s.locals, s.engine⟩
  set { s with engine := scope.world, locals := scope.locals }
  settle fuel jobs mode started

/-- Fires a trigger in its own mode. -/
def fire (fuel jobs : Nat) (t : Trigger) (c : Context Rehearsal) : StateM Session Report := do
  let started ← onEngine (Engine.fire fuel t c)
  settle fuel jobs t.mode started

/-- Makes a trigger and registers it. -/
def register (name source : String) (mode : Mode) : StateM Session (Except Fault Trigger) := do
  match ← onEngine (Engine.newTrigger name source mode) with
  | .ok t =>
    change (Engine.insertTrigger t)
    pure (.ok t)
  | .error f => pure (.error f)

/-- Makes a trigger and keeps it. -/
def keep (name source : String) : StateM Session (Except Fault Trigger) := do
  match ← onEngine (Engine.newTrigger name source (← get).engine.defaultMode) with
  | .ok t =>
    modify fun s => { s with kept := (name, t) :: s.kept }
    pure (.ok t)
  | .error f => pure (.error f)

/-- Registers a kept trigger; `false` means that there is none of that name. -/
def insert (name : String) : StateM Session Bool := do
  match (← get).kept.lookup name with
  | some t =>
    change (Engine.insertTrigger t)
    pure true
  | none => pure false

/-- Takes a trigger out of the registry, and gives it. -/
def unregister (name : String) : StateM Session (Option Trigger) := do
  let named := (← get).engine.named
  change fun e => { e with named := named.erase name }
  pure named[name]?

/-- Registers a command of the host under a name. What the host does not know is not registered. -/
def addCommand (name kind : String) : StateM Session Unit :=
  match Stock.all.lookup kind with
  | some c => change fun e => { e with commands := e.commands.insert name (c.command name) }
  | none => pure ()

/-- Registers a placeholder of the host under a name. What the host does not know is not registered. -/
def addPlaceholder (name kind : String) : StateM Session Unit :=
  match Answer.all.lookup kind with
  | some p => change fun e => { e with placeholders := e.placeholders.insert name (p.placeholder name) }
  | none => pure ()

/-- Looks at the cooldowns of a trigger, or changes them, at the present instant. -/
def onCooldowns {α : Type} (t : Trigger) (f : Nat → Cooldowns → α × Cooldowns) : StateM Session α := do
  let now ← onEngine Engine.readClock
  let (x, table) := f now ((← get).engine.cooldownsOf t.id)
  change fun e => e.setCooldowns t.id table
  pure x

/-- The main thread of the host takes up what is queued, and the workers go on. Counts what was taken up. -/
def runPending (fuel jobs : Nat) : StateM Session (Except Halt Nat) := do
  let n ← onEngine (Engine.runPending fuel)
  let _ ← onEngine (Engine.drain fuel jobs)
  pure n

/-- The lines that an operation adds to the log. -/
def logged {α : Type} (a : StateM Session α) : StateM Session (α × List String) := do
  let before := (← get).engine.reach.host.log.size
  let x ← a
  let log := (← get).engine.reach.host.log
  pure (x, (log.extract before log.size).toList)

end Session

end EventScript.Rehearsal
