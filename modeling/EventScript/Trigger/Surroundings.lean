import EventScript.Run.Execution
import EventScript.Trigger.Engine

/-!
# What a script finds around it

The host of a script that runs in an engine: the token and the hook of its context, the deadline it was given, the
registered commands and placeholders, and the global variables. `Engine.perform` carries out what a command or placeholder
does; the work it hands over goes to the main thread by the way that the thread of the script has.
-/

namespace EventScript

/-- A time limit: its length, and the instant it ends at. -/
structure Deadline where
  timeout : Duration
  instant : Nat

/-- The deadline of something that starts now. The clock is read only if there is a limit. -/
def Deadline.start {H : Type} (timeout : Option Duration) : StateM (Engine H) (Option Deadline) := do
  match timeout with
  | some t =>
    let now ← Engine.readClock
    pure (some ⟨t, now + t.nanoseconds⟩)
  | none => pure none

/-- The way from a thread to the main thread for a unit of work. -/
abbrev HandOver (H : Type) := Work H → Act (Engine H) (Except BridgeFault Value)

namespace Engine

variable {H : Type}

/-- Does a unit of work at once, on the main thread. A panic ends the work and no more. -/
def workHere : HandOver H := fun w e =>
  match w e.reach with
  | (.ok v, reach) => (.ok (.ok v), { e with reach := reach })
  | (.error p, reach) => (.ok (.error (.panicked p)), { e with reach := reach })

/-- Carries out a deed. -/
def perform {α : Type} (handOver : HandOver H) : Deed H α → Act (Engine H) α
  | .act run => onReach run
  | .handOver before work next => do
    onReach before
    let answer ← handOver work
    perform handOver (next answer)

/-- Writes a global variable. -/
def writeGlobal (name : String) (v : Value) : Act (Engine H) Unit := fun e =>
  match e.reach.globals.set name v with
  | .ok globals => (.ok (), { e with reach := { e.reach with globals := globals } })
  | .error f => (.error (.failed f), e)

/-- The hook's part of a command, on the variables of the script. -/
def offerToHook (a : Run (Reach H) Bool) : Run (Engine H) Bool := fun s =>
  let (r, t) := a ⟨s.locals, s.world.reach⟩
  (r, ⟨t.locals, { s.world with reach := t.world }⟩)

/-- What a script finds around it. -/
def surroundings (caller : Caller) (hook : Hook H) (deadline : Option Deadline) (handOver : HandOver H) :
    Host (Engine H) where
  isCancelled e := e.reach.isCancelled caller.context
  overdue? :=
    match deadline with
    | some d => do
      let now ← readClock
      pure (if d.instant ≤ now then some d.timeout else none)
    | none => pure none
  veto node := onReach (hook.onNode caller node)
  offerCommand name args := offerToHook (hook.onCommand caller name args)
  command? name e := (e.commands.get? name).map fun c args => perform handOver (c caller args)
  offerPlaceholder name args := onReach (hook.onPlaceholder caller name args)
  placeholder? name e := (e.placeholders.get? name).map fun p args => perform handOver (p caller args)
  readGlobal? name e := e.reach.globals.get? name
  writeGlobal := writeGlobal

/-- Runs a script directly, on the main thread and outside of any trigger. -/
def runDirectly (fuel : Nat) (script : Script) (context : Context H) (mode : Mode) (timeout : Option Duration) :
    StateM (Scope (Engine H)) Host.Outcome := fun s =>
  let (deadline, world) := Deadline.start timeout s.world
  let caller : Caller := ⟨context.id, context.event, context.actor, mode, true, 0⟩
  (surroundings caller context.hook deadline workHere).run fuel script ⟨s.locals, world⟩

end Engine

end EventScript
