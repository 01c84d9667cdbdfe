import EventScript.Trigger.Engine

/-!
# A host for rehearsals

A host without a world of its own: it keeps a log of what it is asked, and its hook follows a plan. Scripts can be tried out
against it, and what they do can be read off the log.
-/

namespace EventScript

/-- The state of the host: its log, and how many nodes have been announced in each context. -/
structure Rehearsal where
  log : Array String
  announced : Std.ExtTreeMap Nat Nat compare

namespace Rehearsal

def empty : Rehearsal := ⟨#[], ∅⟩

/-- Adds a line to the log. -/
def note (line : String) (r : Reach Rehearsal) : Reach Rehearsal :=
  { r with host := { r.host with log := r.host.log.push line } }

/-- What the hook answers to a command. -/
structure CommandReply where
  /-- Variables that it sets first. -/
  set : List (String × Value)
  /-- The words of a fault, in place of an answer. -/
  fault : Option String
  handled : Bool

/-- What the hook answers to a placeholder. -/
structure PlaceholderReply where
  fault : Option String
  value : Option Value

/-- The plan of a hook. Nodes are counted from one in each context. -/
structure Plan where
  /-- Every node is noted down. -/
  trace : Bool
  /-- The node at which the token is cancelled. -/
  cancelAt : Option Nat
  /-- The node that is refused. -/
  vetoAt : Option Nat
  /-- The command that is refused. -/
  vetoCommand : Option String
  commands : List (String × CommandReply)
  placeholders : List (String × PlaceholderReply)

/-- The kind of a node, in the log. -/
def nodeKind : Node → String
  | .statement s =>
    match s with
    | .assign .. => "assign"
    | .ifElse .. => "if"
    | .whileLoop .. => "while"
    | .forLoop .. => "for"
    | .block .. => "block"
    | .command .. => "command"
    | .breakLoop .. => "break"
    | .continueLoop .. => "continue"
    | .returnScript .. => "return"
    | .expression .. => "expr"
  | .expression e =>
    match e with
    | .literal .. => "lit"
    | .name .. => "var"
    | .globalName .. => "global"
    | .globalAt .. => "gindex"
    | .binary .. => "bin"
    | .unary .. => "un"
    | .ternary .. => "ternary"
    | .placeholder .. => "ph"

/-- The node is a command of this name. -/
def isCommand (name : String) : Node → Bool
  | .statement (.command _ n _) => n == name
  | _ => false

/-- Counts a node of a context and gives its number. -/
def announce (context : Nat) : Act (Reach Rehearsal) Nat := fun r =>
  let n := r.host.announced[context]?.getD 0 + 1
  (.ok n, { r with host := { r.host with announced := r.host.announced.insert context n } })

/-- A fault in the words of the host. -/
def fault (message : String) : Halt := .failed (.runtime (.host message))

namespace Plan

def onNode (plan : Plan) (caller : Caller) (node : Node) : Act (Reach Rehearsal) Bool := do
  let n ← announce caller.context
  if plan.trace then
    modify (note s!"{nodeKind node}@{node.position.line}:{node.position.column}")
  if plan.cancelAt == some n then modify fun r => r.cancel caller.context
  let refused := match plan.vetoCommand with
    | some name => isCommand name node
    | none => false
  pure (refused || plan.vetoAt == some n)

def onCommand (plan : Plan) (name : String) (args : List Value) : Run (Reach Rehearsal) Bool := do
  match plan.commands.lookup name with
  | none => pure false
  | some reply =>
    modify fun s => { s with world := note s!"hook #{name}({Value.joinedText args})" s.world }
    modify fun s => { s with locals := reply.set.foldl (fun vars (n, v) => vars.insert n v) s.locals }
    match reply.fault with
    | some message => throw (fault message)
    | none => pure reply.handled

def onPlaceholder (plan : Plan) (name : String) (args : List Value) : Act (Reach Rehearsal) (Option Value) := do
  match plan.placeholders.lookup name with
  | none => pure none
  | some reply =>
    modify (note s!"hook %{name}({Value.joinedText args})")
    match reply.fault with
    | some message => throw (fault message)
    | none => pure reply.value

/-- The hook that follows a plan. -/
def hook (plan : Plan) : Hook Rehearsal where
  onNode := plan.onNode
  onCommand _ name args := plan.onCommand name args
  onPlaceholder _ name args := plan.onPlaceholder name args

end Plan

/-- The first of the arguments. -/
def firstOf (args : List Value) : Value := args.headD .null

/-- The commands that the host knows. -/
inductive Stock where
  | record
  | fail
  | panic
  | whereabouts
  | stopToken
  | sync
  | syncPanic
deriving DecidableEq, Repr

/-- The placeholders that the host knows. -/
inductive Answer where
  | echo
  | argc
  | broken
  | mode
  | eventName
  | actor
  | host
deriving DecidableEq, Repr

def Stock.all : List (String × Stock) :=
  [("RECORD", .record), ("FAIL", .fail), ("PANIC", .panic), ("WHERE", .whereabouts), ("STOPTOKEN", .stopToken),
    ("SYNC", .sync), ("SYNCPANIC", .syncPanic)]

def Answer.all : List (String × Answer) :=
  [("echo", .echo), ("argc", .argc), ("broken", .broken), ("mode", .mode), ("eventname", .eventName), ("actor", .actor),
    ("host", .host)]

def modeName : Mode → String
  | .sync => "sync"
  | .async => "async"

def threadName (caller : Caller) : String := if caller.onMain then "main" else "worker"

/-- Notes a text down and gives the number of its characters. -/
def noting (text : String) : ExceptT Panic (StateM (Reach Rehearsal)) Value := do
  modify (note s!"sync({text})")
  pure (.int (Int64.ofInt text.length))

/-- Panics with a text. -/
def panicking (text : String) : ExceptT Panic (StateM (Reach Rehearsal)) Value := throw (.text text)

/-- What a command does that is registered under `name`. -/
def Stock.command (name : String) : Stock → Command Rehearsal
  | record, _, args => .act (modify (note s!"{name}({Value.joinedText args})"))
  | fail, _, args => .act (throw (fault s!"executor failed: {(firstOf args).text}"))
  | panic, _, args => .act (throw (.panicked (.text (firstOf args).text)))
  | whereabouts, caller, _ =>
    .act (modify (note s!"{name}:{modeName caller.mode}:{threadName caller}"))
  | stopToken, caller, _ => .act (modify fun r => r.cancel caller.context)
  | sync, _, args =>
    .handOver (pure ()) (noting (Value.joinedText args)) fun
      | .ok v => .act (modify (note s!"synced {v.text}"))
      | .error f => .act (throw (.failed (.bridge f)))
  | syncPanic, _, args =>
    .handOver (pure ()) (panicking (firstOf args).text) fun
      | .ok _ => .act (pure ())
      | .error f => .act (throw (.failed (.bridge f)))

/-- What a placeholder does that is registered under `name`. -/
def Answer.placeholder (name : String) : Answer → Placeholder Rehearsal
  | echo, _, args => .act (do modify (note s!"%{name}({Value.joinedText args})"); pure (firstOf args))
  | argc, _, args => .act (pure (.int (Int64.ofInt args.length)))
  | broken, _, _ => .act (throw (fault "placeholder failed"))
  | mode, caller, _ => .act (pure (.string (modeName caller.mode)))
  | eventName, caller, _ => .act (pure (.string caller.event.name))
  | actor, caller, _ => .act (pure (match caller.actor with | some a => .string a.id | none => .null))
  | host, caller, _ =>
    .act (pure (match caller.actor.bind (·.handle) with | some h => .handle h | none => .null))

/-- A unit of work that gives the integer after `n`, or panics. -/
def errand (n : Int64) (panic : Option Panic) : ExceptT Panic (StateM (Reach Rehearsal)) Value := do
  match panic with
  | some p => throw p
  | none => pure (.int (n + 1))

/-- The engine with all commands and placeholders of the host under their own names. -/
def equip (e : Engine Rehearsal) : Engine Rehearsal :=
  { e with
    commands := Stock.all.foldl (fun r (name, c) => r.insert name (c.command name)) e.commands
    placeholders := Answer.all.foldl (fun r (name, p) => r.insert name (p.placeholder name)) e.placeholders }

end Rehearsal

end EventScript
