import EventScript.Duration
import EventScript.ParseFault
import EventScript.Value.Arithmetic

/-!
# Faults

Everything that can go wrong between reading a script and the end of its activation, by cause, and the one text of each.
-/

namespace EventScript

/-- What host code leaves behind when it panics. -/
inductive Panic where
  | text (message : String)
  /-- A payload that is no text. -/
  | other
deriving DecidableEq, Repr

/-- What goes wrong while a script runs. -/
inductive RuntimeFault where
  | operand (f : OperandFault)
  | globalKey (got : Kind)
  | loopBound (got : Kind)
  | callName
  | callMissing
  | callFlag (got : Kind)
  | cancelInAsync
  | notCancellable (event : String)
  | cooldownArgument
  | callDepth (trigger : String) (limit : Nat)
  | dropped
  /-- Reported by a command or placeholder of the host, in its own words. -/
  | host (message : String)
  /-- Reported by an extension script. -/
  | extension (name : String)
deriving DecidableEq, Repr

def RuntimeFault.message : RuntimeFault → String
  | operand f => f.message
  | globalKey got => s!"global variable key must be a string, got {got.name}"
  | loopBound got => s!"FOR bound must be a number, got {got.name}"
  | callName => "CALL: parameter type not match; the trigger name must be a String"
  | callMissing => "CALL: need parameter [String] or [String, boolean]"
  | callFlag got => s!"CALL: sync flag must be a boolean, got {got.name}"
  | cancelInAsync => "CANCELEVENT is illegal in async mode!"
  | notCancellable event => s!"{event} is not a Cancellable event!"
  | cooldownArgument => "COOLDOWN: parameter must be a number of seconds"
  | callDepth trigger limit => s!"trigger '{trigger}' exceeded the maximum call depth of {limit}"
  | dropped => "activation was dropped before it finished"
  | host message => message
  | extension name => s!"{name}: "

/-- Why a unit of work does not come back from the main thread. -/
inductive BridgeFault where
  | shutDown
  | timedOut (timeout : Duration)
  | droppedTask
  | panicked (payload : Panic)
deriving DecidableEq, Repr

def BridgeFault.message : BridgeFault → String
  | shutDown => "main thread is shut down"
  | timedOut timeout => s!"main thread did not answer within {timeout.text}"
  | droppedTask => "main thread dropped the task"
  | panicked (.text message) => s!"unit of work panicked: {message}"
  | panicked .other => "unit of work panicked"

/-- What is wrong with a setting or an extension script. -/
inductive ConfigFault where
  | unreadable
  | unwritable
  | entryMissing (script entry : String)
  | compilation (script : String)
deriving DecidableEq, Repr

def ConfigFault.message : ConfigFault → String
  | unreadable => "unreadable settings"
  | unwritable => "settings cannot be written"
  | entryMissing script entry => s!"{script}: script must define {entry}(ctx, args)"
  | compilation script => s!"{script}: compilation error: "

/-- How a file operation fails. -/
inductive FileFault where
  | notFound
  | isDirectory
  | notDirectory
  | invalidData
  | alreadyExists
  /-- A name or a path is too long. -/
  | invalidFilename
  /-- A path holds a null character. -/
  | invalidInput
  | busy
deriving DecidableEq, Repr

/-- The name of the failure. -/
def FileFault.name : FileFault → String
  | notFound => "NotFound"
  | isDirectory => "IsADirectory"
  | notDirectory => "NotADirectory"
  | invalidData => "InvalidData"
  | alreadyExists => "AlreadyExists"
  | invalidFilename => "InvalidFilename"
  | invalidInput => "InvalidInput"
  | busy => "ResourceBusy"

/-- A fault of loading, running or scheduling scripts. -/
inductive Fault where
  | parse (f : ParseFault)
  | runtime (f : RuntimeFault)
  | unknownCommand (name : String)
  | bridge (f : BridgeFault)
  | deadlineExceeded (timeout : Duration)
  | shuttingDown
  | triggerNotFound (name : String)
  | scriptLoad (path : String) (source : Fault)
  | config (f : ConfigFault)
  | storage (got : Kind)
  | file (f : FileFault)
  | json
deriving DecidableEq, Repr

namespace Fault

def message : Fault → String
  | parse f => f.text
  | runtime f => s!"runtime error: {f.message}"
  | unknownCommand name => s!"unknown command: #{name}"
  | bridge f => s!"host bridge failure: {f.message}"
  | deadlineExceeded timeout => s!"activation exceeded its deadline of {timeout.text}"
  | shuttingDown => "trigger runtime is shutting down"
  | triggerNotFound name => s!"no trigger found for named trigger '{name}'"
  | scriptLoad path source => s!"failed to load {path}: {source.message}"
  | config f => s!"configuration error: {f.message}"
  | storage got => s!"storage error: {got.name} is not a valid type to be saved"
  | file f => s!"I/O error: {f.name}"
  | json => "JSON error"

/-- The fault is one of the source text. -/
def isParse : Fault → Bool
  | parse _ => true
  | scriptLoad _ source => source.isParse
  | _ => false

end Fault

end EventScript
