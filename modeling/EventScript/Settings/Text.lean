import EventScript.Globals.FileStore
import EventScript.Settings.Basic
import EventScript.Toml.Document
import EventScript.Toml.Quoted

/-!
# Settings as text

Settings are read from a TOML document and written to one. What a document leaves out has its default, and keys that are
unknown say nothing. A group of settings may also be given as an array with its values in order.
-/

namespace EventScript

open Toml

/-- Where the settings of a group are found: by key, or by place. -/
inductive SettingsSource where
  | keyed (entries : Entries)
  | placed (items : List Item)

namespace SettingsSource

/-- The group under a key of the document. One that is missing has no settings, and a date or time counts as a group without
any key that is known. -/
def ofKey (document : Entries) (key : String) : Option SettingsSource :=
  match document.lookup key with
  | none => some (keyed [])
  | some .dateTime => some (keyed [])
  | some (.table _ entries) => some (keyed entries)
  | some (.array items) => some (placed items)
  | some (.tables elements) => some (placed (elements.map fun (kind, entries) => .table kind entries))
  | some _ => none

def item? (s : SettingsSource) (place : Nat) (key : String) : Option Item :=
  match s with
  | keyed entries => entries.lookup key
  | placed items => items[place]?

/-- One setting: its default if it is missing, and nothing if it cannot be taken. -/
def read (s : SettingsSource) (place : Nat) (key : String) (default : α) (decode : Item → Option α) : Option α :=
  match s.item? place key with
  | none => some default
  | some item => decode item

end SettingsSource

namespace Settings

def countOf : Item → Option Nat
  | .int n => if 0 ≤ n then some n.toNat else none
  | _ => none

def flagOf : Item → Option Bool
  | .bool b => some b
  | _ => none

def textOf : Item → Option String
  | .string s => some s
  | _ => none

def readExecution (s : SettingsSource) : Option ExecutionSettings := do
  let d : ExecutionSettings := {}
  let workerThreads ← s.read 0 "worker_threads" d.workerThreads countOf
  let activationTimeoutMs ← s.read 1 "activation_timeout_ms" none fun i => (countOf i).map some
  let bridgeTimeoutMs ← s.read 2 "bridge_timeout_ms" none fun i => (countOf i).map some
  let defaultSync ← s.read 3 "default_sync" d.defaultSync flagOf
  let maxCallDepth ← s.read 4 "max_call_depth" d.maxCallDepth countOf
  some ⟨workerThreads, activationTimeoutMs, bridgeTimeoutMs, defaultSync, maxCallDepth⟩

def readScripts (s : SettingsSource) : Option ScriptSettings := do
  let d : ScriptSettings := {}
  let directory ← s.read 0 "directory" d.directory textOf
  let extension ← s.read 1 "extension" d.extension textOf
  let executors ← s.read 2 "executors" none fun i => (textOf i).map some
  let placeholders ← s.read 3 "placeholders" none fun i => (textOf i).map some
  some ⟨directory, extension, executors, placeholders⟩

def readGlobals (s : SettingsSource) : Option GlobalsSettings := do
  let d : GlobalsSettings := {}
  let path ← s.read 0 "path" none fun i => (textOf i).map some
  let autosaveIntervalMs ← s.read 1 "autosave_interval_ms" d.autosaveIntervalMs countOf
  some ⟨path, autosaveIntervalMs⟩

/-- The settings that a TOML document holds. -/
def ofToml? (text : String) : Option Settings := do
  let document ← entries? text
  let execution ← readExecution (← SettingsSource.ofKey document "execution")
  let scripts ← readScripts (← SettingsSource.ofKey document "scripts")
  let globals ← readGlobals (← SettingsSource.ofKey document "globals")
  some ⟨execution, scripts, globals⟩

/-- The settings in a text, with the fault if there are none. -/
def parse (text : String) : Except Fault Settings :=
  match ofToml? text with
  | some s => .ok s
  | none => .error (.config .unreadable)

/-- Reads the settings from a file. -/
def load (p : Path) : Filing Settings := do
  let text ← Filing.ofAct p.readText
  match parse text with
  | .ok s => pure s
  | .error f => throw f

/-- A line with a number, which has to fit 64 bits with a sign. -/
def countLine (key : String) (n : Nat) : Option String :=
  if n ≤ Int64.maxValue.toInt then some s!"{key} = {n}\n" else none

def textLine (key value : String) : String := key ++ " = " ++ writeString value ++ "\n"

/-- A line that is left out if there is nothing to write. -/
def optional (line : α → Option String) : Option α → Option String
  | some a => line a
  | none => some ""

/-- The TOML document of the settings, unless a number does not fit. -/
def toToml? (s : Settings) : Option String := do
  let workerThreads ← countLine "worker_threads" s.execution.workerThreads
  let activationTimeout ← optional (countLine "activation_timeout_ms") s.execution.activationTimeoutMs
  let bridgeTimeout ← optional (countLine "bridge_timeout_ms") s.execution.bridgeTimeoutMs
  let maxCallDepth ← countLine "max_call_depth" s.execution.maxCallDepth
  let autosave ← countLine "autosave_interval_ms" s.globals.autosaveIntervalMs
  let text (key : String) (value : Option String) : String := (value.map (textLine key)).getD ""
  some (String.join [
    "[execution]\n", workerThreads, activationTimeout, bridgeTimeout,
    "default_sync = ", if s.execution.defaultSync then "true\n" else "false\n", maxCallDepth,
    "\n[scripts]\n", textLine "directory" s.scripts.directory, textLine "extension" s.scripts.extension,
    text "executors" s.scripts.executors, text "placeholders" s.scripts.placeholders,
    "\n[globals]\n", text "path" s.globals.path, autosave])

/-- Two texts name the same path: they agree but for repeated and closing slashes and for single points behind the first
component. -/
def samePath (a b : String) : Bool := components a == components b
where
  components (s : String) : Bool × List String :=
    let absolute := s.startsWith "/"
    let parts := (s.splitOn "/").filter (· != "")
    (absolute, match parts with
      | "." :: rest => if absolute then rest.filter (· != ".") else "." :: rest.filter (· != ".")
      | _ => parts.filter (· != "."))

def sameOptionalPath : Option String → Option String → Bool
  | some a, some b => samePath a b
  | none, none => true
  | _, _ => false

/-- The settings are the same, with paths compared as paths. -/
def agrees (a b : Settings) : Bool :=
  a.execution == b.execution && samePath a.scripts.directory b.scripts.directory &&
    a.scripts.extension == b.scripts.extension && sameOptionalPath a.scripts.executors b.scripts.executors &&
    sameOptionalPath a.scripts.placeholders b.scripts.placeholders && sameOptionalPath a.globals.path b.globals.path &&
    a.globals.autosaveIntervalMs == b.globals.autosaveIntervalMs

/-- The settings with another number of workers. -/
def withWorkerThreads (s : Settings) (n : Nat) : Settings :=
  { s with execution := { s.execution with workerThreads := n } }

/-- The settings with a time limit for activations, in whole milliseconds. -/
def withActivationTimeout (s : Settings) (d : Duration) : Settings :=
  { s with execution := { s.execution with activationTimeoutMs := some d.milliseconds } }

/-- The settings with global variables in a file. -/
def withGlobalsPath (s : Settings) (path : String) : Settings :=
  { s with globals := { s.globals with path := some path } }

end Settings

end EventScript
