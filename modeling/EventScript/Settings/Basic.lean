import EventScript.Duration
import EventScript.Files.Path

/-!
# Settings

What a host can choose, each with its default.
-/

namespace EventScript

/-- How activations are scheduled and limited. -/
structure ExecutionSettings where
  workerThreads : Nat := 4
  activationTimeoutMs : Option Nat := none
  bridgeTimeoutMs : Option Nat := none
  defaultSync : Bool := true
  maxCallDepth : Nat := 64
deriving DecidableEq, Repr

/-- Where scripts lie. -/
structure ScriptSettings where
  directory : String := "triggers"
  extension : String := "trg"
  executors : Option String := none
  placeholders : Option String := none
deriving DecidableEq, Repr

/-- Where global variables are kept. -/
structure GlobalsSettings where
  path : Option String := none
  autosaveIntervalMs : Nat := 1000
deriving DecidableEq, Repr

/-- All settings. -/
structure Settings where
  execution : ExecutionSettings := {}
  scripts : ScriptSettings := {}
  globals : GlobalsSettings := {}
deriving DecidableEq, Repr

namespace ExecutionSettings

/-- The longest time an activation may take. -/
def activationTimeout (s : ExecutionSettings) : Option Duration := s.activationTimeoutMs.map .ofMilliseconds

/-- The longest time a worker waits for the main thread. -/
def bridgeTimeout (s : ExecutionSettings) : Option Duration := s.bridgeTimeoutMs.map .ofMilliseconds

end ExecutionSettings

/-- The time between two saves, never none. -/
def GlobalsSettings.autosaveInterval (s : GlobalsSettings) : Duration := .ofMilliseconds (max s.autosaveIntervalMs 1)

end EventScript
