import EventScript.Extension.Evaluation
import EventScript.Extension.Parser
import EventScript.Trigger.Loading

/-!
# Extensions from files

Each extension script in a directory becomes a command or a placeholder, named after its file. All are read first and then
registered in the order of their names; one that cannot be used ends the load, and those before it stay registered.
-/

namespace EventScript.Extension

/-- The extension of the files that hold extension scripts. -/
def fileExtension : String := "rhai"

/-- The entry of a script, if it has the one that is asked for. -/
def entryOf (name source entry : String) : Except Fault Procedure :=
  match Program.parse? source with
  | none => .error (.config (.compilation name))
  | some program =>
    match program.entry? entry with
    | some p => .ok p
    | none => .error (.config (.entryMissing name entry))

/-- An extension script as it was read: its name, its source and its path. -/
structure Source where
  name : String
  text : String
  path : Path
deriving DecidableEq, Repr

/-- Reads the extension scripts that lie directly in a directory, in the order of their names. -/
def readSources (path : Path) : FileAct (List Source) := do
  let directory ← FileAct.ofQuery path.locate
  let names ← Files.list directory
  let scripts := names.filter fun n => FileName.extension? n == some fileExtension
  let sources ← scripts.mapM fun n => do
    let text ← Files.readText (directory ++ [n])
    pure (⟨FileName.stem n, text, path.append [n]⟩ : Source)
  pure (sources.mergeSort fun a b => !(b.name < a.name))

variable {H α : Type}

/-- Registers scripts one after the other, each as what it is compiled to, given its name and its source. -/
def registerAll (compile : String → String → Except Fault α) (register : String → α → Engine H → Engine H) :
    List Source → ExceptT Fault (StateM (Engine H)) Unit
  | [] => pure ()
  | s :: rest => do
    match compile s.name s.text with
    | .ok entry =>
      modify (register s.name entry)
      registerAll compile register rest
    | .error f => throw (.scriptLoad s.path.text f)

/-- Registers the scripts in a directory, and counts them. -/
def loadFrom (compile : String → String → Except Fault α) (register : String → α → Engine H → Engine H) (directory : Path) :
    ExceptT Fault (StateM (Engine H)) Nat := do
  let sources ← Engine.filing (readSources directory)
  registerAll compile register sources
  pure sources.length

def registerCommand (name : String) (c : Command H) (e : Engine H) : Engine H :=
  { e with commands := e.commands.insert name c }

def registerPlaceholder (name : String) (p : Placeholder H) (e : Engine H) : Engine H :=
  { e with placeholders := e.placeholders.insert name p }

/-- Registers the scripts in a directory as commands. -/
def loadCommands (compile : String → String → Except Fault (Command H)) (directory : Path) :
    ExceptT Fault (StateM (Engine H)) Nat := loadFrom compile registerCommand directory

/-- Registers the scripts in a directory as placeholders. -/
def loadPlaceholders (compile : String → String → Except Fault (Placeholder H)) (directory : Path) :
    ExceptT Fault (StateM (Engine H)) Nat := loadFrom compile registerPlaceholder directory

/-- Loads a directory, if the settings name one. -/
def loadIf (load : Path → ExceptT Fault (StateM (Engine H)) Nat) : Option String → ExceptT Fault (StateM (Engine H)) Nat
  | some directory => load (Path.ofText directory)
  | none => pure 0

/-- Registers the scripts in the directory for commands and after them those in the directory for placeholders, as far as
the settings name them, and counts them all. -/
def loadBoth (compileCommand : String → String → Except Fault (Command H))
    (compilePlaceholder : String → String → Except Fault (Placeholder H)) : ExceptT Fault (StateM (Engine H)) Nat := do
  let scripts := (← get).settings.scripts
  let commands ← loadIf (loadCommands compileCommand) scripts.executors
  let placeholders ← loadIf (loadPlaceholders compilePlaceholder) scripts.placeholders
  pure (commands + placeholders)

/-- The command that a script is compiled to. -/
def commandOf (handleName name source : String) : Except Fault (Command H) := do
  let p ← entryOf name source "execute"
  pure fun caller args => .act (do let _ ← p.perform handleName name caller args)

/-- The placeholder that a script is compiled to. -/
def placeholderOf (handleName name source : String) : Except Fault (Placeholder H) := do
  let p ← entryOf name source "evaluate"
  pure fun caller args => .act (p.perform handleName name caller args)

/-- Loads the extension scripts, with host objects called by this name in texts. -/
def load (handleName : String) : ExceptT Fault (StateM (Engine H)) Nat :=
  loadBoth (commandOf handleName) (placeholderOf handleName)

end EventScript.Extension
