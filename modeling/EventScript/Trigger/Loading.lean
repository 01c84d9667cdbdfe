import EventScript.Trigger.Engine

/-!
# Triggers from files

Each file of a directory tree with the right extension becomes a trigger, named after the directories on the way and the
file, with colons between them. Files are taken in the order of their locations, whatever order they are listed in, and the
first that cannot be read or parsed fails the whole load.
-/

namespace EventScript

/-- The name of the trigger in a file, of which the location below the root is given. -/
def Trigger.nameOf (l : Location) : String := ":".intercalate (l.dropLast ++ [FileName.bare (l.getLast?.getD "")])

namespace Engine

variable {H : Type}

/-- The files below a directory with this extension, in the order of their locations. They are listed at once here. Going from directory
to directory, in whatever order each is listed, comes to the same files in the same order (`scriptFiles_eq_walk`). -/
def scriptFiles (root : Location) (extension : String) : FileAct (List Location) := do
  let files ← Files.listBelow root
  pure ((files.filter fun l => FileName.extension? (l.getLast?.getD "") == some extension).mergeSort Location.precedes)

/-- A file operation of the engine. -/
def filing (a : FileAct α) : ExceptT Fault (StateM (Engine H)) α := onFiles (Filing.ofAct a)

/-- Reads and parses the file at `l` below the root, to which the path leads. -/
def loadFile (path : Path) (root : Location) (mode : Mode) (l : Location) : ExceptT Fault (StateM (Engine H)) Trigger := do
  let source ← filing (Files.readText (root ++ l))
  match ← liftM (newTrigger (H := H) (Trigger.nameOf l) source mode) with
  | .ok t => pure t
  | .error f => throw (.scriptLoad (path.append l).text f)

/-- Reads and parses all files below a directory with this extension. -/
def loadTree (path : Path) (extension : String) (mode : Mode) : ExceptT Fault (StateM (Engine H)) (List Trigger) := do
  let root ← filing (FileAct.ofQuery path.locate)
  let files ← filing (scriptFiles root extension)
  files.mapM (loadFile path root mode)

/-- Triggers by name; of those with one name the last counts. -/
def byName (triggers : List Trigger) : Std.ExtTreeMap String Trigger compare :=
  triggers.foldl (fun m t => m.insert t.name t) ∅

/-- Adds the triggers of a directory to the named ones, and counts their names. A fault adds none. -/
def loadDirectory (path : Path) (extension : String) (mode : Mode) : ExceptT Fault (StateM (Engine H)) Nat := do
  let triggers ← loadTree path extension mode
  modify fun e => triggers.foldl (fun e t => e.insertTrigger t) e
  pure (byName triggers).size

/-- Puts the triggers of a directory in place of all named ones. A fault leaves these as they were. -/
def reloadDirectory (path : Path) (extension : String) (mode : Mode) : ExceptT Fault (StateM (Engine H)) Nat := do
  let triggers ← loadTree path extension mode
  modify fun e => { e with named := byName triggers }
  pure (byName triggers).size

/-- Adds the triggers of the scripts directory. -/
def loadNamed : ExceptT Fault (StateM (Engine H)) Nat := do
  let e ← get
  loadDirectory (Path.ofText e.settings.scripts.directory) e.settings.scripts.extension e.defaultMode

/-- Puts the triggers of the scripts directory in place of all named ones. -/
def reloadNamed : ExceptT Fault (StateM (Engine H)) Nat := do
  let e ← get
  reloadDirectory (Path.ofText e.settings.scripts.directory) e.settings.scripts.extension e.defaultMode

end Engine

end EventScript
