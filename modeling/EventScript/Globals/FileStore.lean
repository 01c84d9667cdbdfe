import EventScript.Files.Resolution
import EventScript.Json.Reader
import EventScript.Json.Writer
import EventScript.Text.Blank

/-!
# Variables in a file

A store keeps variables in memory and in a JSON file. Reads and writes go to memory alone, and a flag notes that memory is
ahead of the file. Saving writes a new file beside the old one and moves it over, so a fault on the way leaves the old file
as it was; the flag then stays up, and the next save tries again.
-/

namespace EventScript

/-- The variables of an object's members; of equal keys the last counts. -/
def Variables.ofMembers (members : List (String × Stored)) : Variables :=
  members.foldl (fun vars m => vars.insert m.1 m.2.value) ∅

/-- What can be stored of the variables, in the order of their names. -/
def Variables.storedMembers (vars : Variables) : List (String × Stored) :=
  vars.toList.filterMap fun (name, v) => v.toStored?.map fun s => (name, s)

/-- A store of variables that is backed by a file. -/
structure FileStore where
  path : Path
  cache : Variables
  /-- The cache holds writes that the file does not. -/
  dirty : Bool
  /-- The saver is at work: closing the store saves it one last time. -/
  saving : Bool

/-- An operation that reads or writes files. -/
abbrev Filing := ExceptT Fault (StateM Files)

/-- An operation on files, with its faults among all the others. -/
def Filing.ofAct (a : FileAct α) : Filing α := fun files =>
  match a files with
  | (.ok x, files) => (.ok x, files)
  | (.error f, files) => (.error (.file f), files)

namespace FileStore

/-- Reads the variables in a file. A missing file and a blank one hold none. -/
def read (p : Path) : Filing Variables := do
  if p.exists? (← get) then
    let text ← Filing.ofAct p.readText
    if Text.blank text then pure ∅
    else
      match Json.members? text with
      | some members => pure (Variables.ofMembers members)
      | none => throw .json
  else pure ∅

/-- Opens the store at a path. -/
def start (p : Path) : Filing FileStore := do
  let cache ← read p
  pure ⟨p, cache, false, true⟩

/-- The file that a save writes before it moves it over the store's own. -/
def draft (p : Path) : Path := p.withExtension "tmp"

/-- Writes variables to a file by way of its draft. -/
def write (p : Path) (vars : Variables) : FileAct Unit := do
  (draft p).write (.text (Json.writeObject vars.storedMembers))
  (draft p).rename p

/-- Saves the cache if it is ahead of the file. -/
def save (store : FileStore) : StateM Files (Except Fault Unit × FileStore) := do
  if store.dirty then
    match ← (Filing.ofAct (write store.path store.cache)).run with
    | .ok _ => pure (.ok (), { store with dirty := false })
    | .error f => pure (.error f, store)
  else pure (.ok (), store)

/-- Takes the cache from the file again and drops unsaved writes. A fault leaves the store as it was. -/
def reload (store : FileStore) : StateM Files (Except Fault Unit × FileStore) := do
  match ← (read store.path).run with
  | .ok cache => pure (.ok (), { store with cache := cache, dirty := false })
  | .error f => pure (.error f, store)

/-- Stops the saver after a last save, of which a fault is not reported. A second call does nothing. -/
def close (store : FileStore) : StateM Files FileStore := do
  if store.saving then
    let (_, saved) ← store.save
    pure { saved with saving := false }
  else pure store

/-- Binds a name, or unbinds it if the value is `null`. What cannot be stored is refused. -/
def set (store : FileStore) (name : String) (v : Value) : Except Fault FileStore :=
  match v.toStored? with
  | none => .error (.storage v.kind)
  | some _ =>
    let cache := if v.isNull then store.cache.erase name else store.cache.insert name v
    .ok { store with cache := cache, dirty := true }

/-- Unbinds a name and returns what it was bound to. -/
def remove (store : FileStore) (name : String) : Option Value × FileStore :=
  match store.cache[name]? with
  | some v => (some v, { store with cache := store.cache.erase name, dirty := true })
  | none => (none, store)

end FileStore

end EventScript
