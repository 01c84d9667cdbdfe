import EventScript.Globals.FileStore

/-!
# A place for a store

A path among files, and the store that is open there, if one is. Opening a store gives up the one before it, which is
saved first.
-/

namespace EventScript

/-- Files, a path among them, and the store that is open at it. -/
structure StorePlace where
  files : Files
  path : Path
  store : Option FileStore

namespace StorePlace

/-- Does to the files what an operation on them does. -/
def onFiles {α : Type} (a : StateM Files α) : StateM StorePlace α := fun s =>
  let r := a s.files
  (r.1, { s with files := r.2 })

/-- Gives up the store, which is saved first. -/
def vacate : StateM StorePlace Unit := do
  match (← get).store with
  | some store =>
    let _ ← onFiles store.close
    modify fun s => { s with store := none }
  | none => pure ()

/-- Opens a store at the path in place of the one that may be open. After a fault there is none. -/
def occupy : StateM StorePlace (Except Fault FileStore) := do
  vacate
  match ← onFiles (FileStore.start (← get).path) with
  | .ok store =>
    modify fun s => { s with store := some store }
    pure (.ok store)
  | .error f => pure (.error f)

/-- Does to the open store what an operation on it and the files does. -/
def onStore {α : Type} (store : FileStore) (a : FileStore → StateM Files (α × FileStore)) : StateM StorePlace α := do
  let (x, store) ← onFiles (a store)
  modify fun s => { s with store := some store }
  pure x

/-- What the file at the path holds, if it is a text. -/
def text? (s : StorePlace) : Option String := s.path.text? s.files

end StorePlace

end EventScript
