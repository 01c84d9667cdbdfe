import EventScript.Fault
import EventScript.Files.Path

/-!
# Files

The files and directories that scripts and variables are kept in, by location and in no particular order. Every access may
fail for a reason of its own, as media do: `trouble` gives the fault that the access of a given number meets, if any. An
access that fails changes no file.
-/

namespace EventScript

/-- What a file holds: a text, or bytes that are the encoding of none. -/
inductive Content where
  | text (s : String)
  | binary (bytes : List UInt8)
deriving DecidableEq, Repr

/-- The content with these bytes. -/
def Content.ofBytes (bytes : List UInt8) : Content :=
  match String.fromUTF8? ⟨bytes.toArray⟩ with
  | some s => text s
  | none => binary bytes

/-- What stands at a location. -/
inductive Entry where
  | file (content : Content)
  | directory
deriving DecidableEq, Repr

/-- Files and directories, how often they have been accessed, and the faults of accesses. The empty location is the
directory that holds everything. -/
structure Files where
  entries : List (Location × Entry)
  accesses : Nat
  trouble : Nat → Option FileFault

/-- An operation on files. -/
abbrev FileAct := ExceptT FileFault (StateM Files)

/-- An operation that finds something out about the files. -/
def FileAct.ofQuery (f : Files → Except FileFault α) : FileAct α := fun files => (f files, files)

namespace Files

/-- No files, and no faults to come. -/
def empty : Files := ⟨[], 0, fun _ => none⟩

def entry? (files : Files) (l : Location) : Option Entry :=
  if l = [] then some .directory else files.entries.lookup l

def isDirectory (files : Files) (l : Location) : Bool := files.entry? l == some .directory

/-- The files with the entry at one location replaced or added. -/
def put (files : Files) (l : Location) (e : Entry) : Files :=
  { files with entries := (files.entries.filter (·.1 != l)) ++ [(l, e)] }

/-- The files without the entry at one location. -/
def erase (files : Files) (l : Location) : Files :=
  { files with entries := files.entries.filter (·.1 != l) }

/-- Counts an access and takes the fault it meets. -/
def access : FileAct Unit := do
  let files ← get
  set { files with accesses := files.accesses + 1 }
  match files.trouble files.accesses with
  | some fault => throw fault
  | none => pure ()

/-- Reads a text. -/
def readText (l : Location) : FileAct String := do
  access
  let files ← get
  match files.entry? l with
  | some (.file (.text s)) => pure s
  | some (.file (.binary _)) => throw .invalidData
  | some .directory => throw .isDirectory
  | none => throw .notFound

/-- Writes a file, new or not. -/
def write (l : Location) (c : Content) : FileAct Unit := do
  access
  let files ← get
  if files.isDirectory l then throw .isDirectory
  set (files.put l (.file c))

/-- Moves the file at `l` to `m`, over the one that may be there. -/
def rename (l m : Location) : FileAct Unit := do
  access
  let files ← get
  match files.entry? l with
  | some (.file c) =>
    if files.isDirectory m then throw .isDirectory
    set ((files.erase l).put m (.file c))
  | some .directory => throw .isDirectory
  | none => throw .notFound

/-- Lists the files below a directory, at any depth, by their locations relative to it. In a tree these are the files to which `collect`
comes (`Tree.surveys_listing`, and `Engine.scriptFiles_eq_walk` for those of scripts). -/
def listBelow (root : Location) : FileAct (List Location) := do
  access
  let files ← get
  match files.entry? root with
  | some .directory =>
    pure (files.entries.filterMap fun (l, e) =>
      match e with
      | .file _ => root.below? l
      | .directory => none)
  | some (.file _) => throw .notDirectory
  | none => throw .notFound

/-- The names of what stands directly in a directory. -/
def list (root : Location) : FileAct (List String) := do
  access
  let files ← get
  match files.entry? root with
  | some .directory =>
    pure (files.entries.filterMap fun (l, _) =>
      match root.below? l with
      | some [name] => some name
      | _ => none)
  | some (.file _) => throw .notDirectory
  | none => throw .notFound

/-- Collects the files with an extension in the directory to which `dir` leads from the root, and in those below it down to a depth,
directory by directory. The names in a directory are taken in an order that may be another one for each. -/
def collect (order : Location → List String → List String) (root : Location) (extension : String) :
    Nat → Location → FileAct (List Location)
  | 0, _ => pure []
  | depth + 1, dir => do
    let names ← list (root ++ dir)
    let found ← (order (root ++ dir) names).mapM fun name => do
      let files ← get
      if files.isDirectory (root ++ (dir ++ [name])) then collect order root extension depth (dir ++ [name])
      else pure (if FileName.extension? name == some extension then [dir ++ [name]] else [])
    pure found.flatten

/-- Makes a directory where nothing stands. -/
def makeDirectory (l : Location) : FileAct Unit := do
  let files ← get
  if (files.entry? l).isSome then throw .alreadyExists
  set (files.put l .directory)

/-- Removes a file. -/
def remove (l : Location) : FileAct Unit := do
  let files ← get
  match files.entry? l with
  | some (.file _) => set (files.erase l)
  | some .directory => throw .isDirectory
  | none => throw .notFound

end Files

end EventScript
