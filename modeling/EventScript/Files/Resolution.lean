import EventScript.Files.Basic

/-!
# Where paths lead

A path is followed part by part through directories that are there. `Path.locate` gives the location that the whole path
leads to, where something may stand or not. Whoever makes, moves or removes an entry has to name it: `Path.spot` follows the
path up to its last name, which is then taken as it is.
-/

namespace EventScript

namespace Path

/-- The most bytes of a name. -/
def nameLimit : Nat := 255

/-- The most bytes of a whole path. -/
def textLimit : Nat := 4095

/-- What is wrong with the text of a path, whatever files there are. An empty one leads nowhere. -/
def check (p : Path) : Except FileFault Unit :=
  if p.text = "" then .error .notFound
  else if p.text.toList.contains '\x00' then .error .invalidInput
  else if textLimit < p.text.utf8ByteSize then .error .invalidFilename
  else .ok ()

end Path

namespace Files

/-- Follows parts of a path from a location. What a part leads on from has to be a directory. -/
def walk (files : Files) : Location → List String → Except FileFault Location
  | l, [] => .ok l
  | l, part :: rest =>
    match files.entry? l with
    | none => .error .notFound
    | some (.file _) => .error .notDirectory
    | some .directory =>
      if Path.idle part then walk files l rest
      else if part = ".." then walk files l.dropLast rest
      else if Path.nameLimit < part.utf8ByteSize then .error .invalidFilename
      else walk files (l ++ [part]) rest

end Files

/-- A place for an entry: the directory that a path leads to before its last name, that name, and whether a slash is
behind it. -/
structure Spot where
  directory : Location
  name : String
  slashed : Bool

namespace Spot

def location (s : Spot) : Location := s.directory ++ [s.name]

/-- The name is a point, or two, and so is that of no entry. -/
def pointed (s : Spot) : Bool := s.name == "." || s.name == ".."

def overlong (s : Spot) : Bool := Path.nameLimit < s.name.utf8ByteSize

end Spot

namespace Path

/-- The location that a path leads to. -/
def locate (p : Path) (files : Files) : Except FileFault Location := do
  p.check
  files.walk [] p.parts

def exists? (p : Path) (files : Files) : Bool :=
  match p.locate files with
  | .ok l => (files.entry? l).isSome
  | .error _ => false

def isDirectory (p : Path) (files : Files) : Bool :=
  match p.locate files with
  | .ok l => files.isDirectory l
  | .error _ => false

/-- The text of a file, as it stands. -/
def text? (p : Path) (files : Files) : Option String :=
  match p.locate files with
  | .ok l =>
    match files.entry? l with
    | some (.file (.text s)) => some s
    | _ => none
  | .error _ => none

/-- The place that a path names for an entry. -/
def spot (p : Path) (files : Files) : Except FileFault Spot := do
  p.check
  match p.parts.reverse.dropWhile (· == "") with
  | [] => .error .notFound
  | name :: before =>
    let directory ← files.walk [] (before.reverse ++ [""])
    .ok ⟨directory, name, p.parts.getLast? = some ""⟩

/-- The location for a file to be written. -/
def target (p : Path) (files : Files) : Except FileFault Location := do
  let s ← p.spot files
  if s.pointed || s.slashed then .error .isDirectory
  else if s.overlong then .error .invalidFilename
  else .ok s.location

/-- The locations that a file is moved from and to. -/
def move (p q : Path) (files : Files) : Except FileFault (Location × Location) := do
  let s ← p.spot files
  let t ← q.spot files
  if s.pointed || t.pointed then .error .busy
  else if s.overlong || t.overlong then .error .invalidFilename
  else if s.slashed || t.slashed then .error .notDirectory
  else .ok (s.location, t.location)

/-- The location of a file to be removed. -/
def victim (p : Path) (files : Files) : Except FileFault Location := do
  let s ← p.spot files
  if s.pointed then .error .isDirectory
  else if s.overlong then .error .invalidFilename
  else if s.slashed then .error (if files.isDirectory s.location then .isDirectory else .notDirectory)
  else .ok s.location

/-- The location for a directory to be made. A slash may stand behind its name. -/
def site (p : Path) (files : Files) : Except FileFault Location := do
  let s ← p.spot files
  if s.pointed then .error .alreadyExists
  else if s.overlong then .error .invalidFilename
  else .ok s.location

/-! ## Operations by path -/

/-- Reads a text. -/
def readText (p : Path) : FileAct String := do
  let l ← FileAct.ofQuery p.locate
  Files.readText l

/-- Writes a file, new or not, in a directory that is there. -/
def write (p : Path) (c : Content) : FileAct Unit := do
  let l ← FileAct.ofQuery p.target
  Files.write l c

/-- Moves the file at `p` to `q`, over the one that may be there. -/
def rename (p q : Path) : FileAct Unit := do
  let (l, m) ← FileAct.ofQuery (p.move q)
  Files.rename l m

/-- Removes a file. -/
def remove (p : Path) : FileAct Unit := do
  let l ← FileAct.ofQuery p.victim
  Files.remove l

/-- Makes one directory, in a directory that is there. -/
def makeDirectory (p : Path) : FileAct Unit := do
  let l ← FileAct.ofQuery p.site
  Files.makeDirectory l

/-- Makes one directory unless it is there. -/
def ensureDirectory (p : Path) : FileAct Unit :=
  tryCatch p.makeDirectory fun fault => do
    if !p.isDirectory (← get) then throw fault

/-- Makes the directory that names lead to, of which the last stands in front. If something is missing on the way there, the
directory around it is made first. -/
def ensureWay : List String → FileAct Unit
  | [] => pure ()
  | name :: around =>
    let p : Path := ⟨(name :: around).reverse⟩
    tryCatch p.ensureDirectory fun fault => do
      if fault != .notFound then throw fault
      ensureWay around
      p.ensureDirectory

/-- Makes a directory and those on the way to it that are missing. -/
def makeDirectories (p : Path) : FileAct Unit := ensureWay p.steps.reverse

/-- Puts a file at a path, with the directories around it. -/
def install (p : Path) (c : Content) : FileAct Unit := do
  p.parent.makeDirectories
  p.write c

end Path

end EventScript
