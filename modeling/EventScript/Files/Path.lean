/-!
# Paths and file names

A location is where something stands among files: the names of the directories around it, outermost first, and its own. A
path is how somebody writes the way to a location: names between slashes, of which an empty one and a point stay in the
directory and two points go back out of it. Which location a path leads to hangs on the files that it leads through. A file
name has an extension, which is what stands behind its last point, unless that point is the first character.
-/

namespace EventScript

/-- A location, name by name. -/
abbrev Location := List String

namespace Location

/-- A location comes before another one if, at the first place where they differ, its name does; a location comes before
those below it. -/
def precedes : Location → Location → Bool
  | [], _ => true
  | _ :: _, [] => false
  | a :: p, b :: q => a < b || (a == b && precedes p q)

/-- What `l` is called relative to `root`, if it lies below it. -/
def below? : Location → Location → Option Location
  | [], [] => none
  | [], l => some l
  | _ :: _, [] => none
  | r :: root, c :: l => if r == c then below? root l else none

end Location

namespace FileName

/-- A name up to its last point and behind it. A name without a point, or with no point but the first character, has no
extension. -/
def split (name : String) : String × Option String :=
  let backwards := name.toList.reverse
  let behind := backwards.takeWhile (· != '.')
  match backwards.dropWhile (· != '.') with
  | _ :: before@(_ :: _) => (String.ofList before.reverse, some (String.ofList behind.reverse))
  | _ => (name, none)

/-- The name without its extension. -/
def stem (name : String) : String := (split name).1

def extension? (name : String) : Option String := (split name).2

/-- The name with its extension taken off. What would be left of `..x` is a single point, which names no file; the point in
front of the extension stays then. -/
def bare (name : String) : String :=
  let s := stem name
  if s == "." then ".." else s

end FileName

/-- A path: what is written between its slashes. -/
structure Path where
  parts : List String
deriving DecidableEq, Repr

namespace Path

def ofText (s : String) : Path := ⟨s.splitOn "/"⟩

def text (p : Path) : String := "/".intercalate p.parts

/-- The path with names behind it. A slash at its end is there already. -/
def append (p : Path) (names : List String) : Path :=
  ⟨(if p.parts.getLast? = some "" then p.parts.dropLast else p.parts) ++ names⟩

/-- The path that a text names for somebody who stands at `p`. A text that begins with a slash does not start from there. -/
def join (p : Path) (s : String) : Path :=
  if s.startsWith "/" then ofText s else p.append (s.splitOn "/")

/-- The part does not lead anywhere. -/
def idle (part : String) : Bool := part == "" || part == "."

/-- The parts that lead somewhere. -/
def steps (p : Path) : List String := p.parts.filter fun part => !idle part

/-- The name of the file that a path leads to, unless it goes back at its end. -/
def fileName? (p : Path) : Option String :=
  match p.steps.getLast? with
  | some ".." => none
  | name => name

/-- The path without the last part that leads somewhere and what is behind that. -/
def parent (p : Path) : Path := ⟨((p.parts.reverse.dropWhile idle).drop 1).reverse⟩

/-- The path in the same directory with another file name. -/
def withFileName (p : Path) (name : String) : Path := ⟨p.parent.parts ++ [name]⟩

/-- The path with another extension of its file name. A path that ends in `..x` loses its extension and gets none, because
`..` is no file name. -/
def withExtension (p : Path) (extension : String) : Path :=
  match p.fileName? with
  | none => p
  | some name =>
    if FileName.stem name = "." ∧ p.parts.getLast? = some name then p.withFileName ".."
    else p.withFileName (FileName.stem name ++ "." ++ extension)

end Path

end EventScript
