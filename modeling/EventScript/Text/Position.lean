/-!
# Positions in a source text

Lines and columns are counted from one, columns in characters. `Position.past` is the place reached by reading a run of
characters, and `past_append` says that reading can be done in parts.
-/

namespace EventScript

/-- A place in a source text. -/
structure Position where
  line : Nat := 1
  column : Nat := 1
deriving DecidableEq, Repr, Inhabited

namespace Position

/-- The place after one character: a newline starts the next line, any other character the next column. -/
def advance (p : Position) (c : Char) : Position :=
  if c == '\n' then ⟨p.line + 1, 1⟩ else ⟨p.line, p.column + 1⟩

/-- The place after a run of characters. -/
def past (p : Position) (text : List Char) : Position := text.foldl advance p

@[simp] theorem past_nil (p : Position) : p.past [] = p := rfl

@[simp] theorem past_cons (p : Position) (c : Char) (text : List Char) :
    p.past (c :: text) = (p.advance c).past text := rfl

theorem past_append (p : Position) (s t : List Char) : p.past (s ++ t) = (p.past s).past t := by
  simp [past, List.foldl_append]

end Position

end EventScript
