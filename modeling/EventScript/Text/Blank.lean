import EventScript.Text.CodeRange

/-!
# White space

The Unicode property White_Space, by which a text counts as blank.
-/

namespace EventScript.Text

/-- Code points with the property White_Space. -/
def blankRanges : List (Nat × Nat) := [
  (0x9, 0xD), (0x20, 0x20), (0x85, 0x85), (0xA0, 0xA0), (0x1680, 0x1680), (0x2000, 0x200A), (0x2028, 0x2029),
  (0x202F, 0x202F), (0x205F, 0x205F), (0x3000, 0x3000)]

/-- The character is white space in the sense of Unicode. -/
def isBlank (c : Char) : Bool := within blankRanges c.toNat

/-- The text is empty or holds white space alone. -/
def blank (text : String) : Bool := text.toList.all isBlank

end EventScript.Text
