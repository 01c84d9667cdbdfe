/-!
# Hexadecimal digits

The values of hexadecimal digits, in either case, and the numbers that they spell.
-/

namespace EventScript.Text

/-- The value of a hexadecimal digit. -/
def hexDigit? (c : Char) : Option Nat :=
  if '0' ≤ c && c ≤ '9' then some (c.toNat - '0'.toNat)
  else if 'a' ≤ c && c ≤ 'f' then some (c.toNat - 'a'.toNat + 10)
  else if 'A' ≤ c && c ≤ 'F' then some (c.toNat - 'A'.toNat + 10)
  else none

/-- The number that hexadecimal digits spell behind `start`, if all of them are. -/
def hexValue? (start : Nat) : List Char → Option Nat
  | [] => some start
  | c :: rest =>
    match hexDigit? c with
    | some d => hexValue? (16 * start + d) rest
    | none => none

/-- The character with this code point, if there is one. -/
def charOf? (n : Nat) : Option Char := if n.isValidChar then some (Char.ofNat n) else none

end EventScript.Text
