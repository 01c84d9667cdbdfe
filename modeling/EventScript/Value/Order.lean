import EventScript.Value.Basic

/-!
# Equality and order of values

Integers and floating-point numbers are compared with each other after conversion to a double, values of one kind
directly. What cannot be ordered has no comparison, and values of kinds that do not mix are unequal.
-/

namespace EventScript.Value

/-- The equality of the language, `==`. -/
def equals : Value → Value → Bool
  | null, null => true
  | bool a, bool b => a == b
  | int a, int b => a == b
  | string a, string b => a == b
  | handle a, handle b => a.identity == b.identity
  | float a, float b => a == b
  | int a, float b => Decimal.ofInt64 a == b
  | float a, int b => a == Decimal.ofInt64 b
  | _, _ => false

/-- The two values are of one kind and have the same payload; unlike in the language, an integer never equals a
floating-point number. -/
def identical : Value → Value → Bool
  | null, null => true
  | bool a, bool b => a == b
  | int a, int b => a == b
  | float a, float b => a == b
  | string a, string b => a == b
  | handle a, handle b => a.identity == b.identity
  | _, _ => false

/-- The order of two doubles, if neither is not a number. -/
def compareFloat? (a b : Float) : Option Ordering :=
  if a < b then some .lt else if b < a then some .gt else if a == b then some .eq else none

/-- The order of the language, behind `<`, `<=`, `>` and `>=`. -/
def compare? : Value → Value → Option Ordering
  | int a, int b => some (compare a.toInt b.toInt)
  | string a, string b => some (compare a b)
  | float a, float b => compareFloat? a b
  | int a, float b => compareFloat? (Decimal.ofInt64 a) b
  | float a, int b => compareFloat? a (Decimal.ofInt64 b)
  | _, _ => none

end EventScript.Value
