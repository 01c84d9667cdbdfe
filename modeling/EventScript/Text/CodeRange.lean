/-!
# Ranges of code points

Unicode properties are kept as rising lists of ranges. `within` looks a code point up.
-/

namespace EventScript.Text

/-- Membership in a rising list of ranges, both ends included. The search ends at the first range that starts above the
code point. -/
def within : List (Nat × Nat) → Nat → Bool
  | [], _ => false
  | (first, last) :: rest, n => if n < first then false else n ≤ last || within rest n

end EventScript.Text
