import EventScript.Decimal.Binary

/-!
# The fewest digits that read back

A double stands for every real number that rounds to it, an interval around its exact value. `Binary.shortest` gives the
decimal with the fewest digits in that interval, and of several with as few digits the nearest to the exact value.

All comparisons are exact: a decimal `c · 10 ^ p` and a binary `x · 2 ^ e` are brought to integers by one common factor.
-/

namespace EventScript

/-- The decimal `digits · 10 ^ exponent`. -/
structure Decimal where
  digits : Nat
  exponent : Int
deriving DecidableEq, Repr

/-- Where a number that lies half-way between two decimals goes. -/
inductive Tie where
  | up
  | even
deriving DecidableEq, Repr

namespace Binary

/-- How many decimal digits a positive integer has; none for zero. -/
def decimalWidth (n : Nat) : Nat := if n == 0 then 0 else (Nat.toDigits 10 n).length

/-- The `k` for which a positive number lies from `10 ^ (k - 1)` on and below `10 ^ k`. -/
def magnitude (b : Binary) : Int :=
  if 0 ≤ b.exponent then decimalWidth (b.mantissa <<< b.exponent.toNat)
  else
    let scale := 1 <<< (-b.exponent).toNat
    if scale ≤ b.mantissa then decimalWidth (b.mantissa / scale)
    else 1 - decimalWidth ((scale - 1) / b.mantissa)

/-- The decimal with exponent `p` that is nearest to a positive number among those that round to it, if any does. The
interval ends belong to it exactly for an even mantissa; below a power of two it is half as wide. -/
def nearestOnGrid? (b : Binary) (tie : Tie) (p : Int) : Option Nat :=
  let two := 1 <<< (b.exponent - 2).toNat
  let ten := Nat.pow 10 (-p).toNat
  let grid := Nat.pow 10 p.toNat <<< (2 - b.exponent).toNat
  let value := 4 * b.mantissa * two * ten
  let narrow := b.mantissa == hiddenBit && -1074 < b.exponent
  let low := (4 * b.mantissa - if narrow then 1 else 2) * two * ten
  let high := (4 * b.mantissa + 2) * two * ten
  let closed := b.mantissa % 2 == 0
  let reads (c : Nat) : Bool := if closed then low ≤ c * grid && c * grid ≤ high else low < c * grid && c * grid < high
  let below := value / grid
  let above := below + 1
  match reads below, reads above with
  | false, false => none
  | true, false => some below
  | false, true => some above
  | true, true =>
    let down := value - below * grid
    let up := above * grid - value
    if down < up then some below
    else if up < down then some above
    else match tie with
      | .up => some above
      | .even => if below % 2 == 0 then some below else some above

/-- Takes trailing zeros off the digits, at most `fuel` of them. -/
def stripZeros : Nat → Decimal → Decimal
  | 0, d => d
  | fuel + 1, d => if d.digits % 10 == 0 then stripZeros fuel ⟨d.digits / 10, d.exponent + 1⟩ else d

/-- The first of the given numbers of digits with which some decimal reads back. -/
def firstReading (b : Binary) (tie : Tie) : List Nat → Decimal
  | [] => ⟨0, 0⟩
  | width :: more =>
    let p := b.magnitude - width
    match b.nearestOnGrid? tie p with
    | some c => stripZeros width ⟨c, p⟩
    | none => firstReading b tie more

/-- The decimal with the fewest digits that rounds to this positive number. Seventeen digits always suffice. -/
def shortest (b : Binary) (tie : Tie) : Decimal :=
  firstReading b tie [1, 2, 3, 4, 5, 6, 7, 8, 9, 10, 11, 12, 13, 14, 15, 16, 17]

end Binary

end EventScript
