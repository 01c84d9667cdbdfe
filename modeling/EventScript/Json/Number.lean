import EventScript.Json.Stored

/-!
# Numbers in JSON

A number is read into a significand of 64 bits and a power of ten. Digits that the significand has no room for only count
toward the power. The value of a number with a fraction or an exponent is the significand, rounded to a double, times or
divided by the power of ten, rounded again; so it can miss the nearest double by one unit, and it is refused where it is
infinite.
-/

namespace EventScript.Json

def isDigit (c : Char) : Bool := '0' ≤ c && c ≤ '9'

def digitValue (c : Char) : Nat := c.toNat - '0'.toNat

/-- The number that a run of digits spells, behind `start`. -/
def spelled (start : Nat) (digits : List Char) : Nat :=
  digits.foldl (fun n c => 10 * n + digitValue c) start

/-- Adds digits to a significand while it stays below `2 ^ 64`. Returns it with the count of digits added and the rest. -/
def addDigits (significand : Nat) : List Char → Nat × Nat × List Char
  | [] => (significand, 0, [])
  | c :: rest =>
    if isDigit c && 10 * significand + digitValue c < UInt64.size then
      let r := addDigits (10 * significand + digitValue c) rest
      (r.1, r.2.1 + 1, r.2.2)
    else (significand, 0, c :: rest)

/-- The text begins with a digit. -/
def startsWithDigit : List Char → Bool
  | c :: _ => isDigit c
  | [] => false

/-- The double nearest to `10 ^ n`. -/
def powerOfTen (n : Nat) : Float := Float.ofScientific 1 false n

/-- The highest power of ten that a double holds. -/
def topPower : Nat := 308

/-- `x` divided by `10 ^ n`, in steps of the highest power where `n` is too large for one division. -/
def divideByPower (x : Float) (n : Nat) : Float :=
  if n ≤ topPower then x / powerOfTen n
  else if x == 0 then x
  else divideByPower (x / powerOfTen topPower) (n - topPower)
termination_by n
decreasing_by simp only [topPower] at *; omega

/-- The magnitude `significand · 10 ^ exponent`, unless it is infinite. -/
def magnitude? (significand : Nat) (exponent : Int) : Option Float :=
  let x := Float.ofNat significand
  if exponent < 0 then some (divideByPower x (-exponent).toNat)
  else if exponent ≤ topPower then
    let y := x * powerOfTen exponent.toNat
    if y.isInf then none else some y
  else if x == 0 then some x
  else none

/-- The magnitude with its sign. -/
def signed (negative : Bool) (x : Float) : Float := if negative then -x else x

/-- The number with these parts, as a double. -/
def double (negative : Bool) (significand : Nat) (exponent : Int) (rest : List Char) : Option (Stored × List Char) :=
  (magnitude? significand exponent).map fun x => (.float (signed negative x), rest)

/-- The greatest exponent that is taken at its value. -/
def exponentLimit : Nat := 0x7fffffff

/-- Keeps an exponent among the integers of 32 bits. -/
def clampExponent (n : Int) : Int := max Int32.minValue.toInt (min Int32.maxValue.toInt n)

/-- Reads an exponent, behind its `e`, if the power so far is `power`. -/
def readExponent (negative : Bool) (significand : Nat) (power : Int) (cs : List Char) : Option (Stored × List Char) :=
  let (down, unsigned) :=
    match cs with
    | '+' :: rest => (false, rest)
    | '-' :: rest => (true, rest)
    | _ => (false, cs)
  let digits := unsigned.takeWhile isDigit
  let rest := unsigned.dropWhile isDigit
  if digits.isEmpty then none
  else
    let n := spelled 0 digits
    if n ≤ exponentLimit then
      double negative significand (clampExponent (if down then power - n else power + n)) rest
    else if significand != 0 && !down then none
    else some (.float (signed negative 0), rest)

/-- Reads what may follow the digits of a number that is a double for sure. -/
def readPower (negative : Bool) (significand : Nat) (power : Int) : List Char → Option (Stored × List Char)
  | 'e' :: rest => readExponent negative significand power rest
  | 'E' :: rest => readExponent negative significand power rest
  | rest => double negative significand power rest

/-- Reads a fraction, behind its point. -/
def readFraction (negative : Bool) (significand : Nat) (power : Int) (cs : List Char) : Option (Stored × List Char) :=
  let (full, count, rest) := addDigits significand cs
  if startsWithDigit rest then readPower negative full (power - count) (rest.dropWhile isDigit)
  else if count = 0 then none
  else readPower negative full (power - count) rest

/-- A number without fraction and exponent: an integer if it fits 64 bits, and `-0` is a double. -/
def whole (negative : Bool) (significand : Nat) : Stored :=
  if negative then
    if 0 < significand ∧ Int64.minValue.toInt ≤ -significand then .int (Int64.ofInt (-significand))
    else .float (signed true (Float.ofNat significand))
  else if significand ≤ Int64.maxValue.toInt then .int (Int64.ofInt significand)
  else .float (Float.ofNat significand)

/-- Reads what may follow the digits of a whole number that the significand has room for. -/
def readTail (negative : Bool) (significand : Nat) : List Char → Option (Stored × List Char)
  | '.' :: rest => readFraction negative significand 0 rest
  | 'e' :: rest => readExponent negative significand 0 rest
  | 'E' :: rest => readExponent negative significand 0 rest
  | rest => some (whole negative significand, rest)

/-- Reads what may follow the digits of a whole number of which `power` digits did not fit the significand. -/
def readLongTail (negative : Bool) (significand power : Nat) : List Char → Option (Stored × List Char)
  | '.' :: rest => readFraction negative significand power rest
  | rest => readPower negative significand power rest

/-- Reads a number behind its sign. A zero in front of other digits is refused. -/
def readMagnitude (negative : Bool) (cs : List Char) : Option (Stored × List Char) :=
  match cs with
  | '0' :: rest => if startsWithDigit rest then none else readTail negative 0 rest
  | _ =>
    let (significand, count, rest) := addDigits 0 cs
    if count = 0 then none
    else if startsWithDigit rest then
      readLongTail negative significand (rest.takeWhile isDigit).length (rest.dropWhile isDigit)
    else readTail negative significand rest

/-- Reads a number. -/
def readNumber : List Char → Option (Stored × List Char)
  | '-' :: rest => readMagnitude true rest
  | cs => readMagnitude false cs

end EventScript.Json
