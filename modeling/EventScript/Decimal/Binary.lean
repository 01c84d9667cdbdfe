/-!
# Doubles as integers times powers of two

A finite double is an integer mantissa times a power of two. `Binary.ofFloat?` takes it apart, `Binary.toFloat` puts
together a double from parts that one can hold, and the exact operations on doubles go through the two: conversion from
and to 64-bit integers, and the remainder of a division.
-/

namespace EventScript

/-- The number `mantissa · 2 ^ exponent`, negated if `negative`; zero keeps its sign. -/
structure Binary where
  negative : Bool
  mantissa : Nat
  exponent : Int
deriving DecidableEq, Repr

namespace Binary

/-- The bit of a mantissa that a double does not store, `2 ^ 52`. -/
def hiddenBit : Nat := 0x10000000000000

/-- The parts of a finite double; none for infinities and for a value that is not a number. The mantissa is below
`2 ^ 53` and the exponent at least `-1074`. -/
def ofFloat? (x : Float) : Option Binary :=
  let bits : Nat := x.toBits.toNat
  let negative := bits >>> 63 == 1
  let biased : Nat := (bits >>> 52) % 2048
  let fraction : Nat := bits % hiddenBit
  if biased == 2047 then none
  else if biased == 0 then some ⟨negative, fraction, -1074⟩
  else some ⟨negative, fraction + hiddenBit, biased - 1075⟩

/-- The double with these parts, for parts that some double has: a mantissa below `2 ^ 53`, and an exponent of at least
`-1074` that does not lead out of range. -/
def toFloat (b : Binary) : Float :=
  let sign := if b.negative then 0x8000000000000000 else 0
  if b.mantissa == 0 then Float.ofBits (UInt64.ofNat sign)
  else
    let width := Nat.log2 b.mantissa
    let top := b.exponent + width
    if top < -1022 then
      Float.ofBits (UInt64.ofNat (sign + b.mantissa <<< (b.exponent + 1074).toNat))
    else
      let fraction := b.mantissa <<< (52 - width) - hiddenBit
      Float.ofBits (UInt64.ofNat (sign + (top + 1023).toNat * hiddenBit + fraction))

/-- The integer next to the number on the side of zero. -/
def truncate (b : Binary) : Int :=
  let magnitude : Nat :=
    if 0 ≤ b.exponent then b.mantissa <<< b.exponent.toNat else b.mantissa >>> (-b.exponent).toNat
  if b.negative then -magnitude else magnitude

/-- The number has no fractional part. -/
def isIntegral (b : Binary) : Bool :=
  0 ≤ b.exponent || b.mantissa % (1 <<< (-b.exponent).toNat) == 0

/-- What is left of `a` after taking `b` away as often as it goes in, with the sign of `a`; for `b` other than zero. -/
def remainder (a b : Binary) : Binary :=
  let low := min a.exponent b.exponent
  let x := a.mantissa <<< (a.exponent - low).toNat
  let y := b.mantissa <<< (b.exponent - low).toNat
  ⟨a.negative, x % y, low⟩

end Binary

namespace Decimal

/-- The nearest 64-bit integer toward zero; what lies outside the range goes to its end, and no number to zero. -/
def truncate (x : Float) : Int64 :=
  match Binary.ofFloat? x with
  | some b => Int64.ofInt (max Int64.minValue.toInt (min Int64.maxValue.toInt b.truncate))
  | none => if x.isNaN then 0 else if x < 0 then Int64.minValue else Int64.maxValue

/-- The double nearest to a 64-bit integer. -/
def ofInt64 (n : Int64) : Float :=
  let magnitude := n.toInt.natAbs.toUInt64.toFloat
  if n < 0 then -magnitude else magnitude

/-- The remainder of a division that truncates: exact, with the sign of the dividend. There is none for an infinite
dividend or a zero divisor, and an infinite divisor leaves the dividend. -/
def remainder (x y : Float) : Float :=
  match Binary.ofFloat? x, Binary.ofFloat? y with
  | some a, some b => if b.mantissa == 0 then 0.0 / 0.0 else (a.remainder b).toFloat
  | some _, none => if y.isNaN then y else x
  | none, _ => 0.0 / 0.0

end Decimal

end EventScript
