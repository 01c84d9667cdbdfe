/-!
# Spans of time

Instants and spans are counted in nanoseconds. `Duration.text` is the form in which messages show a span: the largest
unit that gives a whole part, and as many decimals as it takes.
-/

namespace EventScript

/-- A span of time in nanoseconds. -/
structure Duration where
  nanoseconds : Nat
deriving DecidableEq, Repr, Inhabited

namespace Duration

def ofMilliseconds (n : Nat) : Duration := ⟨n * 1000000⟩

def ofSeconds (n : Nat) : Duration := ⟨n * 1000000000⟩

/-- Whole milliseconds; what is left over is dropped. -/
def milliseconds (d : Duration) : Nat := d.nanoseconds / 1000000

/-- `n` out of `10 ^ places` as decimals behind a point, without trailing zeros. -/
def decimals (places n : Nat) : String :=
  let digits := Nat.toDigits 10 n
  let padded := List.replicate (places - digits.length) '0' ++ digits
  let kept := (padded.reverse.dropWhile (· == '0')).reverse
  if kept.isEmpty then "" else "." ++ String.ofList kept

/-- A count of a unit of `10 ^ places` nanoseconds. -/
def inUnit (d : Duration) (places : Nat) (unit : String) : String :=
  let size := Nat.pow 10 places
  toString (d.nanoseconds / size) ++ decimals places (d.nanoseconds % size) ++ unit

/-- The span as messages show it. -/
def text (d : Duration) : String :=
  if 1000000000 ≤ d.nanoseconds then d.inUnit 9 "s"
  else if 1000000 ≤ d.nanoseconds then d.inUnit 6 "ms"
  else if 1000 ≤ d.nanoseconds then d.inUnit 3 "µs"
  else d.inUnit 0 "ns"

end Duration

end EventScript
