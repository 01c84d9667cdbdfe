import Std.Data.ExtTreeMap
import EventScript.Decimal.Binary
import EventScript.Duration

/-!
# Cooldowns

A table says for each actor until when it is cooling down. All instants are nanoseconds of one clock. `start` replaces what
an actor had before and drops entries that have run out, `purge` drops those too; neither changes what is left for an actor
that is still cooling down.
-/

namespace EventScript

/-- The instants at which cooldowns end, by actor. -/
structure Cooldowns where
  expiries : Std.ExtTreeMap String Nat compare

namespace Cooldowns

/-- The longest cooldown: a hundred years of 365 days. -/
def longest : Duration := .ofSeconds (100 * 365 * 24 * 60 * 60)

def empty : Cooldowns := ⟨∅⟩

/-- The entries that have not run out at `now`. -/
def current (t : Cooldowns) (now : Nat) : Cooldowns := ⟨t.expiries.filter fun _ expiry => now < expiry⟩

/-- Starts a cooldown at `now`, at most the longest one. One without length ends what the actor had. -/
def start (t : Cooldowns) (now : Nat) (actor : String) (d : Duration) : Cooldowns :=
  let length := min d.nanoseconds longest.nanoseconds
  let kept := (t.current now).expiries
  ⟨if length = 0 then kept.erase actor else kept.insert actor (now + length)⟩

/-- What is left for an actor. -/
def remaining (t : Cooldowns) (now : Nat) (actor : String) : Duration :=
  match t.expiries[actor]? with
  | some expiry => ⟨expiry - now⟩
  | none => ⟨0⟩

def isCooling (t : Cooldowns) (now : Nat) (actor : String) : Bool := (t.remaining now actor).nanoseconds != 0

/-- Ends the cooldown of an actor. -/
def clear (t : Cooldowns) (actor : String) : Cooldowns := ⟨t.expiries.erase actor⟩

/-- Drops what has run out, and counts it. -/
def purge (t : Cooldowns) (now : Nat) : Nat × Cooldowns :=
  (t.expiries.size - (t.current now).expiries.size, t.current now)

def size (t : Cooldowns) : Nat := t.expiries.size

end Cooldowns

/-- The quotient rounded to the nearest integer, and to the even one of two. -/
def roundedQuotient (n d : Nat) : Nat :=
  let q := n / d
  let r := n % d
  if 2 * r < d then q else if d < 2 * r then q + 1 else q + q % 2

/-- A number of seconds as a span in whole nanoseconds. Less than none and what is no number make no span at all, and what
is too long is cut to the longest cooldown. -/
def Cooldowns.spanOfSeconds (x : Float) : Duration :=
  match Binary.ofFloat? x with
  | some b =>
    if b.negative then ⟨0⟩
    else
      let nanoseconds := b.mantissa * 1000000000
      let rounded :=
        if 0 ≤ b.exponent then nanoseconds <<< b.exponent.toNat
        else roundedQuotient nanoseconds (1 <<< (-b.exponent).toNat)
      ⟨min rounded longest.nanoseconds⟩
  | none => if x.isNaN || x < 0 then ⟨0⟩ else longest

end EventScript
