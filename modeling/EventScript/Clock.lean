import EventScript.Duration

/-!
# The clock

A clock is the series of instants that its readings give, counted in nanoseconds from a start of its own. It never goes
back. `Clock.steady` moves by the same step with every reading.
-/

namespace EventScript

/-- A clock, and how often it has been read. -/
structure Clock where
  /-- The instant that the reading of this number gives. -/
  time : Nat → Nat
  readings : Nat
  monotone : ∀ i j, i ≤ j → time i ≤ time j

namespace Clock

/-- The instant of the next reading. -/
def now (c : Clock) : Nat := c.time c.readings

/-- Reads the clock. -/
def read : StateM Clock Nat := fun c => (c.now, { c with readings := c.readings + 1 })

/-- A clock that moves by `step` nanoseconds with every reading. -/
def steady (step : Nat) : Clock := ⟨fun n => n * step, 0, fun _ _ h => Nat.mul_le_mul_right step h⟩

/-- A later reading gives no earlier instant. -/
theorem now_le_now_read (c : Clock) : c.now ≤ (read c).2.now := c.monotone _ _ (Nat.le_succ _)

end Clock

end EventScript
