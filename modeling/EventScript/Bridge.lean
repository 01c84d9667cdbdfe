import EventScript.Fault

/-!
# The bridge to the main thread

What may only happen on the main thread is handed over as a task. Tasks wait in a queue, and the main thread takes the
whole queue at once, in the order in which the tasks came. Once the bridge is shut down it takes no more tasks.
-/

namespace EventScript

/-- Which thread is the main thread. -/
inductive MainThread where
  /-- The thread of the host, which takes up tasks when it chooses to. -/
  | attached
  /-- A thread of its own, which takes up tasks at once. -/
  | dedicated
deriving DecidableEq, Repr

/-- The queue before the main thread. -/
structure Bridge (τ : Type) where
  main : MainThread
  accepting : Bool
  pending : List τ

namespace Bridge

variable {τ : Type}

/-- A bridge without tasks. -/
def new (main : MainThread) : Bridge τ := ⟨main, true, []⟩

/-- Queues a task behind the others. -/
def submit (b : Bridge τ) (task : τ) : Except BridgeFault (Bridge τ) :=
  if b.accepting then .ok { b with pending := b.pending ++ [task] } else .error .shutDown

/-- Takes all tasks out of the queue. -/
def collect (b : Bridge τ) : List τ × Bridge τ := (b.pending, { b with pending := [] })

/-- Takes no more tasks. Those before a dedicated thread are still carried out; those before an attached one are dropped. -/
def shutDown (b : Bridge τ) : Bridge τ :=
  match b.main with
  | .dedicated => { b with accepting := false }
  | .attached => { b with accepting := false, pending := [] }

end Bridge

end EventScript
