import EventScript.Fault

/-!
# The worker pool

Jobs wait in one queue and are taken by workers in the order in which they came. A pool that is shut down takes no more
jobs, and those that wait are still carried out.
-/

namespace EventScript

/-- Workers and the jobs before them. -/
structure Pool (τ : Type) where
  size : Nat
  accepting : Bool
  queue : List τ
  size_pos : 0 < size

namespace Pool

variable {τ : Type}

/-- A pool of `size` workers, of one at least. -/
def new (size : Nat) : Pool τ := ⟨max size 1, true, [], by omega⟩

/-- Queues a job behind the others. -/
def submit (p : Pool τ) (job : τ) : Except Fault (Pool τ) :=
  if p.accepting then .ok { p with queue := p.queue ++ [job] } else .error .shuttingDown

/-- Takes the job in front. -/
def take? (p : Pool τ) : Option (τ × Pool τ) :=
  match p.queue with
  | job :: rest => some (job, { p with queue := rest })
  | [] => none

/-- Carries out all that waits, one job after the other. -/
def runAll {σ : Type} (run : σ → τ → σ) (s : σ) (p : Pool τ) : σ × Pool τ :=
  (p.queue.foldl run s, { p with queue := [] })

/-- Takes no more jobs. -/
def shutDown (p : Pool τ) : Pool τ := { p with accepting := false }

end Pool

end EventScript
