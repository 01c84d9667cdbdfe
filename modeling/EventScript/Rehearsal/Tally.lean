import EventScript.Pool

/-!
# Tallies

A pool whose jobs add numbers to a sum, for rehearsing what a pool carries out and in which order. The sum is kept in a word
of 64 bits and wraps around. A job that panics adds nothing and does not count as done.
-/

namespace EventScript.Rehearsal

/-- A job: its number, and what it adds unless it panics. -/
structure Summand where
  number : Nat
  value : Option UInt64
deriving DecidableEq, Repr

/-- A pool, the sum of what its jobs have added, and the jobs that are done. -/
structure Tally where
  pool : Pool Summand
  sum : UInt64
  done : List Nat

namespace Tally

/-- A tally of `size` workers before any job. -/
def new (size : Nat) : Tally := ⟨.new size, 0, []⟩

/-- What a job does to the sum and to the jobs that are done. -/
def add (s : UInt64 × List Nat) (job : Summand) : UInt64 × List Nat :=
  match job.value with
  | some n => (s.1 + n, s.2 ++ [job.number])
  | none => s

/-- Queues a job. -/
def submit (job : Summand) : StateM Tally (Except Fault Unit) := fun t =>
  match t.pool.submit job with
  | .ok pool => (.ok (), { t with pool := pool })
  | .error f => (.error f, t)

/-- Takes no more jobs and carries out those that wait. Gives the sum. -/
def shutDown : StateM Tally UInt64 := fun t =>
  let ((sum, done), pool) := t.pool.shutDown.runAll add (t.sum, t.done)
  (sum, ⟨pool, sum, done⟩)

end Tally

end EventScript.Rehearsal
