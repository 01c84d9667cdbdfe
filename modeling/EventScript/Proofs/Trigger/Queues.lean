import EventScript.Bridge
import EventScript.Pool

/-!
# Queues

What the operations on the bridge and on the pool come to: both take what comes as long as they are open, in order, and refuse
it from then on.
-/

namespace EventScript

variable {τ : Type}

namespace Bridge

variable {b b' : Bridge τ} {t : τ} {f : BridgeFault}

/-- A bridge that takes a task accepts tasks, and queues it behind the others. -/
theorem of_submit (h : b.submit t = .ok b') : b.accepting = true ∧ b' = { b with pending := b.pending ++ [t] } := by
  unfold submit at h
  split at h
  next haccepting => exact ⟨haccepting, (Except.ok.inj h).symm⟩
  next => cases h

/-- A bridge refuses a task for no other reason than that it has been shut down. -/
theorem of_submit_error (h : b.submit t = .error f) : f = .shutDown := by
  unfold submit at h
  split at h
  next => cases h
  next => exact (Except.error.inj h).symm

/-- A task that is taken is queued behind the others. -/
theorem pending_submit (h : b.submit t = .ok b') : b'.pending = b.pending ++ [t] := by rw [(of_submit h).2]

/-- A task that is taken leaves the main thread as it is. -/
theorem main_submit (h : b.submit t = .ok b') : b'.main = b.main := by rw [(of_submit h).2]

/-- A bridge that is closed refuses every task. -/
theorem submit_of_not_accepting (h : b.accepting = false) (t : τ) : b.submit t = .error .shutDown := by
  unfold submit
  rw [h]
  rfl

/-- A bridge that is shut down queues no more than before. -/
theorem pending_shutDown (h : t ∈ b.shutDown.pending) : t ∈ b.pending := by
  unfold shutDown at h
  split at h
  · exact h
  · cases h

/-- A bridge that is shut down keeps its main thread. -/
theorem main_shutDown (b : Bridge τ) : b.shutDown.main = b.main := by
  unfold shutDown
  split <;> rfl

/-- A bridge that is shut down twice is as if it had been shut down once. -/
theorem shutDown_shutDown (b : Bridge τ) : b.shutDown.shutDown = b.shutDown := by
  obtain ⟨main, accepting, pending⟩ := b
  cases main <;> rfl

/-- A bridge that is shut down accepts no tasks. -/
theorem accepting_shutDown (b : Bridge τ) : b.shutDown.accepting = false := by
  unfold shutDown
  split <;> rfl

end Bridge

namespace Pool

variable {p p' : Pool τ} {job : τ}

/-- A pool that takes a job accepts jobs, and queues it behind the others. -/
theorem of_submit (h : p.submit job = .ok p') : p.accepting = true ∧ p' = { p with queue := p.queue ++ [job] } := by
  unfold submit at h
  split at h
  next haccepting => exact ⟨haccepting, (Except.ok.inj h).symm⟩
  next => cases h

/-- A job that is taken is queued behind the others. -/
theorem queue_submit (h : p.submit job = .ok p') : p'.queue = p.queue ++ [job] := by rw [(of_submit h).2]

/-- A pool that is shut down refuses every job. -/
theorem submit_of_not_accepting (h : p.accepting = false) (job : τ) : p.submit job = .error .shuttingDown := by
  unfold submit
  rw [h]
  rfl

/-- A worker takes the job at the front of the queue. -/
theorem of_take? (h : p.take? = some (job, p')) : ∃ rest, p.queue = job :: rest ∧ p' = { p with queue := rest } := by
  unfold take? at h
  split at h
  next rest hqueue =>
    cases h
    exact ⟨rest, hqueue, rfl⟩
  next => cases h

/-- The queue was the job that is taken, with the queue that is left behind it. -/
theorem queue_take? (h : p.take? = some (job, p')) : p.queue = job :: p'.queue := by
  obtain ⟨rest, hqueue, rfl⟩ := of_take? h
  exact hqueue

/-- A pool that is shut down still gives out what waits. -/
theorem take?_shutDown (p : Pool τ) : p.shutDown.take? = p.take?.map fun taken => (taken.1, taken.2.shutDown) := by
  obtain ⟨size, accepting, queue, size_pos⟩ := p
  cases queue <;> rfl

/-- Where a worker finds no job the queue is empty. -/
theorem queue_of_take?_none (h : p.take? = none) : p.queue = [] := by
  unfold take? at h
  split at h
  next => cases h
  next hqueue => exact hqueue

end Pool

end EventScript
