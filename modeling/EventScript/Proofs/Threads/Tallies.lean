import EventScript.Proofs.Threads.Crew
import EventScript.Rehearsal.Tally

/-!
# Tallies and crews

A tally carries out in one go what waits in its pool. That is a number of steps of a crew: the first worker takes up one job after
the other, all workers leave, and the thread that shuts the pool down waits for them. So whatever is done to a tally, a crew may
come to the same (`Tally.Comes.reachable`).
-/

namespace EventScript

namespace Crew

variable {τ : Type} {c : Crew τ} {i : Nat}

/-- A crew whose jobs in the queue have been carried out, and ended as is said. -/
def carriedOut (ending : Nat × τ → JobEnd) (c : Crew τ) : Crew τ :=
  { c with
    pool := { c.pool with queue := [] }
    started := c.started ++ c.pool.queue
    ended := c.ended ++ c.pool.queue.map fun job => (job, ending job) }

/-- The first worker carries out the job in front. -/
theorem steps_next (ending : Nat × τ → JobEnd) {job : Nat × τ} {rest : List (Nat × τ)} (hqueue : c.pool.queue = job :: rest)
    (hidle : c.worker 0 = .idle) :
    Steps c { c with
      pool := { c.pool with queue := rest }
      started := c.started ++ [job]
      ended := c.ended ++ [(job, ending job)] } := by
  have htake : c.pool.take? = some (job, { c.pool with queue := rest }) := by
    unfold Pool.take?
    rw [hqueue]
  have hback : Function.update (Function.update c.worker 0 (.busy job)) 0 .idle = c.worker := by
    rw [Function.update_idem, ← hidle, Function.update_eq_self]
  have hbegun := Relation.ReflTransGen.single (Step.take c.pool.size_pos hidle htake)
  have hended := hbegun.tail (.finish (ending job) c.pool.size_pos (worker_setWorker_self _))
  unfold setWorker at hended
  rw [hback] at hended
  exact hended

theorem steps_carriedOut (ending : Nat × τ → JobEnd) (hidle : c.pool.queue ≠ [] → c.worker 0 = .idle) :
    Steps c (c.carriedOut ending) := by
  induction hqueue : c.pool.queue generalizing c with
  | nil =>
    have hpool : { c.pool with queue := [] } = c.pool := by rw [← hqueue]
    have hsame : c.carriedOut ending = c := by
      unfold carriedOut
      rw [hqueue, List.map_nil, List.append_nil, List.append_nil, hpool]
    rw [hsame]
  | cons job rest ih =>
    have hworker : c.worker 0 = .idle := hidle (hqueue ▸ List.cons_ne_nil job rest)
    have hrest := (steps_next ending hqueue hworker).trans (ih (fun _ => hworker) rfl)
    unfold carriedOut at hrest ⊢
    rw [hqueue]
    simp only [List.append_assoc, List.singleton_append] at hrest
    exact hrest

/-- A crew whose workers below a number have left. -/
def leftBelow (k : Nat) (c : Crew τ) : Crew τ := { c with worker := fun w => if w < k then .gone else c.worker w }

/-- Workers that have nothing to do leave one after the other. -/
theorem steps_leftBelow (hqueue : c.pool.queue = []) (hclosed : c.pool.accepting = false)
    (hfree : ∀ w, c.worker w = .idle ∨ c.worker w = .gone) : ∀ k ≤ c.pool.size, Steps c (c.leftBelow k)
  | 0, _ => by
    have hsame : c.leftBelow 0 = c := by simp [leftBelow]
    rw [hsame]
  | k + 1, hk => by
    have hbelow := steps_leftBelow hqueue hclosed hfree k (Nat.le_of_succ_le hk)
    have hworker : (c.leftBelow k).worker k = c.worker k := if_neg (Nat.lt_irrefl k)
    have hnext : (c.leftBelow k).setWorker k .gone = c.leftBelow (k + 1) := by
      have hworkers : Function.update (c.leftBelow k).worker k .gone = (c.leftBelow (k + 1)).worker := by
        funext w
        simp only [Function.update_apply, leftBelow, Nat.lt_succ_iff_lt_or_eq]
        by_cases hwk : w = k
        · rw [if_pos hwk, if_pos (.inr hwk)]
        · simp only [hwk, if_false, or_false]
      unfold setWorker
      rw [hworkers]
      rfl
    rcases hfree k with hidle | hgone
    · have htake : (c.leftBelow k).pool.take? = none := by
        show c.pool.take? = none
        unfold Pool.take?
        rw [hqueue]
      have hleft := hbelow.tail (.leave hk (hworker.trans hidle) htake hclosed)
      rw [hnext] at hleft
      exact hleft
    · rw [← hnext, ← hgone, ← hworker, setWorker_worker]
      exact hbelow

/-- Whoever waits for workers that are gone has soon waited for all of them. -/
theorem steps_joined {left : List Nat} (hi : c.shuttingDown i = .joining left) (hgone : ∀ w ∈ left, c.worker w = .gone) :
    Steps c (c.setShuttingDown i .returned) := by
  induction left generalizing c with
  | nil => exact .single (.unlock hi)
  | cons w rest ih =>
    have hstep : Step c (c.setShuttingDown i (.joining rest)) := .join hi (hgone w (.head _))
    have hrest := ih (c := c.setShuttingDown i (.joining rest)) (Function.update_self ..) fun v hv => hgone v (.tail _ hv)
    unfold setShuttingDown at hrest hstep ⊢
    rw [Function.update_idem] at hrest
    exact .head hstep hrest

end Crew

namespace Rehearsal

open Crew

/-- How a job of a tally ends. -/
def Summand.ending (job : Summand) : JobEnd := if job.value.isSome then .finished else .panicked

namespace Tally

/-- The tallies that a new one may come to. -/
inductive Comes : Tally → Prop
  | new (size : Nat) : Comes (.new size)
  | submit {t : Tally} (job : Summand) : Comes t → Comes (submit job t).2
  | shutDown {t : Tally} : Comes t → Comes (shutDown t).2

/-- A crew is where a tally is, and none of its threads is in the middle of anything. -/
structure Meets (t : Tally) (c : Crew Summand) : Prop where
  size : c.pool.size = t.pool.size
  accepting : c.pool.accepting = t.pool.accepting
  queue : c.pool.queue.map Prod.snd = t.pool.queue
  endings : ∀ e ∈ c.ended, e.2 = e.1.2.ending
  result : (c.ended.map fun e => e.1.2).foldl add (0, []) = (t.sum, t.done)
  free : ∀ w, c.worker w = .idle ∨ c.worker w = .gone
  handles : ∀ w ∈ c.handles, w < c.pool.size
  unlocked : ∀ i left, c.shuttingDown i ≠ .joining left
  returned : t.pool.accepting = false → ∃ i, c.shuttingDown i = .returned
  /-- There are always threads that have yet to shut the pool down. -/
  before : ∃ n, ∀ i, n ≤ i → c.shuttingDown i = .before

theorem meets_new (size : Nat) : Meets (.new size) (.new size) where
  size := rfl
  accepting := rfl
  queue := rfl
  endings := nofun
  result := rfl
  free := fun _ => .inl rfl
  handles := fun _ hw => List.mem_range.mp hw
  unlocked := nofun
  returned := nofun
  before := ⟨0, fun _ _ => rfl⟩

variable {t : Tally} {c : Crew Summand}

theorem Meets.submit (h : Meets t c) (job : Summand) : ∃ c', Crew.Step c c' ∧ Meets (submit job t).2 c' := by
  cases haccepting : t.pool.accepting with
  | true =>
    have hcrew : c.pool.submit (c.calls, job) = .ok { c.pool with queue := c.pool.queue ++ [(c.calls, job)] } :=
      if_pos (h.accepting.trans haccepting)
    have htally : t.pool.submit job = .ok { t.pool with queue := t.pool.queue ++ [job] } := if_pos haccepting
    unfold Tally.submit
    rw [htally]
    refine ⟨_, .accept job hcrew, { h with queue := ?_ }⟩
    show (c.pool.queue ++ [(c.calls, job)]).map Prod.snd = t.pool.queue ++ [job]
    rw [List.map_append, h.queue]
    rfl
  | false =>
    unfold Tally.submit
    rw [Pool.submit_of_not_accepting haccepting]
    exact ⟨_, .refuse job (Pool.submit_of_not_accepting (h.accepting.trans haccepting) _), { h with }⟩

theorem Meets.shutDown (h : Meets t c) (hreachable : c.Reachable) :
    ∃ c', Crew.Steps c c' ∧ Meets (shutDown t).2 c' := by
  obtain ⟨n, hbefore⟩ := h.before
  let closed : Crew Summand := { c with pool := c.pool.shutDown }.setShuttingDown n .closed
  let emptied : Crew Summand := closed.carriedOut fun job => job.2.ending
  let left : Crew Summand := emptied.leftBelow emptied.pool.size
  have hclosed : Crew.Steps c closed := .single (.close (hbefore n (Nat.le_refl n)))
  have hemptied : Crew.Steps closed emptied := by
    refine Crew.steps_carriedOut _ fun hwaiting => (h.free 0).resolve_right fun hgone => ?_
    exact hwaiting (hreachable.closing.drained 0 hgone).2
  have hleft : Crew.Steps emptied left := Crew.steps_leftBelow (c := emptied) rfl rfl h.free _ (Nat.le_refl _)
  have hwaits : left.shuttingDown n = .closed := Function.update_self ..
  have hnone : ∀ k l, left.shuttingDown k ≠ .joining l := fun k l hk => h.unlocked k l (of_update_of_ne hk nofun)
  have hjoined := Crew.steps_joined (c := { left with handles := [] }.setShuttingDown n (.joining left.handles))
    (Function.update_self ..) fun w hw => if_pos (h.handles w hw)
  have hshutting : Function.update (Function.update (Function.update c.shuttingDown n .closed) n (.joining left.handles)) n
      .returned = Function.update c.shuttingDown n .returned := by
    rw [Function.update_idem, Function.update_idem]
  refine ⟨_, ((hclosed.trans hemptied).trans hleft).trans (.head (.lock hwaits hnone) hjoined), ?_⟩
  exact {
    size := h.size
    accepting := rfl
    queue := rfl
    endings := fun e he => by
      rcases List.mem_append.mp he with hold | hnew
      · exact h.endings e hold
      · obtain ⟨job, -, rfl⟩ := List.mem_map.mp hnew
        rfl
    result := by
      show ((c.ended ++ c.pool.queue.map fun job => (job, job.2.ending)).map fun e => e.1.2).foldl add (0, []) =
        t.pool.queue.foldl add (t.sum, t.done)
      rw [List.map_append, List.foldl_append, h.result, List.map_map, ← h.queue]
      rfl
    free := fun w => by
      have hworker : left.worker w = if w < c.pool.size then .gone else c.worker w := rfl
      show left.worker w = .idle ∨ left.worker w = .gone
      rw [hworker]
      split
      · exact .inr rfl
      · exact h.free w
    handles := nofun
    unlocked := fun k l hk => h.unlocked k l (of_update_of_ne ((congrFun hshutting k).symm.trans hk) nofun)
    returned := fun _ => ⟨n, Function.update_self ..⟩
    before := ⟨n + 1, fun k hk => (congrFun hshutting k).trans ((Function.update_of_ne (Nat.ne_of_gt hk) ..).trans
      (hbefore k (Nat.le_of_succ_le hk)))⟩ }

/-- Whatever is done to a tally, the threads of a crew may come to the same. -/
theorem Comes.reachable (h : Comes t) : ∃ c : Crew Summand, c.Reachable ∧ Meets t c := by
  induction h with
  | new size => exact ⟨_, .new size, meets_new size⟩
  | submit job _ ih =>
    obtain ⟨c, hreachable, hmeets⟩ := ih
    obtain ⟨c', hstep, hmeets'⟩ := hmeets.submit job
    exact ⟨c', hreachable.step hstep, hmeets'⟩
  | shutDown _ ih =>
    obtain ⟨c, hreachable, hmeets⟩ := ih
    obtain ⟨c', hsteps, hmeets'⟩ := hmeets.shutDown hreachable
    exact ⟨c', hreachable.steps hsteps, hmeets'⟩

end Tally

end Rehearsal

end EventScript
