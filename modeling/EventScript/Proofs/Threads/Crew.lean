import Mathlib.Data.List.Nodup
import Mathlib.Data.List.Perm.Basic
import Mathlib.Data.List.Range
import Mathlib.Logic.Relation
import EventScript.Proofs.Threads.Updates
import EventScript.Proofs.Trigger.Queues

/-!
# The workers of a pool

A `Crew` is a pool together with its workers, the threads that shut it down, and a record of what became of each job. A step is
one step of one thread, and the steps of different threads come in any order. Which jobs panic is left open: a job ends either
way whenever it ends.

A shutdown closes the pool and then waits for the workers one by one. The handles to wait on are taken by the first shutdown
that comes to it, and the others wait for that one, so that each of them returns after all workers are gone.
-/

namespace EventScript

namespace Crew

/-- How a job ended. -/
inductive JobEnd where
  | finished
  | panicked
deriving DecidableEq, Repr

/-- What a worker is doing. A job goes by the number of the call that brought it. -/
inductive Worker (τ : Type) where
  | idle
  | busy (job : Nat × τ)
  | gone

/-- How far a thread that is no worker is with shutting the pool down. -/
inductive ShuttingDown where
  /-- It has yet to begin. -/
  | before
  /-- The pool takes no more jobs, and the handles of the workers are yet to be taken. -/
  | closed
  /-- It waits for the workers that are left, one after the other. -/
  | joining (left : List Nat)
  | returned
deriving DecidableEq, Repr

/-- The job that a worker is at, if any. -/
def Worker.inHand {τ : Type} : Worker τ → List (Nat × τ)
  | .busy job => [job]
  | .idle | .gone => []

end Crew

open Crew

/-- A pool and its threads. -/
structure Crew (τ : Type) where
  pool : Pool (Nat × τ)
  worker : Nat → Worker τ
  /-- The workers that no one waits for yet. -/
  handles : List Nat
  /-- The calls that shut the pool down. -/
  shuttingDown : Nat → ShuttingDown
  /-- How many calls have brought a job. -/
  calls : Nat
  /-- The jobs that were accepted, in order. -/
  accepted : List (Nat × τ)
  refused : List (Nat × τ)
  /-- The jobs that were begun, in order. -/
  started : List (Nat × τ)
  /-- The jobs that ended, in order. -/
  ended : List ((Nat × τ) × JobEnd)

variable {τ : Type}

namespace Crew

/-- A pool of `size` workers with nothing to do. -/
def new (size : Nat) : Crew τ :=
  ⟨.new size, fun _ => .idle, List.range (max size 1), fun _ => .before, 0, [], [], [], []⟩

def setWorker (c : Crew τ) (w : Nat) (x : Worker τ) : Crew τ := { c with worker := Function.update c.worker w x }

def setShuttingDown (c : Crew τ) (i : Nat) (x : ShuttingDown) : Crew τ :=
  { c with shuttingDown := Function.update c.shuttingDown i x }

/-- The jobs that the workers are at. -/
def hands (c : Crew τ) : List (Nat × τ) := (List.range c.pool.size).flatMap fun w => (c.worker w).inHand

/-- The same crew where the jobs ended otherwise. -/
def withEndings (c : Crew τ) (ending : Nat × τ → JobEnd) : Crew τ :=
  { c with ended := c.ended.map fun e => (e.1, ending e.1) }

/-- One step of one thread. -/
inductive Step : Crew τ → Crew τ → Prop
  | accept {c : Crew τ} {p} (job : τ) : c.pool.submit (c.calls, job) = .ok p →
      Step c { c with pool := p, calls := c.calls + 1, accepted := c.accepted ++ [(c.calls, job)] }
  | refuse {c : Crew τ} (job : τ) : c.pool.submit (c.calls, job) = .error .shuttingDown →
      Step c { c with calls := c.calls + 1, refused := c.refused ++ [(c.calls, job)] }
  /-- A worker begins the job in front. -/
  | take {c : Crew τ} {w job p} : w < c.pool.size → c.worker w = .idle → c.pool.take? = some (job, p) →
      Step c ({ c with pool := p, started := c.started ++ [job] }.setWorker w (.busy job))
  /-- A job ends or panics, and its worker goes on to the next one. -/
  | finish {c : Crew τ} {w job} (e : JobEnd) : w < c.pool.size → c.worker w = .busy job →
      Step c ({ c with ended := c.ended ++ [(job, e)] }.setWorker w .idle)
  /-- A worker learns that no job is left and none will come. -/
  | leave {c : Crew τ} {w} : w < c.pool.size → c.worker w = .idle → c.pool.take? = none → c.pool.accepting = false →
      Step c (c.setWorker w .gone)
  | close {c : Crew τ} {i} : c.shuttingDown i = .before →
      Step c ({ c with pool := c.pool.shutDown }.setShuttingDown i .closed)
  /-- The handles of the workers are taken while no one else has them. -/
  | lock {c : Crew τ} {i} : c.shuttingDown i = .closed → (∀ k left, c.shuttingDown k ≠ .joining left) →
      Step c ({ c with handles := [] }.setShuttingDown i (.joining c.handles))
  | join {c : Crew τ} {i w left} : c.shuttingDown i = .joining (w :: left) → c.worker w = .gone →
      Step c (c.setShuttingDown i (.joining left))
  | unlock {c : Crew τ} {i} : c.shuttingDown i = .joining [] → Step c (c.setShuttingDown i .returned)

abbrev Steps : Crew τ → Crew τ → Prop := Relation.ReflTransGen Step

/-- The crews that a new pool may come to. -/
inductive Reachable : Crew τ → Prop
  | new (size : Nat) : Reachable (.new size)
  | step {c c' : Crew τ} : Reachable c → Step c c' → Reachable c'

variable {c c' : Crew τ} {w v i k : Nat}

/-- A worker is at what it was given. -/
@[simp] theorem worker_setWorker_self (x : Worker τ) : (c.setWorker w x).worker w = x := Function.update_self ..

/-- The others are at what they were. -/
theorem worker_setWorker_of_ne (h : v ≠ w) (x : Worker τ) : (c.setWorker w x).worker v = c.worker v :=
  Function.update_of_ne h ..

/-- To give a worker what it has changes nothing. -/
theorem setWorker_worker (c : Crew τ) (w : Nat) : c.setWorker w (c.worker w) = c := by
  unfold setWorker
  rw [Function.update_eq_self]

/-! ## The books -/

/-- A job is before the workers or was begun, and what was begun is in hand or has ended. Every call has its own number. -/
structure Balanced (c : Crew τ) : Prop where
  accepted : c.accepted = c.started ++ c.pool.queue
  started : c.started.Perm (c.ended.map Prod.fst ++ c.hands)
  calls : ((c.accepted ++ c.refused).map Prod.fst).Perm (List.range c.calls)

/-- What one worker has in hand may be told apart from what the others have. -/
theorem exists_hands (c : Crew τ) (hw : w < c.pool.size) :
    ∃ others, c.hands.Perm ((c.worker w).inHand ++ others) ∧ ∀ x, (c.setWorker w x).hands.Perm (x.inHand ++ others) := by
  obtain ⟨before, after, hrange⟩ := List.append_of_mem (List.mem_range.mpr hw)
  have hnodup : (before ++ w :: after).Nodup := hrange ▸ List.nodup_range
  obtain ⟨hbefore, hafter⟩ := not_or.mp (List.mem_append.not.mp (List.nodup_cons.mp (List.nodup_middle.mp hnodup)).1)
  have hothers (x : Worker τ) {l : List Nat} (hmem : w ∉ l) :
      (l.flatMap fun v => ((c.setWorker w x).worker v).inHand) = l.flatMap fun v => (c.worker v).inHand :=
    List.flatMap_congr fun v hv => by rw [worker_setWorker_of_ne (ne_of_mem_of_not_mem hv hmem)]
  have hall (x : Worker τ) : (c.setWorker w x).hands.Perm
      (x.inHand ++ (before ++ after).flatMap fun v => (c.worker v).inHand) := by
    have hhands : (c.setWorker w x).hands = (before.flatMap fun v => (c.worker v).inHand) ++
        (x.inHand ++ after.flatMap fun v => (c.worker v).inHand) := by
      unfold hands
      rw [show (c.setWorker w x).pool = c.pool from rfl, hrange, List.flatMap_append, List.flatMap_cons, hothers x hbefore,
        hothers x hafter, worker_setWorker_self]
    rw [hhands, List.flatMap_append]
    exact List.perm_append_comm_assoc ..
  have hsame := hall (c.worker w)
  rw [setWorker_worker] at hsame
  exact ⟨_, hsame, hall⟩

/-- The next call has a number of its own. -/
theorem perm_range_succ {l : List Nat} {n : Nat} (h : l.Perm (List.range n)) : (l ++ [n]).Perm (List.range (n + 1)) := by
  rw [List.range_succ]
  exact h.append_right _

/-- A new crew has nothing to account for. -/
theorem balanced_new (size : Nat) : Balanced (new size : Crew τ) where
  accepted := rfl
  started := by
    have hnone : (new size : Crew τ).hands = [] := List.flatMap_eq_nil_iff.mpr fun _ _ => rfl
    rw [hnone]
    exact .nil
  calls := .nil

/-- Every step keeps the accounts: what leaves one place comes to the next. -/
theorem Step.balanced (hstep : Step c c') (h : Balanced c) : Balanced c' := by
  cases hstep with
  | @accept p job hsubmit =>
    obtain ⟨-, rfl⟩ := Pool.of_submit hsubmit
    refine ⟨?_, h.started, ?_⟩
    · show c.accepted ++ [_] = c.started ++ (c.pool.queue ++ [_])
      rw [h.accepted, List.append_assoc]
    · have hswap : ((c.accepted ++ [(c.calls, job)] ++ c.refused).map Prod.fst).Perm
          ((c.accepted ++ c.refused).map Prod.fst ++ [c.calls]) := by
        rw [List.append_assoc, ← List.map_singleton (f := Prod.fst) (a := (c.calls, job)), ← List.map_append, List.append_assoc]
        exact (List.perm_append_comm.append_left _).map _
      exact hswap.trans (perm_range_succ h.calls)
  | refuse job =>
    refine ⟨h.accepted, h.started, ?_⟩
    have hcalls := perm_range_succ h.calls
    rw [← List.map_singleton (f := Prod.fst) (a := (c.calls, job)), ← List.map_append, List.append_assoc] at hcalls
    exact hcalls
  | @take w job p hw hidle htake =>
    obtain ⟨rest, hqueue, rfl⟩ := Pool.of_take? htake
    refine ⟨?_, ?_, h.calls⟩
    · show c.accepted = c.started ++ [job] ++ rest
      rw [h.accepted, hqueue, List.append_cons]
    · obtain ⟨others, hbefore, hafter⟩ := c.exists_hands hw
      rw [hidle] at hbefore
      show (c.started ++ [job]).Perm (c.ended.map Prod.fst ++ (c.setWorker w (.busy job)).hands)
      have hstarted := (h.started.trans (hbefore.append_left _)).append_right [job]
      rw [List.append_assoc] at hstarted
      exact hstarted.trans ((List.perm_append_comm.trans (hafter (.busy job)).symm).append_left _)
  | @finish w job e hw hbusy =>
    obtain ⟨others, hbefore, hafter⟩ := c.exists_hands hw
    rw [hbusy] at hbefore
    refine ⟨h.accepted, ?_, h.calls⟩
    show c.started.Perm ((c.ended ++ [(job, e)]).map Prod.fst ++ (c.setWorker w .idle).hands)
    rw [List.map_append, List.append_assoc]
    exact h.started.trans ((hbefore.trans ((hafter .idle).symm.append_left [job])).append_left _)
  | @leave w hw hidle =>
    obtain ⟨others, hbefore, hafter⟩ := c.exists_hands hw
    rw [hidle] at hbefore
    exact ⟨h.accepted, h.started.trans ((hbefore.trans (hafter .gone).symm).append_left _), h.calls⟩
  | close | lock | join | unlock => exact ⟨h.accepted, h.started, h.calls⟩

/-- So they are kept in all that a crew may come to. -/
theorem Reachable.balanced (h : Reachable c) : Balanced c := by
  induction h with
  | new size => exact balanced_new size
  | step _ hstep ih => exact hstep.balanced ih

/-- No call is both accepted and refused, and none twice. -/
theorem Balanced.nodup_calls (h : Balanced c) : (c.accepted ++ c.refused).Nodup :=
  .of_map Prod.fst (h.calls.nodup_iff.mpr List.nodup_range)

/-- A single worker ends one job before it begins the next. -/
theorem Step.one_by_one (hstep : Step c c') (h : c.pool.size = 1 → c.started = c.ended.map Prod.fst ++ (c.worker 0).inHand) :
    c'.pool.size = 1 → c'.started = c'.ended.map Prod.fst ++ (c'.worker 0).inHand := by
  intro hsize
  cases hstep with
  | accept job hsubmit =>
    obtain ⟨-, rfl⟩ := Pool.of_submit hsubmit
    exact h hsize
  | @take w job p hw hidle htake =>
    obtain ⟨rest, -, rfl⟩ := Pool.of_take? htake
    have hold := h hsize
    obtain rfl : w = 0 := Nat.lt_one_iff.mp (hsize ▸ hw)
    rw [hidle] at hold
    rw [worker_setWorker_self]
    show c.started ++ [job] = c.ended.map Prod.fst ++ [job]
    rw [hold, Worker.inHand, List.append_nil]
  | @finish w job e hw hbusy =>
    have hold := h hsize
    obtain rfl : w = 0 := Nat.lt_one_iff.mp (hsize ▸ hw)
    rw [hbusy] at hold
    rw [worker_setWorker_self]
    show c.started = (c.ended ++ [(job, e)]).map Prod.fst ++ []
    rw [List.append_nil, List.map_append]
    exact hold
  | @leave w hw hidle =>
    have hold := h hsize
    obtain rfl : w = 0 := Nat.lt_one_iff.mp (hsize ▸ hw)
    rw [hidle] at hold
    rw [worker_setWorker_self]
    exact hold
  | refuse | close | lock | join | unlock => exact h hsize

/-- A single worker ends each job before it begins the next. -/
theorem Reachable.one_by_one (h : Reachable c) : c.pool.size = 1 → c.started = c.ended.map Prod.fst ++ (c.worker 0).inHand := by
  induction h with
  | new size => exact fun _ => rfl
  | step _ hstep ih => exact hstep.one_by_one ih

/-! ## Shutting down -/

/-- Whoever has returned from a shutdown has waited for every worker, or for someone who has. -/
structure Closing (c : Crew τ) : Prop where
  refuses : ∀ i, c.shuttingDown i ≠ .before → c.pool.accepting = false
  drained : ∀ w, c.worker w = .gone → c.pool.accepting = false ∧ c.pool.queue = []
  handles : ∀ i left, c.shuttingDown i = .joining left → c.handles = []
  sole : ∀ i k left left', c.shuttingDown i = .joining left → c.shuttingDown k = .joining left' → i = k
  waitedFor : ∀ w < c.pool.size, c.worker w = .gone ∨ w ∈ c.handles ∨ ∃ i left, c.shuttingDown i = .joining left ∧ w ∈ left
  returned : ∀ i, c.shuttingDown i = .returned → ∀ w < c.pool.size, c.worker w = .gone

/-- At the beginning nobody has returned from a shutdown. -/
theorem closing_new (size : Nat) : Closing (new size : Crew τ) where
  refuses := fun _ h => absurd rfl h
  drained := nofun
  handles := nofun
  sole := nofun
  waitedFor := fun _ hw => .inr (.inl (List.mem_range.mpr hw))
  returned := nofun

/-- What keeps the pool and the shutdowns as they are, and no worker that is gone comes back. -/
theorem Closing.of_workers (h : Closing c) (hsize : c'.pool.size = c.pool.size) (haccepting : c'.pool.accepting = c.pool.accepting)
    (hhandles : c'.handles = c.handles) (hshutting : c'.shuttingDown = c.shuttingDown)
    (hgone : ∀ w, c.worker w = .gone → c'.worker w = .gone)
    (hdrained : ∀ w, c'.worker w = .gone → c'.pool.accepting = false ∧ c'.pool.queue = []) : Closing c' where
  refuses := hshutting ▸ haccepting ▸ h.refuses
  drained := hdrained
  handles := hshutting ▸ hhandles ▸ h.handles
  sole := hshutting ▸ h.sole
  waitedFor := by
    rw [hsize, hshutting, hhandles]
    exact fun w hw => (h.waitedFor w hw).imp_left (hgone w)
  returned := by
    rw [hsize, hshutting]
    exact fun i hi w hw => hgone w (h.returned i hi w hw)

/-- Who closes the pool has not returned yet. -/
theorem Closing.closed (h : Closing c) (hbefore : c.shuttingDown i = .before) :
    Closing ({ c with pool := c.pool.shutDown }.setShuttingDown i .closed) := by
  have hjoining {k left} (hk : Function.update c.shuttingDown i .closed k = .joining left) : c.shuttingDown k = .joining left :=
    of_update_of_ne hk nofun
  exact {
    refuses := fun _ _ => rfl
    drained := fun w hgone => ⟨rfl, (h.drained w hgone).2⟩
    handles := fun k left hk => h.handles k left (hjoining hk)
    sole := fun k l left left' hk hl => h.sole k l left left' (hjoining hk) (hjoining hl)
    waitedFor := fun w hw => (h.waitedFor w hw).imp_right (Or.imp_right fun ⟨k, left, hk, hmem⟩ =>
      ⟨k, left, update_of_eq_of_ne hbefore nofun hk, hmem⟩)
    returned := fun k hk => h.returned k (of_update_of_ne hk nofun) }

/-- The first to come to the handles waits for all the workers. -/
theorem Closing.locked (h : Closing c) (hclosed : c.shuttingDown i = .closed)
    (hnone : ∀ k left, c.shuttingDown k ≠ .joining left) :
    Closing ({ c with handles := [] }.setShuttingDown i (.joining c.handles)) := by
  have hjoining {k left} (hk : Function.update c.shuttingDown i (.joining c.handles) k = .joining left) : k = i := by
    rcases of_update hk with ⟨rfl, -⟩ | ⟨-, hk⟩
    · rfl
    · exact absurd hk (hnone k left)
  exact {
    refuses := fun _ _ => h.refuses i (by rw [hclosed]; nofun)
    drained := h.drained
    handles := fun _ _ _ => rfl
    sole := fun k l left left' hk hl => (hjoining hk).trans (hjoining hl).symm
    waitedFor := fun w hw => by
      rcases h.waitedFor w hw with hgone | hmem | ⟨k, left, hk, -⟩
      · exact .inl hgone
      · exact .inr (.inr ⟨i, c.handles, Function.update_self .., hmem⟩)
      · exact absurd hk (hnone k left)
    returned := fun k hk => h.returned k (of_update_of_ne hk nofun) }

/-- Only one waits for workers at a time: whoever is waited for is one of those before it. -/
theorem Closing.waited (h : Closing c) {left : List Nat} (hi : c.shuttingDown i = .joining left) (hw : w < c.pool.size) :
    c.worker w = .gone ∨ w ∈ left := by
  rcases h.waitedFor w hw with hgone | hmem | ⟨k, left', hk, hmem⟩
  · exact .inl hgone
  · rw [h.handles i left hi] at hmem
    cases hmem
  · obtain rfl : i = k := h.sole i k _ _ hi hk
    cases hi.symm.trans hk
    exact .inr hmem

/-- A worker that is gone need not be waited for any more. -/
theorem Closing.joined (h : Closing c) {left : List Nat} (hi : c.shuttingDown i = .joining (w :: left))
    (hgone : c.worker w = .gone) : Closing (c.setShuttingDown i (.joining left)) := by
  have hjoining {k left'} (hk : Function.update c.shuttingDown i (.joining left) k = .joining left') :
      ∃ left₀, c.shuttingDown k = .joining left₀ := by
    rcases of_update hk with ⟨rfl, -⟩ | ⟨-, hk⟩
    · exact ⟨_, hi⟩
    · exact ⟨_, hk⟩
  exact {
    refuses := fun _ _ => h.refuses i (by rw [hi]; nofun)
    drained := h.drained
    handles := fun k left' hk => by
      obtain ⟨left₀, hk₀⟩ := hjoining hk
      exact h.handles k left₀ hk₀
    sole := fun k l left left' hk hl => by
      obtain ⟨left₀, hk₀⟩ := hjoining hk
      obtain ⟨left₁, hl₁⟩ := hjoining hl
      exact h.sole k l left₀ left₁ hk₀ hl₁
    waitedFor := fun v hv => by
      rcases h.waited hi hv with hv | hmem
      · exact .inl hv
      · rcases List.mem_cons.mp hmem with rfl | hmem
        · exact .inl hgone
        · exact .inr (.inr ⟨i, left, Function.update_self .., hmem⟩)
    returned := fun k hk => h.returned k (of_update_of_ne hk nofun) }

/-- Who has waited for all of them may return. -/
theorem Closing.unlocked (h : Closing c) (hi : c.shuttingDown i = .joining []) : Closing (c.setShuttingDown i .returned) := by
  have hjoining {k left} (hk : Function.update c.shuttingDown i .returned k = .joining left) : c.shuttingDown k = .joining left :=
    of_update_of_ne hk nofun
  have hall : ∀ w < c.pool.size, c.worker w = .gone := fun w hw => (h.waited hi hw).resolve_right List.not_mem_nil
  exact {
    refuses := fun _ _ => h.refuses i (by rw [hi]; nofun)
    drained := h.drained
    handles := fun k left hk => h.handles k left (hjoining hk)
    sole := fun k l left left' hk hl => h.sole k l left left' (hjoining hk) (hjoining hl)
    waitedFor := fun w hw => .inl (hall w hw)
    returned := fun _ _ => hall }

/-- Every step keeps to the order of a shutdown. -/
theorem Step.closing (hstep : Step c c') (h : Closing c) : Closing c' := by
  cases hstep with
  | accept job hsubmit =>
    obtain ⟨haccepting, rfl⟩ := Pool.of_submit hsubmit
    refine h.of_workers rfl rfl rfl rfl (fun _ hgone => hgone) fun w hgone => ?_
    cases haccepting.symm.trans (h.drained w hgone).1
  | refuse => exact h.of_workers rfl rfl rfl rfl (fun _ hgone => hgone) h.drained
  | @take w job p hw hidle htake =>
    obtain ⟨rest, hqueue, rfl⟩ := Pool.of_take? htake
    refine h.of_workers rfl rfl rfl rfl (fun v => update_of_eq_of_ne hidle nofun) fun v hgone => ?_
    cases hqueue.symm.trans (h.drained v (of_update_of_ne hgone nofun)).2
  | @finish w job e hw hbusy =>
    exact h.of_workers rfl rfl rfl rfl (fun v => update_of_eq_of_ne hbusy nofun) fun v hgone =>
      h.drained v (of_update_of_ne hgone nofun)
  | @leave w hw hidle htake haccepting =>
    exact h.of_workers rfl rfl rfl rfl (fun v => update_of_eq_of_ne hidle nofun) fun v _ =>
      ⟨haccepting, Pool.queue_of_take?_none htake⟩
  | close hbefore => exact h.closed hbefore
  | lock hclosed hnone => exact h.locked hclosed hnone
  | join hi hgone => exact h.joined hi hgone
  | unlock hi => exact h.unlocked hi

/-- So it is kept in all that a crew may come to. -/
theorem Reachable.closing (h : Reachable c) : Closing c := by
  induction h with
  | new size => exact closing_new size
  | step _ hstep ih => exact hstep.closing ih

/-- Who has begun to shut the pool down has done so for good. -/
theorem Step.begun (hstep : Step c c') (h : c.shuttingDown i ≠ .before) : c'.shuttingDown i ≠ .before := by
  cases hstep with
  | close | lock | join | unlock => exact fun hi => h (of_update_of_ne hi nofun)
  | _ => exact h

/-- A shutdown that was begun is never unbegun. -/
theorem Steps.begun (hsteps : Steps c c') (h : c.shuttingDown i ≠ .before) : c'.shuttingDown i ≠ .before := by
  induction hsteps with
  | refl => exact h
  | tail _ hstep ih => exact hstep.begun ih

/-- What a reachable crew comes to is reachable. -/
theorem Reachable.steps (h : Reachable c) (hsteps : Steps c c') : Reachable c' := by
  induction hsteps with
  | refl => exact h
  | tail _ hstep ih => exact ih.step hstep

/-! ## Panics -/

/-- Whichever jobs panic, the crew might have taken the same step. -/
theorem Step.withEndings (hstep : Step c c') (ending : Nat × τ → JobEnd) : Step (c.withEndings ending) (c'.withEndings ending) := by
  cases hstep with
  | accept job hsubmit => exact .accept job hsubmit
  | refuse job hsubmit => exact .refuse job hsubmit
  | take hw hidle htake => exact .take (c := c.withEndings ending) hw hidle htake
  | @finish w job e hw hbusy =>
    have hended : ({ c with ended := c.ended ++ [(job, e)] }.setWorker w .idle).withEndings ending =
        { c.withEndings ending with ended := (c.withEndings ending).ended ++ [(job, ending job)] }.setWorker w .idle := by
      simp [Crew.withEndings, setWorker]
    rw [hended]
    exact .finish (ending job) hw hbusy
  | leave hw hidle htake haccepting => exact .leave (c := c.withEndings ending) hw hidle htake haccepting
  | close hbefore => exact .close (c := c.withEndings ending) hbefore
  | lock hclosed hnone => exact .lock (c := c.withEndings ending) hclosed hnone
  | join hjoining hgone => exact .join (c := c.withEndings ending) hjoining hgone
  | unlock hjoining => exact .unlock (c := c.withEndings ending) hjoining

/-- How jobs end makes no difference to what a crew can come to. -/
theorem Reachable.withEndings (h : Reachable c) (ending : Nat × τ → JobEnd) : Reachable (c.withEndings ending) := by
  induction h with
  | new size => exact .new size
  | step _ hstep ih => exact ih.step (hstep.withEndings ending)

/-! ## What a pool promises -/

/-- Whoever comes when, and whichever jobs panic: no job is lost, and none is carried out twice. -/
theorem Reachable.jobs_kept (h : Reachable c) :
    -- Every call has a number of its own and brings one job, which is accepted or refused.
    ((c.accepted ++ c.refused).map Prod.fst).Perm (List.range c.calls) ∧
    -- When a shutdown has returned, every job that was accepted has ended, once, and was begun once.
    (∀ i, c.shuttingDown i = .returned → c.started = c.accepted ∧ (c.ended.map Prod.fst).Perm c.accepted) ∧
    -- A job that was refused is never begun.
    (∀ job ∈ c.refused, job ∉ c.started) ∧
    -- Other jobs may have panicked, and all else would be the same; no worker leaves before the pool is shut down and empty.
    (∀ ending, Reachable (c.withEndings ending)) ∧
    (∀ w, c.worker w = .gone → c.pool.accepting = false ∧ c.pool.queue = []) ∧
    -- From the moment at which a shutdown has begun, every job is refused.
    (∀ i c' job, c.shuttingDown i ≠ .before → Steps c c' → c'.pool.submit job = .error .shuttingDown) ∧
    -- Jobs are begun in the order in which they were accepted, and a single worker ends one before it begins the next.
    c.accepted = c.started ++ c.pool.queue ∧
    (c.pool.size = 1 → c.started = c.ended.map Prod.fst ++ (c.worker 0).inHand) := by
  have hbalanced := h.balanced
  have hclosing := h.closing
  refine ⟨hbalanced.calls, fun i hi => ?_, fun job hrefused hstarted => ?_, h.withEndings, hclosing.drained,
    fun i c' job hi hsteps => ?_, hbalanced.accepted, h.one_by_one⟩
  · have hgone := hclosing.returned i hi
    have hhands : c.hands = [] := by
      refine List.flatMap_eq_nil_iff.mpr fun w hw => ?_
      rw [hgone w (List.mem_range.mp hw)]
      rfl
    have hqueue := (hclosing.drained 0 (hgone 0 c.pool.size_pos)).2
    have haccepted : c.started = c.accepted := by rw [hbalanced.accepted, hqueue, List.append_nil]
    have hstarted := hbalanced.started
    rw [hhands, List.append_nil, haccepted] at hstarted
    exact ⟨haccepted, hstarted.symm⟩
  · have haccepted : job ∈ c.accepted := hbalanced.accepted ▸ List.mem_append_left _ hstarted
    exact List.disjoint_of_nodup_append hbalanced.nodup_calls haccepted hrefused
  · exact Pool.submit_of_not_accepting ((h.steps hsteps).closing.refuses i (hsteps.begun hi)) job

/-- A single worker whose first job panics: the second one is carried out all the same, a shutdown returns when both have ended,
and a third one is refused. -/
theorem jobs_kept_panicked :
    ∃ c : Crew String, Reachable c ∧ c.shuttingDown 0 = .returned ∧ c.accepted = [(0, "a"), (1, "b")] ∧
      c.ended = [((0, "a"), .panicked), ((1, "b"), .finished)] ∧ (c.ended.map Prod.fst).Perm c.accepted ∧
      c.refused = [(2, "c")] ∧ (2, "c") ∉ c.started := by
  have h₁ := (Reachable.new (τ := String) 1).step (.accept "a" rfl)
  have h₂ := h₁.step (.accept "b" rfl)
  have h₃ := h₂.step (@Step.take _ _ 0 (0, "a") _ (by decide) rfl rfl)
  have h₄ := h₃.step (@Step.finish _ _ 0 (0, "a") .panicked (by decide) rfl)
  have h₅ := h₄.step (@Step.close _ _ 0 rfl)
  have h₆ := h₅.step (.refuse "c" rfl)
  have h₇ := h₆.step (@Step.take _ _ 0 (1, "b") _ (by decide) rfl rfl)
  have h₈ := h₇.step (@Step.finish _ _ 0 (1, "b") .finished (by decide) rfl)
  have h₉ := h₈.step (@Step.leave _ _ 0 (by decide) rfl rfl rfl)
  have h₁₀ := h₉.step (@Step.lock _ _ 0 rfl (fun _ _ hk => nomatch of_update_of_ne hk nofun))
  have h₁₁ := h₁₀.step (@Step.join _ _ 0 0 [] rfl rfl)
  have h₁₂ := h₁₁.step (@Step.unlock _ _ 0 rfl)
  obtain ⟨-, hreturned, hrefused, -⟩ := h₁₂.jobs_kept
  exact ⟨_, h₁₂, rfl, rfl, rfl, (hreturned 0 rfl).2, rfl, hrefused _ (.head _)⟩

end Crew

end EventScript
