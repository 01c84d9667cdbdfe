import Mathlib.Data.List.Flatten
import Mathlib.Data.List.Nodup
import Mathlib.Data.List.Perm.Basic
import Mathlib.Data.List.Range
import EventScript.Proofs.Threads.Basic
import EventScript.Proofs.Threads.Updates

/-!
# Calls across the bridge

An `Exchange` is a bridge with the main thread behind it and its callers before it, and a record of what became of each unit of
work. Calls are numbered as they come, and a unit goes by the number of its call. A step is one step of one thread, and the steps
of different threads come in any order: a caller may give up at any moment if the settings have a timeout, a unit may panic, and
the bridge may be shut down between any two steps.

Code on the main thread may take up what is queued while it is itself a unit of a batch. What it takes up then comes before the
rest of that batch; `Exchange.Step` says in `reentrant` whether this happens.
-/

namespace EventScript

namespace Exchange

/-- What the main thread is doing, from one level to the next. -/
inductive Frame where
  /-- It carries out a batch that was taken out of the queue. -/
  | batch (k : Nat) (rest : List Nat)
  | unit (n : Nat)
  /-- It carries out what it was asked to do on the main thread itself. -/
  | here (n : Nat)
deriving DecidableEq, Repr

/-- How far a call is. -/
inductive Call (α : Type) where
  | unmade
  /-- It was made on the main thread and is carried out there. -/
  | here
  /-- It was made on another thread, which waits for the answer. -/
  | waiting
  | settled (r : Except BridgeFault α)

/-- How far a shutdown is: the bridge is closed to callers before its queue is dropped. -/
inductive Gate where
  | open
  | closing
  | closed
deriving DecidableEq, Repr

/-- What is left of a batch. -/
def Frame.left : Frame → List Nat
  | .batch _ rest => rest
  | .unit _ | .here _ => []

def Frame.leftOf (k : Nat) : Frame → List Nat
  | .batch j rest => if j = k then rest else []
  | .unit _ | .here _ => []

def Frame.running : Frame → List Nat
  | .batch .. => []
  | .unit n | .here n => [n]

def Frame.isBatch : Frame → Bool
  | .batch .. => true
  | .unit _ | .here _ => false

end Exchange

open Exchange

/-- A bridge, its main thread and its callers. -/
structure Exchange (α : Type) where
  bridge : Bridge Nat
  gate : Gate
  /-- There is someone who takes up what is queued. -/
  live : Bool
  /-- What the main thread is doing, the innermost first. -/
  frames : List Frame
  call : Nat → Call α
  /-- What there is for the caller. -/
  reply : Nat → Option (Except BridgeFault α)
  /-- How many calls were made. -/
  calls : Nat
  /-- The units that were queued, in order. -/
  submitted : List Nat
  refused : List Nat
  /-- What was taken out of the queue at a time, in order. -/
  batches : List (List Nat)
  /-- The units that were begun, each with its batch, in order. -/
  started : List (Nat × Nat)
  /-- The units that ended, in order, and how. -/
  ended : List (Nat × Except Panic α)
  /-- The units that were thrown away with the queue. -/
  dropped : List Nat

variable {α : Type}

/-- What a shutdown drops is what was queued, and what it does not drop stays queued. -/
theorem Bridge.pending_shutDown_append_dropped {τ : Type} (b : Bridge τ) : b.shutDown.pending ++ b.dropped = b.pending := by
  unfold shutDown dropped
  cases b.main with
  | attached => rfl
  | dedicated => exact List.append_nil _

namespace Exchange

/-- A bridge without callers. -/
def new (main : MainThread) : Exchange α :=
  ⟨.new main, .open, true, [], fun _ => .unmade, fun _ => none, 0, [], [], [], [], [], []⟩

section

variable (x : Exchange α)

/-- What is left of the batches. -/
def left : List Nat := x.frames.flatMap Frame.left

def leftOf (k : Nat) : List Nat := x.frames.flatMap (Frame.leftOf k)

def running : List Nat := x.frames.flatMap Frame.running

/-- The units of a batch that were begun, in order. -/
def startedOf (k : Nat) : List Nat := (x.started.filter fun s => s.2 = k).map Prod.fst

/-- Code of the host or of a unit runs on the main thread. -/
def RunsCode : Prop :=
  match x.frames with
  | [] => x.bridge.main = .attached
  | f :: _ => f.isBatch = false

def setCall (n : Nat) (c : Call α) : Exchange α := { x with call := Function.update x.call n c }

/-- Takes units out of the queue. -/
def collect (batch : List Nat) (b : Bridge Nat) : Exchange α :=
  { x with bridge := b, frames := .batch x.batches.length batch :: x.frames, batches := x.batches ++ [batch] }

/-- A unit or a call on the main thread ends with a value or a panic. -/
def finish (n : Nat) (r : Except Panic α) (σ : List Frame) : Exchange α := { x with frames := σ, ended := x.ended ++ [(n, r)] }

end

/-- One step of one thread. -/
inductive Step (timeout : Option Duration) (reentrant : Bool) : Exchange α → Exchange α → Prop
  /-- A unit comes from another thread, which waits for it. -/
  | submit {x : Exchange α} {b} : x.bridge.submit x.calls = .ok b →
      Step timeout reentrant x ({ x with bridge := b, calls := x.calls + 1, submitted := x.submitted ++ [x.calls] }.setCall
        x.calls .waiting)
  | refuse {x : Exchange α} {f} : x.bridge.submit x.calls = .error f →
      Step timeout reentrant x ({ x with calls := x.calls + 1, refused := x.refused ++ [x.calls] }.setCall
        x.calls (.settled (.error f)))
  /-- A call on the main thread is carried out there and then, also when the bridge is shut down. -/
  | callHere {x : Exchange α} : x.RunsCode →
      Step timeout reentrant x ({ x with calls := x.calls + 1, frames := .here x.calls :: x.frames }.setCall x.calls .here)
  /-- A dedicated main thread takes up the next unit. -/
  | takeUp {x : Exchange α} {n rest} : x.bridge.main = .dedicated → x.frames = [] → x.bridge.pending = n :: rest →
      Step timeout reentrant x (x.collect [n] { x.bridge with pending := rest })
  /-- A dedicated main thread learns that nothing is queued and nothing will be. -/
  | loopEnds {x : Exchange α} : x.bridge.main = .dedicated → x.frames = [] → x.bridge.pending = [] →
      x.bridge.accepting = false → Step timeout reentrant x { x with live := false }
  /-- The thread of the host takes up all that is queued. -/
  | runPending {x : Exchange α} : x.bridge.main = .attached → x.live = true → x.RunsCode →
      (reentrant = false → ∀ f ∈ x.frames, f.isBatch = false) →
      Step timeout reentrant x (x.collect x.bridge.collect.1 x.bridge.collect.2)
  | begin {x : Exchange α} {k n rest σ} : x.frames = .batch k (n :: rest) :: σ →
      Step timeout reentrant x { x with frames := .unit n :: .batch k rest :: σ, started := x.started ++ [(n, k)] }
  /-- A unit ends, and the answer is sent, whether or not its caller still waits. -/
  | ends {x : Exchange α} {n σ} (r : Except Panic α) : x.frames = .unit n :: σ →
      Step timeout reentrant x { x.finish n r σ with reply := Function.update x.reply n (some (r.mapError .panicked)) }
  | endsHere {x : Exchange α} {n σ} (r : Except Panic α) : x.frames = .here n :: σ →
      Step timeout reentrant x ((x.finish n r σ).setCall n (.settled (r.mapError .panicked)))
  | batchEnds {x : Exchange α} {k σ} : x.frames = .batch k [] :: σ → Step timeout reentrant x { x with frames := σ }
  /-- A caller takes its answer. -/
  | answered {x : Exchange α} {n r} : x.call n = .waiting → x.reply n = some r →
      Step timeout reentrant x (x.setCall n (.settled r))
  /-- A caller has waited for as long as it may; its unit stays where it is. -/
  | timedOut {x : Exchange α} {n t} : x.call n = .waiting → timeout = some t →
      Step timeout reentrant x (x.setCall n (.settled (.error (.timedOut t))))
  /-- The first shutdown closes the bridge to callers. -/
  | close {x : Exchange α} : x.gate = .open →
      Step timeout reentrant x { x with gate := .closing, bridge := { x.bridge with accepting := false } }
  /-- It drops the queue of an attached main thread, and those who wait for what was in it learn of it. -/
  | drop {x : Exchange α} : x.gate = .closing →
      Step timeout reentrant x { x with
        gate := .closed
        bridge := x.bridge.shutDown
        live := x.live && x.bridge.main == .dedicated
        dropped := x.dropped ++ x.bridge.dropped
        reply := fun n => if n ∈ x.bridge.dropped then some (.error .droppedTask) else x.reply n }

abbrev Steps (timeout : Option Duration) (reentrant : Bool) : Exchange α → Exchange α → Prop :=
  Relation.ReflTransGen (Step timeout reentrant)

/-- The exchanges that a new bridge may come to. -/
inductive Reachable (main : MainThread) (timeout : Option Duration) (reentrant : Bool) : Exchange α → Prop
  | new : Reachable main timeout reentrant (.new main)
  | step {x x' : Exchange α} : Reachable main timeout reentrant x → Step timeout reentrant x x' →
      Reachable main timeout reentrant x'

variable {main : MainThread} {timeout : Option Duration} {reentrant : Bool} {x x' : Exchange α} {k n : Nat}

/-! ## Where a unit is -/

/-- How often a unit is in any place: ended, running, in a batch, queued, dropped or refused. -/
def occurrences (x : Exchange α) (n : Nat) : Nat :=
  (x.ended.map Prod.fst).count n + x.running.count n + x.left.count n + x.bridge.pending.count n + x.dropped.count n +
    x.refused.count n

/-- The unit of every call is in one place. -/
def Placed (x : Exchange α) : Prop := ∀ n, x.occurrences n = (List.range x.calls).count n

/-- One number more is counted once more. -/
theorem count_range_succ (m n : Nat) : (List.range (m + 1)).count n = (List.range m).count n + [m].count n := by
  rw [List.range_succ, List.count_append]

/-- Every step leaves each unit in one place. -/
theorem Step.placed (hstep : Step timeout reentrant x x') (h : Placed x) : Placed x' := by
  intro m
  have hm := h m
  unfold occurrences at hm ⊢
  cases hstep with
  | @submit b hsubmit =>
    obtain ⟨-, rfl⟩ := Bridge.of_submit hsubmit
    simp only [setCall, running, left, count_range_succ, List.count_append] at hm ⊢
    omega
  | refuse =>
    simp only [setCall, running, left, count_range_succ, List.count_append] at hm ⊢
    omega
  | callHere =>
    simp only [setCall, running, left, count_range_succ, List.flatMap_cons, Frame.running, Frame.left, List.count_append,
      List.count_nil] at hm ⊢
    omega
  | takeUp hmain hframes hpending =>
    simp only [collect, running, left, hframes, hpending, List.flatMap_cons, Frame.running, Frame.left, List.count_append,
      List.count_nil, List.flatMap_nil, List.count_cons] at hm ⊢
    omega
  | loopEnds => exact hm
  | runPending =>
    simp only [collect, Bridge.collect, running, left, List.flatMap_cons, Frame.running, Frame.left, List.count_append,
      List.count_nil] at hm ⊢
    omega
  | begin hframes =>
    simp only [running, left, hframes, List.flatMap_cons, Frame.running, Frame.left, List.count_append,
      List.count_nil, List.count_cons] at hm ⊢
    omega
  | ends r hframes =>
    simp only [finish, running, left, hframes, List.flatMap_cons, Frame.running, Frame.left, List.count_append,
      List.count_nil, List.map_append, List.map_cons, List.map_nil] at hm ⊢
    omega
  | endsHere r hframes =>
    simp only [finish, setCall, running, left, hframes, List.flatMap_cons, Frame.running, Frame.left, List.count_append,
      List.count_nil, List.map_append, List.map_cons, List.map_nil] at hm ⊢
    omega
  | batchEnds hframes =>
    simp only [running, left, hframes, List.flatMap_cons, Frame.running, Frame.left, List.count_append,
      List.count_nil] at hm ⊢
    omega
  | answered => exact hm
  | timedOut => exact hm
  | close => exact hm
  | drop =>
    have hpending := congrArg (List.count m) x.bridge.pending_shutDown_append_dropped
    simp only [running, left, List.count_append] at hm hpending ⊢
    omega

/-- No unit is in two places, or in one place twice. -/
theorem Placed.occurrences_le (h : Placed x) (n : Nat) : x.occurrences n ≤ 1 :=
  (h n).trans_le (List.nodup_iff_count_le_one.mp List.nodup_range n)

/-! ## Closing -/

/-- What is dropped is what was queued when the shutdown came to it, and nothing is queued from then on. -/
structure Closing (x : Exchange α) : Prop where
  refuses : x.gate ≠ .open → x.bridge.accepting = false
  keeps : x.gate ≠ .closed → x.dropped = []
  empties : x.live = false → x.bridge.accepting = false ∧ x.bridge.pending = []
  ends : x.gate = .closed → x.bridge.main = .attached → x.live = false

/-- Every step keeps to the order of a shutdown. -/
theorem Step.closing (hstep : Step timeout reentrant x x') (h : Closing x) : Closing x' := by
  cases hstep with
  | submit hsubmit =>
    obtain ⟨haccepting, rfl⟩ := Bridge.of_submit hsubmit
    refine ⟨h.refuses, h.keeps, fun hlive => ?_, h.ends⟩
    cases haccepting.symm.trans (h.empties hlive).1
  | takeUp hmain _ hpending =>
    refine ⟨h.refuses, h.keeps, fun hlive => ?_, h.ends⟩
    cases hpending.symm.trans (h.empties hlive).2
  | loopEnds _ _ hpending haccepting => exact ⟨h.refuses, h.keeps, fun _ => ⟨haccepting, hpending⟩, fun _ _ => rfl⟩
  | runPending _ hlive =>
    refine ⟨h.refuses, h.keeps, fun hdead => ?_, h.ends⟩
    cases hlive.symm.trans hdead
  | close hopen =>
    exact ⟨fun _ => rfl, fun _ => h.keeps (by rw [hopen]; nofun), fun hlive => ⟨rfl, (h.empties hlive).2⟩, nofun⟩
  | drop =>
    refine ⟨fun _ => Bridge.accepting_shutDown _, fun hgate => absurd rfl hgate, fun hlive =>
      ⟨Bridge.accepting_shutDown _, ?_⟩, fun _ hmain => ?_⟩
    · cases hmain : x.bridge.main with
      | attached =>
        unfold Bridge.shutDown
        rw [hmain]
      | dedicated =>
        have hdead : x.live = false := by
          rw [hmain, beq_self_eq_true, Bool.and_true] at hlive
          exact hlive
        refine List.eq_nil_iff_forall_not_mem.mpr fun t ht => ?_
        exact List.not_mem_nil ((h.empties hdead).2 ▸ Bridge.pending_shutDown ht)
    · have hattached : x.bridge.main = .attached := (Bridge.main_shutDown _).symm.trans hmain
      show (x.live && x.bridge.main == .dedicated) = false
      rw [hattached]
      exact Bool.and_false _
  | _ => exact ⟨h.refuses, h.keeps, h.empties, h.ends⟩

/-! ## Order -/

/-- Batch after batch is taken out of the queue, and each is carried out in order. -/
structure Ordered (reentrant : Bool) (x : Exchange α) : Prop where
  pieces : x.submitted = x.batches.flatten ++ (x.bridge.pending ++ x.dropped)
  begun : (x.started.map Prod.fst ++ x.left).Perm x.batches.flatten
  inOrder : reentrant = false → x.started.map Prod.fst ++ x.left = x.batches.flatten
  ofBatch : ∀ k, x.startedOf k ++ x.leftOf k = x.batches[k]?.getD []
  sorted : x.submitted.Pairwise (· < ·)
  below : ∀ n ∈ x.submitted, n < x.calls

/-- Where no batch is being run, nothing is left of one. -/
theorem left_eq_nil (h : ∀ f ∈ x.frames, f.isBatch = false) : x.left = [] := by
  refine List.flatMap_eq_nil_iff.mpr fun f hf => ?_
  cases f with
  | batch => cases h _ hf
  | unit | here => rfl

/-- Where a batch has ended, nothing is left of it. -/
theorem leftOf_eq_nil (h : ∀ rest, .batch k rest ∉ x.frames) : x.leftOf k = [] := by
  refine List.flatMap_eq_nil_iff.mpr fun f hf => ?_
  cases f with
  | batch j rest =>
    refine if_neg ?_
    rintro rfl
    exact h rest hf
  | unit | here => rfl

/-- What is taken out of the queue comes before what is left of other batches. -/
theorem Ordered.collect {batch : List Nat} {b : Bridge Nat} (h : Ordered reentrant x)
    (hpending : x.bridge.pending = batch ++ b.pending) (hnone : reentrant = false → x.left = []) :
    Ordered reentrant (x.collect batch b) := by
  have hleft : (x.collect batch b).left = batch ++ x.left := List.flatMap_cons
  have hbatches : (x.collect batch b).batches.flatten = x.batches.flatten ++ batch := by
    show (x.batches ++ [batch]).flatten = _
    rw [List.flatten_append, List.flatten_singleton]
  refine ⟨?_, ?_, fun hre => ?_, fun k => ?_, h.sorted, h.below⟩
  · rw [hbatches, List.append_assoc]
    show x.submitted = x.batches.flatten ++ (batch ++ (b.pending ++ x.dropped))
    rw [h.pieces, hpending, List.append_assoc]
  · rw [hleft, hbatches]
    have hswap := (@List.perm_append_comm _ batch x.left).append_left (x.started.map Prod.fst)
    rw [← List.append_assoc _ x.left] at hswap
    exact hswap.trans (h.begun.append_right batch)
  · rw [hleft, hbatches, hnone hre, List.append_nil]
    have hold := h.inOrder hre
    rw [hnone hre, List.append_nil] at hold
    exact congrArg (· ++ batch) hold
  · have hk := h.ofBatch k
    have hleftOf : (x.collect batch b).leftOf k = (if x.batches.length = k then batch else []) ++ x.leftOf k :=
      List.flatMap_cons
    show x.startedOf k ++ (x.collect batch b).leftOf k = (x.batches ++ [batch])[k]?.getD []
    rw [hleftOf]
    rcases Nat.lt_trichotomy k x.batches.length with hlt | rfl | hgt
    · rw [if_neg (Nat.ne_of_gt hlt), List.nil_append, List.getElem?_append_left hlt]
      exact hk
    · -- Nothing was known of the batch before.
      rw [List.getElem?_eq_none (Nat.le_refl _)] at hk
      obtain ⟨hstarted, hold⟩ := List.append_eq_nil_iff.mp hk
      rw [if_pos rfl, hstarted, hold, List.getElem?_append_right (Nat.le_refl _), Nat.sub_self, List.append_nil]
      rfl
    · rw [if_neg (Nat.ne_of_lt hgt), List.nil_append, hk, List.getElem?_eq_none (Nat.le_of_lt hgt),
        List.getElem?_eq_none (by rw [List.length_append]; exact hgt)]

/-- What keeps the queue with what was dropped, and what is left of the batches. -/
theorem Ordered.of_same (h : Ordered reentrant x) (hsubmitted : x'.submitted = x.submitted) (hbatches : x'.batches = x.batches)
    (hstarted : x'.started = x.started) (hcalls : x.calls ≤ x'.calls)
    (hqueue : x'.bridge.pending ++ x'.dropped = x.bridge.pending ++ x.dropped)
    (hleft : x'.frames.flatMap Frame.left = x.frames.flatMap Frame.left)
    (hleftOf : ∀ k, x'.frames.flatMap (Frame.leftOf k) = x.frames.flatMap (Frame.leftOf k)) : Ordered reentrant x' where
  pieces := by rw [hsubmitted, hbatches, hqueue, h.pieces]
  begun := by
    rw [hstarted, hbatches, left, hleft]
    exact h.begun
  inOrder := by
    rw [hstarted, hbatches, left, hleft]
    exact h.inOrder
  ofBatch := fun k => by
    rw [hbatches, startedOf, hstarted, leftOf, hleftOf]
    exact h.ofBatch k
  sorted := hsubmitted ▸ h.sorted
  below := hsubmitted ▸ fun n hn => Nat.lt_of_lt_of_le (h.below n hn) hcalls

/-- A level that ends leaves nothing of a batch. -/
theorem Ordered.pop {f : Frame} {σ : List Frame} (h : Ordered reentrant x) (hframes : x.frames = f :: σ) (hf : f.left = [])
    (hframes' : x'.frames = σ) (hsubmitted : x'.submitted = x.submitted) (hbatches : x'.batches = x.batches)
    (hstarted : x'.started = x.started) (hcalls : x.calls ≤ x'.calls)
    (hqueue : x'.bridge.pending ++ x'.dropped = x.bridge.pending ++ x.dropped) : Ordered reentrant x' := by
  refine h.of_same hsubmitted hbatches hstarted hcalls hqueue ?_ fun k => ?_
  · rw [hframes', hframes, List.flatMap_cons, hf, List.nil_append]
  · have hfk : f.leftOf k = [] := by
      cases f with
      | batch j rest =>
        obtain rfl : rest = [] := hf
        exact ite_self []
      | unit | here => rfl
    rw [hframes', hframes, List.flatMap_cons, hfk, List.nil_append]

/-- The next unit of a batch is begun. -/
theorem Ordered.begin {rest : List Nat} {σ : List Frame} (h : Ordered reentrant x)
    (hframes : x.frames = .batch k (n :: rest) :: σ) :
    Ordered reentrant { x with frames := .unit n :: .batch k rest :: σ, started := x.started ++ [(n, k)] } := by
  have hmoved : ((x.started ++ [(n, k)]).map Prod.fst) ++ (rest ++ σ.flatMap Frame.left) =
      x.started.map Prod.fst ++ x.left := by
    rw [left, hframes, List.flatMap_cons, List.map_append, List.append_assoc]
    rfl
  refine ⟨h.pieces, ?_, ?_, fun j => ?_, h.sorted, h.below⟩
  · show (_ ++ (rest ++ σ.flatMap Frame.left)).Perm _
    rw [hmoved]
    exact h.begun
  · intro hre
    show _ ++ (rest ++ σ.flatMap Frame.left) = _
    rw [hmoved]
    exact h.inOrder hre
  · have hstarted : ((x.started ++ [(n, k)]).filter fun s => s.2 = j).map Prod.fst =
        x.startedOf j ++ if k = j then [n] else [] := by
      rw [List.filter_append, List.map_append]
      by_cases hkj : k = j
      · simp [startedOf, hkj]
      · simp [startedOf, hkj]
    have hrest : Frame.leftOf j (.batch k (n :: rest)) = (if k = j then [n] else []) ++ Frame.leftOf j (.batch k rest) := by
      show (if k = j then n :: rest else []) = (if k = j then [n] else []) ++ (if k = j then rest else [])
      split <;> rfl
    have hj := h.ofBatch j
    rw [leftOf, hframes, List.flatMap_cons, hrest, List.append_assoc, ← List.append_assoc] at hj
    show ((x.started ++ [(n, k)]).filter fun s => s.2 = j).map Prod.fst ++ (Frame.leftOf j (.batch k rest) ++ _) = _
    rw [hstarted]
    exact hj

/-- Every step keeps the order in which units are begun. -/
theorem Step.ordered (hstep : Step timeout reentrant x x') (hclosing : Closing x) (h : Ordered reentrant x) :
    Ordered reentrant x' := by
  cases hstep with
  | submit hsubmit =>
    obtain ⟨haccepting, rfl⟩ := Bridge.of_submit hsubmit
    -- An open bridge has dropped nothing.
    have hgate : x.gate ≠ .closed := fun hgate => by
      cases haccepting.symm.trans (hclosing.refuses (by rw [hgate]; nofun))
    have hpieces := h.pieces
    rw [hclosing.keeps hgate, List.append_nil] at hpieces
    refine ⟨?_, h.begun, h.inOrder, h.ofBatch, ?_, ?_⟩
    · show x.submitted ++ [x.calls] = x.batches.flatten ++ (x.bridge.pending ++ [x.calls] ++ x.dropped)
      rw [hclosing.keeps hgate, List.append_nil, hpieces, List.append_assoc]
    · exact List.pairwise_append.mpr ⟨h.sorted, List.pairwise_singleton _ _, fun n hn m hm =>
        List.mem_singleton.mp hm ▸ h.below n hn⟩
    · intro n hn
      rcases List.mem_append.mp hn with hold | hnew
      · exact Nat.lt_succ_of_lt (h.below n hold)
      · exact List.mem_singleton.mp hnew ▸ Nat.lt_succ_self _
  | refuse | callHere => exact h.of_same rfl rfl rfl (Nat.le_succ _) rfl rfl fun _ => rfl
  | takeUp hmain hframes hpending =>
    refine h.collect hpending fun _ => ?_
    unfold left
    rw [hframes]
    rfl
  | runPending hmain hlive hruns hnone => exact h.collect (List.append_nil _).symm fun hre => left_eq_nil (hnone hre)
  | begin hframes => exact h.begin hframes
  | ends r hframes => exact h.pop hframes rfl rfl rfl rfl rfl (Nat.le_refl _) rfl
  | endsHere r hframes => exact h.pop hframes rfl rfl rfl rfl rfl (Nat.le_refl _) rfl
  | batchEnds hframes => exact h.pop hframes rfl rfl rfl rfl rfl (Nat.le_refl _) rfl
  | drop hgate =>
    refine h.of_same rfl rfl rfl (Nat.le_refl _) ?_ rfl fun _ => rfl
    show x.bridge.shutDown.pending ++ (x.dropped ++ x.bridge.dropped) = x.bridge.pending ++ x.dropped
    rw [hclosing.keeps (by rw [hgate]; nofun), List.nil_append, List.append_nil, Bridge.pending_shutDown_append_dropped]
  | loopEnds | answered | timedOut | close => exact h.of_same rfl rfl rfl (Nat.le_refl _) rfl rfl fun _ => rfl

/-! ## Answers -/

/-- What there is for a caller is what came of its own unit, or that its unit was dropped. -/
def Answers (x : Exchange α) (n : Nat) (r : Except BridgeFault α) : Prop :=
  (∃ e, (n, e) ∈ x.ended ∧ r = e.mapError .panicked) ∨ n ∈ x.dropped ∧ r = .error .droppedTask

structure Honest (timeout : Option Duration) (x : Exchange α) : Prop where
  reply : ∀ n r, x.reply n = some r → x.Answers n r
  settled : ∀ n r, x.call n = .settled r →
    x.Answers n r ∨ (∃ t, timeout = some t ∧ r = .error (.timedOut t)) ∨ n ∈ x.refused ∧ r = .error .shutDown

/-- A caller that waits has its unit before it, or its answer. -/
def Attended (x : Exchange α) : Prop :=
  ∀ n, x.call n = .waiting → n ∈ x.bridge.pending ∨ n ∈ x.left ∨ .unit n ∈ x.frames ∨ ∃ r, x.reply n = some r

/-- What a unit has answered stays its answer. -/
theorem Answers.mono {r : Except BridgeFault α} (h : x.Answers n r) (hended : x.ended ⊆ x'.ended)
    (hdropped : x.dropped ⊆ x'.dropped) : x'.Answers n r := by
  rcases h with ⟨e, he, rfl⟩ | ⟨hn, rfl⟩
  · exact .inl ⟨e, hended he, rfl⟩
  · exact .inr ⟨hdropped hn, rfl⟩

/-- Answers that are honest stay so while more units end, are dropped or are refused. -/
theorem Honest.mono (h : Honest timeout x) (hended : x.ended ⊆ x'.ended) (hdropped : x.dropped ⊆ x'.dropped)
    (hrefused : x.refused ⊆ x'.refused) (hreply : ∀ n r, x'.reply n = some r → x.reply n = some r ∨ x'.Answers n r)
    (hcall : ∀ n r, x'.call n = .settled r → x.call n = .settled r ∨ x'.Answers n r ∨
      (∃ t, timeout = some t ∧ r = .error (.timedOut t)) ∨ n ∈ x'.refused ∧ r = .error .shutDown) : Honest timeout x' where
  reply := fun n r hr => by
    rcases hreply n r hr with hold | hnew
    · exact (h.reply n r hold).mono hended hdropped
    · exact hnew
  settled := fun n r hr => by
    rcases hcall n r hr with hold | hnew
    · exact (h.settled n r hold).imp (·.mono hended hdropped) (Or.imp_right (And.imp_left (hrefused ·)))
    · exact hnew

/-- One call is told something, or nothing yet. -/
theorem Honest.of_call {m : Nat} {c : Call α} (h : Honest timeout x) (hended : x.ended ⊆ x'.ended)
    (hdropped : x'.dropped = x.dropped) (hrefused : x.refused ⊆ x'.refused) (hreply : x'.reply = x.reply)
    (hcall : x'.call = Function.update x.call m c)
    (hc : ∀ r, c = .settled r → x'.Answers m r ∨ (∃ t, timeout = some t ∧ r = .error (.timedOut t)) ∨
      m ∈ x'.refused ∧ r = .error .shutDown) : Honest timeout x' := by
  refine h.mono hended (hdropped ▸ List.Subset.refl _) hrefused (fun n r hn => .inl (hreply ▸ hn)) fun n r hn => ?_
  rcases of_update (hcall ▸ hn) with ⟨rfl, hr⟩ | ⟨-, hold⟩
  · exact .inr (hc r hr)
  · exact .inl hold

/-- Every step keeps answers honest. -/
theorem Step.honest (hstep : Step timeout reentrant x x') (h : Honest timeout x) : Honest timeout x' := by
  have hsame {β : Type} {l : List β} : l ⊆ l := List.Subset.refl l
  cases hstep with
  | submit | callHere => exact h.of_call hsame rfl hsame rfl rfl nofun
  | refuse hsubmit =>
    obtain rfl := Bridge.of_submit_error hsubmit
    refine h.of_call hsame rfl (List.subset_append_left ..) rfl rfl fun r hr => ?_
    cases hr
    exact .inr (.inr ⟨List.mem_append_right _ (.head _), rfl⟩)
  | @ends m σ e hframes =>
    refine h.mono (List.subset_append_left ..) hsame hsame (fun l r hl => ?_) fun _ _ => .inl
    rcases of_update hl with ⟨rfl, hr⟩ | ⟨-, hold⟩
    · cases hr
      exact .inr (.inl ⟨e, List.mem_append_right _ (.head _), rfl⟩)
    · exact .inl hold
  | @endsHere m σ e hframes =>
    refine h.of_call (List.subset_append_left ..) rfl hsame rfl rfl fun r hr => ?_
    cases hr
    exact .inl (.inl ⟨e, List.mem_append_right _ (.head _), rfl⟩)
  | answered hwaiting hreply =>
    refine h.of_call hsame rfl hsame rfl rfl fun r hr => ?_
    cases hr
    exact .inl (h.reply _ _ hreply)
  | timedOut hwaiting htimeout =>
    refine h.of_call hsame rfl hsame rfl rfl fun r hr => ?_
    cases hr
    exact .inr (.inl ⟨_, htimeout, rfl⟩)
  | drop =>
    refine h.mono hsame (List.subset_append_left ..) hsame (fun m r hm => ?_) fun _ _ => .inl
    dsimp only at hm
    split at hm
    next hdropped =>
      cases hm
      exact .inr (.inr ⟨List.mem_append_right _ hdropped, rfl⟩)
    next => exact .inl hm
  | takeUp | loopEnds | runPending | begin | batchEnds | close =>
    exact h.mono hsame hsame hsame (fun _ _ => .inl) fun _ _ => .inl

/-- What is left is left of the innermost batch or of those around it. -/
theorem mem_left_cons {f : Frame} {σ : List Frame} (hframes : x.frames = f :: σ) :
    n ∈ x.left ↔ n ∈ f.left ∨ n ∈ σ.flatMap Frame.left := by
  rw [left, hframes, List.flatMap_cons, List.mem_append]

/-- What is taken out of the queue goes into a batch. -/
theorem Attended.collect {batch : List Nat} {b : Bridge Nat} (h : Attended x) (hpending : x.bridge.pending = batch ++ b.pending) :
    Attended (x.collect batch b) := by
  intro m hm
  rcases h m hm with hpend | hleft | hunit | hreply
  · rcases List.mem_append.mp (hpending ▸ hpend) with hbatch | hrest
    · exact .inr (.inl (List.mem_append_left _ hbatch))
    · exact .inl hrest
  · exact .inr (.inl (List.mem_append_right _ hleft))
  · exact .inr (.inr (.inl (.tail _ hunit)))
  · exact .inr (.inr (.inr hreply))

/-- A level that ends leaves no unit without an answer. -/
theorem Attended.pop {f : Frame} {σ : List Frame} (h : Attended x) (hframes : x.frames = f :: σ) (hf : f.left = [])
    (hframes' : x'.frames = σ) (hpending : x'.bridge.pending = x.bridge.pending)
    (hcall : ∀ n, x'.call n = .waiting → x.call n = .waiting) (hreply : ∀ n r, x.reply n = some r → ∃ r', x'.reply n = some r')
    (hunit : ∀ n, f = .unit n → ∃ r, x'.reply n = some r) : Attended x' := by
  intro m hm
  rcases h m (hcall m hm) with hpend | hleft | hmem | ⟨r, hr⟩
  · exact .inl (hpending ▸ hpend)
  · rcases (mem_left_cons hframes).mp hleft with hf' | hσ
    · cases hf ▸ hf'
    · refine .inr (.inl ?_)
      rw [left, hframes']
      exact hσ
  · rcases List.mem_cons.mp (hframes ▸ hmem) with hf' | hσ
    · exact .inr (.inr (.inr (hunit m hf'.symm)))
    · exact .inr (.inr (.inl (hframes' ▸ hσ)))
  · exact .inr (.inr (.inr (hreply m r hr)))

/-- A unit leaves its place for the next one, or for its answer. -/
theorem Step.attended (hstep : Step timeout reentrant x x') (h : Attended x) : Attended x' := by
  cases hstep with
  | submit hsubmit =>
    obtain ⟨-, rfl⟩ := Bridge.of_submit hsubmit
    intro m hm
    rcases of_update hm with ⟨rfl, -⟩ | ⟨-, hold⟩
    · exact .inl (List.mem_append_right _ (.head _))
    · exact (h m hold).imp_left (List.mem_append_left _ ·)
  | refuse | answered | timedOut =>
    intro m hm
    rcases of_update hm with ⟨-, hover⟩ | ⟨-, hold⟩
    · cases hover
    · exact h m hold
  | callHere =>
    intro m hm
    rcases of_update hm with ⟨-, hhere⟩ | ⟨-, hold⟩
    · cases hhere
    · exact (h m hold).imp_right (Or.imp_right (Or.imp_left (.tail _ ·)))
  | takeUp _ _ hpending => exact h.collect hpending
  | runPending => exact h.collect (List.append_nil _).symm
  | @begin k n rest σ hframes =>
    intro m hm
    have hleft' (hmem : m ∈ rest ++ σ.flatMap Frame.left) : m ∈ (.unit n :: .batch k rest :: σ : List Frame).flatMap Frame.left :=
      hmem
    rcases h m hm with hpend | hleft | hunit | hreply
    · exact .inl hpend
    · rcases (mem_left_cons hframes).mp hleft with hf | hσ
      · rcases List.mem_cons.mp hf with rfl | hrest
        · exact .inr (.inr (.inl (.head _)))
        · exact .inr (.inl (hleft' (List.mem_append_left _ hrest)))
      · exact .inr (.inl (hleft' (List.mem_append_right _ hσ)))
    · rcases List.mem_cons.mp (hframes ▸ hunit) with hf | hσ
      · cases hf
      · exact .inr (.inr (.inl (.tail _ (.tail _ hσ))))
    · exact .inr (.inr (.inr hreply))
  | @ends n σ r hframes =>
    refine h.pop hframes rfl rfl rfl (fun _ => id) (fun m r' hm => ?_) fun m hm => ?_
    · by_cases hmn : m = n
      · subst hmn
        exact ⟨_, Function.update_self ..⟩
      · exact ⟨r', (Function.update_of_ne hmn ..).trans hm⟩
    · cases hm
      exact ⟨_, Function.update_self ..⟩
  | endsHere r hframes =>
    refine h.pop hframes rfl rfl rfl (fun m hm => ?_) (fun _ r' hr => ⟨r', hr⟩) nofun
    rcases of_update hm with ⟨-, hover⟩ | ⟨-, hold⟩
    · cases hover
    · exact hold
  | batchEnds hframes => exact h.pop hframes rfl rfl rfl (fun _ => id) (fun _ r' hr => ⟨r', hr⟩) nofun
  | drop =>
    intro m hm
    by_cases hdropped : m ∈ x.bridge.dropped
    · exact .inr (.inr (.inr ⟨_, if_pos hdropped⟩))
    rcases h m hm with hpend | hleft | hunit | ⟨r, hr⟩
    · rcases List.mem_append.mp (x.bridge.pending_shutDown_append_dropped ▸ hpend) with hstays | hdrop
      · exact .inl hstays
      · exact absurd hdrop hdropped
    · exact .inr (.inl hleft)
    · exact .inr (.inr (.inl hunit))
    · exact .inr (.inr (.inr ⟨r, (if_neg hdropped).trans hr⟩))
  | loopEnds | close => exact h

/-! ## What a bridge promises -/

/-- A bridge that was shut down stays shut down. -/
theorem Step.gate (hstep : Step timeout reentrant x x') (h : x.gate ≠ .open) : x'.gate ≠ .open := by
  cases hstep with
  | close hopen => exact absurd hopen h
  | drop => nofun
  | _ => exact h

/-- What holds of the exchanges that a new bridge may come to. -/
structure Sound (timeout : Option Duration) (reentrant : Bool) (x : Exchange α) : Prop where
  placed : Placed x
  closing : Closing x
  ordered : Ordered reentrant x
  honest : Honest timeout x
  attended : Attended x

/-- So all that holds at the beginning holds wherever the bridge may come to. -/
theorem Reachable.sound (h : Reachable main timeout reentrant x) : Sound timeout reentrant x := by
  induction h with
  | new =>
    exact {
      placed := fun _ => rfl
      closing := ⟨fun hgate => absurd rfl hgate, fun _ => rfl, nofun, nofun⟩
      ordered := ⟨rfl, .nil, fun _ => rfl, fun _ => rfl, .nil, nofun⟩
      honest := ⟨nofun, nofun⟩
      attended := nofun }
  | step _ hstep ih =>
    exact {
      placed := hstep.placed ih.placed
      closing := hstep.closing ih.closing
      ordered := hstep.ordered ih.closing ih.ordered
      honest := hstep.honest ih.honest
      attended := hstep.attended ih.attended }

/-- What a reachable bridge comes to is reachable. -/
theorem Reachable.steps (h : Reachable main timeout reentrant x) (hsteps : Steps timeout reentrant x x') :
    Reachable main timeout reentrant x' := by
  induction hsteps with
  | refl => exact h
  | tail _ hstep ih => exact ih.step hstep

/-- A bridge that was shut down is never opened again. -/
theorem Steps.gate (hsteps : Steps timeout reentrant x x') (h : x.gate ≠ .open) : x'.gate ≠ .open := by
  induction hsteps with
  | refl => exact h
  | tail _ hstep ih => exact hstep.gate ih

/-- No unit ends twice. -/
theorem Placed.nodup_ended (h : Placed x) : (x.ended.map Prod.fst).Nodup := by
  refine List.nodup_iff_count_le_one.mpr fun n => ?_
  have hn := h.occurrences_le n
  unfold occurrences at hn
  omega

/-- No unit is begun twice. -/
theorem Ordered.nodup_started (h : Ordered reentrant x) : (x.started.map Prod.fst).Nodup := by
  have hsubmitted : x.submitted.Nodup := h.sorted.imp Nat.ne_of_lt
  have hbatches : x.batches.flatten.Nodup := (List.nodup_append.mp (h.pieces ▸ hsubmitted)).1
  exact (List.nodup_append.mp (h.begun.nodup_iff.mpr hbatches)).1

/-- What is left of a batch behind a unit was queued after it. -/
theorem Ordered.lt_of_left {rest : List Nat} {σ : List Frame} (h : Ordered reentrant x)
    (hframes : x.frames = .batch k (n :: rest) :: σ) {m : Nat} (hm : m ∈ rest) : n < m := by
  have hleft : x.leftOf k = (n :: rest) ++ σ.flatMap (Frame.leftOf k) := by
    rw [leftOf, hframes, List.flatMap_cons]
    show (if k = k then n :: rest else []) ++ _ = _
    rw [if_pos rfl]
  have hflat : x.batches.flatten.Pairwise (· < ·) := (List.pairwise_append.mp (h.pieces ▸ h.sorted)).1
  have hbatch : (x.batches[k]?.getD []).Pairwise (· < ·) := by
    cases hk : x.batches[k]? with
    | none => exact .nil
    | some batch => exact (List.pairwise_flatten.mp hflat).1 batch (List.mem_of_getElem? hk)
  rw [← h.ofBatch k, hleft] at hbatch
  obtain ⟨hfirst, -⟩ := List.pairwise_cons.mp (List.pairwise_append.mp hbatch).2.1
  exact hfirst m (List.mem_append_left _ hm)

/-- Only units that were submitted are begun. -/
theorem Ordered.started_subset (h : Ordered reentrant x) : x.started.map Prod.fst ⊆ x.submitted := by
  intro n hn
  have hbatches : n ∈ x.batches.flatten := h.begun.subset (List.mem_append_left _ hn)
  exact h.pieces ▸ List.mem_append_left _ hbatches

/-- A step takes out of the queue of an attached main thread all that is in it, and out of that of a dedicated one the next unit. -/
theorem Step.takes (hstep : Step timeout reentrant x x') :
    x'.batches = x.batches ∨
      x.bridge.main = .attached ∧ x'.batches = x.batches ++ [x.bridge.pending] ∧ x'.bridge.pending = [] ∨
      x.bridge.main = .dedicated ∧ ∃ n, x.bridge.pending = n :: x'.bridge.pending ∧ x'.batches = x.batches ++ [[n]] := by
  cases hstep with
  | takeUp hmain _ hpending => exact .inr (.inr ⟨hmain, _, hpending, rfl⟩)
  | runPending hmain => exact .inr (.inl ⟨hmain, rfl, rfl⟩)
  | _ => exact .inl rfl

/-- The only units that a unit may be begun before, of those that were queued earlier, are left of a batch further down: one of its
units is running, and has taken up what was queued. -/
theorem Ordered.inTurn (h : Ordered reentrant x) (hstep : Step timeout reentrant x x') (hbegun : x'.started = x.started ++ [(n, k)])
    {m : Nat} (hm : m ∈ x.submitted) (hlt : m < n) :
    m ∈ x.started.map Prod.fst ∨ ∃ j rest, .batch j rest ∈ x.frames.tail ∧ m ∈ rest := by
  have hnone {l : List (Nat × Nat)} (hl : l = l ++ [(n, k)]) : False := by
    cases List.self_eq_append_right.mp hl
  cases hstep with
  | @begin j n' rest σ hframes =>
    obtain ⟨rfl, rfl⟩ := Prod.mk.inj (List.cons.inj (List.append_cancel_left hbegun)).1
    have hleft : x.left = (n' :: rest) ++ σ.flatMap Frame.left := by
      rw [left, hframes, List.flatMap_cons]
      rfl
    have hsorted : (x.batches.flatten ++ (x.bridge.pending ++ x.dropped)).Pairwise (· < ·) := h.pieces ▸ h.sorted
    obtain ⟨-, -, hbehind⟩ := List.pairwise_append.mp hsorted
    have hn : n' ∈ x.batches.flatten :=
      h.begun.subset (List.mem_append_right _ (hleft ▸ List.mem_append_left _ (.head _)))
    -- What was queued before the unit was taken out before it, or with it.
    have htaken : m ∈ x.batches.flatten := by
      rcases List.mem_append.mp (h.pieces ▸ hm) with htaken | hqueued
      · exact htaken
      · exact absurd (hbehind n' hn m hqueued) (Nat.lt_asymm hlt)
    rcases List.mem_append.mp (h.begun.symm.subset htaken) with hstarted | hm'
    · exact .inl hstarted
    rcases List.mem_append.mp (hleft ▸ hm') with hsame | hbelow
    · rcases List.mem_cons.mp hsame with rfl | hrest
      · exact absurd hlt (Nat.lt_irrefl _)
      · exact absurd (h.lt_of_left hframes hrest) (Nat.lt_asymm hlt)
    · obtain ⟨f, hf, hmem⟩ := List.mem_flatMap.mp hbelow
      rw [hframes, List.tail_cons]
      cases f with
      | batch i rest' => exact .inr ⟨i, rest', hf, hmem⟩
      | unit | here => cases hmem
  | _ => exact (hnone hbegun).elim

/-- Whoever calls when, whichever units panic, and whenever the bridge is shut down: a unit is carried out at most once, after all
that was queued before it unless a unit takes up what is queued, its caller learns what came of it and of no other, and nobody waits
for a unit that was thrown away. -/
theorem Reachable.units_delivered (h : Reachable main timeout reentrant x) :
    -- A unit is begun and ends at most once, and only if it was queued.
    (x.started.map Prod.fst).Nodup ∧ (x.ended.map Prod.fst).Nodup ∧ x.started.map Prod.fst ⊆ x.submitted ∧
    -- Units are queued as the calls come and taken out in that order, batch after batch.
    x.submitted.Pairwise (· < ·) ∧ x.submitted = x.batches.flatten ++ (x.bridge.pending ++ x.dropped) ∧
    -- A batch is all that is queued at the moment when a thread of the host takes it out; a dedicated thread takes out one unit.
    (∀ x', Step timeout reentrant x x' → x'.batches = x.batches ∨
      x.bridge.main = .attached ∧ x'.batches = x.batches ++ [x.bridge.pending] ∧ x'.bridge.pending = [] ∨
      x.bridge.main = .dedicated ∧ ∃ n, x.bridge.pending = n :: x'.bridge.pending ∧ x'.batches = x.batches ++ [[n]]) ∧
    -- The units of a batch are begun in order, and all of them before it ends.
    (∀ k batch, x.batches[k]? = some batch → x.startedOf k ++ x.leftOf k = batch ∧
      ((∀ rest, .batch k rest ∉ x.frames) → x.startedOf k = batch)) ∧
    -- A unit is begun before another that was queued earlier only if that one is left of a batch further down, one of whose units is
    -- running and has taken up what is queued.
    (∀ x' n k, Step timeout reentrant x x' → x'.started = x.started ++ [(n, k)] → ∀ m ∈ x.submitted, m < n →
      m ∈ x.started.map Prod.fst ∨ ∃ j rest, .batch j rest ∈ x.frames.tail ∧ m ∈ rest) ∧
    -- So all units are begun in order, as long as no unit takes up what is queued while others of its batch wait.
    (reentrant = false → x.submitted = x.started.map Prod.fst ++ (x.left ++ (x.bridge.pending ++ x.dropped))) ∧
    -- A value is that of the caller's own unit, and so is a panic.
    (∀ n v, x.call n = .settled (.ok v) → (n, .ok v) ∈ x.ended) ∧
    (∀ n p, x.call n = .settled (.error (.panicked p)) → (n, .error p) ∈ x.ended) ∧
    -- Once a shutdown has begun, no unit is taken from another thread; once it is through, an attached thread takes up none.
    (∀ x' n, x.gate ≠ .open → Steps timeout reentrant x x' → x'.bridge.submit n = .error .shutDown) ∧
    (x.gate = .closed → x.bridge.main = .attached → x.live = false) ∧
    -- A caller that waits has its unit queued before someone who takes it up, in a batch that is carried out, or running, or it
    -- has the answer of its unit, or the fault of a unit that was dropped.
    ∀ n, x.call n = .waiting → n ∈ x.bridge.pending ∧ x.live = true ∨ (∃ k rest, .batch k rest ∈ x.frames ∧ n ∈ rest) ∨
      .unit n ∈ x.frames ∨ (∃ e, (n, e) ∈ x.ended ∧ x.reply n = some (e.mapError .panicked)) ∨
      n ∈ x.dropped ∧ x.reply n = some (.error .droppedTask) := by
  obtain ⟨hplaced, hclosing, hordered, hhonest, hattended⟩ := h.sound
  refine ⟨hordered.nodup_started, hplaced.nodup_ended, hordered.started_subset, hordered.sorted, hordered.pieces,
    fun _ hstep => hstep.takes, fun k batch hk => ?_, fun _ n k hstep hbegun m hm hlt => hordered.inTurn hstep hbegun hm hlt,
    fun hre => ?_, fun n v hn => ?_, fun n p hn => ?_, fun x' n hgate hsteps => ?_, hclosing.ends, fun n hn => ?_⟩
  · have hbatch : x.startedOf k ++ x.leftOf k = batch := by
      rw [hordered.ofBatch, hk]
      rfl
    refine ⟨hbatch, fun hover => ?_⟩
    rwa [leftOf_eq_nil hover, List.append_nil] at hbatch
  · rw [hordered.pieces, ← hordered.inOrder hre, List.append_assoc]
  · obtain (⟨e, he, hv⟩ | ⟨-, hv⟩) | ⟨t, -, hv⟩ | ⟨-, hv⟩ := hhonest.settled n _ hn
    · cases e with
      | ok w =>
        cases hv
        exact he
      | error p => cases hv
    · cases hv
    · cases hv
    · cases hv
  · obtain (⟨e, he, hp⟩ | ⟨-, hp⟩) | ⟨t, -, hp⟩ | ⟨-, hp⟩ := hhonest.settled n _ hn
    · cases e with
      | ok w => cases hp
      | error q =>
        cases hp
        exact he
    · cases hp
    · cases hp
    · cases hp
  · exact Bridge.submit_of_not_accepting ((h.steps hsteps).sound.closing.refuses (hsteps.gate hgate)) n
  · rcases hattended n hn with hpend | hleft | hunit | ⟨r, hr⟩
    · refine .inl ⟨hpend, ?_⟩
      cases hlive : x.live with
      | true => rfl
      | false => cases (hclosing.empties hlive).2 ▸ hpend
    · obtain ⟨f, hf, hmem⟩ := List.mem_flatMap.mp hleft
      cases f with
      | batch k rest => exact .inr (.inl ⟨k, rest, hf, hmem⟩)
      | unit | here => cases hmem
    · exact .inr (.inr (.inl hunit))
    · rcases hhonest.reply n r hr with ⟨e, he, rfl⟩ | ⟨hdropped, rfl⟩
      · exact .inr (.inr (.inr (.inl ⟨e, he, hr⟩)))
      · exact .inr (.inr (.inr (.inr ⟨hdropped, hr⟩)))

/-- Two callers before a thread of the host, the first of whose units panics: each learns what came of its own unit. A third one
comes before a shutdown, which drops its unit, and does not wait for it. -/
theorem units_delivered_panicked :
    ∃ x : Exchange Nat, Reachable .attached none false x ∧ x.batches = [[0, 1]] ∧ x.startedOf 0 = [0, 1] ∧
      x.submitted = x.started.map Prod.fst ++ (x.left ++ (x.bridge.pending ++ x.dropped)) ∧
      x.call 0 = .settled (.error (.panicked .other)) ∧ (0, .error .other) ∈ x.ended ∧
      x.call 1 = .settled (.ok 7) ∧ (1, .ok 7) ∈ x.ended ∧
      x.call 2 = .waiting ∧ x.reply 2 = some (.error .droppedTask) ∧ x.bridge.submit 3 = .error .shutDown := by
  have h₁ := (@Reachable.new Nat .attached none false).step (.submit rfl)
  have h₂ := h₁.step (.submit rfl)
  have h₃ := h₂.step (.runPending rfl rfl rfl fun _ => nofun)
  have h₄ := h₃.step (.begin rfl)
  have h₅ := h₄.step (.ends (.error .other) rfl)
  have h₆ := h₅.step (.begin rfl)
  have h₇ := h₆.step (.ends (.ok 7) rfl)
  have h₈ := h₇.step (.batchEnds rfl)
  have h₉ := h₈.step (@Step.answered _ _ _ _ 0 _ rfl rfl)
  have h₁₀ := h₉.step (@Step.answered _ _ _ _ 1 _ rfl rfl)
  have h₁₁ := h₁₀.step (.submit rfl)
  have h₁₂ := h₁₁.step (.close rfl)
  have h₁₃ := h₁₂.step (.drop rfl)
  obtain ⟨x, h, hbatches, hfirst, hsecond, hthird, hpending, hframes, hended, hgate⟩ :
      ∃ x : Exchange Nat, Reachable .attached none false x ∧ x.batches = [[0, 1]] ∧
        x.call 0 = .settled (.error (.panicked .other)) ∧ x.call 1 = .settled (.ok 7) ∧ x.call 2 = .waiting ∧
        x.bridge.pending = [] ∧ x.frames = [] ∧ x.ended.map Prod.fst = [0, 1] ∧ x.gate = .closed :=
    ⟨_, h₁₃, rfl, rfl, rfl, rfl, rfl, rfl, rfl, rfl⟩
  obtain ⟨-, -, -, -, -, -, hwhole, -, horder, hvalue, hpanic, hclosed, -, hwaiting⟩ := h.units_delivered
  have hover (rest : List Nat) : .batch 0 rest ∉ x.frames := by
    rw [hframes]
    exact List.not_mem_nil
  refine ⟨x, h, hbatches, (hwhole 0 [0, 1] (by rw [hbatches]; rfl)).2 hover, horder rfl, hfirst, hpanic 0 .other hfirst, hsecond,
    hvalue 1 7 hsecond, hthird, ?_, hclosed x 3 (by rw [hgate]; nofun) .refl⟩
  -- The third unit is neither queued nor begun, and has not ended.
  rcases hwaiting 2 hthird with ⟨hpend, -⟩ | ⟨k, rest, hbatch, -⟩ | hunit | ⟨e, he, -⟩ | ⟨-, hreply⟩
  · cases hpending ▸ hpend
  · cases hframes ▸ hbatch
  · cases hframes ▸ hunit
  · have hmem : 2 ∈ x.ended.map Prod.fst := List.mem_map_of_mem he
    rw [hended] at hmem
    exact absurd hmem (by decide)
  · exact hreply

/-- Units are not always carried out in the order in which they come. The first of two units takes up what is queued, and so the third
one is begun before the second. And what the main thread itself calls for is carried out while a unit waits that came before it. -/
theorem units_delivered_false :
    (∃ x : Exchange Nat, Reachable .attached none true x ∧ x.submitted = [0, 1, 2] ∧ x.started.map Prod.fst = [0, 2, 1]) ∧
    ∃ x : Exchange Nat, Reachable .attached (some (.ofMilliseconds 10)) false x ∧
      x.call 0 = .settled (.error (.timedOut (.ofMilliseconds 10))) ∧ x.bridge.pending = [0] ∧ x.started = [] ∧
        x.ended = [(1, .ok 7)] := by
  constructor
  · have h₁ := (@Reachable.new Nat .attached none true).step (.submit rfl)
    have h₂ := h₁.step (.submit rfl)
    have h₃ := h₂.step (.runPending rfl rfl rfl nofun)
    have h₄ := h₃.step (.begin rfl)
    have h₅ := h₄.step (.submit rfl)
    -- The first unit is running, and the second is left of its batch.
    have h₆ := h₅.step (.runPending rfl rfl rfl nofun)
    have h₇ := h₆.step (.begin rfl)
    have h₈ := h₇.step (.ends (.ok 7) rfl)
    have h₉ := h₈.step (.batchEnds rfl)
    have h₁₀ := h₉.step (.ends (.ok 7) rfl)
    exact ⟨_, h₁₀.step (.begin rfl), rfl, rfl⟩
  · have h₁ := (@Reachable.new Nat .attached (some (.ofMilliseconds 10)) false).step (.submit rfl)
    have h₂ := h₁.step (@Step.timedOut _ _ _ _ 0 _ rfl rfl)
    have h₃ := h₂.step (.callHere rfl)
    exact ⟨_, h₃.step (.endsHere (.ok 7) rfl), rfl, rfl, rfl, rfl⟩

end Exchange

end EventScript
