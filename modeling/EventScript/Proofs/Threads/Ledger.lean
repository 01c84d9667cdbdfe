import Mathlib.Data.List.Perm.Subperm
import EventScript.Proofs.Threads.Basic

/-!
# The ledger of activations

An activation that has been started and has not ended is in one place: a thread, the queue before the main thread, or the queue
before the workers. The ledger of a system tells of every place which activations are there and in which phase they ought to be,
and besides that the phases they are in and what was reported of their ends. A step of a system is one of few moves on the ledger:
`System.Step.move`.
-/

namespace EventScript

/-- Where activations are that have not ended. -/
inductive Place where
  | thread (θ : Thread)
  | bridge
  | pool
deriving DecidableEq

/-- What one may learn of the end of an activation. -/
inductive Report where
  /-- The main thread answered the caller. -/
  | reply (r : Except BridgeFault Verdict)
  /-- The activation ran on a worker. -/
  | conclusion (c : Conclusion)
  /-- The verdict came with the handle. -/
  | handle (v : Verdict)

/-- The phases that an activation may be in of which this is reported. -/
def Report.Suits : Report → Phase → Prop
  | .reply (.ok v), p => p = .ofVerdict v
  | .reply (.error _), p => p ≠ .completed ∧ p ≠ .cancelled
  | .conclusion (.ok v), p => p = .ofVerdict v
  | .conclusion (.error _), p => p = .running
  | .handle v, p => p = .ofVerdict v

/-- The ways on from a phase. -/
inductive Phase.Next : Phase → Phase → Prop
  | start : Next created running
  | finish {p : Phase} : p.isFinished → Next running p
  | fail : Next created failed

/-- From a phase with a way on nothing has ended. -/
theorem Phase.Next.not_finished {p q : Phase} (h : p.Next q) : ¬p.isFinished := by
  cases h <;> exact Bool.false_ne_true

/-- A verdict is an end. -/
theorem Phase.isFinished_ofVerdict (v : Verdict) : (Phase.ofVerdict v).isFinished := by
  rcases v with f | c
  · rfl
  · cases c <;> rfl

/-- What of a system concerns the phases of its activations. -/
structure Ledger where
  /-- The activations in a place, by number, with the phases that go with it. -/
  tokens : Place → List (Nat × Phase)
  phases : Nat → Option Phase
  reports : Nat → Report → Prop
  abandoned : List Nat
  next : Nat

namespace Ledger

/-- What is in two places is there in another order, in the other place, or no more. -/
def Rearranged (T T' : Place → List (Nat × Phase)) : Prop :=
  ∃ P Q, P ≠ Q ∧ (T' P ++ T' Q).Subperm (T P ++ T Q) ∧ ∀ R, R ≠ P → R ≠ Q → T' R = T R

/-- Beyond what was reported, at most this is. -/
def Adds (L L' : Ledger) (id : Nat) (r : Report) : Prop :=
  ∀ i r', L'.reports i r' → L.reports i r' ∨ i = id ∧ r' = r

section

variable {T : Place → List (Nat × Phase)} {P Q : Place} {k k' : List (Nat × Phase)}

/-- Tokens may go from one place to another, or be dropped on the way. -/
theorem Rearranged.across (hPQ : P ≠ Q) (h : (k ++ k').Subperm (T P ++ T Q)) :
    Rearranged T (Function.update (Function.update T P k) Q k') := by
  refine ⟨P, Q, hPQ, ?_, fun R hP hQ => ?_⟩
  · rw [Function.update_of_ne hPQ, Function.update_self, Function.update_self]
    exact h
  · rw [Function.update_of_ne hQ, Function.update_of_ne hP]

/-- What is in one place may change its order there, and be lost. -/
theorem Rearranged.within (P : Place) (h : k.Subperm (T P)) : Rearranged T (Function.update T P k) := by
  obtain ⟨Q, hQ⟩ : ∃ Q, P ≠ Q := by
    cases P with
    | bridge => exact ⟨.pool, nofun⟩
    | thread | pool => exact ⟨.bridge, nofun⟩
  have hacross : (k ++ T Q).Subperm (T P ++ T Q) := (List.subperm_append_right _).mpr h
  have hupdate := Rearranged.across hQ hacross
  rw [Function.update_comm hQ, Function.update_eq_self] at hupdate
  exact hupdate

/-- To leave them is a rearrangement. -/
theorem Rearranged.refl (T : Place → List (Nat × Phase)) : Rearranged T T := by
  have hsame := Rearranged.within (T := T) .bridge (.refl _)
  rw [Function.update_eq_self] at hsame
  exact hsame

/-- The first in one place becomes the last in another one. -/
theorem Rearranged.hand {x : Nat × Phase} (hPQ : P ≠ Q) (hP : T P = x :: k) :
    Rearranged T (Function.update (Function.update T P k) Q (T Q ++ [x])) := by
  refine .across hPQ (List.Perm.subperm ?_)
  rw [hP, ← List.append_assoc]
  exact List.perm_append_singleton x (k ++ T Q)

end

/-- What may happen to the activations of a system. -/
inductive Move (L L' : Ledger) : Prop
  /-- Activations are handed on or lost. -/
  | pass : Rearranged L.tokens L'.tokens → L'.phases = L.phases → (∀ i r, L'.reports i r → L.reports i r) →
      L'.abandoned = L.abandoned → L'.next = L.next → Move L L'
  /-- An activation is made. -/
  | make (P : Place) : L'.tokens = Function.update L.tokens P ((L.next, .created) :: L.tokens P) →
      L'.phases = Function.update L.phases L.next (some .created) → (∀ i r, L'.reports i r → L.reports i r) →
      L'.abandoned = L.abandoned → L'.next = L.next + 1 → Move L L'
  /-- An activation is skipped. -/
  | skip : L'.tokens = L.tokens → L'.phases = Function.update L.phases L.next (some .cancelled) →
      L.Adds L' L.next (.handle (.ok .cancelled)) → L'.abandoned = L.abandoned → L'.next = L.next + 1 → Move L L'
  /-- An activation begins to run. -/
  | enter (P : Place) (id : Nat) (k : List (Nat × Phase)) : L.tokens P = (id, .created) :: k →
      L'.tokens = Function.update L.tokens P ((id, .running) :: k) →
      L'.phases = Function.update L.phases id (some .running) → (∀ i r, L'.reports i r → L.reports i r) →
      L'.abandoned = L.abandoned → L'.next = L.next → Move L L'
  /-- An activation that runs ends, or one fails that has yet to. -/
  | finish (P : Place) (id : Nat) (p q : Phase) (k : List (Nat × Phase)) (r : Report) : L.tokens P = (id, p) :: k →
      p.Next q → r.Suits q → L'.tokens = Function.update L.tokens P k →
      L'.phases = Function.update L.phases id (some q) → L.Adds L' id r → L'.abandoned = L.abandoned → L'.next = L.next →
      Move L L'
  /-- An activation panics, and nobody writes its phase. -/
  | panic (P : Place) (id : Nat) (k : List (Nat × Phase)) (r : Report) : L.tokens P = (id, .running) :: k →
      r.Suits .running → L'.tokens = Function.update L.tokens P k → L'.phases = L.phases → L.Adds L' id r →
      L'.abandoned = L.abandoned → L'.next = L.next → Move L L'
  /-- A caller takes the answer of the main thread. -/
  | hear (id : Nat) (v : Verdict) : L.reports id (.reply (.ok v)) → L'.tokens = L.tokens → L'.phases = L.phases →
      L.Adds L' id (.handle v) → L'.abandoned = L.abandoned → L'.next = L.next → Move L L'
  /-- A caller learns that its activation comes to no answer. -/
  | fault (id : Nat) (f g : BridgeFault) : L.reports id (.reply (.error f)) → L'.tokens = L.tokens →
      L'.phases = Function.update L.phases id (some .failed) → L.Adds L' id (.handle (.error (.bridge g))) →
      L'.abandoned = L.abandoned → L'.next = L.next → Move L L'
  /-- A caller goes on without its activation. -/
  | abandon (id : Nat) (f : BridgeFault) : L'.tokens = L.tokens → L'.phases = Function.update L.phases id (some .failed) →
      L.Adds L' id (.handle (.error (.bridge f))) → L'.abandoned = id :: L.abandoned → L'.next = L.next → Move L L'
  /-- Tasks are dropped before the main thread. -/
  | drop (P : Place) : L'.tokens = Function.update L.tokens P [] → L'.phases = L.phases →
      (∀ i r, L'.reports i r → L.reports i r ∨ (i, .created) ∈ L.tokens P ∧ r = .reply (.error .droppedTask)) →
      L'.abandoned = L.abandoned → L'.next = L.next → Move L L'

end Ledger

/-! ## The ledger of a system -/

variable {H : Type}

def MainTask.tokens : MainTask H → List (Nat × Phase)
  | .activation a _ => [(a.id, .created)]
  | .work _ => []

/-- The activations among tasks are those that have numbers. -/
theorem mem_tokens_of_activation? {ts : List (MainTask H)} {id : Nat} (h : some id ∈ ts.map MainTask.activation?) :
    (id, .created) ∈ ts.flatMap MainTask.tokens := by
  obtain ⟨t, ht, hid⟩ := List.mem_map.mp h
  refine List.mem_flatMap.mpr ⟨t, ht, ?_⟩
  cases t with
  | work => cases hid
  | activation a vars =>
    cases hid
    exact List.mem_singleton_self _

def Duty.tokens : Duty H → List (Nat × Phase)
  | .script a _ => [(a.id, .running)]
  | .batch rest => rest.flatMap MainTask.tokens
  | .host | .task | .job => []

def Errand.tokens : Errand H → List (Nat × Phase)
  | .starting a | .entering a => [(a.id, .created)]
  | .idle | .asking .. | .inside | .waiting _ => []

def Level.tokens (l : Level H) : List (Nat × Phase) := l.errand.tokens ++ l.duty.tokens

namespace System

variable {s s' : System H} {θ : Thread} {σ : List (Level H)}

def tokens (s : System H) : Place → List (Nat × Phase)
  | .thread θ => (s.stack θ).flatMap Level.tokens
  | .bridge => s.engine.bridge.pending.flatMap MainTask.tokens
  | .pool => s.engine.workers.queue.map fun job => (job.activation.id, .created)

def reports (s : System H) (id : Nat) : Report → Prop
  | .reply r => ∃ answer, s.replies id = some answer ∧ answer.map Prod.fst = r
  | .conclusion c => s.engine.conclusions[id]? = some c
  | .handle v => ⟨id, some v⟩ ∈ s.handles

def ledger (s : System H) : Ledger where
  tokens := s.tokens
  phases id := s.engine.phases[id]?
  reports := s.reports
  abandoned := s.abandoned
  next := s.engine.nextActivation

/-! ### What the parts of a step do to it -/

/-- A thread that is given other levels has their tokens. -/
theorem tokens_put (s : System H) (θ : Thread) (levels : List (Level H)) :
    (s.put θ levels).tokens = Function.update s.tokens (.thread θ) (levels.flatMap Level.tokens) := by
  funext P
  cases P with
  | thread θ' =>
    by_cases hθ : θ' = θ
    · subst hθ
      rw [Function.update_self]
      simp only [tokens, stack_put_self]
    · rw [Function.update_of_ne (by simpa using hθ)]
      simp only [tokens, stack_put_of_ne s θ levels hθ]
  | bridge => rfl
  | pool => rfl

/-- A bridge has the tokens of what waits before it. -/
theorem tokens_setBridge (s : System H) (b : Bridge (MainTask H)) :
    (s.setBridge b).tokens = Function.update s.tokens .bridge (b.pending.flatMap MainTask.tokens) := by
  funext P
  cases P <;> rfl

/-- The pool has a token for each job that waits. -/
theorem tokens_setWorkers (s : System H) (p : Pool (Job H)) :
    (s.setWorkers p).tokens = Function.update s.tokens .pool (p.queue.map fun job => (job.activation.id, .created)) := by
  funext P
  cases P <;> rfl

/-- A thread has the tokens of its level in front, and of those under it. -/
theorem tokens_of_stack {l : Level H} (hθ : s.stack θ = l :: σ) :
    s.tokens (.thread θ) = l.tokens ++ σ.flatMap Level.tokens := by
  simp only [tokens, hθ, List.flatMap_cons]

/-- Where an activation has ended, its caller has the tokens that it had. -/
theorem tokens_goneOn (duty : Duty H) (vars : Variables) (σ : List (Level H)) :
    (goneOn duty vars σ).flatMap Level.tokens = duty.tokens ++ σ.flatMap Level.tokens := by
  cases duty <;> rfl

/-- When an activation has ended, it is no longer on its thread, and that is all. -/
theorem EndsIn.leaves {duty : Duty H} {vars : Variables} (h : s.EndsIn θ (goneOn duty vars σ) s') :
    s'.tokens = Function.update s.tokens (.thread θ) (duty.tokens ++ σ.flatMap Level.tokens) ∧
      s'.ledger.phases = s.ledger.phases ∧ s'.abandoned = s.abandoned ∧ s'.ledger.next = s.ledger.next := by
  obtain ⟨_, he⟩ := h.engine
  refine ⟨?_, ?_, h.abandoned, (congrArg Engine.nextActivation he).trans rfl⟩
  · rw [← tokens_goneOn duty vars, ← tokens_put]
    funext P
    cases P with
    | thread φ => exact congrArg (·.flatMap Level.tokens) (congrFun h.stack φ)
    | bridge => exact congrArg (·.bridge.pending.flatMap MainTask.tokens) he
    | pool => exact congrArg (·.workers.queue.map fun job => (job.activation.id, Phase.created)) he
  · funext i
    exact congrArg (·.phases[i]?) he

/-- To set a phase sets the one of that activation. -/
theorem phases_setPhase (e : Engine H) (id : Nat) (p : Phase) :
    (fun i => (e.setPhase id p).phases[i]?) = Function.update (fun i => e.phases[i]?) id (some p) := by
  funext i
  simp only [Engine.setPhase, Std.ExtTreeMap.getElem?_insert, Function.update_apply, Std.LawfulEqCmp.compare_eq_iff_eq]
  by_cases hi : i = id
  · rw [if_pos hi, if_pos hi.symm]
  · rw [if_neg hi, if_neg (Ne.symm hi)]

/-- A reply is reported to the caller that waits for it. -/
theorem adds_reply (s : System H) (id : Nat) (r : Except BridgeFault (Verdict × Variables)) :
    s.ledger.Adds (s.reply id r).ledger id (.reply (r.map Prod.fst)) := by
  intro i r' hr'
  cases r' with
  | reply =>
    obtain ⟨answer, hanswer, rfl⟩ := hr'
    have hupdate : Function.update s.replies id (some r) i = some answer := hanswer
    rw [Function.update_apply] at hupdate
    split at hupdate
    next hi =>
      cases hupdate
      exact .inr ⟨hi, rfl⟩
    · exact .inl ⟨answer, hupdate, rfl⟩
  | conclusion => exact .inl hr'
  | handle => exact .inl hr'

/-- A conclusion is reported to those who wait for the activation. -/
theorem adds_conclude (s : System H) (id : Nat) (c : Conclusion) :
    s.ledger.Adds (s.conclude id c).ledger id (.conclusion c) := by
  intro i r' hr'
  cases r' with
  | reply => exact .inl hr'
  | conclusion c' =>
    have hinsert : (s.engine.conclusions.insert id c)[i]? = some c' := hr'
    rw [Std.ExtTreeMap.getElem?_insert] at hinsert
    split at hinsert
    next hi =>
      cases hinsert
      exact .inr ⟨(Std.LawfulEqCmp.compare_eq_iff_eq.mp hi).symm, rfl⟩
    · exact .inl hinsert
  | handle => exact .inl hr'

/-- A handle reports the verdict that it has. -/
theorem adds_handOut (s : System H) (id : Nat) (v : Verdict) :
    s.ledger.Adds (s.handOut ⟨id, some v⟩).ledger id (.handle v) := by
  intro i r' hr'
  cases r' with
  | reply => exact .inl hr'
  | conclusion => exact .inl hr'
  | handle v' =>
    rcases List.mem_cons.mp hr' with hnew | hold
    · cases hnew
      exact .inr ⟨rfl, rfl⟩
    · exact .inl hold

/-- A verdict is told to whoever the activation was run for. -/
theorem adds_deliver (s : System H) (θ : Thread) (a : Activation H) (v : Verdict) (reached : Variables) (duty : Duty H)
    (σ : List (Level H)) :
    ∃ r : Report, r.Suits (.ofVerdict v) ∧ s.ledger.Adds (s.deliver θ a v reached duty σ).ledger a.id r := by
  cases duty with
  | task => exact ⟨.reply (.ok v), rfl, adds_reply (s.put θ σ) a.id (.ok (v, reached))⟩
  | job => exact ⟨.conclusion (.ok v), rfl, adds_conclude (s.put θ σ) a.id (.ok v)⟩
  | host => exact ⟨.handle v, rfl, adds_handOut (s.put θ _) a.id v⟩
  | script => exact ⟨.handle v, rfl, adds_handOut (s.put θ _) a.id v⟩
  | batch => exact ⟨.handle v, rfl, adds_handOut (s.put θ _) a.id v⟩

/-- A panic is told to the caller on another thread and to those who wait for a worker. -/
theorem adds_unwind (s : System H) (θ : Thread) (a : Activation H) (p : Panic) (duty : Duty H) (vars : Variables)
    (σ : List (Level H)) :
    ∃ r : Report, r.Suits .running ∧ s.ledger.Adds (s.unwind θ a p duty vars σ).ledger a.id r := by
  have hconclusion : (Report.conclusion (.error (.panicked p))).Suits .running := rfl
  cases duty with
  | task => exact ⟨.reply (.error (.panicked p)), ⟨nofun, nofun⟩, adds_reply (s.put θ σ) a.id (.error (.panicked p))⟩
  | job => exact ⟨_, hconclusion, adds_conclude (s.put θ σ) a.id (.error (.panicked p))⟩
  | host => exact ⟨_, hconclusion, fun _ _ => .inl⟩
  | script => exact ⟨_, hconclusion, fun _ _ => .inl⟩
  | batch => exact ⟨_, hconclusion, fun _ _ => .inl⟩

/-! ### Steps are moves -/

/-- The tokens of an engine are in its queues. -/
theorem tokens_engine (s : System H) {e : Engine H} (hbridge : e.bridge = s.engine.bridge)
    (hworkers : e.workers = s.engine.workers) : tokens { s with engine := e } = s.tokens := by
  funext P
  cases P with
  | thread => rfl
  | bridge => simp only [tokens, hbridge]
  | pool => simp only [tokens, hworkers]

/-- Levels of a thread change, and what they hold does not. -/
theorem tokens_put_same (s : System H) (θ : Thread) (levels : List (Level H))
    (h : levels.flatMap Level.tokens = s.tokens (.thread θ)) : (s.put θ levels).tokens = s.tokens := by
  rw [tokens_put, h, Function.update_eq_self]

/-- What it reports is in what activations have come to. -/
theorem reports_engine (s : System H) {e : Engine H} (h : e.conclusions = s.engine.conclusions) (i : Nat) (r : Report)
    (hr : reports { s with engine := e } i r) : s.reports i r := by
  cases r with
  | reply => exact hr
  | conclusion c =>
    have hconclusion : e.conclusions[i]? = some c := hr
    rw [h] at hconclusion
    exact hconclusion
  | handle => exact hr

/-- To give a thread levels with the same tokens moves nothing. -/
theorem move_put (s : System H) (θ : Thread) {levels : List (Level H)}
    (h : levels.flatMap Level.tokens = s.tokens (.thread θ)) : Ledger.Move s.ledger (s.put θ levels).ledger := by
  refine .pass ?_ rfl (fun _ _ hr => hr) rfl rfl
  show Ledger.Rearranged s.tokens (s.put θ levels).tokens
  rw [tokens_put_same s θ levels h]
  exact .refl _

/-- The engine changes, and nothing that concerns activations does. -/
theorem move_engine (s : System H) {e : Engine H} {events : List Nat} {accepting : Bool}
    (he : e.affairs = { s.engine.affairs with cancelledEvents := events, accepting := accepting }) :
    Ledger.Move s.ledger (ledger { s with engine := e }) := by
  have hphases : (ledger { s with engine := e }).phases = s.ledger.phases := by
    funext i
    exact congrArg (·[i]?) (congrArg Affairs.phases he)
  refine .pass ?_ hphases (reports_engine s (congrArg Affairs.conclusions he)) rfl (congrArg Affairs.nextActivation he)
  show Ledger.Rearranged s.tokens (tokens { s with engine := e })
  rw [tokens_engine s (congrArg Affairs.bridge he) (congrArg Affairs.workers he)]
  exact .refl _

/-- The phase of a new activation is the only one that changes. -/
theorem newActivation_leaves (s : System H) (p : Phase) {e : Engine H} (he : e.affairs = s.engine.affairs) :
    tokens { s with engine := (Engine.newActivation p e).2 } = s.tokens ∧
      (ledger { s with engine := (Engine.newActivation p e).2 }).phases =
        Function.update s.ledger.phases s.ledger.next (some p) ∧
      (∀ i r, reports { s with engine := (Engine.newActivation p e).2 } i r → s.reports i r) ∧
      (Engine.newActivation p e).2.nextActivation = s.ledger.next + 1 := by
  have hnext : e.nextActivation = s.engine.nextActivation := congrArg Affairs.nextActivation he
  refine ⟨tokens_engine s (congrArg Affairs.bridge he) (congrArg Affairs.workers he), ?_,
    reports_engine s (congrArg Affairs.conclusions he), congrArg (· + 1) hnext⟩
  have hphases : e.phases = s.engine.phases := congrArg Affairs.phases he
  show (fun i => (e.setPhase e.nextActivation p).phases[i]?) = _
  rw [phases_setPhase, hnext, hphases]
  rfl

/-- The first activation on a thread is handed to another place. -/
theorem rearranged_hand {x : Nat × Phase} {k : List (Nat × Phase)} {P : Place} (hP : .thread θ ≠ P)
    (hθ : s.tokens (.thread θ) = x :: k) {levels : List (Level H)} (hlevels : levels.flatMap Level.tokens = k) :
    Ledger.Rearranged s.tokens (Function.update (s.put θ levels).tokens P (s.tokens P ++ [x])) := by
  rw [tokens_put, hlevels]
  exact .hand hP hθ

/-- A step is a move on the ledger. -/
theorem Step.move (hstep : Step s s') : Ledger.Move s.ledger s'.ledger := by
  cases hstep with
  | act he => exact move_engine s he
  | assign hθ => exact move_put s _ (tokens_of_stack hθ).symm
  | @cancelEvent θ a outside =>
    obtain ⟨events, he⟩ := Engine.affairs_cancelEventFor (a.callerOn θ outside) s.engine
    exact move_engine s he
  | @handOver θ duty vars σ w b hθ hcode hmain hb =>
    have htokens : (s.setBridge b).tokens = s.tokens := by
      rw [tokens_setBridge, Bridge.pending_submit hb, List.flatMap_append]
      show Function.update s.tokens .bridge (s.tokens .bridge ++ []) = s.tokens
      rw [List.append_nil, Function.update_eq_self]
    refine .pass ?_ rfl (fun _ _ hr => hr) rfl rfl
    show Ledger.Rearranged s.tokens (s.setBridge b).tokens
    rw [htokens]
    exact .refl _
  | hostEnters => exact move_put s _ rfl
  | hostLeaves hθ => exact move_put s _ (tokens_of_stack hθ).symm
  | ask t c mode hθ => exact move_put s _ (tokens_of_stack hθ).symm
  | @skip θ duty vars σ t c mode hθ =>
    obtain ⟨htokens, hphases, hreports, hnext⟩ := newActivation_leaves s .cancelled (Engine.affairs_isCooling t c s.engine)
    have hlevels := (tokens_of_stack hθ).symm.trans (congrFun htokens.symm _)
    refine .skip ((tokens_put_same _ θ (⟨duty, vars, .idle⟩ :: σ) hlevels).trans htokens) hphases (fun i r hr => ?_) rfl hnext
    exact (adds_handOut _ s.engine.nextActivation (.ok .cancelled) i r hr).imp_left (hreports i r)
  | @make θ duty vars σ t c mode hθ =>
    obtain ⟨htokens, hphases, hreports, hnext⟩ := newActivation_leaves s .created (Engine.affairs_isCooling t c s.engine)
    refine .make (.thread θ) ((tokens_put ..).trans ?_) hphases hreports rfl hnext
    rw [htokens]
    exact congrArg (fun k => Function.update s.tokens _ ((s.engine.nextActivation, .created) :: k)) (tokens_of_stack hθ).symm
  | stay hθ hsync => exact move_put s _ (tokens_of_stack hθ).symm
  | @cross θ duty vars a σ b hθ hsync hmain hb =>
    refine .pass ?_ rfl (fun _ _ hr => hr) rfl rfl
    show Ledger.Rearranged s.tokens ((s.put θ (⟨duty, ∅, .waiting a⟩ :: σ)).setBridge b).tokens
    rw [tokens_setBridge, Bridge.pending_submit hb, List.flatMap_append]
    exact rearranged_hand (by exact nofun) (tokens_of_stack hθ) rfl
  | @crossRefused θ duty vars a σ f hθ =>
    refine .finish (.thread θ) a.id .created .failed _ (.handle (.error (.bridge f))) (tokens_of_stack hθ) .fail rfl
      (tokens_put s θ _) (phases_setPhase ..) (adds_handOut ((s.put θ _).setPhase a.id .failed) a.id _) rfl rfl
  | @queue θ duty vars a σ p hθ hasync hp =>
    refine .pass ?_ rfl ?_ rfl rfl
    · show Ledger.Rearranged s.tokens ((s.put θ (⟨duty, vars, .idle⟩ :: σ)).setWorkers p).tokens
      rw [tokens_setWorkers, Pool.queue_submit hp, List.map_append]
      exact rearranged_hand (by exact nofun) (tokens_of_stack hθ) rfl
    · rintro i (_ | _ | v) hr
      · exact hr
      · exact hr
      · rcases List.mem_cons.mp hr with hnew | hold
        · cases hnew
        · exact hold
  | @queueRefused θ duty vars a σ f hθ =>
    refine .pass ?_ rfl (fun _ _ hr => hr) rfl rfl
    show Ledger.Rearranged s.tokens (s.put θ (⟨duty, vars, .idle⟩ :: σ)).tokens
    rw [tokens_put]
    refine .within _ ?_
    rw [tokens_of_stack hθ]
    exact (List.sublist_cons_self _ _).subperm
  | @enter θ duty vars a σ hθ =>
    exact .enter (.thread θ) a.id _ (tokens_of_stack hθ) (tokens_put s θ _) (phases_setPhase ..) (fun _ _ hr => hr) rfl rfl
  | @refuse θ duty vars a σ hθ =>
    let v : Verdict := .error (.runtime (.callDepth a.trigger.name s.engine.maxDepth))
    obtain ⟨r, hsuits, hadds⟩ := adds_deliver (s.setPhase a.id .failed) θ a v vars duty σ
    obtain ⟨htokens, hphases, habandoned, hnext⟩ := (endsIn_deliver (s.setPhase a.id .failed) θ a v vars duty σ).leaves
    exact .finish (.thread θ) a.id .created .failed _ r (tokens_of_stack hθ) .fail hsuits htokens
      (hphases.trans (phases_setPhase ..)) hadds habandoned hnext
  | @finish θ duty vars reached a outside σ v hθ =>
    let s₁ := (s.setDepth θ outside).setPhase a.id (.ofVerdict v)
    obtain ⟨r, hsuits, hadds⟩ := adds_deliver s₁ θ a v reached duty σ
    obtain ⟨htokens, hphases, habandoned, hnext⟩ := (endsIn_deliver s₁ θ a v reached duty σ).leaves
    exact .finish (.thread θ) a.id .running (.ofVerdict v) _ r (tokens_of_stack hθ)
      (.finish (Phase.isFinished_ofVerdict v)) hsuits htokens (hphases.trans (phases_setPhase ..)) hadds habandoned hnext
  | @panic θ duty vars reached a outside σ p hθ =>
    obtain ⟨r, hsuits, hadds⟩ := adds_unwind (s.setDepth θ outside) θ a p duty vars σ
    obtain ⟨htokens, hphases, habandoned, hnext⟩ := (endsIn_unwind (s.setDepth θ outside) θ a p duty vars σ).leaves
    exact .panic (.thread θ) a.id _ r (tokens_of_stack hθ) hsuits htokens hphases hadds habandoned hnext
  | @takeTask t rest hmain hidle hpending =>
    refine .pass ?_ rfl (fun _ _ hr => hr) rfl rfl
    show Ledger.Rearranged s.tokens ((s.put .main [⟨.batch [t], ∅, .idle⟩]).setBridge _).tokens
    rw [tokens_setBridge, tokens_put]
    refine .across (by exact nofun) ?_
    simp only [tokens, hidle, hpending, List.flatMap_cons, List.flatMap_nil, List.append_nil, List.nil_append, Level.tokens,
      Errand.tokens, Duty.tokens]
    exact .refl _
  | runPending =>
    refine .pass ?_ rfl (fun _ _ hr => hr) rfl rfl
    show Ledger.Rearranged s.tokens ((s.put .main (⟨.batch s.engine.bridge.pending, ∅, .idle⟩ :: _)).setBridge _).tokens
    rw [tokens_setBridge, tokens_put]
    refine .across (by exact nofun) (List.Perm.subperm ?_)
    rw [Bridge.collect, List.flatMap_nil, List.append_nil]
    exact List.perm_append_comm
  | nextActivation hθ => exact move_put s _ (tokens_of_stack hθ).symm
  | nextWork hθ => exact move_put s _ (tokens_of_stack hθ).symm
  | batchEnds hθ => exact move_put s _ (tokens_of_stack hθ).symm
  | @takeJob i job p hi hidle hjob =>
    refine .pass ?_ rfl (fun _ _ hr => hr) rfl rfl
    show Ledger.Rearranged s.tokens ((s.put (.worker i) [⟨.job, job.locals, .entering job.activation⟩]).setWorkers p).tokens
    rw [tokens_setWorkers, tokens_put]
    refine .across (by exact nofun) ?_
    simp only [tokens, hidle, Pool.queue_take? hjob]
    exact .refl _
  | @answered θ duty vars a σ v reached hθ hreply =>
    have htokens := tokens_put_same s θ (⟨duty, reached, .idle⟩ :: σ) (tokens_of_stack hθ).symm
    exact .hear a.id v ⟨_, hreply, rfl⟩ htokens rfl (adds_handOut (s.put θ _) a.id v) rfl rfl
  | @faulted θ duty vars a σ f hθ hreply =>
    have htokens := tokens_put_same s θ (⟨duty, vars, .idle⟩ :: σ) (tokens_of_stack hθ).symm
    exact .fault a.id f f ⟨_, hreply, rfl⟩ htokens (phases_setPhase ..)
      (adds_handOut ((s.put θ _).setPhase a.id .failed) a.id _) rfl rfl
  | @timedOut θ duty vars a σ t hθ =>
    have htokens := tokens_put_same s θ (⟨duty, vars, .idle⟩ :: σ) (tokens_of_stack hθ).symm
    exact .abandon a.id (.timedOut t) htokens (phases_setPhase ..)
      (adds_handOut ((s.put θ _).setPhase a.id .failed) a.id _) rfl rfl
  | close => exact move_engine s rfl
  | closeBridge =>
    cases hmain : s.engine.bridge.main with
    | dedicated =>
      refine .pass ?_ rfl (fun i r hr => ?_) rfl rfl
      · show Ledger.Rearranged s.tokens (s.setBridge s.engine.bridge.shutDown).tokens
        rw [tokens_setBridge, Bridge.shutDown, hmain]
        exact .within _ (.refl _)
      · cases r with
        | reply =>
          obtain ⟨answer, hanswer, hr⟩ := hr
          simp only [Bridge.dropped, hmain, List.map_nil, List.not_mem_nil, if_false] at hanswer
          exact ⟨answer, hanswer, hr⟩
        | conclusion => exact hr
        | handle => exact hr
    | attached =>
      refine .drop .bridge ?_ rfl (fun i r hr => ?_) rfl rfl
      · show (s.setBridge s.engine.bridge.shutDown).tokens = _
        rw [tokens_setBridge, Bridge.shutDown, hmain]
        rfl
      · cases r with
        | reply =>
          obtain ⟨answer, hanswer, rfl⟩ := hr
          simp only [Bridge.dropped, hmain] at hanswer
          split at hanswer
          next hdropped =>
            cases hanswer
            exact .inr ⟨mem_tokens_of_activation? hdropped, rfl⟩
          · exact .inl ⟨answer, hanswer, rfl⟩
        | conclusion => exact .inl hr
        | handle => exact .inl hr
  | closeWorkers =>
    refine .pass ?_ rfl (fun _ _ hr => hr) rfl rfl
    show Ledger.Rearranged s.tokens (s.setWorkers s.engine.workers.shutDown).tokens
    rw [tokens_setWorkers]
    exact .within _ (.refl _)

end System

end EventScript
