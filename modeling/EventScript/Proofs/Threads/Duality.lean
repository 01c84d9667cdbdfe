import EventScript.Proofs.Threads.Stations

/-!
# Modes and threads

Synchronous activations run on the main thread and asynchronous ones on workers, whatever calls they come from:
`System.Reachable.duality`. The mode is chosen where an activation is made and the thread later, so what is kept by every step
speaks of all the places in between (`System.InPlace`): of the activations that are about to run on a thread, of the tasks before
the main thread, those it has taken up, and the jobs before the workers.
-/

namespace EventScript

variable {H : Type}

/-- The thread is one for activations of this mode. -/
def Activation.FitsOn (a : Activation H) (θ : Thread) : Prop :=
  match a.mode with
  | .sync => θ = .main
  | .async => ∃ i, θ = .worker i

theorem Activation.fitsOn_of_sync {a : Activation H} {θ : Thread} (h : a.mode = .sync) : a.FitsOn θ ↔ θ = .main := by
  simp only [FitsOn, h]

theorem Activation.fitsOn_of_async {a : Activation H} {θ : Thread} (h : a.mode = .async) :
    a.FitsOn θ ↔ ∃ i, θ = .worker i := by
  simp only [FitsOn, h]

/-- An activation that is handed to the main thread is synchronous. -/
def MainTask.IsSync : MainTask H → Prop
  | .activation a _ => a.mode = .sync
  | .work _ => True

def Duty.FitsOn (θ : Thread) : Duty H → Prop
  | .script a _ => a.FitsOn θ
  | .batch rest => ∀ t ∈ rest, t.IsSync
  | .host | .task | .job => True

def Errand.FitsOn (θ : Thread) : Errand H → Prop
  | .entering a => a.FitsOn θ
  | .idle | .asking .. | .starting _ | .inside | .waiting _ => True

def Level.FitsOn (l : Level H) (θ : Thread) : Prop := l.duty.FitsOn θ ∧ l.errand.FitsOn θ

/-- What the mode of an activation says of its station. A thread where it is only made may be any. -/
def Station.Fits (a : Activation H) : Station → Prop
  | .starting _ => True
  | .entering θ | .running θ => a.FitsOn θ
  | .task => a.mode = .sync
  | .job => a.mode = .async

theorem Station.fits_goesOn : Station.GoesOn fun x (a : Activation H) => x.Fits a where
  stay _ hsync _ := (Activation.fitsOn_of_sync hsync).mpr rfl
  cross _ _ hsync _ _ := hsync
  queue _ _ hasync _ := hasync
  enter _ _ h := h
  take _ hsync := (Activation.fitsOn_of_sync hsync).mpr rfl
  assign _ i hasync := (Activation.fitsOn_of_async hasync).mpr ⟨i, rfl⟩

theorem MainTask.isSync_of_each {t : MainTask H} (h : t.Each fun x a => x.Fits a) : t.IsSync := by
  cases t with
  | activation a vars => exact h
  | work w => trivial

theorem Level.fitsOn_of_each {θ : Thread} {l : Level H} (h : l.Each (fun x a => x.Fits a) θ) : l.FitsOn θ := by
  obtain ⟨duty, vars, errand⟩ := l
  refine ⟨?_, ?_⟩
  · cases duty with
    | batch rest => exact fun t ht => MainTask.isSync_of_each (h.1 t ht)
    | script | host | task | job => exact h.1
  · cases errand with
    | entering a => exact h.2
    | idle | asking | starting | inside | waiting => trivial

namespace System

variable {s s' : System H} {θ : Thread} {σ : List (Level H)}

/-- Every activation is where its mode wants it, or on its way there. -/
structure InPlace (s : System H) : Prop where
  levels : ∀ θ, ∀ l ∈ s.stack θ, l.FitsOn θ
  pending : ∀ t ∈ s.engine.bridge.pending, t.IsSync
  queue : ∀ job ∈ s.engine.workers.queue, job.activation.mode = .async

/-- Every step leaves the activations in their places. -/
theorem Reachable.inPlace (h : Reachable s) : s.InPlace := by
  have hfits : s.Each fun x a => x.Fits a := by
    induction h with
    | new => exact each_new ..
    | step _ hstep ih => exact hstep.each Station.fits_goesOn (fun _ _ _ => trivial) ih
  exact ⟨fun θ l hl => Level.fitsOn_of_each (hfits.levels θ l hl), fun t ht => MainTask.isSync_of_each (hfits.pending t ht),
    hfits.queue⟩

/-! ## Who cancels events -/

/-- Events are cancelled by synchronous activations that run, and by nothing else. -/
theorem Step.cancelledEvents (hstep : Step s s') :
    s'.engine.cancelledEvents = s.engine.cancelledEvents ∨
      ∃ θ a outside, s.Runs θ a outside ∧ a.mode = .sync ∧ s'.engine = s.engine.cancelEvent a.context.id := by
  have hends {s₁ s₂ : System H} {θ : Thread} {levels : List (Level H)} (hends : s₁.EndsIn θ levels s₂) :
      s₂.engine.cancelledEvents = s₁.engine.cancelledEvents := by
    obtain ⟨_, he⟩ := hends.affairs
    exact congrArg Affairs.cancelledEvents he
  cases hstep with
  | act he => exact .inl (congrArg Affairs.cancelledEvents he)
  | @cancelEvent θ a outside vars σ hθ =>
    obtain h | ⟨hsync, -, h⟩ := Engine.cancelEventFor_cases (a.callerOn θ outside) s.engine
    · exact .inl (congrArg Engine.cancelledEvents h)
    · have hmem : (⟨.script a outside, vars, .idle⟩ : Level H) ∈ s.stack θ := hθ ▸ List.mem_cons_self
      exact .inr ⟨θ, a, outside, ⟨_, hmem, rfl⟩, hsync, h⟩
  | @skip _ _ _ _ t c _ hθ => exact .inl (congrArg Affairs.cancelledEvents (Engine.affairs_isCooling t c s.engine))
  | @make _ _ _ _ t c _ hθ => exact .inl (congrArg Affairs.cancelledEvents (Engine.affairs_isCooling t c s.engine))
  | refuse | finish => exact .inl ((hends (endsIn_deliver ..)).trans rfl)
  | panic => exact .inl ((hends (endsIn_unwind ..)).trans rfl)
  | _ => exact .inl rfl

/-- Synchronous activations run on the main thread and asynchronous ones on workers, so that an event is only ever cancelled from
the main thread, by a synchronous activation that runs there. -/
theorem Reachable.duality (h : Reachable s) :
    (∀ θ a outside, s.Runs θ a outside →
      ((a.callerOn θ outside).mode = .sync → θ = .main) ∧ ((a.callerOn θ outside).mode = .async → ∃ i, θ = .worker i)) ∧
    ∀ s', Step s s' → s'.engine.cancelledEvents ≠ s.engine.cancelledEvents →
      ∃ a outside, s.Runs .main a outside ∧ (a.callerOn .main outside).mode = .sync ∧
        s'.engine = s.engine.cancelEvent a.context.id := by
  have hruns : ∀ θ a outside, s.Runs θ a outside → a.FitsOn θ := by
    rintro θ a outside ⟨⟨_, vars, errand⟩, hl, rfl⟩
    exact (h.inPlace.levels θ _ hl).1
  refine ⟨fun θ a outside hrun => ⟨fun hsync => ?_, fun hasync => ?_⟩, fun s' hstep hchange => ?_⟩
  · exact (Activation.fitsOn_of_sync hsync).mp (hruns θ a outside hrun)
  · exact (Activation.fitsOn_of_async hasync).mp (hruns θ a outside hrun)
  · obtain hsame | ⟨θ, a, outside, hrun, hsync, hcancelled⟩ := hstep.cancelledEvents
    · exact absurd hsame hchange
    · obtain rfl := (Activation.fitsOn_of_sync hsync).mp (hruns θ a outside hrun)
      exact ⟨a, outside, hrun, hsync, hcancelled⟩

/-- The host starts a trigger on a thread of its own; its event is cancelled on the main thread. -/
theorem duality_bridged :
    let a : Activation Unit := ⟨0, ⟨0, "t", "#CANCELEVENT", ⟨[.command ⟨1, 1⟩ "CANCELEVENT" []]⟩, .sync⟩,
      ⟨0, ⟨"click", true⟩, none, .idle Unit⟩, .sync⟩
    ∃ s s' : System Unit, Reachable s ∧ Step s s' ∧ s.Runs .main a 0 ∧ s.engine.cancelledEvents = [] ∧
      s'.engine.cancelledEvents = [0] ∧
      ∃ b outside, s.Runs .main b outside ∧ (b.callerOn .main outside).mode = .sync ∧
        s'.engine = s.engine.cancelEvent b.context.id := by
  intro a
  obtain ⟨s, hs, hengine, hmain, -⟩ := exists_running {} () (.memory ∅) .empty (.steady 1) a.trigger a.context ∅ rfl
    (by decide)
  have hbefore : s.engine.cancelledEvents = [] := congrArg Engine.cancelledEvents hengine
  have hafter : (Engine.cancelEventFor (a.callerOn .main 0) s.engine).2.cancelledEvents = [0] := by
    rw [hengine]
    rfl
  have hruns : s.Runs .main a 0 := ⟨_, hmain ▸ List.mem_cons_self, rfl⟩
  refine ⟨s, _, hs, .cancelEvent hmain, hruns, hbefore, hafter, ?_⟩
  refine hs.duality.2 _ (.cancelEvent hmain) fun hsame => ?_
  cases hafter.symm.trans (hsame.trans hbefore)

end System

end EventScript
