import EventScript.Proofs.Threads.Basic

/-!
# The way of an activation

An activation is made on the thread of its caller. From there it goes to the main thread or into the queue before the workers,
and comes to the thread that it runs on: these are its stations. What holds of an activation where it is made, and goes on to hold
at every station that it may come to from one where it holds, holds of all activations wherever they are (`System.Step.each`).
-/

namespace EventScript

variable {H : Type}

/-- Where an activation may be from when it is made until it ends. -/
inductive Station where
  /-- The activation has been made on this thread. -/
  | starting (θ : Thread)
  /-- It is about to run on this thread. -/
  | entering (θ : Thread)
  | running (θ : Thread)
  /-- It is a task for the main thread. -/
  | task
  /-- It is a job for the workers. -/
  | job

section

variable (P : Station → Activation H → Prop)

def MainTask.Each : MainTask H → Prop
  | .activation a _ => P .task a
  | .work _ => True

def Duty.Each (θ : Thread) : Duty H → Prop
  | .script a _ => P (.running θ) a
  | .batch rest => ∀ t ∈ rest, t.Each P
  | .host | .task | .job => True

def Errand.Each (θ : Thread) : Errand H → Prop
  | .starting a => P (.starting θ) a
  | .entering a => P (.entering θ) a
  | .idle | .asking .. | .inside | .waiting _ => True

def Level.Each (θ : Thread) (l : Level H) : Prop := l.duty.Each P θ ∧ l.errand.Each P θ

/-- What holds at a station goes on to hold at the next one. -/
structure Station.GoesOn : Prop where
  stay : ∀ a, a.mode = .sync → P (.starting .main) a → P (.entering .main) a
  cross : ∀ a θ, a.mode = .sync → θ ≠ .main → P (.starting θ) a → P .task a
  queue : ∀ a θ, a.mode = .async → P (.starting θ) a → P .job a
  enter : ∀ a θ, P (.entering θ) a → P (.running θ) a
  take : ∀ a, P .task a → P (.entering .main) a
  assign : ∀ a i, P .job a → P (.entering (.worker i)) a

end

/-- What does not depend on the station goes on to hold. -/
theorem Station.goesOn_of_activation (P : Activation H → Prop) : Station.GoesOn fun _ => P :=
  ⟨fun _ _ h => h, fun _ _ _ _ h => h, fun _ _ _ h => h, fun _ _ h => h, fun _ h => h, fun _ _ h => h⟩

/-- Nothing is under way on a level that is idle. -/
theorem each_idle {P : Station → Activation H → Prop} {θ : Thread} : (Errand.idle : Errand H).Each P θ := trivial

/-- What holds of a level and of those below it holds of all of them. -/
theorem each_cons {P : Station → Activation H → Prop} {θ : Thread} {duty : Duty H} {vars : Variables} {errand : Errand H}
    {σ : List (Level H)} (hduty : duty.Each P θ) (herrand : errand.Each P θ) (hσ : ∀ l ∈ σ, l.Each P θ) :
    ∀ l ∈ ⟨duty, vars, errand⟩ :: σ, l.Each P θ :=
  List.forall_mem_cons.mpr ⟨⟨hduty, herrand⟩, hσ⟩

namespace System

/-- Every activation of a system satisfies this at the station where it is. -/
structure Each (P : Station → Activation H → Prop) (s : System H) : Prop where
  levels : ∀ θ, ∀ l ∈ s.stack θ, l.Each P θ
  pending : ∀ t ∈ s.engine.bridge.pending, t.Each P
  queue : ∀ job ∈ s.engine.workers.queue, P .job job.activation

/-- Between the two, the thread makes the activation that it asked for. -/
structure Makes (s s' : System H) (θ : Thread) (a : Activation H) : Prop where
  asked : ∃ duty vars σ, s.stack θ = ⟨duty, vars, .asking a.trigger a.context a.mode⟩ :: σ ∧
    s'.stack θ = ⟨duty, vars, .starting a⟩ :: σ
  passed : (Engine.isCooling a.trigger a.context s.engine).1 = false
  number : a.id = s.engine.nextActivation
  next : s'.engine.nextActivation = a.id + 1

section

variable {P Q : Station → Activation H → Prop} {s s' : System H} {θ : Thread} {σ : List (Level H)}

/-- Every activation satisfies what follows from what every activation satisfies. -/
theorem Each.imp (h : s.Each P) (himp : ∀ x a, P x a → Q x a) : s.Each Q := by
  have htask (t : MainTask H) (ht : t.Each P) : t.Each Q := by
    cases t with
    | activation a vars => exact himp _ a ht
    | work => trivial
  have hduty (θ : Thread) (d : Duty H) (hd : d.Each P θ) : d.Each Q θ := by
    cases d with
    | script a outside => exact himp _ a hd
    | batch rest => exact fun t ht => htask t (hd t ht)
    | host | task | job => trivial
  have herrand (θ : Thread) (x : Errand H) (hx : x.Each P θ) : x.Each Q θ := by
    cases x with
    | starting a | entering a => exact himp _ a hx
    | idle | asking | inside | waiting => trivial
  exact ⟨fun θ l hl => ⟨hduty θ _ (h.levels θ l hl).1, herrand θ _ (h.levels θ l hl).2⟩,
    fun t ht => htask t (h.pending t ht), fun job hjob => himp _ _ (h.queue job hjob)⟩

/-- An activation that runs satisfies it where it runs. -/
theorem Each.runs (h : s.Each P) {a : Activation H} {outside : Nat} (hrun : s.Runs θ a outside) : P (.running θ) a := by
  obtain ⟨⟨_, vars, errand⟩, hl, rfl⟩ := hrun
  exact (h.levels θ _ hl).1

/-- What is under the innermost level of a thread satisfies it as well as that level does. -/
theorem Each.of_stack (h : s.Each P) {duty : Duty H} {vars : Variables} {errand : Errand H}
    (hθ : s.stack θ = ⟨duty, vars, errand⟩ :: σ) : duty.Each P θ ∧ errand.Each P θ ∧ ∀ l ∈ σ, l.Each P θ := by
  have hlevels := h.levels θ
  rw [hθ] at hlevels
  obtain ⟨⟨hduty, herrand⟩, hσ⟩ := List.forall_mem_cons.mp hlevels
  exact ⟨hduty, herrand, hσ⟩

/-- The levels of one thread may be changed for others that satisfy it. -/
theorem Each.put (h : s.Each P) {levels : List (Level H)} (hl : ∀ l ∈ levels, l.Each P θ) : (s.put θ levels).Each P := by
  refine ⟨fun θ' l hmem => ?_, h.pending, h.queue⟩
  by_cases hθ : θ' = θ
  · subst hθ
    rw [stack_put_self] at hmem
    exact hl l hmem
  · rw [stack_put_of_ne s θ levels hθ] at hmem
    exact h.levels θ' l hmem

/-- The bridge may be changed for one whose tasks satisfy it. -/
theorem Each.setBridge (h : s.Each P) {b : Bridge (MainTask H)} (hb : ∀ t ∈ b.pending, t.Each P) : (s.setBridge b).Each P :=
  ⟨h.levels, hb, h.queue⟩

/-- The pool may be changed for one whose jobs satisfy it. -/
theorem Each.setWorkers (h : s.Each P) {p : Pool (Job H)} (hp : ∀ job ∈ p.queue, P .job job.activation) :
    (s.setWorkers p).Each P :=
  ⟨h.levels, h.pending, hp⟩

/-- Nothing else of a system says where its activations are. -/
theorem Each.congr (h : s.Each P) (hstack : s'.stack = s.stack) (hbridge : s'.engine.bridge = s.engine.bridge)
    (hworkers : s'.engine.workers = s.engine.workers) : s'.Each P := by
  refine ⟨?_, ?_, ?_⟩
  · rw [hstack]
    exact h.levels
  · rw [hbridge]
    exact h.pending
  · rw [hworkers]
    exact h.queue

/-- Phases of handles say nothing about where activations are. -/
theorem Each.setPhase (h : s.Each P) (id : Nat) (p : Phase) : (s.setPhase id p).Each P := h.congr rfl rfl rfl

/-- Depths say nothing about where activations are. -/
theorem Each.setDepth (h : s.Each P) (θ : Thread) (n : Nat) : (s.setDepth θ n).Each P := h.congr rfl rfl rfl

/-- Where an activation ended, the code goes on that was there before. -/
theorem Each.endsIn (h : s.Each P) {duty : Duty H} {vars : Variables} (hends : s.EndsIn θ (goneOn duty vars σ) s')
    (hduty : duty.Each P θ) (hσ : ∀ l ∈ σ, l.Each P θ) : s'.Each P := by
  obtain ⟨_, he⟩ := hends.affairs
  have hlevels : (s.put θ (goneOn duty vars σ)).Each P := h.put (forall_goneOn ⟨hduty, each_idle⟩ hσ)
  exact hlevels.congr hends.stack (congrArg Affairs.bridge he) (congrArg Affairs.workers he)

/-- A level goes on with something else. -/
theorem Each.goOn (h : s.Each P) {duty : Duty H} {vars : Variables} {errand : Errand H}
    (hθ : s.stack θ = ⟨duty, vars, errand⟩ :: σ) (vars' : Variables) {errand' : Errand H} (herrand : errand'.Each P θ) :
    (s.put θ (⟨duty, vars', errand'⟩ :: σ)).Each P := by
  obtain ⟨hduty, -, hσ⟩ := h.of_stack hθ
  exact h.put (each_cons hduty herrand hσ)

/-- A level that is done with its errand leaves every activation where it is. -/
theorem Each.rest (h : s.Each P) {duty : Duty H} {vars : Variables} {errand : Errand H}
    (hθ : s.stack θ = ⟨duty, vars, errand⟩ :: σ) (vars' : Variables) :
    (s.put θ (⟨duty, vars', .idle⟩ :: σ)).Each P :=
  h.goOn hθ vars' each_idle

/-- An activation that is given up leaves every other one where it is. -/
theorem Each.giveUp (h : s.Each P) {duty : Duty H} {vars vars' : Variables} {errand : Errand H}
    (hθ : s.stack θ = ⟨duty, vars, errand⟩ :: σ) (a : Activation H) (f : BridgeFault) :
    (s.giveUp θ a f duty vars' σ).Each P :=
  (h.rest hθ vars').congr rfl rfl rfl

/-- A new engine has no activations. -/
theorem each_new (P : Station → Activation H → Prop) (settings : Settings) (main : MainThread) (attended : Bool) (host : H)
    (globals : Globals) (files : Files) (clock : Clock) :
    (atRest (.new settings main attended host globals files clock)).Each P :=
  ⟨fun _ _ hl => (nomatch hl), fun _ ht => (nomatch ht), fun _ hj => (nomatch hj)⟩

/-- A step takes activations from station to station, and makes at most one. -/
theorem Step.each (hstep : Step s s') (hP : Station.GoesOn P) (hmade : ∀ θ a, s.Makes s' θ a → P (.starting θ) a)
    (h : s.Each P) : s'.Each P := by
  cases hstep with
  | act he => exact h.congr rfl (congrArg Affairs.bridge he) (congrArg Affairs.workers he)
  | assign hθ => exact h.rest hθ _
  | cancelEvent hθ =>
    obtain ⟨events, he⟩ := Engine.affairs_cancelEventFor _ _
    exact h.congr rfl (congrArg Affairs.bridge he) (congrArg Affairs.workers he)
  | handOver hθ hcode hmain hb =>
    refine h.setBridge ?_
    rw [Bridge.pending_submit hb]
    exact List.forall_mem_append.mpr ⟨h.pending, List.forall_mem_singleton.mpr trivial⟩
  | hostEnters => exact h.put (each_cons trivial each_idle (h.levels _))
  | hostLeaves hθ => exact h.put (h.of_stack hθ).2.2
  | ask t c mode hθ => exact h.goOn hθ _ trivial
  | @skip _ _ _ _ t c _ hθ =>
    have he := Engine.affairs_isCooling t c s.engine
    exact (h.rest hθ _).congr rfl (congrArg Affairs.bridge he) (congrArg Affairs.workers he)
  | @make θ duty vars σ t c mode hθ hcooling =>
    have he := Engine.affairs_isCooling t c s.engine
    let a : Activation H := ⟨s.engine.nextActivation, t, c, mode⟩
    have hnext := congrArg (Affairs.nextActivation · + 1) he
    have hstarting := hmade θ a ⟨⟨duty, vars, σ, hθ, stack_put_self _ θ (⟨duty, vars, .starting a⟩ :: σ)⟩, hcooling, rfl, hnext⟩
    have herrand : (Errand.starting a).Each P θ := hstarting
    exact (h.goOn hθ vars herrand).congr rfl (congrArg Affairs.bridge he) (congrArg Affairs.workers he)
  | @stay duty vars a σ hθ hsync =>
    have hentering : (Errand.entering a).Each P .main := hP.stay a hsync (h.of_stack hθ).2.1
    exact h.goOn hθ _ hentering
  | @cross θ duty vars a σ b hθ hsync hmain hb =>
    have hwaiting : (Errand.waiting a).Each P θ := trivial
    refine (h.goOn hθ ∅ hwaiting).setBridge ?_
    rw [Bridge.pending_submit hb]
    exact List.forall_mem_append.mpr
      ⟨h.pending, List.forall_mem_singleton.mpr (hP.cross a θ hsync hmain (h.of_stack hθ).2.1)⟩
  | crossRefused hθ => exact h.giveUp hθ _ _
  | @queue θ duty vars a σ p hθ hasync hp =>
    refine ((h.rest hθ _).setWorkers ?_).congr rfl rfl rfl
    rw [Pool.queue_submit hp]
    exact List.forall_mem_append.mpr ⟨h.queue, List.forall_mem_singleton.mpr (hP.queue a θ hasync (h.of_stack hθ).2.1)⟩
  | queueRefused hθ => exact h.rest hθ _
  | @enter θ duty vars a σ hθ =>
    obtain ⟨hduty, hentering, hσ⟩ := h.of_stack hθ
    have hscript : (Duty.script a (s.depth θ)).Each P θ := hP.enter a θ hentering
    have hinside : (Errand.inside : Errand H).Each P θ := trivial
    exact ((h.put (each_cons hscript each_idle (each_cons hduty hinside hσ))).setDepth θ _).setPhase _ _
  | refuse hθ =>
    obtain ⟨hduty, -, hσ⟩ := h.of_stack hθ
    exact (h.setPhase _ _).endsIn (endsIn_deliver ..) hduty hσ
  | finish v hθ =>
    obtain ⟨-, -, hbelow⟩ := h.of_stack hθ
    obtain ⟨⟨hduty, -⟩, hσ⟩ := List.forall_mem_cons.mp hbelow
    exact ((h.setDepth _ _).setPhase _ _).endsIn (endsIn_deliver ..) hduty hσ
  | panic p hθ =>
    obtain ⟨-, -, hbelow⟩ := h.of_stack hθ
    obtain ⟨⟨hduty, -⟩, hσ⟩ := List.forall_mem_cons.mp hbelow
    exact (h.setDepth _ _).endsIn (endsIn_unwind ..) hduty hσ
  | @takeTask t rest hmain hidle hpending =>
    have htasks := h.pending
    rw [hpending] at htasks
    obtain ⟨htask, hrest⟩ := List.forall_mem_cons.mp htasks
    have hbatch : (Duty.batch [t]).Each P .main := List.forall_mem_singleton.mpr htask
    exact (h.put (each_cons hbatch each_idle (List.forall_mem_nil _))).setBridge hrest
  | runPending =>
    have hbatch : (Duty.batch s.engine.bridge.collect.1).Each P .main := h.pending
    exact (h.put (each_cons hbatch each_idle (h.levels _))).setBridge (List.forall_mem_nil _)
  | @nextActivation a _ _ _ _ hθ =>
    obtain ⟨hbatch, -, hσ⟩ := h.of_stack hθ
    obtain ⟨htask, hrest⟩ := List.forall_mem_cons.mp hbatch
    exact h.put (each_cons trivial (hP.take a htask) (each_cons hrest each_idle hσ))
  | nextWork hθ =>
    obtain ⟨hbatch, -, hσ⟩ := h.of_stack hθ
    obtain ⟨-, hrest⟩ := List.forall_mem_cons.mp hbatch
    exact h.put (each_cons trivial each_idle (each_cons hrest each_idle hσ))
  | batchEnds hθ => exact h.put (h.of_stack hθ).2.2
  | @takeJob i job p hi hidle hjob =>
    have hjobs := h.queue
    rw [Pool.queue_take? hjob] at hjobs
    obtain ⟨hactivation, hrest⟩ := List.forall_mem_cons.mp hjobs
    have hduty : (Duty.job : Duty H).Each P (.worker i) := trivial
    have hentering : (Errand.entering job.activation).Each P (.worker i) := hP.assign job.activation i hactivation
    exact (h.put (each_cons hduty hentering (List.forall_mem_nil _))).setWorkers hrest
  | answered hθ => exact (h.rest hθ _).congr rfl rfl rfl
  | faulted hθ => exact h.giveUp hθ _ _
  | timedOut hθ => exact (h.rest hθ _).congr rfl rfl rfl
  | close => exact h.congr rfl rfl rfl
  | closeBridge => exact (h.setBridge fun t ht => h.pending t (Bridge.pending_shutDown ht)).congr rfl rfl rfl
  | closeWorkers => exact h.setWorkers h.queue

end

end System

end EventScript
