import Mathlib.Control.Monad.Basic
import EventScript.Proofs.Trigger.Alongside

/-!
# Shutting down beside running activations

A `Course` says what the other threads do while the workers run activations, and when the gates of the engine are closed, each on
its own. An activation that a worker has taken up goes on as if the engine were shut down only after it, unless it, or one that it
runs, comes to a gate too late (`Course.shutDown_graceful`). Whoever comes too late is refused: no activation is started
(`Course.activateWith_refused`), none is queued (`Course.enqueue_refused`), and the main thread does nothing for a worker any more
(`Course.callMain_refused`).
-/

namespace EventScript

variable {H α : Type}

/-- A shutdown closes all of them. -/
def Gate.all : List Gate := [.accepting, .bridge, .workers]

/-- What other threads do meanwhile: at each moment something to the engine, the same whatever gates are closed, and gates that one
of them closes. -/
structure Course (H : Type) where
  others : Nat → Engine H → Engine H
  closes : Nat → List Gate
  others_close : ∀ n gates e, others n (e.close gates) = (others n e).close gates

/-- An engine in the middle of a course. -/
structure Stage (H : Type) where
  engine : Engine H
  moment : Nat
  /-- The gates that are closed by now. -/
  closed : List Gate
  /-- The run has come to a gate that was closed by then. -/
  refused : Bool

/-- An engine at a moment at which these gates are closed and nothing has been refused. -/
def Stage.reached (moment : Nat) (gates : List Gate) (e : Engine H) : Stage H := ⟨e.close gates, moment, gates, false⟩

namespace Course

/-- The same course without a shutdown. -/
def calm (c : Course H) : Course H := { c with closes := fun _ => [] }

/-- No other thread does anything. -/
def alone (H : Type) : Course H := ⟨fun _ e => e, fun _ => [], fun _ _ _ => rfl⟩

section

variable (c : Course H)

/-- A moment goes by. -/
def pass (s : Stage H) : Stage H :=
  { s with
    engine := (c.others s.moment s.engine).close (c.closes s.moment)
    moment := s.moment + 1
    closed := s.closed ++ c.closes s.moment }

/-- A moment goes by before the run looks at a gate. -/
def look (g : Gate) (s : Stage H) : Stage H :=
  let s' := c.pass s
  { s' with refused := s'.refused || decide (g ∈ s'.closed) }

/-- A moment goes by while a task waits before the thread of the host. -/
def hold (s : Stage H) : Stage H :=
  let waiting : Engine H := { c.others s.moment s.engine with bridge := s.engine.bridge }
  let closed := s.closed ++ c.closes s.moment
  ⟨waiting.close (c.closes s.moment), s.moment + 1, closed, s.refused || decide (.bridge ∈ closed)⟩

def outlook : Outlook H (Stage H) := ⟨Stage.engine, fun e s => { s with engine := e }, c.pass, c.look, c.hold⟩

/-- A run that begins at a moment of the course is refused something, or it comes to the same as without a shutdown, which then
closes the gates behind it. -/
def Graceful (m : Outlook H (Stage H) → Act (Stage H) α) (moment : Nat) (gates : List Gate) (e : Engine H) : Prop :=
  let late := m c.outlook (.reached moment gates e)
  let unhurried := m c.calm.outlook (.reached moment [] e)
  late.2.refused = true ∨ late.1 = unhurried.1 ∧ late.2.engine = unhurried.2.engine.close late.2.closed

end

/-! ## With and without a shutdown -/

section

variable (c : Course H) {s₁ s₂ : Stage H}

theorem pass_near (h : s₁.engine = s₂.engine.close s₁.closed) (hmoment : s₁.moment = s₂.moment) :
    (c.pass s₁).engine = (c.calm.pass s₂).engine.close (c.pass s₁).closed := by
  show (c.others s₁.moment s₁.engine).close (c.closes s₁.moment) = ((c.others s₂.moment s₂.engine).close []).close _
  rw [h, c.others_close, Engine.close_close, Engine.close_nil, ← hmoment]
  rfl

theorem hold_near (h : s₁.engine = s₂.engine.close s₁.closed) (hmoment : s₁.moment = s₂.moment) :
    (c.hold s₁).engine = (c.calm.hold s₂).engine.close (c.hold s₁).closed := by
  have hwaiting : { c.others s₁.moment s₁.engine with bridge := s₁.engine.bridge } =
      ({ c.others s₁.moment s₂.engine with bridge := s₂.engine.bridge } : Engine H).close s₁.closed := by
    rw [h, c.others_close]
    rfl
  show Engine.close (c.closes s₁.moment) { c.others s₁.moment s₁.engine with bridge := s₁.engine.bridge } =
    (Engine.close [] { c.others s₂.moment s₂.engine with bridge := s₂.engine.bridge }).close _
  rw [hwaiting, Engine.close_close, Engine.close_nil, ← hmoment]
  rfl

/-- A course beside the one without a shutdown: the run is lost once it is refused something. -/
def beside : Outlook.Alongside c.outlook c.calm.outlook where
  Near s₁ s₂ := s₁.engine = s₂.engine.close s₁.closed ∧ s₁.moment = s₂.moment
  Lost s₁ := s₁.refused = true
  closed := Stage.closed
  engine _ _ h := h.1
  put _ _ _ h _ := ⟨rfl, h.2⟩
  closed_put _ _ := rfl
  pass _ _ h := ⟨c.pass_near h.1 h.2, congrArg (· + 1) h.2⟩
  look g s₁ s₂ h := by
    by_cases hclosed : g ∈ (c.pass s₁).closed
    · exact .inl (Bool.or_eq_true_iff.mpr (.inr (decide_eq_true hclosed)))
    · exact .inr ⟨⟨c.pass_near h.1 h.2, congrArg (· + 1) h.2⟩, hclosed⟩
  hold s₁ s₂ h := by
    by_cases hclosed : .bridge ∈ s₁.closed ++ c.closes s₁.moment
    · exact .inl (Bool.or_eq_true_iff.mpr (.inr (decide_eq_true hclosed)))
    · exact .inr ⟨⟨c.hold_near h.1 h.2, congrArg (· + 1) h.2⟩, hclosed⟩
  put_lost _ _ h := h
  pass_lost _ h := h
  look_lost _ _ h := Bool.or_eq_true_iff.mpr (.inl h)
  hold_lost _ h := Bool.or_eq_true_iff.mpr (.inl h)

/-- A run that keeps two courses together is graceful. -/
theorem graceful_of_kept {m : Outlook H (Stage H) → Act (Stage H) α}
    (h : c.beside.KeptAct (m c.outlook) (m c.calm.outlook)) (moment : Nat) (gates : List Gate) (e : Engine H) :
    c.Graceful m moment gates e := by
  have hnear : c.beside.Near (.reached moment gates e) (.reached moment [] e) := by
    refine ⟨?_, rfl⟩
    show e.close gates = (e.close []).close gates
    rw [Engine.close_nil]
  exact (h.near _ _ hnear).imp_right fun hr => ⟨hr.1, hr.2.1⟩

end

/-- Where there is no other thread, a moment that goes by leaves everything as it is. -/
theorem pass_alone (s : Stage H) : ((alone H).pass s).engine = s.engine ∧ ((alone H).pass s).closed = s.closed :=
  ⟨Engine.close_nil s.engine, List.append_nil s.closed⟩

/-- The course of no other threads beside the engine itself. -/
def besideEngine (gates : List Gate) : Outlook.Alongside (alone H).outlook (.plain H) where
  Near s e := s.engine = e ∧ s.closed = gates
  Lost _ := False
  closed _ := []
  engine s e h := by rw [Engine.close_nil]; exact h.1
  put s e e' h _ := ⟨Engine.close_nil e', h.2⟩
  closed_put _ _ := rfl
  pass s e h := ⟨(pass_alone s).1.trans h.1, (pass_alone s).2.trans h.2⟩
  look _ s e h := .inr ⟨⟨(pass_alone s).1.trans h.1, (pass_alone s).2.trans h.2⟩, List.not_mem_nil⟩
  hold s e h := .inr ⟨⟨(pass_alone s).1.trans h.1, (pass_alone s).2.trans h.2⟩, List.not_mem_nil⟩
  put_lost _ _ := id
  pass_lost _ := id
  look_lost _ _ := id
  hold_lost _ := id

/-- Where there is no other thread, the workers carry out what is queued as they do in the engine itself. -/
theorem drain_alone (fuel jobs : Nat) (gates : List Gate) (e : Engine H) :
    let late := (alone H).outlook.drain fuel jobs (.reached 0 gates e)
    late.1 = (Engine.drain fuel jobs (e.close gates)).1 ∧ late.2.engine = (Engine.drain fuel jobs (e.close gates)).2 ∧
      late.2.closed = gates := by
  have hsame := ((besideEngine gates).drain fuel jobs).near (.reached 0 gates e) (e.close gates) ⟨rfl, rfl⟩
  rw [Outlook.drain_plain] at hsame
  exact hsame.resolve_left id

/-! ## Who comes too late -/

section

variable (c : Course H) (moment : Nat) (gates : List Gate) (e : Engine H)

/-- To look at a gate is to be refused where it is closed by then. -/
theorem look_reached (g : Gate) :
    c.look g (.reached moment gates e) =
      { Stage.reached (moment + 1) (gates ++ c.closes moment) (c.others moment e) with
        refused := decide (g ∈ gates ++ c.closes moment) } := by
  have hengine : (c.others moment (e.close gates)).close (c.closes moment) =
      (c.others moment e).close (gates ++ c.closes moment) := by
    rw [c.others_close, Engine.close_close]
  unfold look pass Stage.reached
  simp only [hengine, Bool.false_or]

/-- Who starts an activation too late is told that the engine is shutting down. -/
theorem activateWith_refused (run : Activation H → Run (Stage H) Verdict) (t : Trigger) (ctx : Context H) (mode : Mode)
    (vars : Variables) (h : (c.outlook.accepts ⟨vars, .reached moment gates e⟩).2.world.refused = true) :
    (c.outlook.activateWith run t ctx mode ⟨vars, .reached moment gates e⟩).1 = .error (.failed .shuttingDown) := by
  have hlook := c.look_reached moment gates e .accepting
  have hrefused : (c.look .accepting (.reached moment gates e)).refused = true := h
  have haccepts : c.outlook.accepts ⟨vars, .reached moment gates e⟩ =
      (.ok false, ⟨vars, c.look .accepting (.reached moment gates e)⟩) := by
    rw [hlook] at hrefused
    refine Prod.ext ?_ rfl
    show Except.ok (c.look .accepting (.reached moment gates e)).engine.accepting = _
    rw [hlook]
    exact congrArg Except.ok (Engine.accepting_close_of_mem (of_decide_eq_true hrefused))
  unfold Outlook.activateWith
  rw [Run.bind_ok haccepts]
  rfl

/-- Who queues an activation too late is told that the engine is shutting down. -/
theorem enqueue_refused (a : Activation H) (vars : Variables)
    (h : (c.outlook.enqueue a ⟨vars, .reached moment gates e⟩).2.world.refused = true) :
    (c.outlook.enqueue a ⟨vars, .reached moment gates e⟩).1 = .error (.failed .shuttingDown) := by
  have hlook := c.look_reached moment gates e .workers
  have hrefused : (c.look .workers (.reached moment gates e)).refused = true := h
  rw [hlook] at hrefused
  have hsubmit : (c.look .workers (.reached moment gates e)).engine.workers.submit ⟨a, vars⟩ = .error .shuttingDown := by
    rw [hlook]
    show Pool.submit (Engine.close _ _).workers _ = _
    rw [Engine.workers_close_of_mem (of_decide_eq_true hrefused)]
    exact Pool.submit_of_not_accepting rfl _
  show (Engine.enqueue a ⟨vars, (c.look .workers (.reached moment gates e)).engine⟩).1 = _
  rw [Engine.enqueue_error hsubmit]

theorem takeUp_refused (s : Stage H) : (c.outlook.takeUp s).2.refused = s.refused := by
  simp only [Outlook.takeUp]
  split
  · rfl
  · rfl
  · split <;> rfl

/-- A task that waits before the thread of the host while the bridge is shut down is dropped. -/
theorem takeUp_hold (s : Stage H) {e : Engine H} (hmain : e.hostIsMain = true) (h : .bridge ∈ c.closes s.moment) :
    (c.outlook.takeUp (c.hold { s with engine := e })).1 = .ok (.error .droppedTask) := by
  have hbridge : (c.hold { s with engine := e }).engine.bridge = e.bridge.shutDown := if_pos h
  have hdrops : Outlook.drops (c.hold { s with engine := e }).engine = true := by
    unfold Outlook.drops Engine.hostIsMain
    rw [hbridge, Bridge.accepting_shutDown, Bridge.main_shutDown]
    exact hmain
  have htake : Outlook.drops (c.outlook.engine (c.hold { s with engine := e })) = true := hdrops
  simp only [Outlook.takeUp, htake]

/-- Who hands a task to the main thread too late, or waits there until it is too late, gets an error of the bridge. -/
theorem handIn_refused (t : MainTask H) (h : (c.outlook.handIn t (.reached moment gates e)).2.refused = true) :
    (c.outlook.handIn t (.reached moment gates e)).1 = .ok (.error .shutDown) ∨
      (c.outlook.handIn t (.reached moment gates e)).1 = .ok (.error .droppedTask) := by
  obtain ⟨s, hs⟩ : ∃ s, c.look .bridge (.reached moment gates e) = s := ⟨_, rfl⟩
  have hlook := hs.symm.trans (c.look_reached moment gates e .bridge)
  have hengine : c.outlook.engine (c.outlook.look .bridge (.reached moment gates e)) = s.engine := congrArg Stage.engine hs
  cases hsubmit : s.engine.bridge.submit t with
  | error f =>
    refine .inl ?_
    simp only [Outlook.handIn, hengine, hsubmit]
    rw [Bridge.of_submit_error hsubmit]
  | ok b =>
    refine .inr ?_
    have hhanded : c.outlook.handIn t (.reached moment gates e) =
        c.outlook.takeUp (c.outlook.putQueued { s.engine with bridge := b } s) := by
      simp only [Outlook.handIn, hengine, hsubmit]
      exact congrArg (fun s' => c.outlook.takeUp (c.outlook.putQueued { s.engine with bridge := b } s')) hs
    have hopen : .bridge ∉ gates ++ c.closes moment := by
      intro hclosed
      have haccepting := (Bridge.of_submit hsubmit).1
      have hbridge : s.engine.bridge = (c.others moment e).bridge.shutDown := by
        rw [hlook]
        exact Engine.bridge_close_of_mem hclosed
      rw [hbridge, Bridge.accepting_shutDown] at haccepting
      cases haccepting
    have hlooked : s.refused = false := by
      rw [hlook]
      exact decide_eq_false hopen
    have hclosed : s.closed = gates ++ c.closes moment := by rw [hlook]; rfl
    rw [hhanded] at h ⊢
    rw [takeUp_refused] at h
    unfold Outlook.putQueued at h ⊢
    cases hmain : ({ s.engine with bridge := b } : Engine H).hostIsMain with
    | false =>
      simp only [hmain, Bool.false_eq_true, if_false] at h
      exact absurd (hlooked.symm.trans h) Bool.false_ne_true
    | true =>
      simp only [hmain, if_true] at h ⊢
      have hrefused : (s.refused || decide (.bridge ∈ s.closed ++ c.closes s.moment)) = true := h
      rw [hlooked, Bool.false_or, decide_eq_true_iff, hclosed, List.mem_append] at hrefused
      exact c.takeUp_hold s hmain (hrefused.resolve_left hopen)

theorem callMain_refused (fuel : Nat) (t : MainTask H)
    (h : (c.outlook.handIn t (.reached moment gates e)).2.refused = true) :
    (c.outlook.callMain fuel t (.reached moment gates e)).1 = .ok (.error .shutDown) ∨
      (c.outlook.callMain fuel t (.reached moment gates e)).1 = .ok (.error .droppedTask) := by
  unfold Outlook.callMain
  refine (c.handIn_refused moment gates e t h).imp (fun hin => ?_) fun hin => ?_
  all_goals
    rw [Run.bind_ok (Prod.ext hin rfl : c.outlook.handIn t (.reached moment gates e) = (_, _))]
    rfl

end

/-! ## The whole of it -/

/-- What a shutdown does once the gates are closed: the workers carry out what is queued, and the global variables are written. -/
def windUp (fuel jobs : Nat) : Act (Engine H) Unit := do
  Engine.drain fuel jobs
  let _ ← liftM (Engine.onGlobals (H := H) Globals.flush)

theorem shutDown_apply {e : Engine H} (fuel jobs : Nat) (h : e.accepting = true) :
    Engine.shutDown fuel jobs e = windUp fuel jobs (e.close Gate.all) := by
  have hclose : e.close Gate.all =
      { e with accepting := false, bridge := e.bridge.shutDown, workers := e.workers.shutDown } := by
    simp [Engine.close, Gate.all]
  unfold Engine.shutDown windUp
  rw [Run.get_bind, if_pos h, Run.set_bind, hclose]

/-- Behind closed gates the workers do what they do behind open ones, unless they are refused something. -/
theorem drain_closed (fuel jobs : Nat) (gates : List Gate) (e : Engine H) :
    ((alone H).outlook.drain fuel jobs (.reached 0 gates e)).2.refused = true ∨
      Engine.drain fuel jobs (e.close gates) =
        ((Engine.drain fuel jobs e).1, (Engine.drain fuel jobs e).2.close gates) := by
  obtain ⟨hlate, hlateEngine, hclosed⟩ := drain_alone fuel jobs gates e
  obtain ⟨hcalm, hcalmEngine, -⟩ := drain_alone fuel jobs [] e
  rw [Engine.close_nil] at hcalm hcalmEngine
  have hgraceful : (alone H).Graceful (·.drain fuel jobs) 0 gates e :=
    (alone H).graceful_of_kept ((alone H).beside.drain fuel jobs) 0 gates e
  rcases hgraceful with hrefused | ⟨hsame, hengine⟩
  · exact .inl hrefused
  · refine .inr (Prod.ext ?_ ?_)
    · rw [← hlate, ← hcalm]
      exact hsame
    · show (Engine.drain fuel jobs (e.close gates)).2 = (Engine.drain fuel jobs e).2.close gates
      rw [← hlateEngine, ← hcalmEngine]
      exact hengine.trans (congrArg (Engine.close · _) hclosed)

/-- However a shutdown comes beside it, a job, and all jobs that are queued, come to the same as if it came behind them, with the
same conclusions, global variables and deeds of host code, unless they are refused something. The shutdown of an engine is one that
comes before them. What is refused is a start, a place in the queue, or a task for the main thread. -/
theorem shutDown_graceful (c : Course H) (fuel moment : Nat) (gates : List Gate) (e : Engine H) :
    (∀ job, c.Graceful (·.runJob fuel job) moment gates e) ∧
    (∀ jobs, c.Graceful (·.drain fuel jobs) moment gates e) ∧
    (∀ jobs, e.accepting = true → Engine.shutDown fuel jobs e = windUp fuel jobs (e.close Gate.all) ∧
      (((alone H).outlook.drain fuel jobs (.reached 0 Gate.all e)).2.refused = true ∨
        Engine.drain fuel jobs (e.close Gate.all) =
          ((Engine.drain fuel jobs e).1, (Engine.drain fuel jobs e).2.close Gate.all))) ∧
    let s := Stage.reached moment gates e
    (∀ run t ctx mode vars, (c.outlook.accepts ⟨vars, s⟩).2.world.refused = true →
      (c.outlook.activateWith run t ctx mode ⟨vars, s⟩).1 = .error (.failed .shuttingDown)) ∧
    (∀ a vars, (c.outlook.enqueue a ⟨vars, s⟩).2.world.refused = true →
      (c.outlook.enqueue a ⟨vars, s⟩).1 = .error (.failed .shuttingDown)) ∧
    ∀ t, (c.outlook.handIn t s).2.refused = true →
      (c.outlook.callMain fuel t s).1 = .ok (.error .shutDown) ∨ (c.outlook.callMain fuel t s).1 = .ok (.error .droppedTask) :=
  ⟨fun job => c.graceful_of_kept (c.beside.runJob fuel job) moment gates e,
    fun jobs => c.graceful_of_kept (c.beside.drain fuel jobs) moment gates e,
    fun jobs haccepting => ⟨shutDown_apply fuel jobs haccepting, drain_closed fuel jobs Gate.all e⟩,
    c.activateWith_refused moment gates e, c.enqueue_refused moment gates e, c.callMain_refused moment gates e fuel⟩

/-- Another thread counts, and closes all gates at the second moment, when the activation that is queued has been taken up; it
completes all the same. -/
theorem shutDown_graceful_completing :
    ∃ (c : Course Nat) (e : Engine Nat),
      (e.workers.queue.map (·.activation.id) = [0] ∧ c.closes 1 = Gate.all ∧ e.accepting = true) ∧
      (let late := c.outlook.drain 1 2 (.reached 0 [] e)
      let unhurried := c.calm.outlook.drain 1 2 (.reached 0 [] e)
      late.1 = unhurried.1 ∧ late.2.engine = unhurried.2.engine.close late.2.closed ∧ late.2.closed = Gate.all ∧
        (Engine.wait ⟨0, none⟩ late.2.engine).1 = .ok .completed ∧ (late.2.engine.reach.globals.get? "done").isSome) ∧
      Engine.drain 1 2 (e.close Gate.all) = ((Engine.drain 1 2 e).1, (Engine.drain 1 2 e).2.close Gate.all) := by
  obtain ⟨c, e, hqueued, hlate, hclosed, hwait, halone⟩ : ∃ (c : Course Nat) (e : Engine Nat),
      (e.workers.queue.map (·.activation.id) = [0] ∧ c.closes 1 = Gate.all ∧ e.accepting = true) ∧
      (c.outlook.drain 1 2 (.reached 0 [] e)).2.refused = false ∧
      (c.outlook.drain 1 2 (.reached 0 [] e)).2.closed = Gate.all ∧
      ((Engine.wait ⟨0, none⟩ (c.outlook.drain 1 2 (.reached 0 [] e)).2.engine).1 = .ok .completed ∧
        ((c.outlook.drain 1 2 (.reached 0 [] e)).2.engine.reach.globals.get? "done").isSome) ∧
      ((alone Nat).outlook.drain 1 2 (.reached 0 Gate.all e)).2.refused = false := by
    refine ⟨⟨fun _ e => { e with reach := { e.reach with host := e.reach.host + 1 } }, fun n => if n = 1 then Gate.all else [],
      fun _ _ _ => rfl⟩, (Engine.fire 1
        ⟨0, "t", "global.done = true", ⟨[.assign ⟨1, 1⟩ (.globalName "done") (.literal ⟨1, 1⟩ (.bool true))]⟩, .async⟩
        ⟨0, ⟨"tick", false⟩, none, .idle Nat⟩ (.new {} .attached true 0 (.memory ∅) .empty (.steady 1))).2, ?_⟩
    decide +kernel
  have hgraceful := shutDown_graceful c 1 0 [] e
  obtain ⟨hsame, hengine⟩ := (hgraceful.2.1 2).resolve_left (Bool.eq_false_iff.mp hlate)
  exact ⟨c, e, hqueued, ⟨hsame, hengine, hclosed, hwait⟩,
    (hgraceful.2.2.1 2 hqueued.2.2).2.resolve_left (Bool.eq_false_iff.mp halone)⟩

end Course

/-! ## Where it does not hold -/

/-- An activation that is queued before the shutdown starts another one after it: it is refused, and fails. Had the engine been shut
down only after it, it would have completed. -/
theorem Engine.shutDown_graceful_false :
    let p : Position := ⟨1, 1⟩
    let n : Trigger := ⟨0, "n", "", ⟨[]⟩, .async⟩
    let t : Trigger := ⟨1, "t", "#CALL(\"n\", false)\nglobal.done = true",
      ⟨[.command p "CALL" [.literal p (.string "n"), .literal p (.bool false)],
        .assign p (.globalName "done") (.literal p (.bool true))]⟩, .async⟩
    let e : Engine Unit := (fire 1 t ⟨0, ⟨"tick", false⟩, none, .idle Unit⟩
      (insertTrigger n (.new {} .attached true () (.memory ∅) .empty (.steady 1)))).2
    let late := (shutDown 1 3 e).2
    let unhurried := (shutDown 1 3 (drain 1 3 e).2).2
    e.workers.queue.map (·.activation.id) = [0] ∧
      (wait ⟨0, none⟩ late).1 = .error (.failed .shuttingDown) ∧ (late.reach.globals.get? "done").isNone ∧
      (wait ⟨0, none⟩ unhurried).1 = .ok .completed ∧ (unhurried.reach.globals.get? "done").isSome := by
  decide +kernel

end EventScript
