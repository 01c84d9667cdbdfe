import EventScript.Proofs.Threads.Activations

/-!
# What a host does takes steps

An engine does what its host asks for in one go: it starts a trigger, takes up tasks, lets the workers go on, shuts down. Each
of these is a number of steps of threads that do nothing before and nothing afterwards, so that an engine is never in a state
that its threads could not have come to: `Engine.Comes.reachable`. Where a run does not end within its fuel there is nothing to be
said.
-/

namespace EventScript

variable {H : Type}

namespace System

open Engine

/-- No thread does anything. -/
structure Resting (s : System H) : Prop where
  stack : ∀ θ, s.stack θ = []
  depth : ∀ θ, s.depth θ = 0
  prompt : s.engine.Prompt

variable {s s' : System H} {fuel : Nat}

/-- What comes back to a thread leaves a system at rest if it was so before. -/
theorem Leads.resting {θ : Thread} (h : s.Resting) (hleads : s.Leads θ [] s') : s'.Resting where
  stack φ := by
    rw [hleads.stack_eq (h.stack θ)]
    exact h.stack φ
  depth φ := hleads.depth ▸ h.depth φ
  prompt := hleads.prompt

/-! ## The workers -/

/-- The first worker carries out the job in front. -/
theorem runJob_leads {job : Job H} {workers : Pool (Job H)} {r : Except Halt Unit} {e' : Engine H} (h : s.Resting)
    (htake : s.engine.workers.take? = some (job, workers))
    (hrun : runJob fuel job { s.engine with workers := workers } = (r, e')) (hr : r ≠ .error .outOfFuel) :
    ∃ s', s.Leads (.worker 0) [] s' ∧ s'.engine = e' := by
  have htaken := Step.takeJob s.engine.workers.size_pos (h.stack (.worker 0)) htake
  let p : Site H := ⟨.worker 0, .job, [], 0, s.engine.maxDepth⟩
  let s₀ : System H := (s.put (.worker 0) [⟨.job, job.locals, .entering job.activation⟩]).setWorkers workers
  have hacross : p.thread ≠ .main := nofun
  have hholds : p.Holds s₀ job.locals (.entering job.activation) :=
    Site.holds_put (p := p) (s := s.setWorkers workers) (h.depth _) rfl h.prompt (fun _ => ⟨h.stack .main, h.depth .main⟩) _ _
  have hconcludes : p.Concludes job.activation (if s.engine.maxDepth = 0 then refuseDepth job.activation
      else runHere fuel false 1 (workAcross fuel) (runAcross fuel) job.activation) := by
    split
    next hzero => exact Site.refuseDepth_concludes (Nat.le_of_eq hzero) _
    next hpositive =>
      have hinside : (p.inside job.activation).thread ≠ .main := hacross
      have hcode : (p.inside job.activation).duty.RunsCode := trivial
      exact Site.runHere_concludes (p := p) (Nat.pos_of_ne_zero hpositive) (Site.follows_workAcross hinside hcode)
        (Site.followsSync_runAcross hinside)
  obtain ⟨c, scope, hjob, hc, rfl⟩ := runJob_cases hrun hr
  obtain ⟨s₁, levels, hstack, hdepth, hengine, hprompt, hpasses⟩ := hconcludes s₀ job.locals c scope hholds hjob hc
  have hback : Function.update s₁.stack (.worker 0) [] = Function.update s.stack (.worker 0) [] := by
    rw [hstack]
    exact (Function.update_idem ..).trans (Function.update_idem ..)
  rw [← hengine]
  rcases c with (q | _) | v
  · exact ⟨_, ⟨.head (htaken.tick (.same rfl rfl)) hpasses, hback, hdepth, hprompt⟩, rfl⟩
  · exact absurd rfl hc
  · exact ⟨_, ⟨.head (htaken.tick (.same rfl rfl)) hpasses, hback, hdepth, hprompt⟩, rfl⟩

/-- A worker that takes up jobs one after the other is a run of the system, which ends at the engine that is left. -/
theorem drain_leads {jobs : Nat} {r : Except Halt Unit} {e' : Engine H} (h : s.Resting)
    (hrun : drain fuel jobs s.engine = (r, e')) (hr : r ≠ .error .outOfFuel) :
    ∃ s', s.Leads (.worker 0) [] s' ∧ s'.engine = e' := by
  induction jobs generalizing s with
  | zero =>
    cases hrun
    exact ⟨s, .refl (h.stack _) h.prompt, rfl⟩
  | succ jobs ih =>
    unfold drain at hrun
    rw [Run.get_bind] at hrun
    cases htake : s.engine.workers.take? with
    | none =>
      simp only [htake] at hrun
      cases hrun
      exact ⟨s, .refl (h.stack _) h.prompt, rfl⟩
    | some next =>
      obtain ⟨job, workers⟩ := next
      simp only [htake, Run.set_bind] at hrun
      rcases Run.cases (runJob fuel job) { s.engine with workers := workers } with ⟨_, e₁, hjob⟩ | ⟨reason, e₁, hjob⟩
      · obtain ⟨s₁, hleads, rfl⟩ := runJob_leads h htake hjob nofun
        rw [Run.bind_ok hjob] at hrun
        obtain ⟨s₂, hleads', hengine⟩ := ih (hleads.resting h) hrun
        exact ⟨s₂, hleads.trans hleads', hengine⟩
      · rw [Run.bind_error hjob] at hrun
        cases hrun
        exact runJob_leads h htake hjob hr

/-! ## The main thread -/

/-- The main thread that takes up what is queued is a run of the system, which ends at the engine that is left. -/
theorem runPending_leads {r : Except Halt Nat} {e' : Engine H} (h : s.Resting) (hrun : runPending fuel s.engine = (r, e'))
    (hr : r ≠ .error .outOfFuel) : ∃ s', s.Leads .main [] s' ∧ s'.engine = e' := by
  obtain ⟨-, rfl⟩ | ⟨hhost, htasks⟩ := runPending_cases hrun hr
  · exact ⟨s, .refl (h.stack _) h.prompt, rfl⟩
  have htaken := Step.runPending hhost (admitsHost_main (h.stack .main) hhost)
  rw [h.stack] at htaken
  let s₀ : System H := (s.put .main [⟨.batch s.engine.bridge.collect.1, ∅, .idle⟩]).setBridge s.engine.bridge.collect.2
  have hbatch : s₀.stack .main = ⟨.batch s.engine.bridge.collect.1, ∅, .idle⟩ :: [] := stack_put_self s .main _
  obtain ⟨s₁, hleads, rfl⟩ := batch_leads (s := s₀) hbatch (h.depth .main) (fun _ => rfl) htasks (by exact nofun)
  have hpasses := hleads.passes.head (htaken.tick (.same rfl rfl))
  exact ⟨s₁, ⟨hpasses, hleads.stack.trans (Function.update_idem ..), hleads.depth, hleads.prompt⟩, rfl⟩

/-! ## The code of the host -/

/-- Where the code of the host runs on a thread that does nothing else. -/
def hostSite (θ : Thread) (e : Engine H) : Site H := ⟨θ, .host, [], 0, e.maxDepth⟩

/-- The host comes to a thread and leaves it again. -/
theorem visit_leads {θ : Thread} (h : s.Resting) (hadmits : s.AdmitsHost θ) (vars : Variables) :
    ∃ s₀, (hostSite θ s.engine).Holds s₀ vars .idle ∧ s₀.engine = s.engine ∧
      ∀ s₁ vars', (hostSite θ s.engine).Leads s₀ vars' .idle s₁ →
        ∃ s', s.Leads θ [] s' ∧ s'.engine = s₁.engine ∧ s'.handles = s₁.handles := by
  let p := hostSite θ s.engine
  have henters : Step s (s.put θ (⟨.host, vars, .idle⟩ :: s.stack θ)) := .hostEnters hadmits
  rw [h.stack] at henters
  have hholds := Site.holds_put (p := p) (h.depth _) rfl h.prompt (fun _ => ⟨h.stack .main, h.depth .main⟩) vars .idle
  refine ⟨_, hholds, rfl, fun s₁ vars' hleads => ?_⟩
  have hleaves := Step.hostLeaves hleads.here
  have hback : Function.update s₁.stack θ [] = Function.update s.stack θ [] := by
    rw [hleads.stack]
    exact (Function.update_idem ..).trans (Function.update_idem ..)
  have hpasses := (hleads.passes.tail (hleaves.tick (.same rfl rfl))).head (henters.tick (.same rfl rfl))
  exact ⟨_, ⟨hpasses, hback, hleads.depth, hleads.prompt⟩, rfl, rfl⟩

/-- The thread from which the host starts triggers. -/
def hostThread (e : Engine H) : Thread := if e.hostIsMain then .main else .other 0

/-- A system at rest lets the host act on its thread. -/
theorem Resting.admitsHost (h : s.Resting) : s.AdmitsHost (hostThread s.engine) := by
  unfold hostThread
  split
  next hhost => exact admitsHost_main (h.stack .main) hhost
  next => exact admitsHost_other (h.stack (.other 0))

/-- How the host's synchronous activations run does not change while it starts one. -/
theorem activate_apply (fuel : Nat) (t : Trigger) (c : Context H) (mode : Mode) (vars : Variables) (e : Engine H) :
    activate fuel t c mode ⟨vars, e⟩ =
      activateWith (if e.hostIsMain then fun a => spread (runOnMain fuel e.maxDepth 0 a) else runAcross fuel) t c mode
        ⟨vars, e⟩ := by
  unfold activate
  cases haccepting : e.accepting with
  | false => rw [activateWith_closed _ _ haccepting, activateWith_closed _ _ haccepting]
  | true =>
    cases hcooling : (isCooling t c e).1 with
    | true => rw [activateWith_cooling _ _ haccepting hcooling, activateWith_cooling _ _ haccepting hcooling]
    | false =>
      cases mode with
      | async => rw [activateWith_async _ haccepting hcooling, activateWith_async _ haccepting hcooling]
      | sync =>
        rw [activateWith_sync _ haccepting hcooling, activateWith_sync _ haccepting hcooling]
        refine Run.bind_same ?_
        have haffairs := affairs_isCooling t c e
        have hhost : (newActivation .created (isCooling t c e).2).2.hostIsMain = e.hostIsMain :=
          congrArg (·.bridge.main == .attached) haffairs
        have hlimit : (newActivation .created (isCooling t c e).2).2.maxDepth = e.maxDepth :=
          congrArg (·.settings.execution.maxCallDepth) haffairs
        rw [← hhost, ← hlimit]
        unfold runForHost
        rw [Run.get_bind]
        dsimp only
        split <;> rfl

/-- A trigger that the host starts is a run of the system, with the handle that the host gets among its handles. -/
theorem activate_leads {t : Trigger} {c : Context H} {mode : Mode} {vars : Variables} {r : Except Halt Handle}
    {scope : Scope (Engine H)} (h : s.Resting) (hrun : activate fuel t c mode ⟨vars, s.engine⟩ = (r, scope))
    (hr : r ≠ .error .outOfFuel) :
    ∃ s', s.Leads (hostThread s.engine) [] s' ∧ s'.engine = scope.world ∧ ∀ x, r = .ok x → x ∈ s'.handles := by
  let p := hostSite (hostThread s.engine) s.engine
  have hsync : p.FollowsSync
      (if s.engine.hostIsMain then fun a => spread (runOnMain fuel s.engine.maxDepth 0 a) else runAcross fuel) := by
    split
    next hhost =>
      have hmain : p.thread = .main := if_pos hhost
      exact Site.followsSync_spread hmain trivial (Site.runOnMain_concludes fuel _ p hmain (Nat.zero_add _))
    next hhost =>
      have hacross : p.thread ≠ .main := fun hmain => nomatch (if_neg hhost).symm.trans hmain
      exact Site.followsSync_runAcross hacross
  obtain ⟨s₀, hholds, hengine, hleave⟩ := visit_leads h h.admitsHost vars
  rw [activate_apply] at hrun
  rw [← hengine] at hrun hsync
  have hstart : p.duty.MayStartIn c := trivial
  obtain ⟨s₁, hleads, hengine₁, hhandle⟩ := Site.activateWith_leads (p := p) hsync hstart hholds hrun hr
  obtain ⟨s', hleads', hengine', hhandles⟩ := hleave s₁ scope.locals hleads
  exact ⟨s', hleads', hengine'.trans hengine₁, fun x hx => hhandles ▸ hhandle x hx⟩

/-- Another thread of the host has the main thread do a unit of work. -/
theorem workAcross_leads {w : Work H} {r : Except Halt (Except BridgeFault Value)} {e' : Engine H} (h : s.Resting)
    (hrun : workAcross fuel w s.engine = (r, e')) (hr : r ≠ .error .outOfFuel) :
    ∃ s', s.Leads (.other 0) [] s' ∧ s'.engine = e' := by
  obtain ⟨s₀, hholds, hengine, hleave⟩ := visit_leads h (admitsHost_other (h.stack (.other 0))) ∅
  have hwork : Run.ofAct (workAcross fuel w) ⟨∅, s₀.engine⟩ = (r, ⟨∅, e'⟩) := by
    simp only [Run.ofAct, hengine, hrun]
  have hacross : (hostSite (.other 0) s.engine).thread ≠ .main := by rintro ⟨⟩
  obtain ⟨s₁, hleads, hengine₁⟩ := Site.follows_workAcross hacross trivial w s₀ ∅ r _ hholds hwork hr
  obtain ⟨s', hleads', hengine', -⟩ := hleave s₁ ∅ hleads
  exact ⟨s', hleads', hengine'.trans hengine₁⟩

/-! ## The end -/

/-- An engine that is shut down is a run of the system, with the jobs that are drained. -/
theorem shutDown_leads {jobs : Nat} {r : Except Halt Unit} {e' : Engine H} (h : s.Resting)
    (hrun : shutDown fuel jobs s.engine = (r, e')) (hr : r ≠ .error .outOfFuel) :
    ∃ s', s.Leads (.worker 0) [] s' ∧ s'.engine = e' := by
  obtain ⟨-, rfl⟩ | ⟨-, r₁, e₁, hdrain, hend⟩ := shutDown_cases hrun
  · exact ⟨s, .refl (h.stack _) h.prompt, rfl⟩
  let s₁ : System H := { s with engine := { s.engine with accepting := false } }
  let s₂ : System H := { s₁.setBridge s.engine.bridge.shutDown with
    replies := fun id => if some id ∈ s.engine.bridge.dropped.map MainTask.activation? then some (.error .droppedTask)
      else s.replies id }
  let s₃ : System H := s₂.setWorkers s.engine.workers.shutDown
  have hclose : Step s s₁ := .close
  have hcloseBridge : Step s₁ s₂ := .closeBridge
  have hcloseWorkers : Step s₂ s₃ := .closeWorkers
  have hclosed : Passes s s₃ :=
    .head (hclose.tick (.same rfl rfl)) (.head (hcloseBridge.tick (.same rfl rfl)) (.single (hcloseWorkers.tick (.same rfl rfl))))
  have hprompt : s₃.engine.Prompt := fun hdedicated => by
    have hempty := h.prompt ((Bridge.main_shutDown _).symm.trans hdedicated)
    exact List.eq_nil_iff_forall_not_mem.mpr fun t ht => List.not_mem_nil (hempty ▸ Bridge.pending_shutDown ht)
  have hresting : s₃.Resting := ⟨h.stack, h.depth, hprompt⟩
  have hfuel : r₁ ≠ .error .outOfFuel := by
    obtain ⟨rfl, -⟩ | ⟨rfl, -⟩ := hend
    · exact hr
    · exact nofun
  obtain ⟨s₄, hleads, rfl⟩ := drain_leads hresting hdrain hfuel
  have hpasses : Passes s s₄ := hclosed.trans hleads.passes
  obtain ⟨-, rfl⟩ | ⟨-, rfl⟩ := hend
  · exact ⟨s₄, ⟨hpasses, hleads.stack, hleads.depth, hleads.prompt⟩, rfl⟩
  · have hflushed : Step s₄ { s₄ with engine := (onGlobals (H := H) Globals.flush s₄.engine).2 } := .act rfl
    exact ⟨_, ⟨hpasses.tail (hflushed.tick (.same rfl rfl)), hleads.stack, hleads.depth, hleads.prompt⟩, rfl⟩

end System

/-! ## A host and its engine -/

namespace Engine

/-- The engines that a host may come to, with the handles that it was given. -/
inductive Comes : Engine H → List Handle → Prop
  | new (settings : Settings) (main : MainThread) (attended : Bool) (host : H) (globals : Globals) (files : Files)
      (clock : Clock) : Comes (.new settings main attended host globals files clock) []
  /-- Something changes that concerns no activation. -/
  | act {e e' hs} : Comes e hs → e'.affairs = e.affairs → Comes e' hs
  | activate {e hs fuel t c mode vars r scope} : Comes e hs → activate fuel t c mode ⟨vars, e⟩ = (r, scope) →
      r ≠ .error .outOfFuel → Comes scope.world (r.toOption.toList ++ hs)
  | workAcross {e hs fuel w r e'} : Comes e hs → workAcross fuel w e = (r, e') → r ≠ .error .outOfFuel → Comes e' hs
  | runPending {e hs fuel r e'} : Comes e hs → runPending fuel e = (r, e') → r ≠ .error .outOfFuel → Comes e' hs
  | drain {e hs fuel jobs r e'} : Comes e hs → drain fuel jobs e = (r, e') → r ≠ .error .outOfFuel → Comes e' hs
  | shutDown {e hs fuel jobs r e'} : Comes e hs → shutDown fuel jobs e = (r, e') → r ≠ .error .outOfFuel → Comes e' hs

section

variable {e e' : Engine H} {hs : List Handle} {fuel : Nat} {c : Context H} {mode : Mode} {w : Work H}

/-- An engine comes to where it calls a trigger by name, with the handle of the activation. -/
theorem Comes.callNamed (h : Comes e hs) {name : String} {vars : Variables} {r : Except Halt Handle} {scope : Scope (Engine H)}
    (hrun : callNamed fuel name c mode ⟨vars, e⟩ = (r, scope)) (hr : r ≠ .error .outOfFuel) :
    Comes scope.world (r.toOption.toList ++ hs) := by
  unfold Engine.callNamed at hrun
  rw [Run.get_bind] at hrun
  cases hnamed : e.named[name]? with
  | none =>
    simp only [hnamed] at hrun
    cases hrun
    exact h
  | some t =>
    simp only [hnamed] at hrun
    exact h.activate hrun hr

/-- An engine comes to where it fires a trigger, with the handle of the activation. -/
theorem Comes.fire (h : Comes e hs) {t : Trigger} {r : Except Halt Handle} (hrun : fire fuel t c e = (r, e'))
    (hr : r ≠ .error .outOfFuel) : Comes e' (r.toOption.toList ++ hs) := by
  cases hrun
  exact h.activate rfl hr

/-- An engine comes to where it does work on the main thread. -/
theorem Comes.callOnMain (h : Comes e hs) {r : Except Halt (Except BridgeFault Value)} (hrun : callOnMain fuel w e = (r, e'))
    (hr : r ≠ .error .outOfFuel) : Comes e' hs := by
  unfold Engine.callOnMain at hrun
  rw [Run.get_bind] at hrun
  split at hrun
  · have haffairs := affairs_workHere w e
    rw [show workHere w e = (r, e') from hrun] at haffairs
    exact h.act haffairs
  · exact h.workAcross hrun hr

/-- An engine comes to where it hands work to the main thread. -/
theorem Comes.callFromElsewhere (h : Comes e hs) {r : Except Halt (Except BridgeFault Value × Nat)}
    (hrun : callFromElsewhere fuel w e = (r, e')) (hr : r ≠ .error .outOfFuel) : Comes e' hs := by
  unfold Engine.callFromElsewhere at hrun
  rw [Run.get_bind] at hrun
  rcases Run.cases (Engine.workAcross fuel w) e with ⟨answer, e₁, hwork⟩ | ⟨reason, e₁, hwork⟩
  · rw [Run.bind_ok hwork] at hrun
    cases hrun
    exact h.workAcross hwork nofun
  · rw [Run.bind_error hwork] at hrun
    cases hrun
    exact h.workAcross hwork fun hsame => hr (congrArg _ (Except.error.inj hsame))

/-- Whatever a host does with an engine, threads could have brought it there, and it has the handles that they were given. -/
theorem Comes.reachable (h : Comes e hs) : ∃ s : System H, s.Reachable ∧ s.Resting ∧ s.engine = e ∧ hs ⊆ s.handles := by
  -- The steps of an operation lead from threads at rest to threads at rest.
  have hgo {s s' : System H} {θ : Thread} {hs : List Handle} (hreach : s.Reachable) (hrest : s.Resting)
      (hhandles : hs ⊆ s.handles) (hleads : s.Leads θ [] s') : s'.Reachable ∧ s'.Resting ∧ hs ⊆ s'.handles :=
    ⟨hreach.steps hleads.steps, hleads.resting hrest, fun _ hmem => hleads.steps.handles (hhandles hmem)⟩
  induction h with
  | new settings main attended host globals files clock =>
    exact ⟨_, .new settings main attended host globals files clock, ⟨fun _ => rfl, fun _ => rfl, fun _ => rfl⟩, rfl,
      List.nil_subset _⟩
  | act _ haffairs ih =>
    obtain ⟨s, hreach, hrest, rfl, hhandles⟩ := ih
    have hprompt := hrest.prompt.of_bridge (congrArg Affairs.bridge haffairs)
    exact ⟨_, hreach.step (.act haffairs), ⟨hrest.stack, hrest.depth, hprompt⟩, rfl, hhandles⟩
  | @activate _ _ _ _ _ _ _ r _ _ hrun hr ih =>
    obtain ⟨s, hreach, hrest, rfl, hhandles⟩ := ih
    obtain ⟨s', hleads, hengine, hhandle⟩ := System.activate_leads hrest hrun hr
    obtain ⟨hreach', hrest', hkept⟩ := hgo hreach hrest hhandles hleads
    refine ⟨s', hreach', hrest', hengine, List.append_subset.mpr ⟨?_, hkept⟩⟩
    cases r with
    | ok x => exact List.cons_subset.mpr ⟨hhandle x rfl, List.nil_subset _⟩
    | error reason => exact List.nil_subset _
  | workAcross _ hrun hr ih =>
    obtain ⟨s, hreach, hrest, rfl, hhandles⟩ := ih
    obtain ⟨s', hleads, hengine⟩ := System.workAcross_leads hrest hrun hr
    obtain ⟨hreach', hrest', hkept⟩ := hgo hreach hrest hhandles hleads
    exact ⟨s', hreach', hrest', hengine, hkept⟩
  | runPending _ hrun hr ih =>
    obtain ⟨s, hreach, hrest, rfl, hhandles⟩ := ih
    obtain ⟨s', hleads, hengine⟩ := System.runPending_leads hrest hrun hr
    obtain ⟨hreach', hrest', hkept⟩ := hgo hreach hrest hhandles hleads
    exact ⟨s', hreach', hrest', hengine, hkept⟩
  | drain _ hrun hr ih =>
    obtain ⟨s, hreach, hrest, rfl, hhandles⟩ := ih
    obtain ⟨s', hleads, hengine⟩ := System.drain_leads hrest hrun hr
    obtain ⟨hreach', hrest', hkept⟩ := hgo hreach hrest hhandles hleads
    exact ⟨s', hreach', hrest', hengine, hkept⟩
  | shutDown _ hrun hr ih =>
    obtain ⟨s, hreach, hrest, rfl, hhandles⟩ := ih
    obtain ⟨s', hleads, hengine⟩ := System.shutDown_leads hrest hrun hr
    obtain ⟨hreach', hrest', hkept⟩ := hgo hreach hrest hhandles hleads
    exact ⟨s', hreach', hrest', hengine, hkept⟩

end

/-! ## A host and its cooldowns -/

/-- What a host does with an engine of whose cooldowns account is kept. -/
inductive Operation : Engine H → Engine H → Prop
  /-- Something changes that concerns neither activations nor cooldowns. -/
  | act {e e'} : e'.affairs = e.affairs → e.Quiet e' → Operation e e'
  | startCooldown {e start} (trigger : Nat) (actor : String) (length : Duration) : start ≤ e.clock.now →
      Operation e (e.setCooldowns trigger ((e.cooldownsOf trigger).start start actor length))
  | clearCooldown {e} (trigger : Nat) (actor : String) :
      Operation e (e.setCooldowns trigger ((e.cooldownsOf trigger).clear actor))
  | purgeCooldowns {e start} (trigger : Nat) : start ≤ e.clock.now →
      Operation e (e.setCooldowns trigger ((e.cooldownsOf trigger).purge start).2)
  | activate {e fuel t c mode vars r scope} : activate fuel t c mode ⟨vars, e⟩ = (r, scope) → r ≠ .error .outOfFuel →
      Operation e scope.world
  | workAcross {e fuel w r e'} : workAcross fuel w e = (r, e') → r ≠ .error .outOfFuel → Operation e e'
  | runPending {e fuel r e'} : runPending fuel e = (r, e') → r ≠ .error .outOfFuel → Operation e e'
  | drain {e fuel jobs r e'} : drain fuel jobs e = (r, e') → r ≠ .error .outOfFuel → Operation e e'
  | shutDown {e fuel jobs r e'} : shutDown fuel jobs e = (r, e') → r ≠ .error .outOfFuel → Operation e e'

/-- An operation leads in a number of ticks from threads at rest to threads at rest. -/
theorem Operation.passes {s : System H} {e' : Engine H} (hop : Operation s.engine e') (h : s.Resting) :
    ∃ s', s.Passes s' ∧ s'.Resting ∧ s'.engine = e' := by
  -- The host changes a table, or something that concerns no activation.
  have hset {events : List CooldownEvent} {trigger : Nat} {t : Cooldowns} (htick : s.Tick events (s.setCooldowns trigger t)) :
      ∃ s', s.Passes s' ∧ s'.Resting ∧ s'.engine = s.engine.setCooldowns trigger t :=
    ⟨_, .single ⟨events, htick⟩, ⟨h.stack, h.depth, h.prompt⟩, rfl⟩
  have hgo {θ : Thread} (hleads : ∃ s', s.Leads θ [] s' ∧ s'.engine = e') :
      ∃ s', s.Passes s' ∧ s'.Resting ∧ s'.engine = e' := by
    obtain ⟨s', hleads, hengine⟩ := hleads
    exact ⟨s', hleads.passes, hleads.resting h, hengine⟩
  cases hop with
  | act haffairs hquiet =>
    have hact : System.Step s { s with engine := e' } := .act haffairs
    have hprompt := h.prompt.of_bridge (congrArg Affairs.bridge haffairs)
    exact ⟨_, .single (hact.tick hquiet), ⟨h.stack, h.depth, hprompt⟩, rfl⟩
  | startCooldown trigger actor length hstart => exact hset (.hostCools trigger actor length hstart)
  | clearCooldown trigger actor => exact hset (.hostClears trigger actor)
  | purgeCooldowns trigger hstart => exact hset (.hostPurges trigger hstart)
  | activate hrun hr =>
    obtain ⟨s', hleads, hengine, -⟩ := System.activate_leads h hrun hr
    exact hgo ⟨s', hleads, hengine⟩
  | workAcross hrun hr => exact hgo (System.workAcross_leads h hrun hr)
  | runPending hrun hr => exact hgo (System.runPending_leads h hrun hr)
  | drain hrun hr => exact hgo (System.drain_leads h hrun hr)
  | shutDown hrun hr => exact hgo (System.shutDown_leads h hrun hr)

/-- Whatever a host does with a new engine, there is a chronicle of it. -/
theorem Operation.chronicle (settings : Settings) (main : MainThread) (attended : Bool) (host : H) (globals : Globals)
    (files : Files) (clock : Clock) {e : Engine H}
    (h : Relation.ReflTransGen Operation (.new settings main attended host globals files clock) e) :
    ∃ (s : System H) (history : List CooldownEvent), s.Chronicle history ∧ s.Resting ∧ s.engine = e := by
  induction h with
  | refl =>
    exact ⟨_, [], .new settings main attended host globals files clock, ⟨fun _ => rfl, fun _ => rfl, fun _ => rfl⟩, rfl⟩
  | tail _ hop ih =>
    obtain ⟨s, history, hchronicle, hrest, rfl⟩ := ih
    obtain ⟨s', hpasses, hrest', hengine⟩ := hop.passes hrest
    obtain ⟨events, hticks⟩ := hpasses.ticks
    exact ⟨s', _, hchronicle.ticks hticks, hrest', hengine⟩

end Engine

end EventScript
