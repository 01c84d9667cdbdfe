import EventScript.Proofs.Threads.Scripts

/-!
# Activations take steps

An activation runs on the thread that it was started on, or on another one while its caller waits. From the first of its
phases to the last this is a number of steps of these threads. On the main thread the proof goes by induction on how many
activations may still run inside of each other (`Site.runOnMain_concludes`). For a call from another thread it goes through the
tasks that the main thread takes up with it (`served_leads`).
-/

namespace EventScript

variable {H : Type}

namespace System

open Engine

namespace Site

variable {p : Site H} {s s' : System H} {vars : Variables} {a : Activation H} {fuel : Nat}

/-! ## One activation -/

/-- Where the script runs of an activation that enters at the site. -/
def inside (p : Site H) (a : Activation H) : Site H :=
  ⟨p.thread, .script a p.depth, ⟨p.duty, ∅, .inside⟩ :: p.below, p.depth + 1, p.limit⟩

/-- How an activation ends at the site that has come to a conclusion. -/
def ended (p : Site H) (s : System H) (a : Activation H) (vars : Variables) : Conclusion → System H
  | .ok v => s.deliver p.thread a v vars p.duty p.below
  | .error (.panicked q) => s.unwind p.thread a q p.duty vars p.below
  | .error .outOfFuel => s

/-- What the run of an activation does that is about to enter, steps do as well, up to its end at the site. -/
def Concludes (p : Site H) (a : Activation H) (run : StateM (Scope (Engine H)) Conclusion) : Prop :=
  ∀ s vars c scope, p.Holds s vars (.entering a) → run ⟨vars, s.engine⟩ = (c, scope) → c ≠ .error .outOfFuel →
    ∃ s₁ levels, s₁.stack = Function.update s.stack p.thread levels ∧ s₁.depth = s.depth ∧ s₁.engine = scope.world ∧
      s₁.engine.Prompt ∧ Passes s (p.ended s₁ a scope.locals c)

/-- At the limit on their depth an activation is refused. -/
theorem refuseDepth_concludes (hdepth : p.limit ≤ p.depth) (a : Activation H) : p.Concludes a (refuseDepth a) := by
  intro s vars c scope h hrun _
  cases hrun
  have hrefuse := Step.refuse h.stack (h.limit ▸ h.depth ▸ hdepth)
  exact ⟨s.setPhase a.id .failed, s.stack p.thread, (Function.update_eq_self _ _).symm, rfl, rfl, h.prompt,
    .single (hrefuse.tick ((endsIn_deliver ..).quiet rfl rfl))⟩

/-- Below the limit it enters, its script takes steps, and it finishes or panics. -/
theorem runHere_concludes {handOver : HandOver H} {run : RunSync H} (hdepth : p.depth < p.limit)
    (hhand : ∀ w, (p.inside a).Follows (Run.ofAct (handOver w))) (hsync : (p.inside a).FollowsSync run) :
    p.Concludes a (runHere fuel (p.thread = .main) (p.depth + 1) handOver run a) := by
  intro s vars c scope h hrun hc
  obtain ⟨r, scope₁, hscript, ⟨-, houtOfFuel⟩ | ⟨hr, hend⟩⟩ := runHere_cases hrun
  · exact absurd houtOfFuel hc
  have henter := Step.enter h.stack (h.depth ▸ h.limit ▸ hdepth)
  rw [h.depth] at henter
  -- The clock is read for the deadline before the first node.
  have hstart := affairs_start s.engine.settings.execution.activationTimeout (s.engine.setPhase a.id .running)
  let s₁ := (((s.put p.thread (⟨.script a p.depth, vars, .idle⟩ :: (p.inside a).below)).setDepth p.thread
    (p.depth + 1)).setPhase a.id .running)
  let s₂ : System H := { s₁ with
    engine := (Deadline.start s.engine.settings.execution.activationTimeout (s.engine.setPhase a.id .running)).2 }
  have hsettings : s₂.engine.settings = s.engine.settings := congrArg Affairs.settings hstart
  have hinside : (p.inside a).Holds s₂ vars .idle :=
    holds_put (p := p.inside a) (s := { s with engine := s₂.engine, depth := s₂.depth }) (Function.update_self ..)
      ((congrArg (·.execution.maxCallDepth) hsettings).trans h.limit) (h.prompt.of_bridge (congrArg Affairs.bridge hstart))
      (fun hacross => ⟨(h.main hacross).1, (Function.update_of_ne hacross.symm ..).trans (h.main hacross).2⟩) vars .idle
  obtain ⟨s₃, hleads, hengine⟩ := follows_script (p := p.inside a) rfl hhand hsync _ fuel s₂ vars r scope₁ hinside hscript hr
  rw [← hengine] at hend
  have hstack : s₃.stack = Function.update s.stack p.thread _ := hleads.stack.trans (Function.update_idem ..)
  have hdepths : Function.update s₃.depth p.thread p.depth = s.depth := by
    rw [hleads.depth]
    exact (Function.update_idem ..).trans (h.depth ▸ Function.update_eq_self ..)
  have hquiet := quiet_start s.engine.settings.execution.activationTimeout (s.engine.setPhase a.id .running)
  have hpasses : Passes s s₃ := .head (henter.tick (.same rfl rfl)) (.head ((Step.act hstart).tick hquiet) hleads.passes)
  obtain ⟨v, rfl, rfl⟩ | ⟨q, rfl, rfl⟩ := hend
  · have hfinish := Step.finish v hleads.here
    exact ⟨(s₃.setDepth p.thread p.depth).setPhase a.id (.ofVerdict v), _, hstack, hdepths, rfl, hleads.prompt,
      hpasses.tail (hfinish.tick ((endsIn_deliver ..).quiet rfl rfl))⟩
  · have hpanic := Step.panic q hleads.here
    exact ⟨s₃.setDepth p.thread p.depth, _, hstack, hdepths, rfl, hleads.prompt,
      hpasses.tail (hpanic.tick ((endsIn_unwind ..).quiet rfl rfl))⟩

/-- Where code runs, it goes on when the activation has ended. -/
theorem ended_code (hcode : p.duty.RunsCode) (s : System H) (a : Activation H) (vars : Variables) {c : Conclusion}
    (hc : c ≠ .error .outOfFuel) :
    (p.ended s a vars c).stack = Function.update s.stack p.thread (⟨p.duty, vars, .idle⟩ :: p.below) ∧
      (p.ended s a vars c).depth = s.depth ∧ (p.ended s a vars c).engine = s.engine ∧
      ∀ v, c = .ok v → ⟨a.id, some v⟩ ∈ (p.ended s a vars c).handles := by
  obtain ⟨θ, duty, below, depth, limit⟩ := p
  have hhandle (v : Verdict) : (⟨a.id, some v⟩ : Handle) ∈ ⟨a.id, some v⟩ :: s.handles := List.mem_cons_self
  rcases c with (q | _) | v
  · cases duty with
    | host | script => exact ⟨rfl, rfl, rfl, nofun⟩
    | task | job | batch => exact hcode.elim
  · exact absurd rfl hc
  · cases duty with
    | host | script =>
      refine ⟨rfl, rfl, rfl, ?_⟩
      rintro _ ⟨⟩
      exact hhandle v
    | task | job | batch => exact hcode.elim

/-- On the main thread a synchronous activation runs inside the code that starts it. -/
theorem followsSync_spread {run : Activation H → StateM (Scope (Engine H)) Conclusion} (hmain : p.thread = .main)
    (hcode : p.duty.RunsCode) (hrun : ∀ a, p.Concludes a (run a)) : p.FollowsSync fun a => spread (run a) := by
  intro s vars a r scope h hsync hspread hr
  have hstay : s.Step _ := Step.stay (hmain ▸ h.stack) hsync
  rw [← hmain] at hstay
  have hentering : p.Leads s vars (.entering a) _ := ⟨.single (hstay.tick (.same rfl rfl)), rfl, rfl, h.prompt⟩
  obtain ⟨c, scope', hc⟩ : ∃ c scope', run a ⟨vars, s.engine⟩ = (c, scope') := ⟨_, _, rfl⟩
  simp only [spread_apply, hc] at hspread
  have hfuel : c ≠ .error .outOfFuel := by
    rintro rfl
    cases hspread
    exact hr rfl
  obtain ⟨s₁, levels, hstack, hdepth, hengine, hprompt, hpasses⟩ := hrun a _ vars c scope' (h.leads hentering) hc hfuel
  obtain ⟨hstack', hdepth', hengine', hhandle⟩ := ended_code hcode s₁ a scope'.locals hfuel
  have hleads : p.Leads s scope'.locals .idle (p.ended s₁ a scope'.locals c) := {
    passes := hentering.passes.trans hpasses
    stack := by
      rw [hstack', hstack, hentering.stack, Function.update_idem, Function.update_idem]
    depth := (hdepth'.trans hdepth).trans hentering.depth
    prompt := hengine' ▸ hprompt }
  rcases c with (q | _) | v
  · cases hspread
    exact ⟨_, hleads, hengine'.trans hengine, nofun⟩
  · exact absurd rfl hfuel
  · cases hspread
    refine ⟨_, hleads, hengine'.trans hengine, ?_⟩
    rintro _ ⟨⟩
    exact hhandle v rfl

/-- A unit of work that is done on the main thread at once. -/
theorem follows_workHere (hcode : p.duty.RunsCode) (w : Work H) : p.Follows (Run.ofAct (workHere w)) :=
  follows_of_affairs hcode (fun scope => affairs_workHere w scope.world) fun scope => quiet_workHere w scope.world

/-- The levels that are left and those that the thread counts are as many as the settings allow. -/
theorem runOnMain_concludes (fuel levels : Nat) (p : Site H) (hmain : p.thread = .main) (hlimit : p.depth + levels = p.limit)
    (a : Activation H) : p.Concludes a (runOnMain fuel levels p.depth a) := by
  induction levels generalizing p a with
  | zero => exact refuseDepth_concludes (Nat.le_of_eq hlimit.symm) a
  | succ levels ih =>
    have hcode : (p.inside a).duty.RunsCode := trivial
    have hnested (b : Activation H) : (p.inside a).Concludes b (runOnMain fuel levels (p.depth + 1) b) :=
      ih (p.inside a) hmain ((Nat.succ_add_eq_add_succ ..).trans hlimit) b
    have hdepth : p.depth < p.limit := by omega
    have hconcludes : p.Concludes a (runHere fuel (p.thread = .main) (p.depth + 1) workHere _ a) :=
      runHere_concludes hdepth (follows_workHere hcode) (followsSync_spread hmain hcode hnested)
    rw [decide_eq_true hmain] at hconcludes
    exact hconcludes

end Site

/-! ## The main thread -/

variable {s : System H} {fuel : Nat}

/-- Whoever waits for a task is told what came of it. -/
def Reported (replies : Nat → Option (Except BridgeFault (Verdict × Variables))) :
    (t : MainTask H) → Except Crash t.Answer → Prop
  | .work _, _ => True
  | .activation a _, .ok x => replies a.id = some (.ok x)
  | .activation a _, .error (.panicked p) => replies a.id = some (.error (.panicked p))
  | .activation _ _, .error .outOfFuel => False

theorem runTask_leads {t : MainTask H} {rest : List (MainTask H)} {σ : List (Level H)} {r : Except Crash t.Answer}
    {e' : Engine H} (hstack : s.stack .main = ⟨.batch (t :: rest), ∅, .idle⟩ :: σ) (hdepth : s.depth .main = 0)
    (hprompt : s.engine.Prompt) (hrun : runTask fuel t s.engine = (r, e')) (hr : r ≠ .error .outOfFuel) :
    ∃ s', s.Leads .main (⟨.batch rest, ∅, .idle⟩ :: σ) s' ∧ s'.engine = e' ∧ Reported s'.replies t r := by
  cases t with
  | work w =>
    cases hrun
    let s₁ := s.put .main (⟨.host, ∅, .idle⟩ :: ⟨.batch rest, ∅, .idle⟩ :: σ)
    let s₂ : System H := { s₁ with engine := { s.engine with reach := (w s.engine.reach).2 } }
    have hnext : Step s s₁ := .nextWork hstack
    have hwork : Step s₁ s₂ := .act rfl
    have hleaves : Step s₂ (s₂.put .main (⟨.batch rest, ∅, .idle⟩ :: σ)) := .hostLeaves (stack_put_self s .main _)
    have hpasses : Passes s _ :=
      .head (hnext.tick (.same rfl rfl)) (.head (hwork.tick (.same rfl rfl)) (.single (hleaves.tick (.same rfl rfl))))
    exact ⟨_, ⟨hpasses, Function.update_idem .., rfl, hprompt⟩, rfl, trivial⟩
  | activation a vars =>
    have hnext := Step.nextActivation hstack
    let p : Site H := ⟨.main, .task, ⟨.batch rest, ∅, .idle⟩ :: σ, 0, s.engine.maxDepth⟩
    have hholds := Site.holds_put (p := p) hdepth rfl hprompt (fun hacross => absurd rfl hacross) vars (.entering a)
    obtain ⟨c, scope, hc⟩ : ∃ c scope, runOnMain fuel s.engine.maxDepth 0 a ⟨vars, s.engine⟩ = (c, scope) := ⟨_, _, rfl⟩
    simp only [runTask, hc] at hrun
    have hfuel : c ≠ .error .outOfFuel := by
      rintro rfl
      cases hrun
      exact hr rfl
    obtain ⟨s₁, levels, hstack₁, hdepth₁, hengine₁, hprompt₁, hpasses⟩ :=
      Site.runOnMain_concludes fuel s.engine.maxDepth p rfl (Nat.zero_add _) a _ vars c scope hholds hc hfuel
    have hbelow : Function.update s₁.stack .main p.below = Function.update s.stack .main p.below := by
      rw [hstack₁]
      exact (Function.update_idem ..).trans (Function.update_idem ..)
    cases hrun
    rcases c with (q | _) | v
    · exact ⟨_, ⟨.head (hnext.tick (.same rfl rfl)) hpasses, hbelow, hdepth₁, hprompt₁⟩, hengine₁, Function.update_self ..⟩
    · exact absurd rfl hfuel
    · exact ⟨_, ⟨.head (hnext.tick (.same rfl rfl)) hpasses, hbelow, hdepth₁, hprompt₁⟩, hengine₁, Function.update_self ..⟩

theorem runTasks_leads {ts rest : List (MainTask H)} {σ : List (Level H)} {r : Except Halt Unit} {e' : Engine H}
    (hstack : s.stack .main = ⟨.batch (ts ++ rest), ∅, .idle⟩ :: σ) (hdepth : s.depth .main = 0) (hprompt : s.engine.Prompt)
    (hrun : runTasks fuel ts s.engine = (r, e')) (hr : r ≠ .error .outOfFuel) :
    ∃ s', s.Leads .main (⟨.batch rest, ∅, .idle⟩ :: σ) s' ∧ s'.engine = e' := by
  induction ts generalizing s with
  | nil =>
    cases hrun
    exact ⟨s, .refl hstack hprompt, rfl⟩
  | cons t ts ih =>
    obtain ⟨c, e₁, htask, hc, hrest⟩ := runTasks_cons hrun hr
    obtain ⟨s₁, hleads, rfl, -⟩ := runTask_leads hstack hdepth hprompt htask hc
    obtain ⟨s₂, hleads', hengine⟩ := ih hleads.here (hleads.depth ▸ hdepth) hleads.prompt hrest
    exact ⟨s₂, hleads.trans hleads', hengine⟩

/-- Tasks that the main thread takes up are carried out, and then it has nothing to do. -/
theorem batch_leads {ts : List (MainTask H)} {r : Except Halt Unit} {e' : Engine H}
    (hstack : s.stack .main = ⟨.batch ts, ∅, .idle⟩ :: []) (hdepth : s.depth .main = 0) (hprompt : s.engine.Prompt)
    (hrun : runTasks fuel ts s.engine = (r, e')) (hr : r ≠ .error .outOfFuel) : ∃ s', s.Leads .main [] s' ∧ s'.engine = e' := by
  rw [← ts.append_nil] at hstack
  obtain ⟨s₁, hleads, hengine⟩ := runTasks_leads hstack hdepth hprompt hrun hr
  have hends := Step.batchEnds hleads.here
  exact ⟨_, hleads.trans ⟨.single (hends.tick (.same rfl rfl)), rfl, rfl, hleads.prompt⟩, hengine⟩

/-- Nothing is asked of the queue before an attached main thread. -/
theorem prompt_of_not_served {t : MainTask H} {b : Bridge (MainTask H)} {e : Engine H} (hsubmit : e.bridge.submit t = .ok b)
    (hserved : e.isServed = false) : Engine.Prompt { e with bridge := b } := by
  intro hdedicated
  unfold isServed at hserved
  rw [← Bridge.main_submit hsubmit] at hserved
  simp [show b.main = .dedicated from hdedicated] at hserved

/-- A call that was handed to the main thread and is taken up is answered, after what was queued before it. -/
theorem served_leads {t : MainTask H} {b : Bridge (MainTask H)} {e e₁ e' : Engine H} {r : Except Crash t.Answer}
    (hsubmit : e.bridge.submit t = .ok b) (hengine : s.engine = { e with bridge := b }) (hprompt : e.Prompt)
    (hmain : s.stack .main = []) (hdepth : s.depth .main = 0)
    (htasks : runTasks fuel e.bridge.pending { e with bridge := { b with pending := [] } } = (.ok (), e₁))
    (htask : runTask fuel t e₁ = (r, e')) (hr : r ≠ .error .outOfFuel) :
    ∃ s', s'.stack = s.stack ∧ s'.depth = s.depth ∧ s'.engine = e' ∧ e'.Prompt ∧ Passes s s' ∧ Reported s'.replies t r := by
  have hbridge : s.engine.bridge = b := congrArg Engine.bridge hengine
  have hpending : b.pending = e.bridge.pending ++ [t] := Bridge.pending_submit hsubmit
  let s₀ : System H := (s.put .main [⟨.batch (e.bridge.pending ++ [t]), ∅, .idle⟩]).setBridge { b with pending := [] }
  have htaken : Step s s₀ := by
    cases hthread : b.main with
    | dedicated =>
      have hempty : e.bridge.pending = [] := hprompt ((Bridge.main_submit hsubmit).symm.trans hthread)
      have htake := Step.takeTask (hbridge ▸ hthread) hmain (hbridge ▸ hempty ▸ hpending)
      rw [hbridge] at htake
      simp only [s₀, hempty]
      exact htake
    | attached =>
      have hhost : s.engine.hostIsMain := beq_iff_eq.mpr (hbridge ▸ hthread)
      have hrun := Step.runPending hhost (admitsHost_main hmain hhost)
      rw [hmain, hbridge] at hrun
      unfold Bridge.collect at hrun
      rw [hpending] at hrun
      exact hrun
  have hbatch : s₀.stack .main = ⟨.batch (e.bridge.pending ++ [t]), ∅, .idle⟩ :: [] := stack_put_self s .main _
  have hstart : s₀.engine = { e with bridge := { b with pending := [] } } := by
    show { s.engine with bridge := { b with pending := [] } } = _
    rw [hengine]
  rw [← hstart] at htasks
  obtain ⟨s₁, hleads, rfl⟩ := runTasks_leads (s := s₀) hbatch hdepth (fun _ => rfl) htasks (by exact nofun)
  obtain ⟨s₂, hleads', rfl, hreported⟩ := runTask_leads hleads.here (hleads.depth ▸ hdepth) hleads.prompt htask hr
  have hends := Step.batchEnds hleads'.here
  refine ⟨s₂.put .main [], ?_, (hleads.trans hleads').depth, rfl, hleads'.prompt,
    .head (htaken.tick (.same rfl rfl)) ((hleads.trans hleads').passes.tail (hends.tick (.same rfl rfl))), hreported⟩
  show Function.update s₂.stack Thread.main [] = s.stack
  rw [(hleads.trans hleads').stack]
  show Function.update (Function.update (Function.update s.stack _ _) _ _) _ _ = _
  rw [Function.update_idem, Function.update_idem, ← hmain, Function.update_eq_self]

/-! ## Calls across the bridge -/

namespace Site

variable {p : Site H}

theorem follows_workAcross (hacross : p.thread ≠ .main) (hcode : p.duty.RunsCode) (w : Work H) :
    p.Follows (Run.ofAct (workAcross fuel w)) := by
  intro s vars r scope h hrun hr
  obtain ⟨r', e', hcall⟩ : ∃ r' e', callMain fuel (.work w) s.engine = (r', e') := ⟨_, _, rfl⟩
  have hscope : (r', (⟨vars, e'⟩ : Scope (Engine H))) = (r, scope) := by
    rw [← hrun]
    simp only [Run.ofAct, workAcross, hcall]
    rfl
  cases hscope
  obtain ⟨hmain, hdepth⟩ := h.main hacross
  obtain ⟨f, -, -, rfl⟩ | ⟨b, hsubmit, hcases⟩ := callMain_cases hcall hr
  · exact ⟨s, .refl h.stack h.prompt, rfl⟩
  have hhand := Step.handOver h.stack hcode hacross hsubmit
  have hstay : s.stack = Function.update s.stack p.thread (⟨p.duty, vars, .idle⟩ :: p.below) := by
    rw [← h.stack, Function.update_eq_self]
  obtain ⟨-, e₁, c, htasks, htask, hanswer⟩ | ⟨hserved, timeout, -, -, rfl⟩ := hcases
  · have hc : c ≠ .error .outOfFuel := by
      rintro rfl
      obtain ⟨_, ⟨⟩, -⟩ | ⟨_, ⟨⟩, -⟩ := hanswer
    obtain ⟨s₁, hstack, hdepths, rfl, hprompt, hpasses, -⟩ :=
      served_leads (s := s.setBridge b) hsubmit rfl h.prompt hmain hdepth htasks htask hc
    exact ⟨s₁, ⟨.head (hhand.tick (.same rfl rfl)) hpasses, hstack.trans hstay, hdepths, hprompt⟩, rfl⟩
  · have hprompt : Engine.Prompt { s.engine with bridge := b } := prompt_of_not_served hsubmit hserved
    exact ⟨_, ⟨.single (hhand.tick (.same rfl rfl)), hstay, rfl, hprompt⟩, rfl⟩

theorem followsSync_runAcross (hacross : p.thread ≠ .main) : p.FollowsSync (runAcross fuel) := by
  intro s vars a r scope h hsync hrun hr
  obtain ⟨r', e', hcall⟩ : ∃ r' e', callMain fuel (.activation a vars) s.engine = (r', e') := ⟨_, _, rfl⟩
  rw [runAcross_apply, hcall] at hrun
  have hr' : r' ≠ .error .outOfFuel := by
    rintro rfl
    cases hrun
    exact hr rfl
  obtain ⟨hmain, hdepth⟩ := h.main hacross
  obtain ⟨f, hsubmit, rfl, rfl⟩ | ⟨b, hsubmit, hcases⟩ := callMain_cases hcall hr'
  · have hrefused := Step.crossRefused h.stack hsync hacross hsubmit
    cases hrun
    refine ⟨_, ⟨.single (hrefused.tick (.same rfl rfl)), rfl, rfl, h.prompt⟩, rfl, ?_⟩
    rintro _ ⟨⟩
    exact List.mem_cons_self
  have hcross := Step.cross h.stack hsync hacross hsubmit
  have hwaiting := stack_put_self s p.thread (⟨p.duty, ∅, .waiting a⟩ :: p.below)
  have hidle := (stack_put_of_ne s p.thread (⟨p.duty, ∅, .waiting a⟩ :: p.below) hacross.symm).trans hmain
  obtain ⟨-, e₁, c, htasks, htask, hanswer⟩ | ⟨hserved, timeout, htimeout, rfl, rfl⟩ := hcases
  · have hc : c ≠ .error .outOfFuel := by
      rintro rfl
      obtain ⟨_, ⟨⟩, -⟩ | ⟨_, ⟨⟩, -⟩ := hanswer
    obtain ⟨s₁, hstack, hdepths, rfl, hprompt, hpasses, hreported⟩ :=
      served_leads (s := (s.put p.thread (⟨p.duty, ∅, .waiting a⟩ :: p.below)).setBridge b) hsubmit rfl h.prompt hidle hdepth
        htasks htask hc
    have hstill := (congrFun hstack p.thread).trans hwaiting
    have hback (levels : List (Level H)) :
        Function.update s₁.stack p.thread levels = Function.update s.stack p.thread levels := by
      rw [hstack]
      exact Function.update_idem ..
    obtain ⟨⟨v, reached⟩, rfl, rfl⟩ | ⟨q, rfl, rfl⟩ := hanswer
    · have hanswered := Step.answered hstill hreported
      cases hrun
      have hpassed := hpasses.tail (hanswered.tick (.same rfl rfl))
      refine ⟨_, ⟨.head (hcross.tick (.same rfl rfl)) hpassed, hback _, hdepths, hprompt⟩, rfl, ?_⟩
      rintro _ ⟨⟩
      exact List.mem_cons_self
    · have hfaulted := Step.faulted hstill hreported
      cases hrun
      have hpassed := hpasses.tail (hfaulted.tick (.same rfl rfl))
      refine ⟨_, ⟨.head (hcross.tick (.same rfl rfl)) hpassed, hback _, hdepths, hprompt⟩, rfl, ?_⟩
      rintro _ ⟨⟩
      exact List.mem_cons_self
  · have htimedOut := Step.timedOut (s := (s.put p.thread (⟨p.duty, ∅, .waiting a⟩ :: p.below)).setBridge b) hwaiting htimeout
    cases hrun
    have hpasses : Passes s _ := .head (hcross.tick (.same rfl rfl)) (.single (htimedOut.tick (.same rfl rfl)))
    refine ⟨_, ⟨hpasses, Function.update_idem .., rfl, prompt_of_not_served hsubmit hserved⟩, rfl, ?_⟩
    rintro _ ⟨⟩
    exact List.mem_cons_self

end Site

end System

end EventScript
