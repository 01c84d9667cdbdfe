import EventScript.Proofs.Run.Linked
import EventScript.Proofs.Threads.Ticks

/-!
# Scripts take steps

The interpreter takes a script from its first node to its last without looking up. For the threads this is a number of steps of
the one that the script runs on: what a part of the run does to the variables and to the engine, steps of a level at a `Site` do
as well. `Site.Follows` says so of a part of a run; it is kept when parts are put together, so that it needs to be shown for the
steps of the interpreter alone (`Site.follows_script`).
-/

namespace EventScript

variable {H : Type}

/-- Nothing waits before a dedicated main thread. -/
def Engine.Prompt (e : Engine H) : Prop := e.bridge.main = .dedicated → e.bridge.pending = []

/-- Whether something waits before the main thread is up to the bridge. -/
theorem Engine.Prompt.of_bridge {e e' : Engine H} (h : e.Prompt) (hbridge : e'.bridge = e.bridge) : e'.Prompt := by
  unfold Engine.Prompt
  rw [hbridge]
  exact h

namespace System

/-- Ticks after which one thread has other levels, the others have what they had, and nothing waits before a dedicated main
thread. -/
structure Leads (s : System H) (θ : Thread) (levels : List (Level H)) (s' : System H) : Prop where
  passes : Passes s s'
  stack : s'.stack = Function.update s.stack θ levels
  depth : s'.depth = s.depth
  prompt : s'.engine.Prompt

section

variable {s s₁ s₂ : System H} {θ φ : Thread} {levels levels' : List (Level H)}

/-- No tick at all leads to where one is. -/
theorem Leads.refl (h : s.stack θ = levels) (hprompt : s.engine.Prompt) : s.Leads θ levels s :=
  ⟨.refl, by rw [← h, Function.update_eq_self], rfl, hprompt⟩

/-- What leads onward may be followed by more. -/
theorem Leads.trans (h₁ : s.Leads θ levels s₁) (h₂ : s₁.Leads θ levels' s₂) : s.Leads θ levels' s₂ :=
  ⟨h₁.passes.trans h₂.passes, by rw [h₂.stack, h₁.stack, Function.update_idem], h₂.depth.trans h₁.depth, h₂.prompt⟩

/-- It is made of steps. -/
theorem Leads.steps (h : s.Leads θ levels s₁) : Steps s s₁ := h.passes.steps

/-- The thread has the levels that it was led to. -/
theorem Leads.here (h : s.Leads θ levels s₁) : s₁.stack θ = levels := by
  rw [h.stack, Function.update_self]

/-- If these are the ones that it had, no thread has others. -/
theorem Leads.stack_eq (h : s.Leads θ levels s₁) (hsame : s.stack θ = levels) : s₁.stack = s.stack := by
  rw [h.stack, ← hsame, Function.update_eq_self]

/-- No other thread has others in any case. -/
theorem Leads.elsewhere (h : s.Leads θ levels s₁) (hφ : φ ≠ θ) : s₁.stack φ = s.stack φ := by
  rw [h.stack, Function.update_of_ne hφ]

end

/-- A place in the levels of a thread: what the level is there for, what lies under it, and how many activations the thread counts
there and may count at most. -/
structure Site (H : Type) where
  thread : Thread
  duty : Duty H
  below : List (Level H)
  depth : Nat
  limit : Nat

namespace Site

/-- The thread of the site is there. Unless it is the main thread, that one has nothing to do. -/
structure Holds (p : Site H) (s : System H) (vars : Variables) (errand : Errand H) : Prop where
  stack : s.stack p.thread = ⟨p.duty, vars, errand⟩ :: p.below
  depth : s.depth p.thread = p.depth
  limit : s.engine.maxDepth = p.limit
  prompt : s.engine.Prompt
  main : p.thread ≠ .main → s.stack .main = [] ∧ s.depth .main = 0

/-- Steps after which the thread of the site is still there. -/
abbrev Leads (p : Site H) (s : System H) (vars : Variables) (errand : Errand H) (s' : System H) : Prop :=
  s.Leads p.thread (⟨p.duty, vars, errand⟩ :: p.below) s'

/-- What a part of a run does is done as well by a number of steps of the code at the site. -/
def Follows {α : Type} (p : Site H) (m : Run (Engine H) α) : Prop :=
  ∀ s vars r scope, p.Holds s vars .idle → m ⟨vars, s.engine⟩ = (r, scope) → r ≠ .error .outOfFuel →
    ∃ s', p.Leads s scope.locals .idle s' ∧ s'.engine = scope.world

/-- What the run of a synchronous activation does that has been made, steps do as well, and the caller has its verdict. -/
def FollowsSync (p : Site H) (run : RunSync H) : Prop :=
  ∀ s vars a r scope, p.Holds s vars (.starting a) → a.mode = .sync → run a ⟨vars, s.engine⟩ = (r, scope) →
    r ≠ .error .outOfFuel →
    ∃ s', p.Leads s scope.locals .idle s' ∧ s'.engine = scope.world ∧ ∀ v, r = .ok v → ⟨a.id, some v⟩ ∈ s'.handles

section

variable {p : Site H} {s s' : System H} {vars vars' : Variables} {errand errand' : Errand H} {α β : Type}

/-- A site that is led on holds there. -/
theorem Holds.leads (h : p.Holds s vars errand) (hleads : p.Leads s vars' errand' s') : p.Holds s' vars' errand' where
  stack := hleads.here
  depth := hleads.depth ▸ h.depth
  limit := by
    unfold Engine.maxDepth
    rw [hleads.steps.settings]
    exact h.limit
  prompt := hleads.prompt
  main hmain := by
    rw [hleads.elsewhere hmain.symm, hleads.depth]
    exact h.main hmain

/-- A thread gets to the site. -/
theorem holds_put (hdepth : s.depth p.thread = p.depth) (hlimit : s.engine.maxDepth = p.limit) (hprompt : s.engine.Prompt)
    (hmain : p.thread ≠ .main → s.stack .main = [] ∧ s.depth .main = 0) (vars : Variables) (errand : Errand H) :
    p.Holds (s.put p.thread (⟨p.duty, vars, errand⟩ :: p.below)) vars errand where
  stack := stack_put_self ..
  depth := hdepth
  limit := hlimit
  prompt := hprompt
  main hacross := ⟨(stack_put_of_ne _ _ _ hacross.symm).trans (hmain hacross).1, (hmain hacross).2⟩

/-! ## Parts put together -/

/-- To give a result takes no step. -/
theorem follows_pure (a : α) : p.Follows (pure a) := by
  intro s vars r scope h hrun _
  cases hrun
  exact ⟨s, .refl h.stack h.prompt, rfl⟩

/-- Neither does it to stop. -/
theorem follows_throw (reason : Halt) : p.Follows (α := α) (throw reason) := by
  intro s vars r scope h hrun _
  cases hrun
  exact ⟨s, .refl h.stack h.prompt, rfl⟩

/-- Two parts follow the site if both do. -/
theorem Follows.bind {m : Run (Engine H) α} {f : α → Run (Engine H) β} (hm : p.Follows m) (hf : ∀ a, p.Follows (f a)) :
    p.Follows (m >>= f) := by
  intro s vars r scope h hrun hr
  rcases Run.cases m ⟨vars, s.engine⟩ with ⟨a, scope₁, hfirst⟩ | ⟨reason, scope₁, hfirst⟩
  · obtain ⟨s₁, hleads, hengine⟩ := hm s vars _ _ h hfirst nofun
    rw [Run.bind_ok hfirst] at hrun
    obtain ⟨s₂, hleads', hengine'⟩ := hf a s₁ scope₁.locals r scope (h.leads hleads) (hengine ▸ hrun) hr
    exact ⟨s₂, hleads.trans hleads', hengine'⟩
  · rw [Run.bind_error hfirst] at hrun
    cases hrun
    exact hm s vars _ _ h hfirst fun hsame => hr (congrArg _ (Except.error.inj hsame))

/-- What is decided by looking at the scope. -/
theorem follows_get {f : Scope (Engine H) → Run (Engine H) α} (h : ∀ scope, p.Follows (f scope)) : p.Follows (get >>= f) :=
  fun s vars => h ⟨vars, s.engine⟩ s vars

/-- A part that does nothing that concerns activations or cooldowns. -/
theorem follows_of_affairs {m : Run (Engine H) α} (hcode : p.duty.RunsCode)
    (hm : ∀ scope, (m scope).2.world.affairs = scope.world.affairs)
    (hquiet : ∀ scope, Engine.Quiet scope.world (m scope).2.world) : p.Follows m := by
  intro s vars r scope h hrun _
  have haffairs : scope.world.affairs = s.engine.affairs := by
    have hscope := hm ⟨vars, s.engine⟩
    rw [hrun] at hscope
    exact hscope
  have hengine : s.engine.Quiet scope.world := by
    have hscope := hquiet ⟨vars, s.engine⟩
    rw [hrun] at hscope
    exact hscope
  let s₁ : System H := { s with engine := scope.world }
  have hact : Step s s₁ := .act haffairs
  have hassign : Step s₁ (s₁.put p.thread (⟨p.duty, scope.locals, .idle⟩ :: p.below)) := .assign h.stack hcode
  exact ⟨_, ⟨.tail (.single (hact.tick hengine)) (hassign.tick (.same rfl rfl)), rfl, rfl,
    h.prompt.of_bridge (congrArg Affairs.bridge haffairs)⟩, rfl⟩

/-- A part that leaves the engine as it is. -/
theorem follows_of_world {m : Run (Engine H) α} (hcode : p.duty.RunsCode)
    (hm : ∀ scope, (m scope).2.world = scope.world) : p.Follows m :=
  follows_of_affairs hcode (fun scope => congrArg Engine.affairs (hm scope)) fun scope =>
    .same (congrArg Engine.cooldowns (hm scope)) (congrArg Engine.clock (hm scope))

/-- The link that relates the parts that follow the site, each with itself. -/
def link (p : Site H) : Link (Engine H) (Engine H) where
  Rel m _ := p.Follows m
  pure := follows_pure
  stop reason _ := follows_throw reason
  bind := .bind

/-! ## Starting activations -/

open Engine

/-- A trigger that is started is started by steps of the site: it is refused, cancelled, run on the spot or queued. -/
theorem activateWith_leads {run : RunSync H} (hsync : p.FollowsSync run) {t : Trigger} {c : Context H} {mode : Mode}
    {r : Except Halt Handle} {scope : Scope (Engine H)} (hstart : p.duty.MayStartIn c) (h : p.Holds s vars .idle)
    (hrun : activateWith run t c mode ⟨vars, s.engine⟩ = (r, scope)) (hr : r ≠ .error .outOfFuel) :
    ∃ s', p.Leads s scope.locals .idle s' ∧ s'.engine = scope.world ∧ ∀ x, r = .ok x → x ∈ s'.handles := by
  cases haccepting : s.engine.accepting with
  | false =>
    cases (activateWith_closed run mode haccepting).symm.trans hrun
    exact ⟨s, .refl h.stack h.prompt, rfl, nofun⟩
  | true =>
    have hask : p.Leads s vars (.asking t c mode) _ :=
      ⟨.single ((Step.ask t c mode h.stack hstart haccepting).tick (.same rfl rfl)), rfl, rfl, h.prompt⟩
    have haffairs := affairs_isCooling t c s.engine
    have hnext : (isCooling t c s.engine).2.nextActivation = s.engine.nextActivation := congrArg Affairs.nextActivation haffairs
    have hquiet (phase : Phase) : s.engine.Quiet (newActivation phase (isCooling t c s.engine).2).2 :=
      ⟨(quiet_isCooling t c s.engine).cooldowns, (quiet_isCooling t c s.engine).clock⟩
    have hprompt (phase : Phase) : (newActivation phase (isCooling t c s.engine).2).2.Prompt :=
      h.prompt.of_bridge (congrArg Affairs.bridge haffairs)
    cases hcooling : (isCooling t c s.engine).1 with
    | true =>
      cases (activateWith_cooling run mode haccepting hcooling).symm.trans hrun
      have hskip := Step.skip hask.here hcooling
      refine ⟨_, hask.trans ⟨.single (hskip.tick (hquiet .cancelled)), rfl, rfl, hprompt .cancelled⟩, rfl, ?_⟩
      rintro x ⟨⟩
      rw [hnext]
      exact List.mem_cons_self
    | false =>
      have hmake : p.Leads s vars (.starting ⟨s.engine.nextActivation, t, c, mode⟩) _ :=
        hask.trans ⟨.single ((Step.make hask.here hcooling).tick (hquiet .created)), rfl, rfl, hprompt .created⟩
      cases mode with
      | sync =>
        rw [activateWith_sync run haccepting hcooling, hnext] at hrun
        rcases Run.cases (run ⟨s.engine.nextActivation, t, c, .sync⟩)
          ⟨vars, (newActivation .created (isCooling t c s.engine).2).2⟩ with ⟨v, scope₁, hsyncRun⟩ | ⟨reason, scope₁, hsyncRun⟩
        · obtain ⟨s', hleads, hengine, hhandle⟩ := hsync _ _ _ _ _ (h.leads hmake) rfl hsyncRun nofun
          rw [Run.bind_ok hsyncRun] at hrun
          cases hrun
          refine ⟨s', hmake.trans hleads, hengine, ?_⟩
          rintro x ⟨⟩
          exact hhandle v rfl
        · rw [Run.bind_error hsyncRun] at hrun
          cases hrun
          obtain ⟨s', hleads, hengine, -⟩ := hsync _ _ _ _ _ (h.leads hmake) rfl hsyncRun
            fun hsame => hr (congrArg _ (Except.error.inj hsame))
          exact ⟨s', hmake.trans hleads, hengine, nofun⟩
      | async =>
        rw [activateWith_async run haccepting hcooling, hnext] at hrun
        let e := (newActivation .created (isCooling t c s.engine).2).2
        cases hsubmit : e.workers.submit ⟨⟨s.engine.nextActivation, t, c, .async⟩, vars⟩ with
        | ok workers =>
          rw [Run.bind_ok (enqueue_ok hsubmit)] at hrun
          cases hrun
          have hqueue := Step.queue hmake.here rfl hsubmit
          refine ⟨_, hmake.trans ⟨.single (hqueue.tick (.same rfl rfl)), rfl, rfl, hmake.prompt⟩, rfl, ?_⟩
          rintro x ⟨⟩
          exact List.mem_cons_self
        | error f =>
          rw [Run.bind_error (enqueue_error hsubmit)] at hrun
          cases hrun
          have hrefused := Step.queueRefused hmake.here rfl hsubmit
          exact ⟨_, hmake.trans ⟨.single (hrefused.tick (.same rfl rfl)), rfl, rfl, hmake.prompt⟩, rfl, nofun⟩

/-- So is one that a script calls. -/
theorem follows_call {run : RunSync H} (hsync : p.FollowsSync run) {c : Context H} (hcode : p.duty.RunsCode)
    (hstart : p.duty.MayStartIn c) (args : List Value) : p.Follows (call run c args) := by
  unfold call
  cases callRequest args with
  | error f => exact follows_throw _
  | ok request =>
    obtain ⟨name, mode⟩ := request
    refine follows_get fun scope => ?_
    cases scope.world.named[name]? with
    | none => exact follows_throw _
    | some t =>
      have hactivate : p.Follows (activateWith run t c mode) := fun s vars r scope h hrun hr =>
        let ⟨s', hleads, hengine, _⟩ := activateWith_leads hsync hstart h hrun hr
        ⟨s', hleads, hengine⟩
      refine hactivate.bind fun x => ?_
      split
      · have hwait : p.Follows (Run.ofAct (wait x)) :=
          follows_of_world hcode fun scope => wait_state x scope.world
        exact hwait.bind fun _ => follows_pure _
      · exact follows_pure _

/-! ## What else a script does -/

/-- A script cancels its event as code of the host may do. -/
theorem follows_cancelEvent {a : Activation H} {outside : Nat} (hduty : p.duty = .script a outside) :
    p.Follows (Run.ofAct (cancelEventFor (a.callerOn p.thread outside))) := by
  intro s vars r scope h hrun _
  have hcancel := Step.cancelEvent (hduty ▸ h.stack)
  obtain ⟨events, haffairs⟩ := affairs_cancelEventFor (a.callerOn p.thread outside) s.engine
  have hprompt : (cancelEventFor (a.callerOn p.thread outside) s.engine).2.Prompt :=
    h.prompt.of_bridge (congrArg Affairs.bridge haffairs)
  cases hrun
  refine ⟨_, ⟨.single (hcancel.tick (quiet_cancelEventFor ..)), ?_, rfl, hprompt⟩, rfl⟩
  rw [← h.stack, Function.update_eq_self]

/-- Host code that is let to do what it reaches. -/
theorem follows_onReach {α : Type} (hcode : p.duty.RunsCode) (act : Act (Reach H) α) : p.Follows (Run.ofAct (onReach act)) :=
  follows_of_affairs hcode (fun _ => rfl) fun _ => .same rfl rfl

/-- A script starts a cooldown: the clock is read, and the table is changed after that. -/
theorem follows_startCooldown {a : Activation H} {outside : Nat} (hduty : p.duty = .script a outside) (args : List Value) :
    p.Follows (Run.ofAct (startCooldown a.trigger a.context.actor args)) := by
  have hcode : p.duty.RunsCode := hduty ▸ trivial
  unfold startCooldown
  cases args.head?.bind Value.asFloat? with
  | none => exact follows_throw _
  | some seconds =>
    cases hactor : a.context.actor with
    | none => exact follows_pure _
    | some actor =>
      intro s vars r scope h hrun _
      cases hrun
      let s₁ : System H := { s with engine := (readClock s.engine).2 }
      have hread : Step s s₁ := .act rfl
      have hquiet := quiet_readClock s.engine
      have hcool : Tick s₁ _ _ := .cool (Cooldowns.spanOfSeconds seconds) (hduty ▸ h.stack) hactor hquiet.clock
      exact ⟨_, ⟨.tail (.single (hread.tick hquiet)) ⟨_, hcool⟩, by rw [← h.stack]; exact (Function.update_eq_self ..).symm, rfl,
        h.prompt⟩, rfl⟩

/-- Host code follows the site if the work that it hands over does. -/
theorem follows_perform {α : Type} {handOver : HandOver H} (hcode : p.duty.RunsCode)
    (hhand : ∀ w, p.Follows (Run.ofAct (handOver w))) (deed : Deed H α) : p.Follows (Run.ofAct (perform handOver deed)) := by
  induction deed with
  | act run => exact follows_onReach hcode run
  | handOver before work next ih =>
    rw [perform, Run.ofAct_bind]
    refine (follows_onReach hcode before).bind fun _ => ?_
    rw [Run.ofAct_bind]
    exact (hhand work).bind fun answer => ih answer

/-- So do the commands of the engine itself. -/
theorem follows_reservedCommand {run : RunSync H} (hsync : p.FollowsSync run) {a : Activation H} {outside : Nat}
    (hduty : p.duty = .script a outside) (name : String) (args : List Value) :
    p.Follows (reservedCommand run a (a.callerOn p.thread outside) name args) := by
  have hcode : p.duty.RunsCode := hduty ▸ trivial
  have hstart : p.duty.MayStartIn a.context := hduty ▸ rfl
  unfold reservedCommand
  dsimp only
  split
  · exact (follows_call hsync hcode hstart args).bind fun _ => follows_pure _
  split
  · exact (follows_cancelEvent hduty).bind fun _ => follows_pure _
  split
  · exact (follows_startCooldown hduty args).bind fun _ => follows_pure _
  · exact follows_pure _

/-- All in all, whatever a script asks of its surroundings follows the site. -/
theorem hosts_triggerSurroundings {handOver : HandOver H} {run : RunSync H} {a : Activation H} {outside : Nat}
    (hduty : p.duty = .script a outside) (hhand : ∀ w, p.Follows (Run.ofAct (handOver w))) (hsync : p.FollowsSync run)
    (deadline : Option Deadline) :
    let host := triggerSurroundings a (a.callerOn p.thread outside) deadline handOver run
    p.link.Hosts host host fun _ => True := by
  have hcode : p.duty.RunsCode := hduty ▸ trivial
  intro host
  exact {
    askToken := follows_get fun _ => follows_pure _
    overdue := by
      show p.Follows (Run.ofAct (liftM host.overdue?))
      cases deadline with
      | none => exact follows_pure _
      | some d => exact follows_of_affairs hcode (fun _ => rfl) fun scope => quiet_readClock scope.world
    veto := fun _ _ => follows_onReach hcode _
    readName := fun n _ => by
      show p.Follows (host.readName n)
      rw [Host.readName_eq]
      exact follows_get fun _ => follows_pure _
    readGlobal := fun key _ => follows_get fun scope => follows_pure _
    offerPlaceholder := fun n values => by
      show p.Follows (Run.ofAct (onReach (a.context.hook.onPlaceholder _ n values) >>= _))
      rw [Run.ofAct_bind]
      refine (follows_onReach hcode _).bind fun answer => ?_
      cases answer with
      | some v => exact follows_pure _
      | none => exact follows_of_affairs hcode (fun _ => affairs_reservedPlaceholder ..) fun _ => quiet_reservedPlaceholder ..
    callPlaceholder := fun n values => follows_get fun scope => by
      cases hplaceholder : host.placeholder? n scope.world with
      | none => exact follows_pure _
      | some act =>
        obtain ⟨placeholder, -, rfl⟩ := Option.map_eq_some_iff.mp hplaceholder
        exact follows_perform hcode hhand _
    bind := fun n v _ => follows_of_world hcode fun _ => rfl
    writeGlobal := fun key v _ =>
      follows_of_affairs hcode (fun scope => affairs_writeGlobal key v scope.world) fun scope => quiet_writeGlobal key v scope.world
    offerCommand := fun n values => by
      show p.Follows (offerToHook (a.context.hook.onCommand _ n values) >>= _)
      refine (follows_of_affairs hcode (fun _ => rfl) fun _ => .same rfl rfl).bind fun done => ?_
      split
      · exact follows_pure _
      · exact follows_reservedCommand hsync hduty n values
    callCommand := fun n values => follows_get fun scope => by
      cases hcommand : host.command? n scope.world with
      | none => exact follows_throw _
      | some act =>
        obtain ⟨command, -, rfl⟩ := Option.map_eq_some_iff.mp hcommand
        exact follows_perform hcode hhand _
  }

/-- So the script does, from its first node to its last. -/
theorem follows_script {handOver : HandOver H} {run : RunSync H} {a : Activation H} {outside : Nat}
    (hduty : p.duty = .script a outside) (hhand : ∀ w, p.Follows (Run.ofAct (handOver w))) (hsync : p.FollowsSync run)
    (deadline : Option Deadline) (fuel : Nat) :
    let host := triggerSurroundings a (a.callerOn p.thread outside) deadline handOver run
    p.Follows (host.executeAll host.enter fuel a.trigger.script.statements) := by
  intro host
  have hhosts := hosts_triggerSurroundings hduty hhand hsync deadline
  exact (hhosts.linked hhosts.enter).executeAll (.same (follows_throw _) fuel) _ fun _ _ => trivial

end

end Site

end System

end EventScript
