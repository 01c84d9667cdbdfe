import EventScript.Proofs.Run.Paired
import EventScript.Proofs.Run.Traced
import EventScript.Proofs.Trigger.Basic

/-!
# What a script does not mention

A script that is run directly reads and writes the variables that it mentions, and no others. Two environments that agree on these
cannot be told apart by it, and all else stays in each of them as it is: `runDirectly_mentions`. Host code is taken to leave global
variables alone. What a write to a store comes to depends on the store, since a file cannot hold every value; so the stores of the
two environments are of one kind, without which this fails (`runDirectly_mentions_false`).

The invariant of the two runs is `Agreeing`. It relates the scope that each of them has come to with that of the other run, on what
is mentioned, and with the scope that the run began in, on all else.
-/

namespace EventScript

/-! ## Environments that agree -/

/-- Both stores are in memory, or both are in a file. -/
def Globals.SameKind : Globals → Globals → Prop
  | .memory _, .memory _ => True
  | .file _, .file _ => True
  | _, _ => False

section

variable {g g' g₁ g₂ : Globals} {name : String} {v : Value}

/-- What is written is found, and nothing else is changed. -/
theorem Globals.get?_set (h : g.set name v = .ok g') (n : String) :
    g'.get? n = if name = n then (if v.isNull then none else some v) else g.get? n := by
  have hchanged (values : Variables) : (if v.isNull then values.erase name else values.insert name v)[n]? =
      if name = n then (if v.isNull then none else some v) else values[n]? := by
    cases v.isNull with
    | true =>
      simp only [if_true, Std.ExtTreeMap.getElem?_erase, Std.LawfulEqCmp.compare_eq_iff_eq]
    | false =>
      simp only [Bool.false_eq_true, if_false, Std.ExtTreeMap.getElem?_insert, Std.LawfulEqCmp.compare_eq_iff_eq]
  cases g with
  | memory values =>
    cases h
    exact hchanged values
  | file store =>
    simp only [Globals.set, FileStore.set] at h
    cases hstored : v.toStored? with
    | none =>
      rw [hstored] at h
      cases h
    | some stored =>
      rw [hstored] at h
      cases h
      exact hchanged store.cache

/-- Stores of one kind refuse the same values. -/
theorem Globals.SameKind.set (h : g₁.SameKind g₂) (name : String) (v : Value) :
    (∃ f, g₁.set name v = .error f ∧ g₂.set name v = .error f) ∨
      ∃ g₁' g₂', g₁.set name v = .ok g₁' ∧ g₂.set name v = .ok g₂' ∧ g₁'.SameKind g₂' := by
  match g₁, g₂, h with
  | .memory _, .memory _, _ => exact .inr ⟨_, _, rfl, rfl, trivial⟩
  | .file store₁, .file store₂, _ =>
    simp only [Globals.set, FileStore.set]
    cases v.toStored? with
    | none => exact .inl ⟨_, rfl, rfl⟩
    | some stored => exact .inr ⟨_, _, rfl, rfl, trivial⟩

end

/-- The environments give these names the same local and the same global value, if any. -/
structure Environment.AgreeOn (M : String → Prop) (env₁ env₂ : Environment) : Prop where
  locals : ∀ n, M n → env₁.locals[n]? = env₂.locals[n]?
  globals : ∀ n, M n → env₁.globals.get? n = env₂.globals.get? n

namespace Environment.AgreeOn

variable {M : String → Prop} {env₁ env₂ : Environment} {name : String} {v : Value}

/-- An environment agrees with itself on everything. -/
theorem refl (M : String → Prop) (env : Environment) : env.AgreeOn M env := ⟨fun _ _ => rfl, fun _ _ => rfl⟩

/-- The same binding on both sides. -/
theorem set (h : env₁.AgreeOn M env₂) (name : String) (v : Value) : (env₁.set name v).AgreeOn M (env₂.set name v) := by
  refine ⟨fun n hn => ?_, h.globals⟩
  simp only [Environment.set, Std.ExtTreeMap.getElem?_insert, h.locals n hn]

/-- A binding of another name on one side. -/
theorem set_right (h : env₁.AgreeOn M env₂) (hname : ¬M name) (v : Value) : env₁.AgreeOn M (env₂.set name v) := by
  refine ⟨fun n hn => ?_, h.globals⟩
  have hne : name ≠ n := fun heq => hname (heq ▸ hn)
  simp only [Environment.set, Std.ExtTreeMap.getElem?_insert, Std.LawfulEqCmp.compare_eq_iff_eq, hne, if_false]
  exact h.locals n hn

/-- The same write on both sides. -/
theorem write (h : env₁.AgreeOn M env₂) {g₁ g₂ : Globals} (h₁ : env₁.globals.set name v = .ok g₁)
    (h₂ : env₂.globals.set name v = .ok g₂) : AgreeOn M { env₁ with globals := g₁ } { env₂ with globals := g₂ } := by
  refine ⟨h.locals, fun n hn => ?_⟩
  rw [Globals.get?_set h₁, Globals.get?_set h₂, h.globals n hn]

/-- A write of another name on one side. -/
theorem write_right (h : env₁.AgreeOn M env₂) (hname : ¬M name) {g : Globals} (hg : env₂.globals.set name v = .ok g) :
    AgreeOn M env₁ { env₂ with globals := g } := by
  refine ⟨h.locals, fun n hn => ?_⟩
  have hne : name ≠ n := fun heq => hname (heq ▸ hn)
  rw [Globals.get?_set hg, if_neg hne, h.globals n hn]

/-- Names that agree are read alike. -/
theorem readName (h : env₁.AgreeOn M env₂) {n : String} (hn : M n) :
    env₁.locals[n]?.getD ((env₁.globals.get? n).getD .null) = env₂.locals[n]?.getD ((env₂.globals.get? n).getD .null) := by
  rw [h.locals n hn, h.globals n hn]

end Environment.AgreeOn

/-! ## Host code that leaves global variables alone -/

section

variable {H α : Type}

/-- What comes of the act does not depend on the global variables, and the act does not change them. -/
def SparesGlobals (a : StateM (Reach H) α) : Prop :=
  ∀ r g, a { r with globals := g } = ((a r).1, { (a r).2 with globals := g })

/-- All that a command or a placeholder does leaves global variables alone. -/
def Deed.SparesGlobals : Deed H α → Prop
  | .act run => EventScript.SparesGlobals (α := Except Halt α) run
  | .handOver before work next =>
    EventScript.SparesGlobals (α := Except Halt Unit) before ∧ EventScript.SparesGlobals (α := Except Panic Value) work ∧
      ∀ answer, (next answer).SparesGlobals

end

/-- The environment that a script is in. -/
def Scope.environment {H : Type} (s : Scope (Engine H)) : Environment := ⟨s.locals, s.world.reach.globals⟩

namespace Engine

variable {H α β : Type}

/-- The engine with other global variables. -/
def withGlobals (e : Engine H) (g : Globals) : Engine H := { e with reach := { e.reach with globals := g } }

/-- The scope of a script that is run in an environment. -/
def inEnvironment (e : Engine H) (env : Environment) : Scope (Engine H) := ⟨env.locals, e.withGlobals env.globals⟩

/-- No command and no placeholder that is registered uses global variables. -/
structure Registries.SpareGlobals (R : Registries H) : Prop where
  command : ∀ n command, R.commands.get? n = some command → ∀ caller args, (command caller args).SparesGlobals
  placeholder : ∀ n placeholder, R.placeholders.get? n = some placeholder → ∀ caller args, (placeholder caller args).SparesGlobals

/-- A part of the engine that leaves alone the global variables and all that is registered. -/
structure Spares (m : StateM (Engine H) α) : Prop where
  globals : ∀ e g, m (e.withGlobals g) = ((m e).1, (m e).2.withGlobals g)
  registries : ∀ e, (m e).2.registries = e.registries

namespace Spares

/-- A part that spares the global variables leaves them as they are. -/
theorem unchanged {m : StateM (Engine H) α} (h : Spares m) (e : Engine H) : (m e).2.reach.globals = e.reach.globals :=
  congrArg (·.2.reach.globals) (h.globals e e.reach.globals)

/-- Two parts spare them if both do. -/
theorem andThen {m : Act (Engine H) α} {f : α → Act (Engine H) β} (hm : Spares (α := Except Halt α) m)
    (hf : ∀ a, Spares (α := Except Halt β) (f a)) : Spares (α := Except Halt β) (m >>= f : Act (Engine H) β) where
  globals e g := by
    rcases Run.cases m e with ⟨a, e', hrun⟩ | ⟨reason, e', hrun⟩
    · have hrun' : m (e.withGlobals g) = (.ok a, e'.withGlobals g) := (hm.globals e g).trans (by rw [hrun])
      rw [Run.bind_ok hrun, Run.bind_ok hrun', (hf a).globals]
    · have hrun' : m (e.withGlobals g) = (.error reason, e'.withGlobals g) := (hm.globals e g).trans (by rw [hrun])
      rw [Run.bind_error hrun, Run.bind_error hrun']
  registries := Run.bind_keeps Engine.registries hm.registries fun a => (hf a).registries

/-- A part that cannot fail may be taken as one that can. -/
theorem lift {m : StateM (Engine H) α} (h : Spares m) : Spares (α := Except Halt α) (liftM m : Act (Engine H) α) where
  globals e g := congrArg (fun r : α × Engine H => (Except.ok r.1, r.2)) (h.globals e g)
  registries := h.registries

/-- A result alone spares them. -/
theorem pure (a : α) : Spares (Pure.pure a : StateM (Engine H) α) := ⟨fun _ _ => rfl, fun _ => rfl⟩

/-- So does host code that spares them. -/
theorem onReach {a : Act (Reach H) α} (h : SparesGlobals (α := Except Halt α) a) :
    Spares (α := Except Halt α) (onReach a) where
  globals e g := by
    show ((a { e.reach with globals := g }).1, { e with reach := (a { e.reach with globals := g }).2 }) = _
    rw [h e.reach g]
    rfl
  registries _ := rfl

/-- So does work of the host on the spot. -/
theorem workHere {w : Work H} (h : SparesGlobals (α := Except Panic Value) w) :
    Spares (α := Except Halt (Except BridgeFault Value)) (workHere w) where
  globals e g := by
    have hwork : w { e.reach with globals := g } = _ := h e.reach g
    simp only [Engine.workHere, withGlobals, hwork]
    rcases w e.reach with ⟨_ | _, _⟩ <;> rfl
  registries := registries_workHere w

/-- So does a command or a placeholder that spares them in all that it does. -/
theorem perform {deed : Deed H α} (h : deed.SparesGlobals) :
    Spares (α := Except Halt α) (perform Engine.workHere deed) := by
  induction deed with
  | act run => exact onReach h
  | handOver before work next ih =>
    obtain ⟨hbefore, hwork, hnext⟩ := h
    exact (onReach hbefore).andThen fun _ => (workHere hwork).andThen fun answer => ih answer (hnext answer)

end Spares

/-- To compare the clock with the deadline spares them. -/
theorem spares_overdue? (caller : Caller) (hook : Hook H) (deadline : Option Deadline) :
    Spares (surroundings caller hook deadline workHere).overdue? := by
  cases deadline <;> exact ⟨fun _ _ => rfl, fun _ => rfl⟩

section

variable {e : Engine H} {key : String} {v : Value}

/-- A store that takes the value has it. -/
theorem writeGlobal_ok {g : Globals} (h : e.reach.globals.set key v = .ok g) :
    writeGlobal key v e = (.ok (), e.withGlobals g) := by
  simp only [writeGlobal, h]
  rfl

/-- A store that refuses it is as before, and the script fails. -/
theorem writeGlobal_error {f : Fault} (h : e.reach.globals.set key v = .error f) :
    writeGlobal key v e = (.error (.failed f), e) := by
  simp only [writeGlobal, h]

end

/-! ## Two runs that agree -/

/-- Two runs have left the same trace and have done the same apart from their variables. On what is mentioned their variables
agree, and on all else they are those that the run began with. -/
structure Agreeing (M : String → Prop) (R : Registries H) (env₁ env₂ : Environment) (s₁ s₂ : Scope (Traced (Engine H))) : Prop where
  trace : s₂.world.trace = s₁.world.trace
  engine : s₂.world.world = s₁.world.world.withGlobals s₂.world.world.reach.globals
  registries : s₁.world.world.registries = R
  kind : s₁.untraced.environment.globals.SameKind s₂.untraced.environment.globals
  agree : s₁.untraced.environment.AgreeOn M s₂.untraced.environment
  frame₁ : env₁.AgreeOn (fun n => ¬M n) s₁.untraced.environment
  frame₂ : env₂.AgreeOn (fun n => ¬M n) s₂.untraced.environment

/-- Runs that agree belong together, and none is ever lost. -/
def agreement (M : String → Prop) (R : Registries H) (env₁ env₂ : Environment) :
    Pairing (Scope (Traced (Engine H))) (Scope (Traced (Engine H))) := ⟨Agreeing M R env₁ env₂, fun _ => False⟩

section

variable {M : String → Prop} {R : Registries H} {env₁ env₂ : Environment}

/-- The same has been done, up to the variables, by a part of the engine that leaves these alone. -/
theorem Agreeing.after {s₁ s₂ : Scope (Traced (Engine H))} (h : Agreeing M R env₁ env₂ s₁ s₂) {m : StateM (Engine H) α}
    (hm : Spares m) (marks : List Mark) :
    (m s₁.world.world).1 = (m s₂.world.world).1 ∧
      Agreeing M R env₁ env₂ (s₁.withMarks ⟨s₁.locals, (m s₁.world.world).2⟩ marks)
        (s₂.withMarks ⟨s₂.locals, (m s₂.world.world).2⟩ marks) := by
  have hsame := hm.globals s₁.world.world s₂.world.world.reach.globals
  rw [← h.engine] at hsame
  have hkept₁ := hm.unchanged s₁.world.world
  have hkept₂ := hm.unchanged s₂.world.world
  have hfirst : (s₁.withMarks ⟨s₁.locals, (m s₁.world.world).2⟩ marks).untraced.environment = s₁.untraced.environment :=
    congrArg (Environment.mk s₁.locals) hkept₁
  have hsecond : (s₂.withMarks ⟨s₂.locals, (m s₂.world.world).2⟩ marks).untraced.environment = s₂.untraced.environment :=
    congrArg (Environment.mk s₂.locals) hkept₂
  refine ⟨(congrArg Prod.fst hsame).symm, ?_⟩
  exact
    { trace := congrArg (· ++ marks) h.trace
      engine := by
        show (m s₂.world.world).2 = (m s₁.world.world).2.withGlobals (m s₂.world.world).2.reach.globals
        rw [hkept₂]
        exact congrArg Prod.snd hsame
      registries := (hm.registries _).trans h.registries
      kind := by rw [hfirst, hsecond]; exact h.kind
      agree := by rw [hfirst, hsecond]; exact h.agree
      frame₁ := by rw [hfirst]; exact h.frame₁
      frame₂ := by rw [hsecond]; exact h.frame₂ }

/-- An act that leaves the variables alone, behind marks on both traces. -/
theorem kept_after {a : Act (Engine H) α} (ha : Spares (α := Except Halt α) a)
    {m : Run (Traced (Engine H)) α} (marks : List Mark)
    (hm : ∀ s, m s = ((a s.world.world).1, s.withMarks ⟨s.locals, (a s.world.world).2⟩ marks)) :
    (agreement M R env₁ env₂).Kept (α := Except Halt α) m m where
  lost _ := id
  near s₁ s₂ h := by
    rw [hm s₁, hm s₂]
    exact .inr (h.after ha marks)

/-- What spares global variables keeps two runs in agreement. -/
theorem kept_unmarked {a : Act (Engine H) α} (ha : Spares (α := Except Halt α) a) :
    (agreement M R env₁ env₂).Kept (α := Except Halt α) (Run.ofAct a.unmarked) (Run.ofAct a.unmarked) :=
  kept_after ha [] fun s => by
    rw [Scope.withMarks, List.append_nil]
    rfl

/-- So it does if both put a mark on the trace. -/
theorem kept_marked {a : Act (Engine H) α} (ha : Spares (α := Except Halt α) a) (mark : Mark) :
    (agreement M R env₁ env₂).Kept (α := Except Halt α) (Run.ofAct (a.marked mark)) (Run.ofAct (a.marked mark)) :=
  kept_after ha [mark] fun _ => rfl

/-- So does the mark alone. -/
theorem kept_mark (mark : Mark) :
    (agreement (H := H) M R env₁ env₂).Kept (α := Except Halt Unit) (Run.ofAct (Act.mark mark)) (Run.ofAct (Act.mark mark)) :=
  kept_after (Spares.pure (Except.ok ())) [mark] fun _ => rfl

/-- A name that is mentioned is bound in both. -/
theorem kept_bind {n : String} (hn : M n) (v : Value) :
    (agreement (H := H) M R env₁ env₂).Kept (α := Except Halt Unit) (Host.bind n v) (Host.bind n v) where
  lost _ := id
  near s₁ s₂ h := by
    refine .inr ⟨rfl, ?_⟩
    exact
      { trace := h.trace
        engine := h.engine
        registries := h.registries
        kind := h.kind
        agree := h.agree.set n v
        frame₁ := h.frame₁.set_right (not_not_intro hn) v
        frame₂ := h.frame₂.set_right (not_not_intro hn) v }

/-- A name that is mentioned is written in both, or refused by both. -/
theorem kept_writeGlobal {key : String} (hkey : M key) (v : Value) :
    (agreement (H := H) M R env₁ env₂).Kept (α := Except Halt Unit) (Run.ofAct (Act.unmarked (writeGlobal key v)))
      (Run.ofAct (Act.unmarked (writeGlobal key v))) where
  lost _ := id
  near s₁ s₂ h := by
    simp only [Run.ofAct, Act.unmarked]
    rcases h.kind.set key v with ⟨f, h₁, h₂⟩ | ⟨g₁, g₂, h₁, h₂, hkind⟩
    · have hrun₁ : writeGlobal key v s₁.world.world = _ := writeGlobal_error h₁
      have hrun₂ : writeGlobal key v s₂.world.world = _ := writeGlobal_error h₂
      rw [hrun₁, hrun₂]
      exact .inr ⟨rfl, h⟩
    · have hrun₁ : writeGlobal key v s₁.world.world = _ := writeGlobal_ok h₁
      have hrun₂ : writeGlobal key v s₂.world.world = _ := writeGlobal_ok h₂
      rw [hrun₁, hrun₂]
      refine .inr ⟨rfl, ?_⟩
      exact
        { trace := h.trace
          engine := by
            show s₂.world.world.withGlobals g₂ = s₁.world.world.withGlobals g₂
            rw [h.engine]
            rfl
          registries := h.registries
          kind := hkind
          agree := h.agree.write h₁ h₂
          frame₁ := h.frame₁.write_right (not_not_intro hkey) h₁
          frame₂ := h.frame₂.write_right (not_not_intro hkey) h₂ }

/-- Both go on with the same of what is registered. -/
theorem kept_registered (look : Registries H → Option β) (m : Option β → Run (Traced (Engine H)) α)
    (hm : (agreement M R env₁ env₂).Kept (α := Except Halt α) (m (look R)) (m (look R))) :
    (agreement M R env₁ env₂).Kept (α := Except Halt α) (get >>= fun s => m (look s.world.world.registries))
      (get >>= fun s => m (look s.world.world.registries)) where
  lost _ := id
  near s₁ s₂ h := by
    have hsecond : s₂.world.world.registries = R := by
      rw [h.engine]
      exact h.registries
    show (agreement M R env₁ env₂).Same (m (look s₁.world.world.registries) s₁) (m (look s₂.world.world.registries) s₂)
    rw [h.registries, hsecond]
    exact hm.near s₁ s₂ h

/-- What a script finds around it that is run directly, without a hook. -/
theorem hosts_agreement (hR : R.SpareGlobals) (caller : Caller) (deadline : Option Deadline) {Allowed : Node → Prop}
    (hM : ∀ n, Mentioned Allowed n → M n) :
    (agreement M R env₁ env₂).scopeLink.Hosts (surroundings caller (.idle H) deadline workHere).traced
      (surroundings caller (.idle H) deadline workHere).traced Allowed where
  askToken := by
    refine Pairing.Kept.get _ _ pure pure (fun s₁ s₂ h => ?_) fun _ => .pure _
    show s₁.world.world.reach.isCancelled _ = s₂.world.world.reach.isCancelled _
    rw [h.engine]
    rfl
  overdue := kept_unmarked (spares_overdue? caller (.idle H) deadline).lift
  veto node _ := kept_unmarked (Spares.pure (Except.ok false))
  readName n hn := by
    rw [Host.readName_eq]
    exact Pairing.Kept.get _ _ pure pure (fun s₁ s₂ h => h.agree.readName (hM n hn)) fun _ => .pure _
  readGlobal key hkey := by
    refine Pairing.Kept.get _ _ pure pure (fun s₁ s₂ h => ?_) fun _ => .pure _
    exact congrArg (·.getD .null) (h.agree.globals key (hM key hkey))
  offerPlaceholder n args := kept_unmarked (Spares.pure (Except.ok none))
  callPlaceholder n args := by
    refine kept_registered (·.placeholders.get? n)
      (fun found => ((found.map fun p args => perform workHere (p caller args)).map
        fun act args => Act.marked (.placeholder n args) (act args)).elim (pure .null) fun act => Run.ofAct (act args)) ?_
    cases hfound : R.placeholders.get? n with
    | none => exact .pure _
    | some p => exact kept_marked (.perform (hR.placeholder n p hfound caller args)) _
  bind n v hn := kept_bind (hM n hn.mentioned) v
  writeGlobal key v hkey := kept_writeGlobal (hM key hkey) v
  offerCommand n args := kept_after (Spares.pure (Except.ok false)) [] fun s => rfl
  callCommand n args := by
    refine kept_registered (·.commands.get? n)
      (fun found => ((found.map fun c args => perform workHere (c caller args)).map
        fun act args => Act.marked (.command n args) (act args)).elim (Run.fail (.unknownCommand (Text.upper n)))
          fun act => Run.ofAct (act args)) ?_
    cases hfound : R.commands.get? n with
    | none => exact .pure _
    | some c => exact kept_marked (.perform (hR.command n c hfound caller args)) _

end

/-! ## Direct runs -/

section

variable (fuel : Nat) (script : Script) (context : Context H) (mode : Mode) (timeout : Option Duration)

/-- The trace that a script leaves which is run directly. -/
def traceDirectly (s : Scope (Engine H)) : List Mark :=
  let (deadline, world) := Deadline.start timeout s.world
  let caller : Caller := ⟨context.id, context.event, context.actor, mode, true, 0⟩
  let host := surroundings caller context.hook deadline workHere
  (host.traced.executeAll host.enterTraced fuel script.statements (Scope.traced ⟨s.locals, world⟩)).2.world.trace

/-- A script that is run directly runs as one that leaves a trace, behind its deadline. -/
theorem runDirectly_traced {s : Scope (Engine H)} {deadline : Option Deadline} {world : Engine H}
    (hstart : Deadline.start timeout s.world = (deadline, world)) :
    let host := surroundings ⟨context.id, context.event, context.actor, mode, true, 0⟩ context.hook deadline workHere
    let traced := host.traced.executeAll host.enterTraced fuel script.statements (Scope.traced ⟨s.locals, world⟩)
    runDirectly fuel script context mode timeout s = (Outcome.of traced.1, traced.2.untraced) ∧
      traceDirectly fuel script context mode timeout s = traced.2.world.trace := by
  intro host traced
  obtain ⟨marks, hmarks⟩ := traced_executeAll host fuel script.statements (Scope.traced ⟨s.locals, world⟩)
  have htraced : traced = _ := hmarks
  constructor
  · simp only [runDirectly, hstart]
    rw [Host.run_apply, htraced]
    rfl
  · simp only [traceDirectly, hstart]
    rfl

end

/-- To set a deadline spares global variables. -/
theorem spares_start (timeout : Option Duration) : Spares (H := H) (Deadline.start timeout) := by
  cases timeout <;> exact ⟨fun _ _ => rfl, fun _ => rfl⟩

/-- A script that is run directly without a hook touches no variables but those that it mentions. In two environments that agree on
these it ends in the same way and leaves the same trace, and what it has made of them agrees on these too; in each of them all else
is as it was. A script that computes a key mentions every name. -/
theorem runDirectly_mentions {e : Engine H} (he : e.registries.SpareGlobals) {context : Context H}
    (hhook : context.hook = .idle H) (fuel : Nat) (script : Script) (mode : Mode) (timeout : Option Duration)
    {env₁ env₂ : Environment} (hkind : env₁.globals.SameKind env₂.globals) (hagree : env₁.AgreeOn script.Mentions env₂) :
    let run (env : Environment) := runDirectly fuel script context mode timeout (e.inEnvironment env)
    let trace (env : Environment) := traceDirectly fuel script context mode timeout (e.inEnvironment env)
    (run env₁).1 = (run env₂).1 ∧ trace env₁ = trace env₂ ∧
      (run env₁).2.environment.AgreeOn script.Mentions (run env₂).2.environment ∧
      env₁.AgreeOn (fun n => ¬script.Mentions n) (run env₁).2.environment ∧
      env₂.AgreeOn (fun n => ¬script.Mentions n) (run env₂).2.environment := by
  intro run trace
  obtain ⟨deadline, world, hstart⟩ : ∃ deadline world, Deadline.start timeout e = (deadline, world) := ⟨_, _, rfl⟩
  have hstart' (env : Environment) :
      Deadline.start timeout (e.inEnvironment env).world = (deadline, world.withGlobals env.globals) := by
    show Deadline.start timeout (e.withGlobals env.globals) = _
    rw [(spares_start timeout).globals, hstart]
  have hregistries : world.registries = e.registries := by
    have hkept := (spares_start timeout).registries e
    rwa [hstart] at hkept
  obtain ⟨hrun₁, htrace₁⟩ := runDirectly_traced fuel script context mode timeout (hstart' env₁)
  obtain ⟨hrun₂, htrace₂⟩ := runDirectly_traced fuel script context mode timeout (hstart' env₂)
  simp only [run, trace, hrun₁, hrun₂, htrace₁, htrace₂, hhook]
  have hhosts : (agreement script.Mentions e.registries env₁ env₂).scopeLink.Hosts _ _ (· ∈ script.nodes) :=
    hosts_agreement he ⟨context.id, context.event, context.actor, mode, true, 0⟩ deadline fun _ => id
  have hlinked := hhosts.linked fun node hnode => Pairing.Kept.andThen (kept_mark (.node node)) fun _ => hhosts.enter node hnode
  have hkept := hlinked.executeAll (.same (Pairing.Kept.pure _) fuel) script.statements fun _ => id
  have hbegin : Agreeing script.Mentions e.registries env₁ env₂ (world.inEnvironment env₁).traced
      (world.inEnvironment env₂).traced :=
    { trace := rfl
      engine := rfl
      registries := hregistries
      kind := hkind
      agree := hagree
      frame₁ := .refl _ env₁
      frame₂ := .refl _ env₂ }
  obtain ⟨hsame, hend⟩ := (hkept.near _ _ hbegin).resolve_left id
  exact ⟨congrArg Outcome.of hsame, hend.trace.symm, hend.agree, hend.frame₁, hend.frame₂⟩

/-- A script that reads one name and writes two, in environments that differ in a third one. -/
theorem runDirectly_mentions_spare :
    let p : Position := ⟨1, 1⟩
    let script : Script := ⟨[.assign p (.name "y") (.name p "x"), .command p "SAY" [.name p "y"],
      .assign p (.globalName "x") (.literal p .null)]⟩
    let say : Command Nat := fun _ _ => .act (modify fun r => { r with host := r.host + 1 })
    let e : Engine Nat := .new {} .attached true 0 (.memory ∅) .empty (.steady 1)
    let e : Engine Nat := { e with commands := e.commands.insert "SAY" say }
    let context : Context Nat := ⟨0, ⟨"join", false⟩, none, .idle Nat⟩
    let env₁ : Environment := ⟨(∅ : Variables).insert "x" (.int 1), .memory ∅⟩
    let env₂ := env₁.set "spare" (.bool true)
    let run (env : Environment) := runDirectly 0 script context .sync none (e.inEnvironment env)
    ¬script.Mentions "spare" ∧ env₁.AgreeOn script.Mentions env₂ ∧ (run env₁).1 = (run env₂).1 ∧
      (run env₂).2.environment.locals["spare"]? = some (.bool true) := by
  intro p script say e₀ e context env₁ env₂ run
  have hspare : ¬script.Mentions "spare" := by decide
  have hagree : env₁.AgreeOn script.Mentions env₂ := (Environment.AgreeOn.refl _ env₁).set_right hspare _
  have he : e.registries.SpareGlobals :=
    { command := fun n command hcommand caller args => by
        rcases Registry.get?_insert_cases hcommand with rfl | hbefore
        · exact fun _ _ => rfl
        · cases (Registry.get?_empty Text.upper n).symm.trans hbefore
      placeholder := fun n placeholder hplaceholder => by cases (Registry.get?_empty Text.lower n).symm.trans hplaceholder }
  have hhook : context.hook = .idle Nat := rfl
  have hkind : env₁.globals.SameKind env₂.globals := trivial
  obtain ⟨hsame, -, -, -, hframe⟩ := runDirectly_mentions he hhook 0 script .sync none hkind hagree
  refine ⟨hspare, hagree, hsame, ?_⟩
  rw [← hframe.locals "spare" hspare]
  exact Std.ExtTreeMap.getElem?_insert_self

/-- Stores of two kinds can be told apart. A file cannot hold a handle, so a script that writes one to a global variable fails there,
and in memory it does not. -/
theorem runDirectly_mentions_false :
    let p : Position := ⟨1, 1⟩
    let script : Script := ⟨[.assign p (.globalName "x") (.name p "y")]⟩
    let e : Engine Nat := .new {} .attached true 0 (.memory ∅) .empty (.steady 1)
    let context : Context Nat := ⟨0, ⟨"join", false⟩, none, .idle Nat⟩
    let vars : Variables := (∅ : Variables).insert "y" (.handle ⟨"steve", "Player"⟩)
    let env₁ : Environment := ⟨vars, .memory ∅⟩
    let env₂ : Environment := ⟨vars, .file ⟨.ofText "var.json", ∅, false, true⟩⟩
    let run (env : Environment) := runDirectly 0 script context .sync none (e.inEnvironment env)
    e.registries.SpareGlobals ∧ env₁.AgreeOn script.Mentions env₂ ∧
      (run env₁).1 = .completed ∧ ((run env₁).2.environment.globals.get? "x").isSome ∧
      (run env₂).1 = .halted (.failed (.storage .object)) ∧ ((run env₂).2.environment.globals.get? "x").isNone := by
  intro p script e context vars env₁ env₂ run
  have he : e.registries.SpareGlobals :=
    { command := fun n command hcommand => by cases (Registry.get?_empty Text.upper n).symm.trans hcommand
      placeholder := fun n placeholder hplaceholder => by cases (Registry.get?_empty Text.lower n).symm.trans hplaceholder }
  exact ⟨he, ⟨fun _ _ => rfl, fun _ _ => rfl⟩, by decide +kernel⟩

end Engine

end EventScript
