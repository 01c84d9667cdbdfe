import EventScript.Proofs.Trigger.Basic
import EventScript.Proofs.Trigger.Calls

/-!
# Calls as blocks

A synchronous call does to its caller what the statements of the called script do when they stand in its place, in a block that a
`RETURN` ends and no more than that: `call_as_block`. The proof goes by induction on how many calls deep the script may still go;
one level lets the interpreter's steps on both sides be compared by `linked_hostOnMain`.
-/

namespace EventScript.Engine

variable {H : Type} {e₀ : Engine H}

/-! ## One activation inside another -/

/-- The statements of the script of an activation, as they are run on the main thread. -/
def statementsOnMain (fuel levels depth : Nat) (a : Activation H) : Run (Engine H) Signal :=
  (hostOnMain fuel levels depth a).executeAll (hostOnMain fuel levels depth a).enter fuel a.trigger.script.statements

/-- An activation on the main thread without a time limit, from its statements on. -/
theorem runOnMain_apply {s : Scope (Engine H)} (htimeout : s.world.settings.execution.activationTimeout = none)
    (fuel levels depth : Nat) (a : Activation H) :
    runOnMain fuel (levels + 1) depth a s =
      match statementsOnMain fuel levels (depth + 1) a { s with world := s.world.setPhase a.id .running } with
      | (.ok _, s') => conclude a (.ok .completed) s'
      | (.error .vetoed, s') => conclude a (.ok .cancelled) s'
      | (.error .cancelled, s') => conclude a (.ok .cancelled) s'
      | (.error (.failed f), s') => conclude a (.error f) s'
      | (.error (.panicked p), s') => (.error (.panicked p), { s' with locals := ∅ })
      | (.error .outOfFuel, s') => (.error .outOfFuel, s') := by
  have hstart (e : Engine H) : Deadline.start none e = (none, e) := rfl
  have hrunning : (s.world.setPhase a.id .running).settings.execution.activationTimeout = none := htimeout
  have hhost : triggerSurroundings a ⟨a.context.id, a.context.event, a.context.actor, a.mode, true, depth + 1⟩ none
      workHere (fun b => spread (runOnMain fuel levels (depth + 1) b)) = hostOnMain fuel levels (depth + 1) a := rfl
  unfold runOnMain runHere statementsOnMain
  simp only [stateM_bind_apply, stateM_get_apply, stateM_modify_apply, hrunning, hstart]
  rw [hhost, Host.run_apply]
  rcases (hostOnMain fuel levels (depth + 1) a).executeAll (hostOnMain fuel levels (depth + 1) a).enter fuel
    a.trigger.script.statements ⟨s.locals, s.world.setPhase a.id .running⟩ with ⟨(_ | _ | f | p | _) | signal, s'⟩
  all_goals rfl

/-- What the caller of an activation sees of its statements: a cancellation is no fault, a panic takes the variables with it, and
all other ends leave the variables that were reached. -/
def closing (a : Activation H) (m : Run (Engine H) Signal) : Run (Engine H) Completion := fun s =>
  match m s with
  | (.ok _, s') => (.ok .completed, { s' with world := s'.world.setPhase a.id .completed })
  | (.error .vetoed, s') => (.ok .cancelled, { s' with world := s'.world.setPhase a.id .cancelled })
  | (.error .cancelled, s') => (.ok .cancelled, { s' with world := s'.world.setPhase a.id .cancelled })
  | (.error (.failed f), s') => (.error (.failed f), { s' with world := s'.world.setPhase a.id .failed })
  | (.error (.panicked p), s') => (.error (.panicked p), { s' with locals := ∅ })
  | (.error .outOfFuel, s') => (.error .outOfFuel, s')

/-- To its caller an activation is its statements and what closes them. -/
theorem spread_runOnMain {s : Scope (Engine H)} (htimeout : s.world.settings.execution.activationTimeout = none)
    (fuel levels depth : Nat) (a : Activation H) :
    (spread (runOnMain fuel (levels + 1) depth a) >>= answer) s =
      closing a (statementsOnMain fuel levels (depth + 1) a) { s with world := s.world.setPhase a.id .running } := by
  have hrun := runOnMain_apply htimeout fuel levels depth a
  rw [Run.bind_apply, spread_apply, hrun]
  unfold closing
  rcases statementsOnMain fuel levels (depth + 1) a { s with world := s.world.setPhase a.id .running } with
    ⟨(_ | _ | f | p | _) | signal, s'⟩
  all_goals rfl

theorem spread_refuseDepth (depth fuel : Nat) (a : Activation H) (s : Scope (Engine H)) :
    DepthFault ((spread (runOnMain fuel 0 depth a) >>= answer) s).1 :=
  ⟨a.trigger.name, s.world.maxDepth, rfl⟩

theorem runsAlike_closing {m₁ m₂ : Run (Engine H) Signal} (h : RunsAlike e₀ m₁ m₂) (a₁ a₂ : Activation H) :
    RunsAlike e₀ (closing a₁ m₁) (closing a₂ m₂) := by
  intro s₁ s₂ hs
  unfold closing
  rcases h s₁ s₂ hs with ⟨trigger, limit, hdepth⟩ | ⟨hsame, hs'⟩
  · rcases hr : m₁ s₁ with ⟨r, s₁'⟩
    rw [hr] at hdepth
    cases hdepth
    exact .inl ⟨trigger, limit, rfl⟩
  · rcases hr₁ : m₁ s₁ with ⟨r₁, s₁'⟩
    rcases hr₂ : m₂ s₂ with ⟨r₂, s₂'⟩
    rw [hr₁, hr₂] at hsame hs'
    cases hsame
    rcases r₁ with (_ | _ | f | p | _) | signal
    · exact .inr ⟨rfl, hs'.locals, hs'.world.setPhase ..⟩
    · exact .inr ⟨rfl, hs'.locals, hs'.world.setPhase ..⟩
    · exact .inr ⟨rfl, hs'.locals, hs'.world.setPhase ..⟩
    · exact .inr ⟨rfl, rfl, hs'.world⟩
    · exact .inr ⟨rfl, hs'⟩
    · exact .inr ⟨rfl, hs'.locals, hs'.world.setPhase ..⟩

/-- What a call does is the same where fewer calls may follow, up to the limit on them. -/
theorem syncAlike_runOnMain {c : Context H} {S : String → Prop} (h : Steady e₀ c S) (fuel l₁ l₂ d₁ d₂ : Nat)
    (hlevels : l₁ ≤ l₂) :
    SyncAlike e₀ c S (fun b => spread (runOnMain fuel l₁ d₁ b)) fun b => spread (runOnMain fuel l₂ d₂ b) := by
  induction l₁ generalizing l₂ d₁ d₂ with
  | zero => exact fun n t i j _ _ s₁ s₂ _ => .inl (spread_refuseDepth d₁ fuel _ s₁)
  | succ l₁ ih =>
    obtain ⟨l₂, rfl⟩ : ∃ l, l₂ = l + 1 := Nat.exists_eq_add_one.mpr (by omega)
    intro n t i j hn ht s₁ s₂ hs
    have htimeout {e : Engine H} (he : Within e₀ e) : e.settings.execution.activationTimeout = none := by
      rw [he.settings, h.timeout]
    have hlinked := linked_hostOnMain h (ih l₂ (d₁ + 1) (d₂ + 1) (by omega)) i j t t
    have hstatements := hlinked.executeAll (.same (RunsAlike.stop _) fuel) t.script.statements (h.quiet n t hn ht)
    rw [spread_runOnMain (htimeout hs.world.first), spread_runOnMain (htimeout hs.world.second)]
    exact runsAlike_closing hstatements _ _ _ _ ⟨hs.locals, hs.world.setPhase ..⟩

/-! ## A call and the block in its place -/

/-- The arguments of a synchronous call of a name, as they are written. -/
inductive SyncCall (n : String) : List Expression → Prop
  | named (p : Position) : SyncCall n [.literal p (.string n)]
  | flagged (p q : Position) : SyncCall n [.literal p (.string n), .literal q (.bool true)]

/-- The statements of a script in place of a statement, in a block that a `RETURN` ends and no more than that. -/
def inPlace (host : Host (Engine H)) (fuel : Nat) (p : Position) (script : Script) : Run (Engine H) Signal := do
  let _ ← host.execute host.enter fuel (.block p script.statements)
  pure .none

theorem hostOnMain_enter_apply (fuel levels depth : Nat) {a : Activation H} {s : Scope (Engine H)}
    (hhook : a.context.hook = .idle H) (hcancelled : s.world.reach.isCancelled a.context.id = false) (node : Node) :
    (hostOnMain fuel levels depth a).enter node s = (.ok (), s) := by
  rw [hostOnMain_enter hhook]
  unfold onlyReach
  simp only [hcancelled]
  rfl

/-- The arguments of a synchronous call ask for it, wherever literals can be entered. -/
theorem SyncCall.request {n : String} {args : List Expression} (h : SyncCall n args) {host : Host (Engine H)}
    {s : Scope (Engine H)} (henter : ∀ node, host.enter node s = (.ok (), s)) :
    ∃ vs, host.evaluateAll host.enter args s = (.ok vs, s) ∧ callRequest vs = .ok (n, .sync) := by
  have hliteral (p : Position) (l : Literal) : host.evaluate host.enter (.literal p l) s = (.ok l.value, s) := by
    unfold Host.evaluate
    rw [Run.bind_ok (henter _)]
    rfl
  have hcons (e : Expression) (rest : List Expression) (v : Value) (vs : List Value)
      (he : host.evaluate host.enter e s = (.ok v, s)) (hrest : host.evaluateAll host.enter rest s = (.ok vs, s)) :
      host.evaluateAll host.enter (e :: rest) s = (.ok (v :: vs), s) := by
    unfold Host.evaluateAll
    rw [Run.bind_ok he, Run.bind_ok hrest]
    rfl
  have hnil : host.evaluateAll host.enter [] s = (.ok [], s) := by
    unfold Host.evaluateAll
    rfl
  cases h with
  | named p => exact ⟨[.string n], hcons _ _ _ _ (hliteral p _) hnil, rfl⟩
  | flagged p q =>
    exact ⟨[.string n, .bool true], hcons _ _ _ _ (hliteral p _) (hcons _ _ _ _ (hliteral q _) hnil), rfl⟩

/-- A call that is let through goes over to a fresh activation, in an engine that looks the same. -/
theorem call_apply (run : RunSync H) {c : Context H} {s : Scope (Engine H)} {n : String} {t : Trigger} {vs : List Value}
    (hrequest : callRequest vs = .ok (n, .sync)) (ht : s.world.named[n]? = some t)
    (haccepting : s.world.accepting = true) (hsettled : Settled s.world c t)
    (hcooling : (isCooling t c s.world).1 = false) :
    ∃ i s', call run c vs s = ((run ⟨i, t, c, .sync⟩ >>= answer) >>= fun _ => pure ()) s' ∧
      SameScope s.world s' s := by
  obtain ⟨-, hqueue, hreach, hevents, hwithin⟩ := (Within.refl s.world).isCooling hsettled
  refine ⟨(isCooling t c s.world).2.nextActivation, ⟨s.locals, (newActivation .created (isCooling t c s.world).2).2⟩, ?_,
    rfl, hreach, hevents, hqueue, ⟨hwithin.fixtures, hwithin.readings⟩, .refl _⟩
  unfold call
  rw [hrequest]
  dsimp only
  rw [Run.get_bind, ht]
  dsimp only
  unfold activateWith
  rw [bind_assoc, Run.get_bind, haccepting]
  have hcool : toRun (isCooling t c) s = (.ok false, ⟨s.locals, (isCooling t c s.world).2⟩) := by
    rw [← hcooling]
    rfl
  simp only [Bool.not_true, Bool.false_eq_true, if_false, bind_assoc]
  rw [Run.bind_ok hcool]
  simp only [Bool.false_eq_true, if_false, bind_assoc, pure_bind, if_true]
  rfl

/-- What closes an activation makes no difference to its caller, unless the statements are cancelled or panic. -/
theorem closing_as_block {m₁ m₂ : Run (Engine H) Signal} (h : RunsAlike e₀ m₁ m₂) (a : Activation H)
    {s₁ s₂ : Scope (Engine H)} (hs : SameScope e₀ s₁ s₂) :
    let called := (closing a m₁ >>= fun _ => pure Signal.none) s₁
    let replaced := (m₂ >>= fun _ => pure Signal.none) s₂
    ¬DepthFault called.1 → replaced.1 ≠ .error .cancelled → replaced.1 ≠ .error .vetoed →
      called.1 = replaced.1 ∧ Alike e₀ called.2.world replaced.2.world ∧
        ((∀ payload, replaced.1 ≠ .error (.panicked payload)) → called.2.locals = replaced.2.locals) := by
  simp only [Run.bind_apply]
  unfold closing
  rcases h s₁ s₂ hs with ⟨trigger, limit, hfault⟩ | ⟨hsame, hs'⟩
  · rcases hr : m₁ s₁ with ⟨r, s₁'⟩
    rw [hr] at hfault
    cases hfault
    exact fun hdepth => absurd ⟨trigger, limit, rfl⟩ hdepth
  · rcases hr₁ : m₁ s₁ with ⟨r₁, s₁'⟩
    rcases hr₂ : m₂ s₂ with ⟨r₂, s₂'⟩
    rw [hr₁, hr₂] at hsame hs'
    cases hsame
    intro _ hgoing hwilling
    have hclosed (phase : Phase) : Alike e₀ (s₁'.world.setPhase a.id phase) s₂'.world :=
      ⟨hs'.world.reach, hs'.world.events, hs'.world.queue, ⟨hs'.world.first.fixtures, hs'.world.first.readings⟩,
        hs'.world.second⟩
    rcases r₁ with (_ | _ | f | payload | _) | signal
    · exact absurd rfl hwilling
    · exact absurd rfl hgoing
    · exact ⟨rfl, hclosed _, fun _ => hs'.locals⟩
    · exact ⟨rfl, hs'.world, fun hcalm => absurd rfl (hcalm payload)⟩
    · exact ⟨rfl, hs'.world, fun _ => hs'.locals⟩
    · exact ⟨rfl, hclosed _, fun _ => hs'.locals⟩

/-- A synchronous call does to its caller what the statements of the called script do in its place, in a block of their own that a
`RETURN` ends: it comes to the same result, it leaves the same behind in the host, the global variables and the queue of the
workers, and it leaves the same variables unless host code panics. This holds for a trigger that is not cooling down in an engine
that accepts activations, without a hook, a deadline and a cancellation, as long as no call goes too deep. -/
theorem call_as_block {a : Activation H} {s : Scope (Engine H)} {S : String → Prop} {n : String} {t : Trigger}
    (hmode : a.mode = .sync) (hsteady : Steady s.world a.context S) (hn : S n) (ht : s.world.named[n]? = some t)
    (haccepting : s.world.accepting = true) (hcooling : (isCooling t a.context s.world).1 = false)
    (hcancelled : s.world.reach.isCancelled a.context.id = false) {fuel levels depth : Nat} {p q : Position} {name : String}
    {args : List Expression} (hname : Text.upper name = "CALL") (hargs : SyncCall n args) :
    let host := hostOnMain fuel levels depth a
    let called := host.execute host.enter fuel (.command p name args) s
    let replaced := inPlace host fuel q t.script s
    ¬DepthFault called.1 → replaced.1 ≠ .error .cancelled → replaced.1 ≠ .error .vetoed →
      called.1 = replaced.1 ∧ Alike s.world called.2.world replaced.2.world ∧
        ((∀ payload, replaced.1 ≠ .error (.panicked payload)) → called.2.locals = replaced.2.locals) := by
  obtain ⟨id, trigger, c, mode⟩ := a
  subst hmode
  intro host called replaced
  have henter := hostOnMain_enter_apply fuel levels depth (a := ⟨id, trigger, c, .sync⟩) hsteady.hook hcancelled
  obtain ⟨vs, hvs, hrequest⟩ := hargs.request henter
  obtain ⟨i, s', hcall, hs'⟩ := call_apply (fun b => spread (runOnMain fuel levels depth b)) hrequest ht haccepting
    (hsteady.settled n t hn ht) hcooling
  have hcalled : called =
      ((spread (runOnMain fuel levels depth ⟨i, t, c, .sync⟩) >>= answer) >>= fun _ => pure Signal.none) s' := by
    have hreserved : reservedCommand (fun b => spread (runOnMain fuel levels depth b)) ⟨id, trigger, c, .sync⟩
        (callerAt ⟨id, trigger, c, .sync⟩ depth) name vs =
        call (fun b => spread (runOnMain fuel levels depth b)) c vs >>= fun _ => pure true := by
      unfold reservedCommand
      rw [if_pos hname]
    show host.execute host.enter fuel (.command p name args) s = _
    unfold Host.execute
    rw [Run.bind_ok (henter _), Run.bind_ok hvs, hostOnMain_runCommand hsteady.hook, hreserved]
    simp only [bind_assoc, pure_bind, if_true]
    rw [Run.bind_same hcall]
    simp only [bind_assoc, pure_bind]
  have hreplaced : replaced = (host.executeAll host.enter fuel t.script.statements >>= fun _ => pure Signal.none) s := by
    show inPlace host fuel q t.script s = _
    unfold inPlace Host.execute
    rw [bind_assoc, Run.bind_ok (henter _)]
  rw [hcalled, hreplaced]
  cases levels with
  | zero =>
    have hrefused := DepthFault.bind (f := fun _ => pure Signal.none)
      (spread_refuseDepth depth fuel ⟨i, t, c, .sync⟩ s')
    exact fun hdepth => absurd hrefused hdepth
  | succ levels =>
    have hlinked := linked_hostOnMain hsteady
      (syncAlike_runOnMain hsteady fuel levels (levels + 1) (depth + 1) depth (by omega)) i id t trigger
    have hstatements := hlinked.executeAll (.same (RunsAlike.stop _) fuel) t.script.statements (hsteady.quiet n t hn ht)
    have htimeout : s'.world.settings.execution.activationTimeout = none := by
      rw [hs'.world.first.settings, hsteady.timeout]
    rw [Run.bind_same (spread_runOnMain htimeout ..)]
    exact closing_as_block hstatements _ ⟨hs'.locals, hs'.world.reach, hs'.world.events, hs'.world.queue,
      ⟨hs'.world.first.fixtures, hs'.world.first.readings⟩, hs'.world.second⟩

/-- A script that binds a variable and then fails: its caller has the variable and the fault. -/
theorem call_as_block_failing :
    let p : Position := ⟨1, 1⟩
    let script : Script := ⟨[.assign p (.name "x") (.literal p (.int 1)), .command p "NOPE" []]⟩
    let callee : Trigger := ⟨0, "greet", "x = 1\n#NOPE", script, .sync⟩
    let e : Engine Unit := insertTrigger callee (.new {} .attached true () (.memory ∅) .empty (.steady 1))
    let c : Context Unit := ⟨0, ⟨"join", false⟩, some ⟨"steve", none⟩, .idle Unit⟩
    let a : Activation Unit := ⟨0, ⟨1, "main", "", ⟨[]⟩, .sync⟩, c, .sync⟩
    let host := hostOnMain 0 1 1 a
    let called := host.execute host.enter 0 (.command p "CALL" [.literal p (.string "greet")]) ⟨∅, e⟩
    called.1 = .error (.failed (.unknownCommand "NOPE")) ∧ called.2.locals["x"]? = some (.int 1) := by
  intro p script callee e c a host called
  have hreplaced : (inPlace host 0 p script ⟨∅, e⟩).1 = .error (.failed (.unknownCommand "NOPE")) ∧
      (inPlace host 0 p script ⟨∅, e⟩).2.locals["x"]? = some (.int 1) := ⟨rfl, rfl⟩
  have hnamed : e.named["greet"]? = some callee := Std.ExtTreeMap.getElem?_insert_self
  have hlookup {n : String} {t : Trigger} (hn : n = "greet") (ht : e.named[n]? = some t) : t = callee := by
    subst hn
    exact (Option.some.inj (hnamed.symm.trans ht)).symm
  have hidle : (isCooling callee c e).1 = false := rfl
  have hsteady : Steady e c (· = "greet") :=
    { hook := rfl
      timeout := rfl
      quiet := fun n t hn ht => by
        obtain rfl := hlookup hn ht
        intro node hnode
        rcases List.mem_cons.mp hnode with rfl | hnode
        · trivial
        rcases List.mem_cons.mp hnode with rfl | hnode
        · trivial
        rcases List.mem_cons.mp hnode with rfl | hnode
        · exact ⟨by decide, fun _ => trivial⟩
        · cases hnode
      settled := fun n t hn ht => by
        obtain rfl := hlookup hn ht
        exact .of_not_cooling hidle
      command := fun n command hcommand => by cases Std.ExtTreeMap.getElem?_empty.symm.trans hcommand
      placeholder := fun n placeholder hplaceholder => by cases Std.ExtTreeMap.getElem?_empty.symm.trans hplaceholder }
  have hcalled : called.1 = .error (.failed (.unknownCommand "NOPE")) := by
    dsimp only [called, host, a, c, e, callee, script, p]
    rfl
  obtain ⟨hresult, -, hlocals⟩ := call_as_block (a := a) (s := ⟨∅, e⟩) (p := p) (q := p) rfl hsteady rfl hnamed rfl
    hidle rfl (show Text.upper "CALL" = "CALL" from rfl) (.named p)
    (by rintro ⟨trigger, limit, hfault⟩; cases hcalled.symm.trans hfault)
    (by rw [hreplaced.1]; simp) (by rw [hreplaced.1]; simp)
  refine ⟨hresult.trans hreplaced.1, ?_⟩
  rw [hlocals fun payload => by rw [hreplaced.1]; simp]
  exact hreplaced.2

end EventScript.Engine
