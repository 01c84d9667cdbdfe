import EventScript.Proofs.Parse.Located
import EventScript.Proofs.Run.Traced
import EventScript.Proofs.Script.Loops
import EventScript.Proofs.Script.Steps
import Mathlib.Data.List.Forall2

/-!
# Runs in the order of the tree

A script without loops goes along its steps (`evaluate_along`, `execute_along`): what a run leaves on its trace, nodes and calls, are
some of the steps in their order. Where no node leaves out others the nodes are all of them, as far as the run is not halted. With each
node only once in the tree this says of whole runs that they keep the order of the tree: `run_in_order`.
-/

namespace EventScript

open TreeStep (offered offered_append)

/-! ## Traces along steps -/

namespace Mark

def offered? : Mark → Option Node
  | node n => some n
  | _ => none

/-- The nodes on a trace. -/
def offered (marks : List Mark) : List Node := marks.filterMap offered?

/-- The mark is that of the step. A call has the name that is written and as many values as there are arguments. -/
def Fits : Mark → TreeStep → Prop
  | node n, .offer m => n = m
  | command name values, .call (.statement (.command _ n args)) => name = n ∧ values.length = args.length
  | placeholder name values, .call (.expression (.placeholder _ n args)) => name = n ∧ values.length = args.length
  | _, _ => False

/-- A mark that fits a step shows the node that the step offers, if it offers one. -/
theorem Fits.offered? {mark : Mark} {step : TreeStep} (h : mark.Fits step) : mark.offered? = step.offered? := by
  unfold Fits at h
  split at h
  · exact congrArg some h
  · rfl
  · rfl
  · exact h.elim

end Mark

section sublists

variable {R : Mark → TreeStep → Prop} {marks marks' : List Mark} {steps more : List TreeStep}

/-- What is along some steps is along more of them. -/
theorem sublistForall₂_sublist (h : List.SublistForall₂ R marks steps) (hsub : steps.Sublist more) :
    List.SublistForall₂ R marks more := by
  obtain ⟨passed, hpassed, hsub'⟩ := List.sublistForall₂_iff.mp h
  exact List.sublistForall₂_iff.mpr ⟨passed, hpassed, hsub'.trans hsub⟩

/-- What is along some steps, with what is along the following ones behind it, is along all of them. -/
theorem sublistForall₂_append (h : List.SublistForall₂ R marks steps) (h' : List.SublistForall₂ R marks' more) :
    List.SublistForall₂ R (marks ++ marks') (steps ++ more) := by
  obtain ⟨passed, hpassed, hsub⟩ := List.sublistForall₂_iff.mp h
  obtain ⟨passed', hpassed', hsub'⟩ := List.sublistForall₂_iff.mp h'
  exact List.sublistForall₂_iff.mpr ⟨passed ++ passed', List.rel_append hpassed hpassed', hsub.append hsub'⟩

/-- What is on both sides of a mark is along the steps on both sides of the step of the mark. -/
theorem sublistForall₂_split {before after : List Mark} {mark : Mark} (h : List.SublistForall₂ R marks steps)
    (hsplit : marks = before ++ mark :: after) : ∃ front step back, steps = front ++ step :: back ∧
      List.SublistForall₂ R before front ∧ R mark step ∧ List.SublistForall₂ R after back := by
  induction h generalizing before with
  | nil => exact absurd hsplit.symm (List.append_ne_nil_of_right_ne_nil before (List.cons_ne_nil mark after))
  | cons hmark hrest ih =>
    cases before with
    | nil =>
      cases hsplit
      exact ⟨[], _, _, rfl, .nil, hmark, hrest⟩
    | cons first before =>
      obtain ⟨rfl, hmarks⟩ := List.cons.inj hsplit
      obtain ⟨front, step, back, rfl, hfront, hstep, hback⟩ := ih hmarks
      exact ⟨_ :: front, step, back, rfl, .cons hmark hfront, hstep, hback⟩
  | cons_right _ ih =>
    obtain ⟨front, step, back, rfl, hfront, hstep, hback⟩ := ih hsplit
    exact ⟨_ :: front, step, back, rfl, .cons_right hfront, hstep, hback⟩

end sublists

/-- Nodes on a trace along steps are nodes of the steps, in their order. -/
theorem offered_sublist {marks : List Mark} {steps : List TreeStep} (h : List.SublistForall₂ Mark.Fits marks steps) :
    (Mark.offered marks).Sublist (offered steps) := by
  obtain ⟨passed, hfits, hsub⟩ := List.sublistForall₂_iff.mp h
  have hsame : Mark.offered marks = offered passed := by
    clear h hsub
    induction hfits with
    | nil => rfl
    | @cons mark step marks steps hfits _ ih =>
      unfold Mark.offered offered at ih ⊢
      rw [List.filterMap_cons, List.filterMap_cons, hfits.offered?, ih]
  rw [hsame]
  exact hsub.filterMap _

/-- A call on a trace along steps is that of a node: what is inside the node may be in front of it, and what follows behind it. -/
theorem call_between {marks before after : List Mark} {call : Mark} {steps : List TreeStep}
    (h : List.SublistForall₂ Mark.Fits marks steps) (hbehind : CallsBehind steps) (hsplit : marks = before ++ call :: after)
    (hcall : call.offered? = none) : ∃ front node back, offered steps = front ++ node.nodes ++ back ∧ call.Fits (.call node) ∧
      (Mark.offered before).Sublist (front ++ node.nodes) ∧ (Mark.offered after).Sublist back := by
  obtain ⟨passed, step, following, rfl, hbefore, hfits, hafter⟩ := sublistForall₂_split h hsplit
  cases step with
  | offer node => cases hfits.offered?.symm.trans hcall
  | call node =>
    obtain ⟨front, hfront⟩ := hbehind passed node following rfl
    refine ⟨front, node, offered following, ?_, hfits, hfront ▸ offered_sublist hbefore, offered_sublist hafter⟩
    rw [offered_append, hfront]
    rfl

/-- The host, with each node on the trace that the hook is asked about. -/
def Host.offering {W : Type} (host : Host W) : Host (Traced W) :=
  { host.traced with veto := fun node => (host.veto node).marked (.node node) }

variable {W α β : Type} {full : Prop}

/-- What is left on a trace along steps, with the result: some of the steps have their mark, in order. If the part comes to a value, it
has the property, and where nothing may be left out, all nodes among the steps have their mark. -/
structure Along (full : Prop) (steps : List TreeStep) (P : α → Prop) (r : Except Halt α) (marks : List Mark) : Prop where
  fits : List.SublistForall₂ Mark.Fits marks steps
  done : ∀ a, r = .ok a → P a ∧ (full → Mark.offered marks = offered steps)

/-- The second part does what the first one does and goes along steps. -/
def GoesAlong (full : Prop) (steps : List TreeStep) (P : α → Prop) (m : Run W α) (m' : Run (Traced W) α) : Prop :=
  Marks (Along full steps P) m m'

namespace GoesAlong

variable {steps more : List TreeStep} {P : α → Prop} {Q : β → Prop} {m : Run W α} {m' : Run (Traced W) α}

/-- A part that does nothing leaves no mark. -/
theorem pure {a : α} (h : P a) : GoesAlong full [] P (Pure.pure a : Run W α) (Pure.pure a) := by
  refine Marks.pure ⟨.nil, fun b hb => ?_⟩
  cases hb
  exact ⟨h, fun _ => rfl⟩

/-- A part that leaves no mark. -/
theorem silent (h : (traceLink W fun _ => False).Rel m m') : GoesAlong full [] (fun _ => True) m m' := by
  refine Marks.mono h fun r marks hnone => ?_
  obtain rfl := List.eq_nil_iff_forall_not_mem.mpr hnone
  exact ⟨.nil, fun _ _ => ⟨trivial, fun _ => rfl⟩⟩

/-- One part after another goes along the steps of both. -/
theorem bind {f : α → Run W β} {f' : α → Run (Traced W) β} (hm : GoesAlong full steps P m m')
    (hf : ∀ a, P a → GoesAlong full more Q (f a) (f' a)) : GoesAlong full (steps ++ more) Q (m >>= f) (m' >>= f') := by
  refine Marks.bind hm (fun reason marks h => ?_) fun a marks h => ?_
  · exact ⟨sublistForall₂_sublist h.fits (List.sublist_append_left _ _), nofun⟩
  · obtain ⟨ha, hall⟩ := h.done a rfl
    refine (hf a ha).mono fun r marks' h' => ⟨sublistForall₂_append h.fits h'.fits, fun b hb => ?_⟩
    obtain ⟨hQ, hall'⟩ := h'.done b hb
    refine ⟨hQ, fun hfull => ?_⟩
    rw [offered_append, ← hall hfull, ← hall' hfull]
    exact List.filterMap_append

/-- A part that is left without a step behind another one. -/
theorem andThen {f : α → Run W β} {f' : α → Run (Traced W) β} (hm : GoesAlong full steps P m m')
    (hf : ∀ a, P a → GoesAlong full [] Q (f a) (f' a)) : GoesAlong full steps Q (m >>= f) (m' >>= f') := by
  have h := hm.bind hf
  rwa [List.append_nil] at h

/-- Steps may be passed over, but no nodes where nothing may be left out. -/
theorem among (hsub : steps.Sublist more) (hsame : full → offered steps = offered more) (h : GoesAlong full steps P m m') :
    GoesAlong full more P m m' := by
  refine Marks.mono h fun r marks h => ⟨sublistForall₂_sublist h.fits hsub, fun a ha => ?_⟩
  obtain ⟨hP, hall⟩ := h.done a ha
  exact ⟨hP, fun hfull => (hall hfull).trans (hsame hfull)⟩

/-- A part that is halted before anything else is along any steps. -/
theorem stop {reason : Halt} : GoesAlong full steps P (throw reason : Run W α) (throw reason) :=
  Marks.stop ⟨.nil, nofun⟩

/-- An act that leaves the mark of a step. -/
theorem marked {mark : Mark} {step : TreeStep} (hfits : mark.Fits step) (a : Act W α) :
    GoesAlong full [step] (fun _ => True) (Run.ofAct a) (Run.ofAct (a.marked mark)) := by
  refine fun s => ⟨[mark], rfl, .cons hfits .nil, fun _ _ => ⟨trivial, fun _ => ?_⟩⟩
  unfold Mark.offered offered
  rw [List.filterMap_cons, List.filterMap_cons, hfits.offered?]
  rfl

end GoesAlong

/-! ## The parts of a run -/

section parts

variable (host : Host W)

/-- The question for the token leaves no mark. -/
theorem silent_askToken : (traceLink W fun _ => False).Rel host.askToken host.offering.askToken :=
  Marks.get fun _ => (traceLink W _).pure _

/-- A name that is read leaves no mark. -/
theorem silent_readName (n : String) : (traceLink W fun _ => False).Rel (host.readName n) (host.offering.readName n) := by
  rw [Host.readName_eq, Host.readName_eq]
  exact Marks.get fun _ => (traceLink W _).pure _

/-- A global variable that is read leaves no mark. -/
theorem silent_readGlobal (key : String) :
    (traceLink W fun _ => False).Rel (host.readGlobal key) (host.offering.readGlobal key) :=
  Marks.get fun _ => (traceLink W _).pure _

/-- A node is entered once it has been offered. -/
theorem enter_along (node : Node) :
    GoesAlong full [.offer node] (fun _ => True) (host.enter node) (host.offering.enter node) := by
  rw [Host.enter_eq, Host.enter_eq]
  refine (GoesAlong.silent (silent_askToken host)).bind fun cancelled _ => ?_
  cases cancelled with
  | true => exact .stop
  | false =>
    show GoesAlong full _ _ (host.consult node) (host.offering.consult node)
    rw [Host.consult_eq, Host.consult_eq]
    refine (GoesAlong.silent (traceLink_act (liftM host.overdue?))).bind fun overdue _ => ?_
    cases overdue with
    | some timeout => exact .stop
    | none =>
      have hveto : Mark.Fits (.node node) (.offer node) := rfl
      refine (GoesAlong.marked hveto (host.veto node)).andThen fun refused _ => ?_
      cases refused with
      | true => exact .stop
      | false => exact .pure trivial

/-- A call that is not made is a step that is passed over. -/
theorem GoesAlong.uncalled {node : Node} {P : α → Prop} {m : Run W α} {m' : Run (Traced W) α} (h : GoesAlong full [] P m m') :
    GoesAlong full [.call node] P m m' := h.among (List.nil_sublist _) fun _ => rfl

/-- A placeholder that is resolved leaves the mark of its call, or none. -/
theorem resolve_along {p : Position} {n : String} {args : List Expression} {values : List Value}
    (hlength : values.length = args.length) :
    GoesAlong full [.call (.expression (.placeholder p n args))] (fun _ => True) (host.resolve n values)
      (host.offering.resolve n values) := by
  rw [Host.resolve_eq, Host.resolve_eq]
  refine (GoesAlong.silent (traceLink_act (host.offerPlaceholder n values))).bind fun answer _ => ?_
  cases answer with
  | some v => exact .uncalled (.pure trivial)
  | none =>
    refine Marks.get fun s => ?_
    show GoesAlong full _ _ ((host.placeholder? n s.world.world).elim _ _) (((host.placeholder? n s.world.world).map _).elim _ _)
    cases host.placeholder? n s.world.world with
    | none => exact .uncalled (.pure trivial)
    | some act =>
      have hfits : Mark.Fits (.placeholder n values) (.call (.expression (.placeholder p n args))) := ⟨rfl, hlength⟩
      exact .marked hfits (act values)

/-- A command that is run leaves the mark of its call, or none. -/
theorem runCommand_along {p : Position} {n : String} {args : List Expression} {values : List Value}
    (hlength : values.length = args.length) :
    GoesAlong full [.call (.statement (.command p n args))] (fun _ => True) (host.runCommand n values)
      (host.offering.runCommand n values) := by
  rw [Host.runCommand_eq, Host.runCommand_eq]
  refine (GoesAlong.silent (traceLink_unmarked (host.offerCommand n values))).bind fun done _ => ?_
  cases done with
  | true => exact .uncalled (.pure trivial)
  | false =>
    refine Marks.get fun s => ?_
    show GoesAlong full _ _ ((host.command? n s.world.world).elim _ _) (((host.command? n s.world.world).map _).elim _ _)
    cases host.command? n s.world.world with
    | none => exact .stop
    | some act =>
      have hfits : Mark.Fits (.command n values) (.call (.statement (.command p n args))) := ⟨rfl, hlength⟩
      exact .marked hfits (act values)

end parts

/-! ## Runs -/

/-- The node may leave out some of those inside it, or those behind it. -/
def Node.maySkip : Node → Bool
  | .statement (.ifElse ..) => true
  | .statement (.returnScript _) => true
  | .expression (.ternary ..) => true
  | .expression (.binary _ _ op _) => op = .and ∨ op = .or
  | _ => false

/-- The node is a loop. -/
def Node.isLoop : Node → Bool
  | .statement (.whileLoop ..) => true
  | .statement (.forLoop ..) => true
  | _ => false

section runs

variable (host : Host W)

mutual

/-- The evaluation of an expression goes along its steps. -/
theorem evaluate_along : ∀ e : Expression, (full → ∀ n ∈ e.nodes, ¬n.maySkip) →
    GoesAlong full e.steps (fun _ => True) (host.evaluate host.enter e) (host.offering.evaluate host.offering.enter e)
  | .literal p value, _ => by
    unfold Host.evaluate
    exact (enter_along host _).andThen fun _ _ => .pure trivial
  | .name p n, _ => by
    unfold Host.evaluate
    exact (enter_along host _).andThen fun _ _ => .silent (silent_readName host n)
  | .globalName p n, _ => by
    unfold Host.evaluate
    exact (enter_along host _).andThen fun _ _ => .silent (silent_readGlobal host n)
  | .globalAt p key, he => by
    simp only [Expression.nodes, List.forall_mem_cons] at he
    unfold Host.evaluate
    refine (enter_along host _).bind fun _ _ => (evaluate_along key fun hfull => (he hfull).2).andThen fun v _ => ?_
    exact (GoesAlong.silent ((traceLink W _).keyOf v)).andThen fun k _ => .silent (silent_readGlobal host k)
  | .binary p left op right, he => by
    simp only [Expression.nodes, List.forall_mem_cons, List.forall_mem_append] at he
    have hleft := evaluate_along left fun hfull => (he hfull).2.1
    have hright := evaluate_along right fun hfull => (he hfull).2.2
    unfold Host.evaluate
    refine (enter_along host _).bind fun _ _ => hleft.bind fun a _ => ?_
    -- the right operand of `&&` and `||` may be left out
    split
    · split
      · exact hright.andThen fun b _ => .pure trivial
      · exact .among (List.nil_sublist _) (fun hfull => absurd rfl (he hfull).1) (.pure trivial)
    · split
      · exact .among (List.nil_sublist _) (fun hfull => absurd rfl (he hfull).1) (.pure trivial)
      · exact hright.andThen fun b _ => .pure trivial
    · exact hright.andThen fun b _ => .silent ((traceLink W _).applied _)
  | .unary p op operand, he => by
    simp only [Expression.nodes, List.forall_mem_cons] at he
    unfold Host.evaluate
    refine (enter_along host _).bind fun _ _ => (evaluate_along operand fun hfull => (he hfull).2).andThen fun v _ => ?_
    exact .silent ((traceLink W _).applied _)
  | .ternary p condition thenValue elseValue, he => by
    simp only [Expression.nodes, List.forall_mem_cons, List.forall_mem_append] at he
    have hskips : ¬full := fun hfull => (he hfull).1 rfl
    unfold Host.evaluate
    refine (enter_along host _).bind fun _ _ => (evaluate_along condition fun hfull => absurd hfull hskips).bind fun c _ => ?_
    split
    · exact (evaluate_along thenValue fun hfull => absurd hfull hskips).among (List.sublist_append_left _ _)
        fun hfull => absurd hfull hskips
    · exact (evaluate_along elseValue fun hfull => absurd hfull hskips).among (List.sublist_append_right _ _)
        fun hfull => absurd hfull hskips
  | .placeholder p n args, he => by
    simp only [Expression.nodes, List.forall_mem_cons] at he
    unfold Host.evaluate
    refine (enter_along host _).bind fun _ _ => (evaluateAll_along args fun hfull => (he hfull).2).bind fun values hlength => ?_
    exact resolve_along host hlength

/-- The arguments are evaluated one after another, each to one value. -/
theorem evaluateAll_along : ∀ args : List Expression, (full → ∀ n ∈ Expression.nodesOfAll args, ¬n.maySkip) →
    GoesAlong full (Expression.stepsOfAll args) (fun values => values.length = args.length)
      (host.evaluateAll host.enter args) (host.offering.evaluateAll host.offering.enter args)
  | [], _ => by
    unfold Host.evaluateAll
    exact .pure rfl
  | e :: rest, he => by
    simp only [Expression.nodesOfAll, List.forall_mem_append] at he
    unfold Host.evaluateAll
    refine (evaluate_along e fun hfull => (he hfull).1).bind fun v _ => ?_
    exact (evaluateAll_along rest fun hfull => (he hfull).2).andThen fun vs hlength => .pure (congrArg Nat.succ hlength)

end

/-- An assignment goes along the steps of its target, and then along those of its value. -/
theorem assign_along (target : Target) (value : Expression)
    (htarget : full → ∀ n ∈ target.nodes, ¬n.maySkip) (hvalue : full → ∀ n ∈ value.nodes, ¬n.maySkip) :
    GoesAlong full (target.steps ++ value.steps) (fun _ => True) (host.assign host.enter target value)
      (host.offering.assign host.offering.enter target value) := by
  unfold Host.assign
  cases target with
  | name n => exact (evaluate_along host value hvalue).andThen fun v _ => .silent (traceLink_bind n v)
  | globalName n => exact (evaluate_along host value hvalue).andThen fun v _ => .silent (traceLink_act (host.writeGlobal n v))
  | globalAt key =>
    refine (evaluate_along host key htarget).bind fun k _ => ?_
    refine (GoesAlong.silent ((traceLink W _).keyOf k)).bind fun name _ => ?_
    exact (evaluate_along host value hvalue).andThen fun v _ => .silent (traceLink_act (host.writeGlobal name v))

/-- Among these statements none leaves out others. -/
structure Straight (nodes : List Node) (outside : List Statement) : Prop where
  nodes : ∀ n ∈ nodes, ¬n.maySkip
  outside : Statement.Confined outside

mutual

/-- The execution of a statement without loops goes along its steps, and comes to no signal where nothing may be left out. -/
theorem execute_along (fuel : Nat) : ∀ s : Statement, (∀ n ∈ s.nodes, ¬n.isLoop) → (full → Straight s.nodes s.outsideLoops) →
    GoesAlong full s.steps (fun signal => full → signal = .none) (host.execute host.enter fuel s)
      (host.offering.execute host.offering.enter fuel s)
  | .assign p target value, hloops, hs => by
    have hparts := fun hfull => List.forall_mem_append.mp (List.forall_mem_cons.mp (hs hfull).nodes).2
    unfold Host.execute
    refine (enter_along host _).bind fun _ _ => ?_
    exact (assign_along host target value (fun hfull => (hparts hfull).1) fun hfull => (hparts hfull).2).andThen fun _ _ =>
      .pure fun _ => rfl
  | .ifElse p condition thenBody elseBody, hloops, hs => by
    have hskips : ¬full := fun hfull => (hs hfull).nodes _ List.mem_cons_self rfl
    simp only [Statement.nodes, List.forall_mem_cons, List.forall_mem_append] at hloops
    unfold Host.execute
    refine (enter_along host _).bind fun _ _ =>
      (evaluate_along host condition fun hfull => absurd hfull hskips).bind fun c _ => ?_
    split
    · exact (executeAll_along fuel thenBody hloops.2.1.2 fun hfull => absurd hfull hskips).among (List.sublist_append_left _ _)
        fun hfull => absurd hfull hskips
    · exact (executeElse_along fuel elseBody hloops.2.2 fun hfull => absurd hfull hskips).among (List.sublist_append_right _ _)
        fun hfull => absurd hfull hskips
  | .whileLoop p condition body, hloops, _ => absurd rfl (hloops _ List.mem_cons_self)
  | .forLoop p counter start stop body, hloops, _ => absurd rfl (hloops _ List.mem_cons_self)
  | .block p body, hloops, hs => by
    unfold Host.execute
    refine (enter_along host _).bind fun _ _ => ?_
    refine executeAll_along fuel body (List.forall_mem_cons.mp hloops).2 fun hfull => ?_
    exact ⟨(List.forall_mem_cons.mp (hs hfull).nodes).2, (Statement.confined_cons.mp (hs hfull).outside).2⟩
  | .command p n args, _, hs => by
    unfold Host.execute
    refine (enter_along host _).bind fun _ _ => ?_
    refine (evaluateAll_along host args fun hfull => (List.forall_mem_cons.mp (hs hfull).nodes).2).bind fun values hlength => ?_
    exact (runCommand_along host hlength).andThen fun _ _ => .pure fun _ => rfl
  | .breakLoop p, _, hs => by
    unfold Host.execute
    exact (enter_along host _).andThen fun _ _ => .pure fun hfull => absurd trivial ((hs hfull).outside _ List.mem_cons_self)
  | .continueLoop p, _, hs => by
    unfold Host.execute
    exact (enter_along host _).andThen fun _ _ => .pure fun hfull => absurd trivial ((hs hfull).outside _ List.mem_cons_self)
  | .returnScript p, _, hs => by
    unfold Host.execute
    exact (enter_along host _).andThen fun _ _ => .pure fun hfull => absurd rfl ((hs hfull).nodes _ List.mem_cons_self)
  | .expression p value, _, hs => by
    unfold Host.execute
    refine (enter_along host _).bind fun _ _ => ?_
    exact (evaluate_along host value fun hfull => (List.forall_mem_cons.mp (hs hfull).nodes).2).andThen fun _ _ =>
      .pure fun _ => rfl

/-- A block goes along the steps of its statements, and where it goes along all of them it gives no signal. -/
theorem executeAll_along (fuel : Nat) : ∀ body : List Statement, (∀ n ∈ Statement.nodesOfAll body, ¬n.isLoop) →
    (full → Straight (Statement.nodesOfAll body) (Statement.outsideLoopsOfAll body)) →
    GoesAlong full (Statement.stepsOfAll body) (fun signal => full → signal = .none) (host.executeAll host.enter fuel body)
      (host.offering.executeAll host.offering.enter fuel body)
  | [], _, _ => by
    unfold Host.executeAll
    exact .pure fun _ => rfl
  | s :: rest, hloops, hs => by
    obtain ⟨hloop, hloops⟩ := List.forall_mem_append.mp hloops
    have hnodes := fun hfull => List.forall_mem_append.mp (hs hfull).nodes
    have hconfined := fun hfull => Statement.confined_append.mp (hs hfull).outside
    unfold Host.executeAll
    refine (execute_along fuel s hloop fun hfull => ⟨(hnodes hfull).1, (hconfined hfull).1⟩).bind fun signal hsignal => ?_
    -- a signal leaves out the statements behind it
    cases signal with
    | none => exact executeAll_along fuel rest hloops fun hfull => ⟨(hnodes hfull).2, (hconfined hfull).2⟩
    | _ => exact (GoesAlong.pure hsignal).among (List.nil_sublist _) fun hfull => nomatch hsignal hfull

/-- The other branch of a conditional goes along the steps of its statements, if it is there at all. -/
theorem executeElse_along (fuel : Nat) : ∀ elseBody : Option (List Statement),
    (∀ n ∈ Statement.nodesOfElse elseBody, ¬n.isLoop) →
    (full → Straight (Statement.nodesOfElse elseBody) (Statement.outsideLoopsOfElse elseBody)) →
    GoesAlong full (Statement.stepsOfElse elseBody) (fun signal => full → signal = .none)
      (match elseBody with | some body => host.executeAll host.enter fuel body | none => pure Signal.none)
      (match elseBody with | some body => host.offering.executeAll host.offering.enter fuel body | none => pure Signal.none)
  | none, _, _ => .pure fun _ => rfl
  | some body, hloops, hs => executeAll_along fuel body hloops hs

end

end runs

/-- The nodes of a script without loops are offered to the hook in the order of the tree: part of them, none of them twice. Each call
is that of a node, behind the nodes of its own arguments and in front of all nodes that follow it in the tree, and among the calls too
the order is that of the steps of the script. If no node leaves out others and the run is completed, all nodes are offered. The trace
changes nothing about the run. -/
theorem run_in_order {text : String} {script : Script} (h : Script.parse text = .ok script)
    (hloops : ∀ n ∈ script.nodes, ¬n.isLoop) (host : Host W) (fuel : Nat) (s : Scope W) :
    ∃ marks, host.offering.run fuel script s.traced =
        ((host.run fuel script s).1, s.traced.withMarks (host.run fuel script s).2 marks) ∧
      (Mark.offered marks).Sublist script.nodes ∧ (Mark.offered marks).Nodup ∧
      (∀ before call after, marks = before ++ call :: after → call.offered? = none →
        ∃ front node back, script.nodes = front ++ node.nodes ++ back ∧ call.Fits (.call node) ∧
          (Mark.offered before).Sublist (front ++ node.nodes) ∧ (Mark.offered after).Sublist back) ∧
      List.SublistForall₂ Mark.Fits marks script.steps ∧
      ((∀ n ∈ script.nodes, ¬n.maySkip) → (host.run fuel script s).1 = .completed → Mark.offered marks = script.nodes) := by
  have hconfined := parse_outsideLoops h
  have halong : GoesAlong (∀ n ∈ script.nodes, ¬n.maySkip) script.steps _ (host.executeAll host.enter fuel script.statements) _ :=
    executeAll_along host fuel script.statements hloops fun hfull => ⟨hfull, hconfined⟩
  obtain ⟨marks, hrun, hfits, hdone⟩ := halong s.traced
  have hsub : (Mark.offered marks).Sublist script.nodes := by
    have hoffered := offered_sublist hfits
    rwa [script.offered_steps] at hoffered
  refine ⟨marks, ?_, hsub, (Script.nodes_nodup h).sublist hsub, fun before call after hsplit hcall => ?_, hfits,
    fun hfull hcompleted => ?_⟩
  · rw [Host.run_apply, Host.run_apply, hrun]
    rfl
  · rw [← script.offered_steps]
    exact call_between hfits (Statement.callsBehind_ofAll script.statements) hsplit hcall
  · obtain ⟨signal, s', hresult⟩ : ∃ signal s', host.executeAll host.enter fuel script.statements s = (.ok signal, s') := by
      rw [Host.run_apply] at hcompleted
      rcases Run.cases (host.executeAll host.enter fuel script.statements) s with hok | ⟨reason, s', hresult⟩
      · exact hok
      · rw [hresult] at hcompleted
        cases hcompleted
    exact ((hdone signal (congrArg Prod.fst hresult)).2 hfull).trans script.offered_steps

/-- An assignment and a command with a placeholder among its arguments: ten nodes, all of them offered. -/
theorem run_in_order_call :
    let text := "GLOBAL[7] = 1 + 2\n#SAY(%a:x%, -3)"
    let host : Host Unit :=
      { isCancelled := fun _ => false, overdue? := pure none, veto := fun _ => pure false,
        offerCommand := fun _ _ => pure false, command? := fun _ _ => some fun _ => pure (),
        offerPlaceholder := fun _ _ => pure none, placeholder? := fun _ _ => some fun _ => pure .null,
        readGlobal? := fun _ _ => none, writeGlobal := fun _ _ => pure () }
    let s : Scope Unit := ⟨∅, ()⟩
    ∃ script marks, Script.parse text = .ok script ∧ script.nodes.length = 10 ∧
      (host.offering.run 0 script s.traced).2.world.trace = marks ∧ Mark.offered marks = script.nodes ∧
        List.SublistForall₂ Mark.Fits marks script.steps := by
  intro text host s
  have haccepted : (Script.parse text).toOption.any fun script =>
      script.nodes.length = 10 ∧ (∀ n ∈ script.nodes, ¬n.isLoop ∧ ¬n.maySkip) ∧ (host.run 0 script s).1 = .completed := by
    decide +kernel
  obtain ⟨script, hscript, htest⟩ := Script.exists_of_any haccepted
  obtain ⟨hlength, hnodes, hcompleted⟩ := of_decide_eq_true htest
  obtain ⟨marks, hrun, -, -, -, hfits, hall⟩ := run_in_order hscript (fun n hn => (hnodes n hn).1) host 0 s
  refine ⟨script, marks, hscript, hlength, ?_, hall (fun n hn => (hnodes n hn).2) hcompleted, hfits⟩
  rw [hrun]
  exact List.nil_append marks

end EventScript
