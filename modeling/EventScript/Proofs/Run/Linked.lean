import EventScript.Proofs.Run.Basic
import EventScript.Proofs.Script.Nodes

/-!
# Two runs side by side

The interpreter puts the steps of a host together in three ways: it yields a value, it stops, and it goes on with one part after
another. A relation between parts of two runs that these keep, a `Link`, therefore holds between what two hosts make of a script
as soon as it holds between their steps: `Linked.executeAll`. The steps need to be related only for the nodes that the script has
and the names that these mention, and running out of fuel only if there is a conditional loop among them (`Link.Fuels`). Most steps are
made of smaller ones in one way, so that it is enough to relate these (`Link.Parts`, `Link.Hosts`).
-/

namespace EventScript

/-- A relation between parts of two runs that the interpreter keeps. -/
structure Link (W₁ W₂ : Type) where
  Rel : ∀ {α : Type}, Run W₁ α → Run W₂ α → Prop
  pure : ∀ {α : Type} (a : α), Rel (Pure.pure a) (Pure.pure a)
  stop : ∀ {α : Type} (reason : Halt), reason ≠ .outOfFuel → Rel (α := α) (throw reason) (throw reason)
  bind : ∀ {α β : Type} {m₁ : Run W₁ α} {m₂ : Run W₂ α} {f₁ : α → Run W₁ β} {f₂ : α → Run W₂ β},
    Rel m₁ m₂ → (∀ a, Rel (f₁ a) (f₂ a)) → Rel (m₁ >>= f₁) (m₂ >>= f₂)

/-- One of the nodes that are allowed mentions the name. -/
def Mentioned (Allowed : Node → Prop) (name : String) : Prop := ∃ node, Allowed node ∧ node.Mentions name

/-- One of the nodes that are allowed gives the variable a value. -/
def Bound (Allowed : Node → Prop) (name : String) : Prop := ∃ node, Allowed node ∧ node.Binds name

/-- A node that binds a name mentions it. -/
theorem Bound.mentioned {Allowed : Node → Prop} {name : String} (h : Bound Allowed name) : Mentioned Allowed name := by
  obtain ⟨node, hnode, hbinds⟩ := h
  exact ⟨node, hnode, hbinds.mentions⟩

/-- Two hosts, each with a way of entering nodes, whose steps are related wherever they are taken for one of the nodes that are
allowed. For a command this is asked of the evaluation of its arguments and the step together, so that it may depend on how the
arguments are written. -/
structure Linked {W₁ W₂ : Type} (link : Link W₁ W₂) (host₁ : Host W₁) (enter₁ : Node → Run W₁ Unit) (host₂ : Host W₂)
    (enter₂ : Node → Run W₂ Unit) (Allowed : Node → Prop) : Prop where
  enter : ∀ node, Allowed node → link.Rel (enter₁ node) (enter₂ node)
  readName : ∀ n, Mentioned Allowed n → link.Rel (host₁.readName n) (host₂.readName n)
  readGlobal : ∀ key, Mentioned Allowed key → link.Rel (host₁.readGlobal key) (host₂.readGlobal key)
  resolve : ∀ p n args values, Allowed (.expression (.placeholder p n args)) →
    link.Rel (host₁.resolve n values) (host₂.resolve n values)
  bind : ∀ n v, Bound Allowed n → link.Rel (Host.bind n v) (Host.bind n v)
  writeGlobal : ∀ key v, Mentioned Allowed key →
    link.Rel (Run.ofAct (host₁.writeGlobal key v)) (Run.ofAct (host₂.writeGlobal key v))
  runCommand : ∀ p n args, Allowed (.statement (.command p n args)) →
    link.Rel (host₁.evaluateAll enter₁ args) (host₂.evaluateAll enter₂ args) →
    link.Rel (host₁.evaluateAll enter₁ args >>= host₁.runCommand n) (host₂.evaluateAll enter₂ args >>= host₂.runCommand n)

/-- Two hosts whose parts are related, out of which the steps behind the entry into a node are made. -/
structure Link.Parts {W₁ W₂ : Type} (link : Link W₁ W₂) (host₁ : Host W₁) (host₂ : Host W₂) (Allowed : Node → Prop) : Prop where
  readName : ∀ n, Mentioned Allowed n → link.Rel (host₁.readName n) (host₂.readName n)
  readGlobal : ∀ key, Mentioned Allowed key → link.Rel (host₁.readGlobal key) (host₂.readGlobal key)
  offerPlaceholder : ∀ n args, link.Rel (Run.ofAct (host₁.offerPlaceholder n args)) (Run.ofAct (host₂.offerPlaceholder n args))
  callPlaceholder : ∀ n args, link.Rel (host₁.callPlaceholder n args) (host₂.callPlaceholder n args)
  bind : ∀ n v, Bound Allowed n → link.Rel (Host.bind n v) (Host.bind n v)
  writeGlobal : ∀ key v, Mentioned Allowed key →
    link.Rel (Run.ofAct (host₁.writeGlobal key v)) (Run.ofAct (host₂.writeGlobal key v))
  offerCommand : ∀ n args, link.Rel (host₁.offerCommand n args) (host₂.offerCommand n args)
  callCommand : ∀ n args, link.Rel (host₁.callCommand n args) (host₂.callCommand n args)

/-- Two hosts whose parts are related, and the questions too that are asked in front of a node. -/
structure Link.Hosts {W₁ W₂ : Type} (link : Link W₁ W₂) (host₁ : Host W₁) (host₂ : Host W₂) (Allowed : Node → Prop) : Prop
    extends link.Parts host₁ host₂ Allowed where
  askToken : link.Rel host₁.askToken host₂.askToken
  overdue : link.Rel (Run.ofAct (liftM host₁.overdue?)) (Run.ofAct (liftM host₂.overdue?))
  veto : ∀ node, Allowed node → link.Rel (Run.ofAct (host₁.veto node)) (Run.ofAct (host₂.veto node))

section

variable {W₁ W₂ : Type} {link : Link W₁ W₂} {host₁ : Host W₁} {enter₁ : Node → Run W₁ Unit} {host₂ : Host W₂}
  {enter₂ : Node → Run W₂ Unit} {Allowed : Node → Prop}

/-! ## Steps made of parts -/

/-- Entering a node is made of the questions for the token, about the deadline and to the hook. -/
theorem Link.enter (link : Link W₁ W₂) {node : Node} (htoken : link.Rel host₁.askToken host₂.askToken)
    (hoverdue : link.Rel (Run.ofAct (liftM host₁.overdue?)) (Run.ofAct (liftM host₂.overdue?)))
    (hveto : link.Rel (Run.ofAct (host₁.veto node)) (Run.ofAct (host₂.veto node))) :
    link.Rel (host₁.enter node) (host₂.enter node) := by
  rw [Host.enter_eq, Host.enter_eq]
  refine link.bind htoken fun cancelled => ?_
  cases cancelled with
  | true => exact link.stop _ nofun
  | false =>
    show link.Rel (host₁.consult node) (host₂.consult node)
    rw [Host.consult_eq, Host.consult_eq]
    refine link.bind hoverdue fun overdue => ?_
    cases overdue with
    | some timeout => exact link.stop _ nofun
    | none =>
      refine link.bind hveto fun refused => ?_
      cases refused with
      | true => exact link.stop _ nofun
      | false => exact link.pure ()

/-- Linked hosts enter a node linked: by the token, the deadline and the hook. -/
theorem Link.Hosts.enter (h : link.Hosts host₁ host₂ Allowed) (node : Node) (hnode : Allowed node) :
    link.Rel (host₁.enter node) (host₂.enter node) := link.enter h.askToken h.overdue (h.veto node hnode)

/-- Hosts whose parts are related, and that enter nodes in related ways, have related steps. -/
theorem Link.Parts.linked (h : link.Parts host₁ host₂ Allowed)
    (henter : ∀ node, Allowed node → link.Rel (enter₁ node) (enter₂ node)) :
    Linked link host₁ enter₁ host₂ enter₂ Allowed where
  enter := henter
  readName := h.readName
  readGlobal := h.readGlobal
  resolve p n args values _ := by
    rw [Host.resolve_eq, Host.resolve_eq]
    refine link.bind (h.offerPlaceholder n values) fun answer => ?_
    cases answer with
    | some v => exact link.pure v
    | none => exact h.callPlaceholder n values
  bind := h.bind
  writeGlobal := h.writeGlobal
  runCommand p n args _ hargs := by
    refine link.bind hargs fun values => ?_
    rw [Host.runCommand_eq, Host.runCommand_eq]
    refine link.bind (h.offerCommand n values) fun done => ?_
    cases done with
    | true => exact link.pure ()
    | false => exact h.callCommand n values

/-! ## The interpreter -/

/-- A key is computed in the same way on both sides. -/
theorem Link.keyOf (link : Link W₁ W₂) (v : Value) : link.Rel (Host.keyOf v) (Host.keyOf v) := by
  cases v <;> first | exact link.pure _ | exact link.stop _ nofun

/-- So is the bound of a loop. -/
theorem Link.boundOf (link : Link W₁ W₂) (v : Value) : link.Rel (Host.boundOf v) (Host.boundOf v) := by
  unfold Host.boundOf
  split
  · exact link.pure _
  · exact link.stop _ nofun

/-- So is the outcome of an operator. -/
theorem Link.applied (link : Link W₁ W₂) (r : Except OperandFault Value) :
    link.Rel (Host.applied r) (Host.applied r) := by
  cases r
  · exact link.stop _ nofun
  · exact link.pure _

/-- Two parts that enter a node and are related in what they do behind it. -/
def Link.Entered (link : Link W₁ W₂) (enter₁ : Node → Run W₁ Unit) (enter₂ : Node → Run W₂ Unit) (node : Node)
    (m₁ : Run W₁ α) (m₂ : Run W₂ α) : Prop :=
  ∃ rest₁ rest₂, m₁ = (enter₁ node >>= fun _ => rest₁) ∧ m₂ = (enter₂ node >>= fun _ => rest₂) ∧ link.Rel rest₁ rest₂

/-- A node that is entered in front of linked parts is entered so. -/
theorem Link.Entered.intro {node : Node} {rest₁ : Run W₁ α} {rest₂ : Run W₂ α} (h : link.Rel rest₁ rest₂) :
    link.Entered enter₁ enter₂ node (enter₁ node >>= fun _ => rest₁) (enter₂ node >>= fun _ => rest₂) := ⟨_, _, rfl, rfl, h⟩

/-- Parts that enter a node are linked if the way to enter is. -/
theorem Link.Entered.rel {node : Node} {m₁ : Run W₁ α} {m₂ : Run W₂ α} (h : link.Entered enter₁ enter₂ node m₁ m₂)
    (henter : link.Rel (enter₁ node) (enter₂ node)) : link.Rel m₁ m₂ := by
  obtain ⟨rest₁, rest₂, rfl, rfl, hrest⟩ := h
  exact link.bind henter fun _ => hrest

mutual

/-- An expression enters its own node before anything else. -/
theorem Linked.entered (h : Linked link host₁ enter₁ host₂ enter₂ Allowed) :
    ∀ e : Expression, (∀ node ∈ e.nodes, Allowed node) →
      link.Entered enter₁ enter₂ (.expression e) (host₁.evaluate enter₁ e) (host₂.evaluate enter₂ e)
  | .literal p value, he => by
    unfold Host.evaluate
    exact .intro (link.pure _)
  | .name p n, he => by
    simp only [Expression.nodes, List.forall_mem_cons] at he
    unfold Host.evaluate
    exact .intro (h.readName n ⟨_, he.1, rfl⟩)
  | .globalName p n, he => by
    simp only [Expression.nodes, List.forall_mem_cons] at he
    unfold Host.evaluate
    exact .intro (h.readGlobal n ⟨_, he.1, rfl⟩)
  | .globalAt p key, he => by
    simp only [Expression.nodes, List.forall_mem_cons] at he
    have hkey := (h.entered key he.2).rel (h.enter _ (he.2 _ key.node_mem))
    unfold Host.evaluate
    refine .intro (link.bind hkey fun v => link.bind (link.keyOf v) fun k => ?_)
    exact h.readGlobal k ⟨_, he.1, trivial⟩
  | .binary p left op right, he => by
    simp only [Expression.nodes, List.forall_mem_cons, List.forall_mem_append] at he
    have hleft := (h.entered left he.2.1).rel (h.enter _ (he.2.1 _ left.node_mem))
    have hright := (h.entered right he.2.2).rel (h.enter _ (he.2.2 _ right.node_mem))
    unfold Host.evaluate
    refine .intro (link.bind hleft fun a => ?_)
    split
    · split
      · exact link.bind hright fun b => link.pure _
      · exact link.pure _
    · split
      · exact link.pure _
      · exact link.bind hright fun b => link.pure _
    · exact link.bind hright fun b => link.applied _
  | .unary p op operand, he => by
    simp only [Expression.nodes, List.forall_mem_cons] at he
    have hoperand := (h.entered operand he.2).rel (h.enter _ (he.2 _ operand.node_mem))
    unfold Host.evaluate
    exact .intro (link.bind hoperand fun v => link.applied _)
  | .ternary p condition thenValue elseValue, he => by
    simp only [Expression.nodes, List.forall_mem_cons, List.forall_mem_append] at he
    have hcondition := (h.entered condition he.2.1.1).rel (h.enter _ (he.2.1.1 _ condition.node_mem))
    unfold Host.evaluate
    refine .intro (link.bind hcondition fun c => ?_)
    split
    · exact (h.entered thenValue he.2.1.2).rel (h.enter _ (he.2.1.2 _ thenValue.node_mem))
    · exact (h.entered elseValue he.2.2).rel (h.enter _ (he.2.2 _ elseValue.node_mem))
  | .placeholder p n args, he => by
    simp only [Expression.nodes, List.forall_mem_cons] at he
    unfold Host.evaluate
    refine .intro (link.bind (h.evaluateAll args he.2) fun values => ?_)
    exact h.resolve p n args values he.1

/-- Arguments are evaluated linked, in their order. -/
theorem Linked.evaluateAll (h : Linked link host₁ enter₁ host₂ enter₂ Allowed) :
    ∀ args : List Expression, (∀ node ∈ Expression.nodesOfAll args, Allowed node) →
      link.Rel (host₁.evaluateAll enter₁ args) (host₂.evaluateAll enter₂ args)
  | [], _ => by
    unfold Host.evaluateAll
    exact link.pure _
  | e :: rest, he => by
    simp only [Expression.nodesOfAll, List.forall_mem_append] at he
    unfold Host.evaluateAll
    refine link.bind ((h.entered e he.1).rel (h.enter _ (he.1 _ e.node_mem))) fun v => ?_
    exact link.bind (h.evaluateAll rest he.2) fun vs => link.pure _

end

/-- So is an expression, by recursion on the expression. -/
theorem Linked.evaluate (h : Linked link host₁ enter₁ host₂ enter₂ Allowed) (e : Expression)
    (he : ∀ node ∈ e.nodes, Allowed node) : link.Rel (host₁.evaluate enter₁ e) (host₂.evaluate enter₂ e) :=
  (h.entered e he).rel (h.enter _ (he _ e.node_mem))

section loops

variable {condition₁ : Run W₁ Value} {condition₂ : Run W₂ Value} {body₁ : Run W₁ Signal} {body₂ : Run W₂ Signal}

/-- One pass of a conditional loop, in front of the rest of the passes. -/
theorem Link.whilePasses_succ (hcondition : link.Rel condition₁ condition₂) (hbody : link.Rel body₁ body₂)
    {fuel₁ fuel₂ : Nat} (hrest : link.Rel (whilePasses condition₁ body₁ fuel₁) (whilePasses condition₂ body₂ fuel₂)) :
    link.Rel (whilePasses condition₁ body₁ (fuel₁ + 1)) (whilePasses condition₂ body₂ (fuel₂ + 1)) := by
  unfold EventScript.whilePasses
  refine link.bind hcondition fun c => ?_
  split
  · refine link.bind hbody fun signal => ?_
    cases signal with
    | breakLoop => exact link.pure _
    | returnScript => exact link.pure _
    | none => exact hrest
    | continueLoop => exact hrest
  · exact link.pure _

/-- So are the passes of a conditional loop with the same fuel. -/
theorem Link.whilePasses_same (hdry : link.Rel (α := Signal) (throw .outOfFuel) (throw .outOfFuel))
    (hcondition : link.Rel condition₁ condition₂) (hbody : link.Rel body₁ body₂) (fuel : Nat) :
    link.Rel (whilePasses condition₁ body₁ fuel) (whilePasses condition₂ body₂ fuel) := by
  induction fuel with
  | zero => exact hdry
  | succ fuel ih => exact Link.whilePasses_succ hcondition hbody ih

end loops

/-- With so much fuel each the conditional loops that are allowed are related if their parts are. -/
def Link.Fuels (link : Link W₁ W₂) (Allowed : Node → Prop) (fuel₁ fuel₂ : Nat) : Prop :=
  ∀ p condition body, Allowed (.statement (.whileLoop p condition body)) →
    ∀ (condition₁ : Run W₁ Value) (condition₂ : Run W₂ Value) (body₁ : Run W₁ Signal) (body₂ : Run W₂ Signal),
      link.Rel condition₁ condition₂ → link.Rel body₁ body₂ →
        link.Rel (whilePasses condition₁ body₁ fuel₁) (whilePasses condition₂ body₂ fuel₂)

namespace Link.Fuels

/-- Both runs may have the same fuel where running out of it is related to itself. -/
theorem same (hdry : link.Rel (α := Signal) (throw .outOfFuel) (throw .outOfFuel)) (fuel : Nat) :
    link.Fuels Allowed fuel fuel :=
  fun _ _ _ _ _ _ _ _ hcondition hbody => Link.whilePasses_same hdry hcondition hbody fuel

/-- The second run may have more fuel where running out of it is related to every part that anything is related to. -/
theorem more (hdry : link.Rel (α := Signal) (throw .outOfFuel) (throw .outOfFuel))
    (hany : ∀ (m₁ : Run W₁ Signal) (m₂ : Run W₂ Signal), link.Rel m₁ m₂ → link.Rel (throw .outOfFuel) m₂) {fuel₁ fuel₂ : Nat}
    (hle : fuel₁ ≤ fuel₂) : link.Fuels Allowed fuel₁ fuel₂ := by
  intro _ _ _ _ condition₁ condition₂ body₁ body₂ hcondition hbody
  induction fuel₁ generalizing fuel₂ with
  | zero => exact hany _ _ (Link.whilePasses_same hdry hcondition hbody fuel₂)
  | succ fuel₁ ih =>
    obtain ⟨fuel₂, rfl⟩ : ∃ n, fuel₂ = n + 1 := Nat.exists_eq_add_one.mpr (by omega)
    exact Link.whilePasses_succ hcondition hbody (ih (by omega))

/-- Without conditional loops fuel does not matter. -/
theorem unused (h : ∀ p condition body, ¬Allowed (.statement (.whileLoop p condition body))) (fuel₁ fuel₂ : Nat) :
    link.Fuels Allowed fuel₁ fuel₂ := fun p condition body hallowed => absurd hallowed (h p condition body)

end Link.Fuels

/-- So are those of a counting loop. -/
theorem Linked.forPasses (h : Linked link host₁ enter₁ host₂ enter₂ Allowed) {body₁ : Run W₁ Signal}
    {body₂ : Run W₂ Signal} {counter : String} (hcounter : Bound Allowed counter) (hbody : link.Rel body₁ body₂) :
    ∀ passes i, link.Rel (forPasses counter body₁ passes i) (forPasses counter body₂ passes i)
  | 0, _ => link.pure _
  | passes + 1, i => by
    unfold EventScript.forPasses
    refine link.bind (h.bind counter _ hcounter) fun _ => link.bind hbody fun signal => ?_
    cases signal with
    | breakLoop => exact link.pure _
    | returnScript => exact link.pure _
    | none => exact h.forPasses hcounter hbody passes (i + 1)
    | continueLoop => exact h.forPasses hcounter hbody passes (i + 1)

/-- So is an assignment, its value before its target. -/
theorem Linked.assign (h : Linked link host₁ enter₁ host₂ enter₂ Allowed) {p : Position} {target : Target} {value : Expression}
    (hassign : Allowed (.statement (.assign p target value))) (htarget : ∀ node ∈ target.nodes, Allowed node)
    (hvalue : ∀ node ∈ value.nodes, Allowed node) :
    link.Rel (host₁.assign enter₁ target value) (host₂.assign enter₂ target value) := by
  unfold Host.assign
  cases target with
  | name n => exact link.bind (h.evaluate value hvalue) fun v => h.bind n v ⟨_, hassign, rfl⟩
  | globalName n => exact link.bind (h.evaluate value hvalue) fun v => h.writeGlobal n v ⟨_, hassign, rfl⟩
  | globalAt key =>
    refine link.bind (h.evaluate key htarget) fun k => link.bind (link.keyOf k) fun name => ?_
    exact link.bind (h.evaluate value hvalue) fun v => h.writeGlobal name v ⟨_, hassign, trivial⟩

mutual

/-- So is a statement, by recursion on the statement. -/
theorem Linked.execute (h : Linked link host₁ enter₁ host₂ enter₂ Allowed) {fuel₁ fuel₂ : Nat}
    (hfuel : link.Fuels Allowed fuel₁ fuel₂) :
    ∀ s : Statement, (∀ node ∈ s.nodes, Allowed node) →
      link.Rel (host₁.execute enter₁ fuel₁ s) (host₂.execute enter₂ fuel₂ s)
  | .assign p target value, hs => by
    simp only [Statement.nodes, List.forall_mem_cons, List.forall_mem_append] at hs
    unfold Host.execute
    exact link.bind (h.enter _ hs.1) fun _ => link.bind (h.assign hs.1 hs.2.1 hs.2.2) fun _ => link.pure _
  | .ifElse p condition thenBody elseBody, hs => by
    simp only [Statement.nodes, List.forall_mem_cons, List.forall_mem_append] at hs
    unfold Host.execute
    refine link.bind (h.enter _ hs.1) fun _ => link.bind (h.evaluate condition hs.2.1.1) fun c => ?_
    split
    · exact h.executeAll hfuel thenBody hs.2.1.2
    · exact h.executeElse hfuel elseBody hs.2.2
  | .whileLoop p condition body, hs => by
    simp only [Statement.nodes, List.forall_mem_cons, List.forall_mem_append] at hs
    unfold Host.execute
    refine link.bind (h.enter _ hs.1) fun _ => ?_
    exact hfuel _ _ _ hs.1 _ _ _ _ (h.evaluate condition hs.2.1) (h.executeAll hfuel body hs.2.2)
  | .forLoop p counter start stop body, hs => by
    simp only [Statement.nodes, List.forall_mem_cons, List.forall_mem_append] at hs
    unfold Host.execute
    refine link.bind (h.enter _ hs.1) fun _ => link.bind (h.evaluate start hs.2.1.1) fun v => ?_
    refine link.bind (link.boundOf v) fun i => link.bind (h.evaluate stop hs.2.1.2) fun w => ?_
    exact link.bind (link.boundOf w) fun j => h.forPasses ⟨_, hs.1, rfl⟩ (h.executeAll hfuel body hs.2.2) _ _
  | .block p body, hs => by
    simp only [Statement.nodes, List.forall_mem_cons] at hs
    unfold Host.execute
    exact link.bind (h.enter _ hs.1) fun _ => h.executeAll hfuel body hs.2
  | .command p n args, hs => by
    simp only [Statement.nodes, List.forall_mem_cons] at hs
    unfold Host.execute
    refine link.bind (h.enter _ hs.1) fun _ => ?_
    have hcommand := link.bind (h.runCommand p n args hs.1 (h.evaluateAll args hs.2)) fun _ => link.pure Signal.none
    rw [bind_assoc, bind_assoc] at hcommand
    exact hcommand
  | .breakLoop p, hs => by
    simp only [Statement.nodes, List.forall_mem_cons] at hs
    unfold Host.execute
    exact link.bind (h.enter _ hs.1) fun _ => link.pure _
  | .continueLoop p, hs => by
    simp only [Statement.nodes, List.forall_mem_cons] at hs
    unfold Host.execute
    exact link.bind (h.enter _ hs.1) fun _ => link.pure _
  | .returnScript p, hs => by
    simp only [Statement.nodes, List.forall_mem_cons] at hs
    unfold Host.execute
    exact link.bind (h.enter _ hs.1) fun _ => link.pure _
  | .expression p value, hs => by
    simp only [Statement.nodes, List.forall_mem_cons] at hs
    unfold Host.execute
    exact link.bind (h.enter _ hs.1) fun _ => link.bind (h.evaluate value hs.2) fun _ => link.pure _

/-- So are statements in their order. -/
theorem Linked.executeAll (h : Linked link host₁ enter₁ host₂ enter₂ Allowed) {fuel₁ fuel₂ : Nat}
    (hfuel : link.Fuels Allowed fuel₁ fuel₂) :
    ∀ ss : List Statement, (∀ node ∈ Statement.nodesOfAll ss, Allowed node) →
      link.Rel (host₁.executeAll enter₁ fuel₁ ss) (host₂.executeAll enter₂ fuel₂ ss)
  | [], _ => by
    unfold Host.executeAll
    exact link.pure _
  | s :: rest, hs => by
    simp only [Statement.nodesOfAll, List.forall_mem_append] at hs
    unfold Host.executeAll
    refine link.bind (h.execute hfuel s hs.1) fun signal => ?_
    cases signal with
    | none => exact h.executeAll hfuel rest hs.2
    | _ => exact link.pure _

/-- So is the other branch, if there is one. -/
theorem Linked.executeElse (h : Linked link host₁ enter₁ host₂ enter₂ Allowed) {fuel₁ fuel₂ : Nat}
    (hfuel : link.Fuels Allowed fuel₁ fuel₂) :
    ∀ elseBody : Option (List Statement), (∀ node ∈ Statement.nodesOfElse elseBody, Allowed node) →
      link.Rel
        (match elseBody with | some body => host₁.executeAll enter₁ fuel₁ body | none => pure Signal.none)
        (match elseBody with | some body => host₂.executeAll enter₂ fuel₂ body | none => pure Signal.none)
  | none, _ => link.pure _
  | some body, hs => by
    simp only [Statement.nodesOfElse] at hs
    exact h.executeAll hfuel body hs

end

end

end EventScript
