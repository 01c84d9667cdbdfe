import EventScript.Proofs.Run.Basic
import EventScript.Proofs.Run.Linked

/-!
# Runs that leave a trace

A trace tells which nodes a run came to and which registered commands and placeholders it called, with their arguments.
`Host.traced` and `Host.enterTraced` write it down. Apart from the trace a run that leaves one is the run itself
(`traced_executeAll`), and the trace is only ever added to.
-/

namespace EventScript

/-- One line of a trace. -/
inductive Mark where
  /-- The run comes to a node and is about to enter it. -/
  | node (n : Node)
  /-- A registered command is called. -/
  | command (name : String) (args : List Value)
  /-- A registered placeholder is called. -/
  | placeholder (name : String) (args : List Value)

/-- The state of a host, with the trace of the run. -/
structure Traced (W : Type) where
  world : W
  trace : List Mark := []

variable {W α β : Type}

/-- The scope with a trace that nothing is on yet. -/
def Scope.traced (s : Scope W) : Scope (Traced W) := ⟨s.locals, { world := s.world }⟩

/-- The scope without its trace. -/
def Scope.untraced (s : Scope (Traced W)) : Scope W := ⟨s.locals, s.world.world⟩

/-- Another scope, with the same trace and some more marks. -/
def Scope.withMarks (s : Scope (Traced W)) (b : Scope W) (marks : List Mark) : Scope (Traced W) :=
  ⟨b.locals, ⟨b.world, s.world.trace ++ marks⟩⟩

/-- A scope with its own rest and no more marks is itself. -/
theorem Scope.withMarks_self (s : Scope (Traced W)) : s.withMarks s.untraced [] = s := by
  simp only [withMarks, untraced, List.append_nil]

/-- Marks that are added one after the other are added together, with the later scope. -/
theorem Scope.withMarks_withMarks (s : Scope (Traced W)) (b c : Scope W) (marks more : List Mark) :
    (s.withMarks b marks).withMarks c more = s.withMarks c (marks ++ more) := by
  simp only [withMarks, List.append_assoc]

/-- An act that leaves no mark. -/
def Act.unmarked (a : Act W α) : Act (Traced W) α := fun t =>
  let r := a t.world
  (r.1, { t with world := r.2 })

/-- Leaves one mark and does nothing else. -/
def Act.mark (mark : Mark) : Act (Traced W) Unit := modify fun t => { t with trace := t.trace ++ [mark] }

/-- An act that leaves one mark before anything else. -/
def Act.marked (mark : Mark) (a : Act W α) : Act (Traced W) α := do
  Act.mark mark
  a.unmarked

/-- A part of a run that leaves no mark. -/
def Run.unmarked (m : Run W α) : Run (Traced W) α := fun s =>
  let r := m s.untraced
  (r.1, s.withMarks r.2 [])

namespace Host

/-- The host with the calls of its commands and placeholders on a trace. -/
def traced (host : Host W) : Host (Traced W) where
  isCancelled t := host.isCancelled t.world
  overdue? := fun t =>
    let r := host.overdue? t.world
    (r.1, { t with world := r.2 })
  veto node := (host.veto node).unmarked
  offerCommand name args := (host.offerCommand name args).unmarked
  command? name t := (host.command? name t.world).map fun act args => (act args).marked (.command name args)
  offerPlaceholder name args := (host.offerPlaceholder name args).unmarked
  placeholder? name t := (host.placeholder? name t.world).map fun act args => (act args).marked (.placeholder name args)
  readGlobal? key t := host.readGlobal? key t.world
  writeGlobal key v := (host.writeGlobal key v).unmarked

/-- Enters a node that has been put on the trace. -/
def enterTraced (host : Host W) (node : Node) : Run (Traced W) Unit := do
  Run.ofAct (Act.mark (.node node))
  host.traced.enter node

end Host

/-! ## The run and its trace -/

/-- The second part does what the first one does, and leaves marks that go with the result. -/
def Marks (Q : Except Halt α → List Mark → Prop) (m : Run W α) (m' : Run (Traced W) α) : Prop :=
  ∀ s : Scope (Traced W), ∃ marks, m' s = ((m s.untraced).1, s.withMarks (m s.untraced).2 marks) ∧ Q (m s.untraced).1 marks

namespace Marks

variable {Q : Except Halt α → List Mark → Prop} {m : Run W α} {m' : Run (Traced W) α}

/-- A part that does nothing leaves no mark. -/
theorem pure {a : α} (h : Q (.ok a) []) : Marks Q (Pure.pure a : Run W α) (Pure.pure a) :=
  fun s => ⟨[], congrArg (Prod.mk (Except.ok a)) s.withMarks_self.symm, h⟩

/-- A part that is halted before anything else leaves no mark. -/
theorem stop {reason : Halt} (h : Q (.error reason) []) : Marks Q (throw reason : Run W α) (throw reason) :=
  fun s => ⟨[], congrArg (Prod.mk (Except.error reason)) s.withMarks_self.symm, h⟩

/-- A part that is not marked leaves no mark. -/
theorem unmarked (h : ∀ r, Q r []) (m : Run W α) : Marks Q m m.unmarked := fun _ => ⟨[], rfl, h _⟩

/-- What goes on with the state of the host goes on with it next to its trace. -/
theorem get {f : Scope W → Run W α} {f' : Scope (Traced W) → Run (Traced W) α} (h : ∀ s, Marks Q (f s.untraced) (f' s)) :
    Marks Q (MonadState.get >>= f) (MonadState.get >>= f') := fun s => h s s

/-- A part behind another one adds its marks to those of the first. -/
theorem bind {R : Except Halt β → List Mark → Prop} {f : α → Run W β} {f' : α → Run (Traced W) β} (hm : Marks Q m m')
    (herror : ∀ reason marks, Q (.error reason) marks → R (.error reason) marks)
    (hf : ∀ a marks, Q (.ok a) marks → Marks (fun r more => R r (marks ++ more)) (f a) (f' a)) :
    Marks R (m >>= f) (m' >>= f') := by
  intro s
  obtain ⟨marks, hm', hQ⟩ := hm s
  rcases Run.cases m s.untraced with ⟨a, b, h⟩ | ⟨reason, b, h⟩
  · rw [h] at hm' hQ
    obtain ⟨more, hf', hR⟩ := hf a marks hQ (s.withMarks b marks)
    refine ⟨marks ++ more, ?_, ?_⟩
    · rw [Run.bind_ok hm', Run.bind_ok h, hf', Scope.withMarks_withMarks]
      rfl
    · rw [Run.bind_ok h]
      exact hR
  · rw [h] at hm' hQ
    refine ⟨marks, ?_, ?_⟩
    · rw [Run.bind_error hm', Run.bind_error h]
    · rw [Run.bind_error h]
      exact herror reason marks hQ

/-- What is known of a result and of its marks may be weakened. -/
theorem mono {R : Except Halt α → List Mark → Prop} (h : Marks Q m m') (hR : ∀ r marks, Q r marks → R r marks) :
    Marks R m m' := by
  intro s
  obtain ⟨marks, hm', hQ⟩ := h s
  exact ⟨marks, hm', hR _ _ hQ⟩

end Marks

/-- Every mark has the property. -/
def Marks.All (P : Mark → Prop) (_ : Except Halt α) (marks : List Mark) : Prop := ∀ mark ∈ marks, P mark

/-- Parts of a run and the same parts with a trace on which every mark has the property. -/
def traceLink (W : Type) (P : Mark → Prop) : Link W (Traced W) where
  Rel m m' := Marks (Marks.All P) m m'
  pure _ := Marks.pure fun _ hmark => absurd hmark List.not_mem_nil
  stop _ _ := Marks.stop fun _ hmark => absurd hmark List.not_mem_nil
  bind hm hf := by
    refine hm.bind (fun _ _ h => h) fun a marks hmarks => (hf a).mono fun _ more hmore => ?_
    exact List.forall_mem_append.mpr ⟨hmarks, hmore⟩

section

variable {P : Mark → Prop}

/-- A part that is not marked is linked to itself, whatever holds of the marks. -/
theorem traceLink_unmarked (m : Run W α) : (traceLink W P).Rel m m.unmarked :=
  Marks.unmarked (fun _ _ hmark => absurd hmark List.not_mem_nil) m

/-- An act that leaves no mark, next to what it is without a trace. -/
theorem traceLink_act (a : Act W α) : (traceLink W P).Rel (Run.ofAct a) (Run.ofAct a.unmarked) := by
  intro s
  refine ⟨[], ?_, fun _ hmark => absurd hmark List.not_mem_nil⟩
  rw [Scope.withMarks, List.append_nil]
  rfl

/-- An act with a mark of the right kind is linked to the act. -/
theorem traceLink_marked {mark : Mark} (h : P mark) (a : Act W α) :
    (traceLink W P).Rel (Run.ofAct a) (Run.ofAct (a.marked mark)) :=
  fun _ => ⟨[mark], rfl, List.forall_mem_singleton.mpr h⟩

/-- A variable that is bound leaves no mark. -/
theorem traceLink_bind (n : String) (v : Value) : (traceLink W P).Rel (Host.bind n v) (Host.bind n v) := by
  intro s
  refine ⟨[], ?_, fun _ hmark => absurd hmark List.not_mem_nil⟩
  rw [Scope.withMarks, List.append_nil]
  rfl

/-- Entering a node leaves the mark of the node and no other. -/
theorem marks_enter (host : Host W) (node : Node) :
    Marks (fun _ marks => marks = [.node node]) (host.enter node) (host.enterTraced node) := by
  have hunmarked : (traceLink W fun _ => False).Rel (host.enter node) (host.traced.enter node) :=
    (traceLink W _).enter (Marks.get fun _ => (traceLink W _).pure _) (traceLink_act (liftM host.overdue?))
      (traceLink_act (host.veto node))
  intro s
  obtain ⟨marks, henter, hnone⟩ := hunmarked (s.withMarks s.untraced [.node node])
  obtain rfl := List.eq_nil_iff_forall_not_mem.mpr hnone
  refine ⟨[.node node], ?_, rfl⟩
  show host.traced.enter node (s.withMarks s.untraced [.node node]) = _
  rw [henter, Scope.withMarks_withMarks, List.append_nil]
  rfl

/-- A node that is entered leaves the mark of the node. -/
theorem traceLink_enter (host : Host W) {node : Node} (h : P (.node node)) :
    (traceLink W P).Rel (host.enter node) (host.enterTraced node) := by
  refine (marks_enter host node).mono ?_
  rintro _ _ rfl
  exact List.forall_mem_singleton.mpr h

/-- The parts of a host and the same parts with a trace, on which the marks of all calls have the property. -/
theorem traceHosts (host : Host W) (Allowed : Node → Prop) (hcommand : ∀ name args, P (.command name args))
    (hplaceholder : ∀ name args, P (.placeholder name args)) : (traceLink W P).Hosts host host.traced Allowed where
  askToken := Marks.get fun _ => (traceLink W P).pure _
  overdue := traceLink_act (liftM host.overdue?)
  veto node _ := traceLink_act (host.veto node)
  readName n _ := by
    rw [Host.readName_eq, Host.readName_eq]
    exact Marks.get fun _ => (traceLink W P).pure _
  readGlobal key _ := Marks.get fun _ => (traceLink W P).pure _
  offerPlaceholder n args := traceLink_act (host.offerPlaceholder n args)
  callPlaceholder n args := Marks.get fun s => by
    show (traceLink W P).Rel ((host.placeholder? n s.world.world).elim _ _)
      (((host.placeholder? n s.world.world).map _).elim _ _)
    cases host.placeholder? n s.world.world with
    | none => exact (traceLink W P).pure _
    | some act => exact traceLink_marked (hplaceholder n args) (act args)
  bind n v _ := traceLink_bind n v
  writeGlobal key v _ := traceLink_act (host.writeGlobal key v)
  offerCommand n args := traceLink_unmarked (host.offerCommand n args)
  callCommand n args := Marks.get fun s => by
    show (traceLink W P).Rel ((host.command? n s.world.world).elim _ _)
      (((host.command? n s.world.world).map _).elim _ _)
    cases host.command? n s.world.world with
    | none => exact (traceLink W P).stop _ nofun
    | some act => exact traceLink_marked (hcommand n args) (act args)

/-- The steps of a host and the same steps with a trace: the marks of the nodes that are allowed have the property, and so have
those of all calls. -/
theorem traceLinked (host : Host W) {Allowed : Node → Prop} (hnode : ∀ node, Allowed node → P (.node node))
    (hcommand : ∀ name args, P (.command name args)) (hplaceholder : ∀ name args, P (.placeholder name args)) :
    Linked (traceLink W P) host host.enter host.traced host.enterTraced Allowed :=
  (traceHosts host Allowed hcommand hplaceholder).linked fun node hallowed => traceLink_enter host (hnode node hallowed)

end

/-- The trace does not change the run, and it is only ever added to. -/
theorem traced_executeAll (host : Host W) (fuel : Nat) (ss : List Statement) (s : Scope (Traced W)) :
    ∃ marks, host.traced.executeAll host.enterTraced fuel ss s =
      ((host.executeAll host.enter fuel ss s.untraced).1,
        s.withMarks (host.executeAll host.enter fuel ss s.untraced).2 marks) := by
  have hlinked : Linked (traceLink W fun _ => True) host host.enter host.traced host.enterTraced fun _ => True :=
    traceLinked host (fun _ _ => trivial) (fun _ _ => trivial) fun _ _ => trivial
  have hdry : (traceLink W fun _ => True).Rel (α := Signal) (throw .outOfFuel) (throw .outOfFuel) :=
    Marks.stop fun _ hmark => absurd hmark List.not_mem_nil
  obtain ⟨marks, hrun, -⟩ := hlinked.executeAll (.same hdry fuel) ss (fun _ _ => trivial) s
  exact ⟨marks, hrun⟩

end EventScript
