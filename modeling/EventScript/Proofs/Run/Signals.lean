import EventScript.Proofs.Run.Traced
import EventScript.Proofs.Script.Loops

/-!
# Signals stay in their scope

A signal is made by one statement and taken up by another: `BREAK` and `CONTINUE` by the innermost loop around them, `RETURN` by
the script. `Host.executeTo` says so directly. There a statement has an exit for each signal and goes on at one of them, so a word
that leaves a loop is a jump, and nothing in between has to pass a signal on. Executing a statement and then going on by its signal
is the same thing (`execute_take`).

Outside all loops of an accepted script there is no word that leaves one. What is executed there comes to no such signal
(`StaysInside`), and a script as a whole leaves none over. Behind a `RETURN` nothing more is on the trace of a run (`EndsAtReturn`).
-/

namespace EventScript

variable {W α β : Type}

/-! ## Nothing leaves a loop from outside -/

/-- The part leaves no loop: if it comes to a signal, then to none or to the one that leaves the script. -/
def StaysInside (m : Run W Signal) : Prop :=
  ∀ s s' signal, m s = (.ok signal, s') → signal = .none ∨ signal = .returnScript

namespace StaysInside

/-- A result that leaves no loop stays inside. -/
theorem pure {signal : Signal} (h : signal = .none ∨ signal = .returnScript) :
    StaysInside (Pure.pure signal : Run W Signal) := by
  intro s s' signal' hrun
  cases hrun
  exact h

/-- So does a stop, which is no signal. -/
theorem stop (reason : Halt) : StaysInside (throw reason : Run W Signal) := fun _ _ _ hrun => by cases hrun

/-- What comes of two parts stays inside if the second one does. -/
theorem bind {m : Run W α} {f : α → Run W Signal} (hf : ∀ a, StaysInside (f a)) : StaysInside (m >>= f) := by
  intro s s' signal hrun
  obtain ⟨a, t, -, hrest⟩ := Run.ok_of_bind hrun
  exact hf a t s' signal hrest

/-- What goes on by a signal need be looked at only for signals that leave no loop. -/
theorem andThen {m : Run W Signal} {f : Signal → Run W Signal} (hm : StaysInside m)
    (hf : ∀ signal, signal = .none ∨ signal = .returnScript → StaysInside (f signal)) : StaysInside (m >>= f) := by
  intro s s' signal hrun
  obtain ⟨a, t, hfirst, hrest⟩ := Run.ok_of_bind hrun
  exact hf a (hm s t a hfirst) t s' signal hrest

/-- A conditional loop takes up what its body makes. -/
theorem whilePasses (condition : Run W Value) (body : Run W Signal) (fuel : Nat) :
    StaysInside (whilePasses condition body fuel) := by
  induction fuel with
  | zero => exact stop _
  | succ fuel ih =>
    unfold EventScript.whilePasses
    refine bind fun c => ?_
    split
    · refine bind fun signal => ?_
      cases signal with
      | none | continueLoop => exact ih
      | breakLoop => exact pure (.inl rfl)
      | returnScript => exact pure (.inr rfl)
    · exact pure (.inl rfl)

/-- A counting loop takes up what its body makes. -/
theorem forPasses (counter : String) (body : Run W Signal) (passes : Nat) (i : Int) :
    StaysInside (forPasses counter body passes i) := by
  induction passes generalizing i with
  | zero => exact pure (.inl rfl)
  | succ passes ih =>
    unfold EventScript.forPasses
    refine bind fun _ => bind fun signal => ?_
    cases signal with
    | none | continueLoop => exact ih (i + 1)
    | breakLoop => exact pure (.inl rfl)
    | returnScript => exact pure (.inr rfl)

variable (host : Host W) (enter : Node → Run W Unit) (fuel : Nat)

mutual

/-- A statement stays inside if nothing in it outside its own loops leaves a loop. -/
theorem execute (s : Statement) (h : Statement.Confined s.outsideLoops) : StaysInside (host.execute enter fuel s) := by
  cases s with
  | assign p target value =>
    unfold Host.execute
    exact bind fun _ => bind fun _ => pure (.inl rfl)
  | ifElse p condition thenBody elseBody =>
    rw [Statement.outsideLoops, Statement.confined_cons, Statement.confined_append] at h
    unfold Host.execute
    refine bind fun _ => bind fun c => ?_
    split
    · exact executeAll thenBody h.2.1
    · cases elseBody with
      | none => exact pure (.inl rfl)
      | some body => exact executeAll body h.2.2
  | whileLoop p condition body =>
    unfold Host.execute
    exact bind fun _ => whilePasses _ _ _
  | forLoop p counter start stop body =>
    unfold Host.execute
    exact bind fun _ => bind fun _ => bind fun _ => bind fun _ => bind fun _ => forPasses _ _ _ _
  | block p body =>
    rw [Statement.outsideLoops, Statement.confined_cons] at h
    unfold Host.execute
    exact bind fun _ => executeAll body h.2
  | command p n args =>
    unfold Host.execute
    exact bind fun _ => bind fun _ => bind fun _ => pure (.inl rfl)
  | breakLoop | continueLoop => exact absurd trivial (h _ (List.mem_singleton_self _))
  | returnScript p =>
    unfold Host.execute
    exact bind fun _ => pure (.inr rfl)
  | expression p value =>
    unfold Host.execute
    exact bind fun _ => bind fun _ => pure (.inl rfl)

/-- So do statements that are confined to their loops. -/
theorem executeAll (ss : List Statement) (h : Statement.Confined (Statement.outsideLoopsOfAll ss)) :
    StaysInside (host.executeAll enter fuel ss) := by
  cases ss with
  | nil =>
    unfold Host.executeAll
    exact pure (.inl rfl)
  | cons s rest =>
    rw [Statement.outsideLoopsOfAll, Statement.confined_append] at h
    unfold Host.executeAll
    refine andThen (execute s h.1) fun signal hsignal => ?_
    rcases hsignal with rfl | rfl
    · exact executeAll rest h.2
    · exact pure (.inr rfl)

end

end StaysInside

/-! ## Exits -/

/-- Where a statement goes on: behind it, or at the place that a signal leads to. -/
structure Exits (W α : Type) where
  next : Run W α
  continueLoop : Run W α
  breakLoop : Run W α
  returnScript : Run W α

/-- Goes on by a signal. -/
def Exits.take (exits : Exits W α) : Signal → Run W α
  | .none => exits.next
  | .continueLoop => exits.continueLoop
  | .breakLoop => exits.breakLoop
  | .returnScript => exits.returnScript

/-- The passes of a conditional loop, at most `fuel` of them. The end of the body and `CONTINUE` lead to the next pass, `BREAK` leads
behind the loop. -/
def whilePassesTo (condition : Run W Value) (body : Exits W α → Run W α) (exits : Exits W α) : Nat → Run W α
  | 0 => throw .outOfFuel
  | fuel + 1 => do
    let c ← condition
    if c.isTruthy then
      body { exits with
        next := whilePassesTo condition body exits fuel
        continueLoop := whilePassesTo condition body exits fuel
        breakLoop := exits.next }
    else exits.next

/-- The passes of a counting loop, the first one with the counter at `i`. -/
def forPassesTo (counter : String) (body : Exits W α → Run W α) (exits : Exits W α) : Nat → Int → Run W α
  | 0, _ => exits.next
  | passes + 1, i => do
    Host.bind counter (.int (Int64.ofInt i))
    body { exits with
      next := forPassesTo counter body exits passes (i + 1)
      continueLoop := forPassesTo counter body exits passes (i + 1)
      breakLoop := exits.next }

namespace Host

variable (host : Host W) (enter : Node → Run W Unit)

mutual

/-- Executes one statement and goes on at one of the exits. -/
def executeTo (fuel : Nat) : Statement → Exits W α → Run W α
  | .assign p target value, exits => do
    enter (.statement (.assign p target value))
    host.assign enter target value
    exits.next
  | .ifElse p condition thenBody elseBody, exits => do
    enter (.statement (.ifElse p condition thenBody elseBody))
    let c ← host.evaluate enter condition
    if c.isTruthy then executeAllTo fuel thenBody exits
    else
      match elseBody with
      | some body => executeAllTo fuel body exits
      | none => exits.next
  | .whileLoop p condition body, exits => do
    enter (.statement (.whileLoop p condition body))
    whilePassesTo (host.evaluate enter condition) (executeAllTo fuel body) exits fuel
  | .forLoop p counter start stop body, exits => do
    enter (.statement (.forLoop p counter start stop body))
    let i ← boundOf (← host.evaluate enter start)
    let j ← boundOf (← host.evaluate enter stop)
    forPassesTo counter (executeAllTo fuel body) exits (j.toInt - i.toInt).toNat i.toInt
  | .block p body, exits => do
    enter (.statement (.block p body))
    executeAllTo fuel body exits
  | .command p name args, exits => do
    enter (.statement (.command p name args))
    let values ← host.evaluateAll enter args
    host.runCommand name values
    exits.next
  | .breakLoop p, exits => do
    enter (.statement (.breakLoop p))
    exits.breakLoop
  | .continueLoop p, exits => do
    enter (.statement (.continueLoop p))
    exits.continueLoop
  | .returnScript p, exits => do
    enter (.statement (.returnScript p))
    exits.returnScript
  | .expression p value, exits => do
    enter (.statement (.expression p value))
    let _ ← host.evaluate enter value
    exits.next

/-- Executes statements one behind the other and goes on at one of the exits. -/
def executeAllTo (fuel : Nat) : List Statement → Exits W α → Run W α
  | [], exits => exits.next
  | s :: rest, exits => executeTo fuel s { exits with next := executeAllTo fuel rest exits }

end

end Host

section exits

variable {condition : Run W Value} {body : Run W Signal} {bodyTo : Exits W α → Run W α}

/-- To take the exits behind a conditional loop is to take them from its passes. -/
theorem whilePasses_take (hbody : ∀ exits : Exits W α, body >>= exits.take = bodyTo exits) (exits : Exits W α) (fuel : Nat) :
    whilePasses condition body fuel >>= exits.take = whilePassesTo condition bodyTo exits fuel := by
  induction fuel with
  | zero => rfl
  | succ fuel ih =>
    unfold whilePasses whilePassesTo
    rw [bind_assoc]
    refine bind_congr fun c => ?_
    split
    · rw [← hbody, bind_assoc]
      refine bind_congr fun signal => ?_
      cases signal with
      | none | continueLoop => exact ih
      | breakLoop | returnScript => exact pure_bind _ _
    · exact pure_bind _ _

/-- So it is with a counting loop. -/
theorem forPasses_take (hbody : ∀ exits : Exits W α, body >>= exits.take = bodyTo exits) (exits : Exits W α) (counter : String)
    (passes : Nat) (i : Int) :
    forPasses counter body passes i >>= exits.take = forPassesTo counter bodyTo exits passes i := by
  induction passes generalizing i with
  | zero => exact pure_bind _ _
  | succ passes ih =>
    unfold forPasses forPassesTo
    rw [bind_assoc]
    refine bind_congr fun _ => ?_
    rw [← hbody, bind_assoc]
    refine bind_congr fun signal => ?_
    cases signal with
    | none | continueLoop => exact ih (i + 1)
    | breakLoop | returnScript => exact pure_bind _ _

variable (host : Host W) (enter : Node → Run W Unit) (fuel : Nat)

mutual

/-- To execute a statement and go on by its signal is to go on at one of its exits. -/
theorem execute_take (s : Statement) (exits : Exits W α) :
    host.execute enter fuel s >>= exits.take = host.executeTo enter fuel s exits := by
  cases s with
  | ifElse p condition thenBody elseBody =>
    unfold Host.execute Host.executeTo
    simp only [bind_assoc]
    refine bind_congr fun _ => bind_congr fun c => ?_
    split
    · exact executeAll_take thenBody exits
    · cases elseBody with
      | none => exact pure_bind _ _
      | some body => exact executeAll_take body exits
  | whileLoop p condition body =>
    unfold Host.execute Host.executeTo
    simp only [bind_assoc]
    exact bind_congr fun _ => whilePasses_take (executeAll_take body) exits fuel
  | forLoop p counter start stop body =>
    unfold Host.execute Host.executeTo
    simp only [bind_assoc]
    refine bind_congr fun _ => bind_congr fun v => bind_congr fun i => bind_congr fun w => bind_congr fun j => ?_
    exact forPasses_take (executeAll_take body) exits counter _ _
  | block p body =>
    unfold Host.execute Host.executeTo
    simp only [bind_assoc]
    exact bind_congr fun _ => executeAll_take body exits
  | _ =>
    unfold Host.execute Host.executeTo
    simp only [bind_assoc, pure_bind]
    rfl

/-- And so it is with statements in their order. -/
theorem executeAll_take (ss : List Statement) (exits : Exits W α) :
    host.executeAll enter fuel ss >>= exits.take = host.executeAllTo enter fuel ss exits := by
  cases ss with
  | nil =>
    unfold Host.executeAll Host.executeAllTo
    exact pure_bind _ _
  | cons s rest =>
    unfold Host.executeAll Host.executeAllTo
    rw [← execute_take s, bind_assoc]
    refine bind_congr fun signal => ?_
    cases signal with
    | none => exact executeAll_take rest exits
    | _ => exact pure_bind _ _

end

end exits

/-! ## Nothing behind a return -/

/-- The run comes to the word that leaves the script. -/
def Mark.IsReturn : Mark → Prop
  | .node (.statement (.returnScript _)) => True
  | _ => False

/-- Among the marks only the last one may be that of the word that leaves the script, and if it is, no other signal comes of it. -/
def EndsAtReturn (r : Except Halt Signal) (marks : List Mark) : Prop :=
  ∀ before mark after, marks = before ++ mark :: after → mark.IsReturn →
    after = [] ∧ ∀ signal, r = .ok signal → signal = .returnScript

/-- The part comes to no return. -/
abbrev Unreturning (m : Run W α) (m' : Run (Traced W) α) : Prop := Marks (Marks.All fun mark => ¬mark.IsReturn) m m'

/-- If the part comes to a return, that is where it ends. -/
abbrev Returning (m : Run W Signal) (m' : Run (Traced W) Signal) : Prop := Marks EndsAtReturn m m'

namespace EndsAtReturn

variable {r : Except Halt Signal} {marks more : List Mark}

/-- Where no mark is that of a return, nothing ends there. -/
theorem of_all (h : ∀ mark ∈ marks, ¬mark.IsReturn) : EndsAtReturn r marks := by
  rintro before mark after rfl hreturn
  exact absurd hreturn (h mark (by simp))

/-- A single mark is the last one. -/
theorem single (mark : Mark) (h : ∀ signal, r = .ok signal → signal = .returnScript) : EndsAtReturn r [mark] := by
  intro before other after hsplit _
  cases before with
  | nil => exact ⟨(List.cons.inj hsplit).2.symm, h⟩
  | cons first rest => simp at hsplit

/-- What came to another signal came to no return. -/
theorem all {signal : Signal} (h : EndsAtReturn (.ok signal) marks) (hsignal : signal ≠ .returnScript) :
    ∀ mark ∈ marks, ¬mark.IsReturn := by
  intro mark hmark hreturn
  obtain ⟨before, after, rfl⟩ := List.append_of_mem hmark
  exact hsignal ((h before mark after rfl hreturn).2 signal rfl)

/-- Marks none of which is that of a return may stand in front. -/
theorem append (hmarks : ∀ mark ∈ marks, ¬mark.IsReturn) (h : EndsAtReturn r more) : EndsAtReturn r (marks ++ more) := by
  intro before mark after hsplit hreturn
  rcases List.append_eq_append_iff.mp hsplit with ⟨front, -, hmore⟩ | ⟨rest, hfront, hrest⟩
  · exact h front mark after hmore hreturn
  · cases rest with
    | nil => exact h [] mark after hrest.symm hreturn
    | cons first rest =>
      obtain ⟨rfl, -⟩ := List.cons.inj hrest
      rw [hfront] at hmarks
      exact absurd hreturn (hmarks mark (by simp))

end EndsAtReturn

section returns

variable {m : Run W Signal} {m' : Run (Traced W) Signal}

/-- A result alone comes to no return. -/
theorem Returning.pure {signal : Signal} : Returning (Pure.pure signal : Run W Signal) (Pure.pure signal) :=
  Marks.pure (.of_all nofun)

/-- A part that comes to no return may stand in front. -/
theorem Unreturning.bind {n : Run W α} {n' : Run (Traced W) α} {f : α → Run W Signal} {f' : α → Run (Traced W) Signal}
    (hn : Unreturning n n') (hf : ∀ a, Returning (f a) (f' a)) : Returning (n >>= f) (n' >>= f') :=
  Marks.bind hn (fun _ _ h => .of_all h) fun a _ hmarks => (hf a).mono fun _ _ hmore => .append hmarks hmore

/-- What goes on by a signal passes on the one that leaves the script. -/
theorem Returning.bind {f : Signal → Run W Signal} {f' : Signal → Run (Traced W) Signal} (hm : Returning m m')
    (hreturn : f .returnScript = Pure.pure .returnScript ∧ f' .returnScript = Pure.pure .returnScript)
    (hf : ∀ signal, signal ≠ .returnScript → Returning (f signal) (f' signal)) : Returning (m >>= f) (m' >>= f') := by
  refine Marks.bind hm (fun reason marks h before mark after hsplit hmark => ?_) fun signal marks h => ?_
  · exact ⟨(h before mark after hsplit hmark).1, fun _ hr => by cases hr⟩
  · by_cases hsignal : signal = .returnScript
    · subst hsignal
      rw [hreturn.1, hreturn.2]
      refine Marks.pure ?_
      rw [List.append_nil]
      exact h
    · exact (hf signal hsignal).mono fun _ _ hmore => .append (h.all hsignal) hmore

/-- A conditional loop ends at the return of its body. -/
theorem Returning.whilePasses {condition : Run W Value} {condition' : Run (Traced W) Value}
    (hcondition : Unreturning condition condition') (hbody : Returning m m') (fuel : Nat) :
    Returning (whilePasses condition m fuel) (whilePasses condition' m' fuel) := by
  induction fuel with
  | zero => exact Marks.stop (.of_all nofun)
  | succ fuel ih =>
    unfold EventScript.whilePasses
    refine Unreturning.bind hcondition fun c => ?_
    split
    · refine hbody.bind ⟨rfl, rfl⟩ fun signal hsignal => ?_
      cases signal with
      | none | continueLoop => exact ih
      | breakLoop => exact .pure
      | returnScript => exact absurd rfl hsignal
    · exact .pure

variable (host : Host W)

/-- The steps of a host next to the same steps with a trace, on nodes that are not the word that leaves the script. -/
theorem unreturningLinked :
    Linked (traceLink W fun mark => ¬mark.IsReturn) host host.enter host.traced host.enterTraced
      fun node => ¬(Mark.node node).IsReturn :=
  traceLinked host (fun _ h => h) (fun _ _ => id) fun _ _ => id

/-- No expression comes to a return. -/
theorem unreturning_evaluate (e : Expression) :
    Unreturning (host.evaluate host.enter e) (host.traced.evaluate host.enterTraced e) := by
  refine (unreturningLinked host).evaluate e fun node hnode => ?_
  obtain ⟨part, rfl⟩ := e.nodes_expression node hnode
  exact id

/-- A counting loop ends at the return of its body. -/
theorem Returning.forPasses (hbody : Returning m m') (counter : String) (passes : Nat) (i : Int) :
    Returning (forPasses counter m passes i) (forPasses counter m' passes i) := by
  induction passes generalizing i with
  | zero => exact .pure
  | succ passes ih =>
    unfold EventScript.forPasses
    refine Unreturning.bind (traceLink_bind counter _) fun _ => hbody.bind ⟨rfl, rfl⟩ fun signal hsignal => ?_
    cases signal with
    | none | continueLoop => exact ih (i + 1)
    | breakLoop => exact .pure
    | returnScript => exact absurd rfl hsignal

variable (fuel : Nat)

/-- Expressions are not the word that leaves the script. -/
theorem isReturn_false {node : Node} (h : ∃ part, node = .expression part) : ¬(Mark.node node).IsReturn := by
  obtain ⟨part, rfl⟩ := h
  exact id

/-- A statement none of whose nodes is a return. -/
theorem Returning.of_nodes (s : Statement) (h : ∀ node ∈ s.nodes, ¬(Mark.node node).IsReturn) :
    Returning (host.execute host.enter fuel s) (host.traced.execute host.enterTraced fuel s) := by
  have hdry : (traceLink W fun mark => ¬mark.IsReturn).Rel (α := Signal) (throw .outOfFuel) (throw .outOfFuel) :=
    Marks.stop nofun
  exact ((unreturningLinked host).execute (.same hdry fuel) s h).mono fun _ _ => .of_all

mutual

/-- Every statement ends at its return, by recursion on the statement. -/
theorem returning_execute (s : Statement) :
    Returning (host.execute host.enter fuel s) (host.traced.execute host.enterTraced fuel s) := by
  cases s with
  | assign p target value =>
    refine .of_nodes host fuel _ ?_
    rw [Statement.nodes, List.forall_mem_cons, List.forall_mem_append]
    exact ⟨id, fun _ h => isReturn_false (target.nodes_expression _ h), fun _ h => isReturn_false (value.nodes_expression _ h)⟩
  | ifElse p condition thenBody elseBody =>
    unfold Host.execute
    refine Unreturning.bind (traceLink_enter host id) fun _ => ?_
    refine Unreturning.bind (unreturning_evaluate host condition) fun c => ?_
    split
    · exact returning_executeAll thenBody
    · cases elseBody with
      | none => exact .pure
      | some body => exact returning_executeAll body
  | whileLoop p condition body =>
    unfold Host.execute
    refine Unreturning.bind (traceLink_enter host id) fun _ => ?_
    exact .whilePasses (unreturning_evaluate host condition) (returning_executeAll body) fuel
  | forLoop p counter start stop body =>
    unfold Host.execute
    refine Unreturning.bind (traceLink_enter host id) fun _ => ?_
    refine Unreturning.bind (unreturning_evaluate host start) fun v => ?_
    refine Unreturning.bind ((traceLink W _).boundOf v) fun i => ?_
    refine Unreturning.bind (unreturning_evaluate host stop) fun w => ?_
    exact Unreturning.bind ((traceLink W _).boundOf w) fun j => .forPasses (returning_executeAll body) counter _ _
  | block p body =>
    unfold Host.execute
    exact Unreturning.bind (traceLink_enter host id) fun _ => returning_executeAll body
  | command p n args =>
    refine .of_nodes host fuel _ ?_
    rw [Statement.nodes, List.forall_mem_cons]
    exact ⟨id, fun _ h => isReturn_false (Expression.nodesOfAll_expression args _ h)⟩
  | breakLoop p => exact .of_nodes host fuel _ (List.forall_mem_singleton.mpr id)
  | continueLoop p => exact .of_nodes host fuel _ (List.forall_mem_singleton.mpr id)
  | returnScript p =>
    unfold Host.execute
    -- The one mark of the node is that of a return, and no mark is behind it.
    refine Marks.bind (marks_enter host _) ?_ ?_
    · rintro reason _ rfl
      exact .single _ fun _ hr => by cases hr
    · rintro _ _ rfl
      refine Marks.pure (.single _ fun signal hr => ?_)
      exact (Except.ok.inj hr).symm
  | expression p value =>
    refine .of_nodes host fuel _ ?_
    rw [Statement.nodes, List.forall_mem_cons]
    exact ⟨id, fun _ h => isReturn_false (value.nodes_expression _ h)⟩

/-- So do statements in their order: none is behind one that returned. -/
theorem returning_executeAll (ss : List Statement) :
    Returning (host.executeAll host.enter fuel ss) (host.traced.executeAll host.enterTraced fuel ss) := by
  cases ss with
  | nil =>
    unfold Host.executeAll
    exact .pure
  | cons s rest =>
    unfold Host.executeAll
    refine (returning_execute s).bind ⟨rfl, rfl⟩ fun signal hsignal => ?_
    cases signal with
    | none => exact returning_executeAll rest
    | _ => exact .pure

end

end returns

/-! ## Accepted scripts -/

/-- Signals stay in their scope. In an accepted text no statement outside all loops comes to a signal that leaves a loop, so the script
leaves none over for its run to drop. Everywhere in it `BREAK` goes on behind the innermost loop around it, `CONTINUE` with the next
pass of that loop, and `RETURN` behind the script. The trace of a run, which does not change the run, has nothing behind the mark of a
`RETURN`, and the run then comes to no other signal than that one. -/
theorem signals_scoped {text : String} {script : Script} (h : Script.parse text = .ok script) (host : Host W) (fuel : Nat) :
    (∀ t ∈ script.outsideLoops, ∀ s s' signal,
      host.execute host.enter fuel t s = (.ok signal, s') → signal = .none ∨ signal = .returnScript) ∧
    (∀ s s' signal,
      host.executeAll host.enter fuel script.statements s = (.ok signal, s') → signal = .none ∨ signal = .returnScript) ∧
    (∀ {α : Type} (exits : Exits W α), host.executeAll host.enter fuel script.statements >>= exits.take =
      host.executeAllTo host.enter fuel script.statements exits) ∧
    ∀ s : Scope W,
      let traced := host.traced.executeAll host.enterTraced fuel script.statements s.traced
      (traced.1, traced.2.untraced) = host.executeAll host.enter fuel script.statements s ∧
        ∀ before p after, traced.2.world.trace = before ++ .node (.statement (.returnScript p)) :: after →
          after = [] ∧ ∀ signal, traced.1 = .ok signal → signal = .returnScript := by
  have hconfined := parse_outsideLoops h
  refine ⟨fun t ht => ?_, ?_, fun exits => ?_, ?_⟩
  · have hsub := Statement.outsideLoopsOfAll_subset script.statements t ht
    exact StaysInside.execute host host.enter fuel t fun u hu => hconfined u (hsub hu)
  · exact StaysInside.executeAll host host.enter fuel script.statements hconfined
  · exact executeAll_take host host.enter fuel script.statements exits
  · intro s traced
    obtain ⟨marks, hrun, hends⟩ := returning_executeAll host fuel script.statements s.traced
    have htraced : traced = _ := hrun
    refine ⟨by rw [htraced]; rfl, fun before p after hsplit => ?_⟩
    rw [htraced] at hsplit ⊢
    exact hends before (.node (.statement (.returnScript p))) after hsplit trivial

/-- A script that a return leaves from inside a loop, with a pass of the loop that is left before. -/
theorem signals_scoped_loop :
    let text := "FOR i = 0 : 9 \x7b IF i > 0 \x7b \x7b RETURN \x7d \x7d CONTINUE \x7d #SAY(i)"
    let host : Host Unit :=
      { isCancelled := fun _ => false, overdue? := pure none, veto := fun _ => pure false,
        offerCommand := fun _ _ => pure false, command? := fun _ _ => none, offerPlaceholder := fun _ _ => pure none,
        placeholder? := fun _ _ => none, readGlobal? := fun _ _ => none, writeGlobal := fun _ _ => pure () }
    let s : Scope Unit := ⟨∅, ()⟩
    ∃ script, Script.parse text = .ok script ∧ script.outsideLoops.length = 2 ∧
      (host.executeAll host.enter 0 script.statements s).1.toOption = some .returnScript ∧
      ∀ before p after,
        (host.traced.executeAll host.enterTraced 0 script.statements s.traced).2.world.trace =
          before ++ .node (.statement (.returnScript p)) :: after → after = [] := by
  intro text host s
  have haccepted : (Script.parse text).toOption.any fun script =>
      script.outsideLoops.length = 2 ∧ (host.executeAll host.enter 0 script.statements s).1.toOption = some .returnScript := by
    decide +kernel
  obtain ⟨script, hscript, htest⟩ := Script.exists_of_any haccepted
  obtain ⟨-, -, -, htraced⟩ := signals_scoped hscript host 0
  obtain ⟨hlength, hreturn⟩ := of_decide_eq_true htest
  exact ⟨script, hscript, hlength, hreturn, fun before p after hsplit => ((htraced s).2 before p after hsplit).1⟩

end EventScript
