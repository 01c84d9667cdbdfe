import EventScript.Proofs.Parse.Derivation

/-!
# Statements outside loops

`BREAK` and `CONTINUE` leave a loop or a pass of it, and the parser admits them inside the bodies of loops only. In the tree of an
accepted text none of them is among the statements outside all loops: `parse_outsideLoops`.
-/

namespace EventScript

mutual

/-- The statement and those inside it that are in no body of a loop inside it. -/
def Statement.outsideLoops : Statement → List Statement
  | .ifElse p condition thenBody elseBody =>
    .ifElse p condition thenBody elseBody ::
      (Statement.outsideLoopsOfAll thenBody ++ Statement.outsideLoopsOfElse elseBody)
  | .block p body => .block p body :: Statement.outsideLoopsOfAll body
  | s => [s]

def Statement.outsideLoopsOfAll : List Statement → List Statement
  | [] => []
  | s :: rest => s.outsideLoops ++ Statement.outsideLoopsOfAll rest

def Statement.outsideLoopsOfElse : Option (List Statement) → List Statement
  | none => []
  | some body => Statement.outsideLoopsOfAll body

end

/-- The statements of a script that are in no body of a loop. -/
def Script.outsideLoops (s : Script) : List Statement := Statement.outsideLoopsOfAll s.statements

/-- The statement is the word that leaves a loop, or the one that leaves a pass of it. -/
def Statement.LeavesLoop : Statement → Prop
  | .breakLoop _ => True
  | .continueLoop _ => True
  | _ => False

/-- No statement outside the loops of these leaves a loop. -/
def Statement.Confined (body : List Statement) : Prop := ∀ s ∈ body, ¬s.LeavesLoop

namespace Statement

theorem confined_append {body rest : List Statement} : Confined (body ++ rest) ↔ Confined body ∧ Confined rest :=
  List.forall_mem_append

theorem confined_cons {s : Statement} {rest : List Statement} : Confined (s :: rest) ↔ ¬s.LeavesLoop ∧ Confined rest :=
  List.forall_mem_cons

mutual

/-- What is outside the loops of a part is outside the loops of the whole. -/
theorem outsideLoops_subset (s : Statement) : ∀ t ∈ s.outsideLoops, t.outsideLoops ⊆ s.outsideLoops := by
  intro t ht
  cases s with
  | ifElse p condition thenBody elseBody =>
    rw [outsideLoops, List.mem_cons, List.mem_append] at ht
    rcases ht with rfl | ht | ht
    · exact List.Subset.refl _
    · have hsub := outsideLoopsOfAll_subset thenBody t ht
      rw [outsideLoops]
      exact List.subset_cons_of_subset _ (List.subset_append_of_subset_left _ hsub)
    · have hsub := outsideLoopsOfElse_subset elseBody t ht
      rw [outsideLoops]
      exact List.subset_cons_of_subset _ (List.subset_append_of_subset_right _ hsub)
  | block p body =>
    rw [outsideLoops, List.mem_cons] at ht
    rcases ht with rfl | ht
    · exact List.Subset.refl _
    · have hsub := outsideLoopsOfAll_subset body t ht
      rw [outsideLoops]
      exact List.subset_cons_of_subset _ hsub
  | _ =>
    obtain rfl := List.mem_singleton.mp ht
    exact List.Subset.refl _

theorem outsideLoopsOfAll_subset (body : List Statement) :
    ∀ t ∈ outsideLoopsOfAll body, t.outsideLoops ⊆ outsideLoopsOfAll body := by
  intro t ht
  cases body with
  | nil => cases ht
  | cons s rest =>
    rw [outsideLoopsOfAll, List.mem_append] at ht
    rw [outsideLoopsOfAll]
    rcases ht with ht | ht
    · exact List.subset_append_of_subset_left _ (outsideLoops_subset s t ht)
    · exact List.subset_append_of_subset_right _ (outsideLoopsOfAll_subset rest t ht)

theorem outsideLoopsOfElse_subset (elseBody : Option (List Statement)) :
    ∀ t ∈ outsideLoopsOfElse elseBody, t.outsideLoops ⊆ outsideLoopsOfElse elseBody := by
  intro t ht
  cases elseBody with
  | none => cases ht
  | some body => exact outsideLoopsOfAll_subset body t ht

end

end Statement

/-- Phrases outside all loops have no statement outside their own loops that leaves a loop. -/
def Phrase.Confined : Phrase → Prop
  | .statement inLoop s => inLoop = false → Statement.Confined s.outsideLoops
  | .statements inLoop body => inLoop = false → Statement.Confined (Statement.outsideLoopsOfAll body)
  | _ => True

/-- In the grammar a word that leaves a loop is a statement inside loops only. -/
theorem Derives.confined {d : Dialect} {x : Phrase} {ts : List Token} (h : Derives d x ts) : x.Confined := by
  induction h with
  | breakLoop p => exact fun hout => absurd hout (by decide)
  | continueLoop p => exact fun hout => absurd hout (by decide)
  | ifThen p _ _ _ ihthen =>
    intro hout
    simp only [Statement.outsideLoops, Statement.outsideLoopsOfElse, List.append_nil, Statement.confined_cons]
    exact ⟨id, ihthen hout⟩
  | ifElse p _ _ _ _ ihthen ihelse =>
    intro hout
    simp only [Statement.outsideLoops, Statement.outsideLoopsOfElse, Statement.confined_cons, Statement.confined_append]
    exact ⟨id, ihthen hout, ihelse hout⟩
  | elseIf p q _ _ _ _ ihthen ihelse =>
    intro hout
    rw [Statement.outsideLoops, Statement.outsideLoopsOfElse, Statement.outsideLoopsOfAll, Statement.outsideLoopsOfAll,
      List.append_nil, Statement.confined_cons, Statement.confined_append]
    exact ⟨id, ihthen hout, ihelse hout⟩
  | block p _ ihbody =>
    intro hout
    rw [Statement.outsideLoops, Statement.confined_cons]
    exact ⟨id, ihbody hout⟩
  | noStatements inLoop => exact fun _ s hs => absurd hs List.not_mem_nil
  | semicolon _ ih => exact ih
  | statement _ _ ihs ihrest =>
    intro hout
    rw [Statement.outsideLoopsOfAll, Statement.confined_append]
    exact ⟨ihs hout, ihrest hout⟩
  | assign | whileLoop | forLoop | bareCommand | command | returnScript | expression =>
    intro _ s hs
    obtain rfl := List.mem_singleton.mp hs
    exact id
  | _ => trivial

/-- Outside the loops of an accepted text there is no `BREAK` and no `CONTINUE`. -/
theorem parse_outsideLoops {text : String} {script : Script} (h : Script.parse text = .ok script) :
    Statement.Confined script.outsideLoops := by
  obtain ⟨c, ts, -, hderives⟩ := Script.yields_of_parse h fun fuel => (Parse.statementsDerived fuel).statements false _
  exact hderives.confined rfl

end EventScript
