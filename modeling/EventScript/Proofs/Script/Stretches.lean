import EventScript.Proofs.Script.Located
import EventScript.Proofs.Script.Nodes
import EventScript.Proofs.Token.Lexemes

/-!
# Trees in their tokens

Which tokens the nodes of a tree are read from: every node from a stretch of them that its tree is derived from, and its parts from
stretches of that stretch, one behind the other (`Node.InPlace`). A statement stands at its first token, and an expression at the
first one that is no opening parenthesis. So in the order of the tree no node stands in front of one before it: `InPlace.in_order`.
-/

namespace EventScript

/-! ## Parts -/

/-- The expressions right inside an expression, from left to right. -/
def Expression.parts : Expression → List Expression
  | .literal _ _ => []
  | .name _ _ => []
  | .globalName _ _ => []
  | .globalAt _ key => [key]
  | .binary _ left _ right => [left, right]
  | .unary _ _ operand => [operand]
  | .ternary _ condition thenValue elseValue => [condition, thenValue, elseValue]
  | .placeholder _ _ args => args

/-- The expressions right inside a target. -/
def Target.parts : Target → List Expression
  | .globalAt key => [key]
  | _ => []

/-- The nodes right inside a statement, from left to right. -/
def Statement.parts : Statement → List Node
  | .assign _ target value => (target.parts ++ [value]).map .expression
  | .ifElse _ condition thenBody elseBody =>
    .expression condition :: (thenBody.map .statement ++ (elseBody.getD []).map .statement)
  | .whileLoop _ condition body => .expression condition :: body.map .statement
  | .forLoop _ _ start stop body => .expression start :: .expression stop :: body.map .statement
  | .block _ body => body.map .statement
  | .command _ _ args => args.map .expression
  | .breakLoop _ => []
  | .continueLoop _ => []
  | .returnScript _ => []
  | .expression _ value => [.expression value]

namespace Node

/-- The nodes right inside a node. -/
def parts : Node → List Node
  | statement s => s.parts
  | expression e => e.parts.map expression

/-- The nodes in a list of trees. -/
def nodesOfAll (trees : List Node) : List Node := trees.flatMap nodes

/-- The nodes of trees in a row are those of each. -/
theorem nodesOfAll_append (trees more : List Node) : nodesOfAll (trees ++ more) = nodesOfAll trees ++ nodesOfAll more :=
  List.flatMap_append

/-- The nodes of expressions, taken as trees. -/
theorem nodesOfAll_expressions (args : List Expression) : nodesOfAll (args.map expression) = Expression.nodesOfAll args := by
  induction args with
  | nil => rfl
  | cons e rest ih => exact congrArg (e.nodes ++ ·) ih

/-- The nodes of statements, taken as trees. -/
theorem nodesOfAll_statements (body : List Statement) : nodesOfAll (body.map statement) = Statement.nodesOfAll body := by
  induction body with
  | nil => rfl
  | cons s rest ih => exact congrArg (s.nodes ++ ·) ih

/-- The nodes of a target are those of what is inside it. -/
theorem nodesOfAll_target (t : Target) : nodesOfAll (t.parts.map expression) = t.nodes := by
  cases t with
  | globalAt key => exact List.append_nil _
  | _ => rfl

/-- The nodes of a tree come in front of those of the others. -/
theorem nodesOfAll_cons (n : Node) (trees : List Node) : nodesOfAll (n :: trees) = n.nodes ++ nodesOfAll trees := rfl

/-- One tree has its own nodes. -/
theorem nodesOfAll_single (n : Node) : nodesOfAll [n] = n.nodes := List.append_nil _

/-- What is inside a node is what its parts are made of. -/
theorem nodes_eq_parts (n : Node) : n.nodes = n :: nodesOfAll n.parts := by
  cases n with
  | expression e =>
    cases e with
    | literal | name | globalName => rfl
    | placeholder p name args => exact congrArg _ (nodesOfAll_expressions args).symm
    | _ => simp [nodes, parts, Expression.parts, Expression.nodes, nodesOfAll]
  | statement s =>
    cases s with
    | breakLoop | continueLoop | returnScript => rfl
    | command p name args => exact congrArg _ (nodesOfAll_expressions args).symm
    | block p body => exact congrArg _ (nodesOfAll_statements body).symm
    | expression p value => exact congrArg _ (nodesOfAll_single (.expression value)).symm
    | assign p target value =>
      simp only [parts, Statement.parts, List.map_append, nodesOfAll_append, nodesOfAll_target]
      exact congrArg (fun l => _ :: (target.nodes ++ l)) (nodesOfAll_single (.expression value)).symm
    | whileLoop p condition body =>
      simp only [parts, Statement.parts, nodesOfAll_cons, nodesOfAll_statements]
      rfl
    | forLoop p counter start stop body =>
      simp only [parts, Statement.parts, nodesOfAll_cons, nodesOfAll_statements, ← List.append_assoc]
      rfl
    | ifElse p condition thenBody elseBody =>
      simp only [parts, Statement.parts, nodesOfAll_cons, nodesOfAll_append, nodesOfAll_statements, ← List.append_assoc]
      cases elseBody <;> rfl

end Node

/-! ## Stretches -/

namespace Node

/-- The node is read from these tokens, and it stands where it should: a statement at the first of them, an expression at the first
one that is no opening parenthesis. -/
inductive ReadFrom : Node → List LocatedToken → Prop
  | statement {s : Statement} (inLoop : Bool) {t : LocatedToken} {rest : List LocatedToken}
      (located : Located (.statement inLoop s) (t :: rest)) (place : s.position = t.position) : ReadFrom (.statement s) (t :: rest)
  | expression {e : Expression} {ts : List LocatedToken} (located : Located (.expression 0 e) ts) (place : e.LeadsIn ts) :
      ReadFrom (.expression e) ts

/-- The nodes are read from stretches of the tokens, one behind the other, and so are the parts of each from the stretch of it. -/
inductive InPlace : List Node → List LocatedToken → Prop
  | none (ts : List LocatedToken) : InPlace [] ts
  | next (gap : List LocatedToken) {n : Node} {nodes : List Node} {stretch rest : List LocatedToken} (read : n.ReadFrom stretch)
      (parts : InPlace n.parts stretch) (behind : InPlace nodes rest) : InPlace (n :: nodes) (gap ++ stretch ++ rest)

namespace InPlace

variable {nodes more : List Node} {ts us : List LocatedToken} {n : Node}

/-- A node that is read from tokens is in place there, if its parts are. -/
theorem single (read : n.ReadFrom ts) (parts : InPlace n.parts ts) : InPlace [n] ts := by
  have h := InPlace.next [] read parts (.none [])
  rwa [List.nil_append, List.append_nil] at h

/-- Tokens in front that are not of the nodes. -/
theorem behind (gap : List LocatedToken) (h : InPlace nodes ts) : InPlace nodes (gap ++ ts) := by
  cases h with
  | none => exact .none _
  | next gap' read parts hrest =>
    rw [← List.append_assoc, ← List.append_assoc]
    exact .next (gap ++ gap') read parts hrest

/-- Nodes in place may stand in a row. -/
theorem append (h : InPlace nodes ts) (h' : InPlace more us) : InPlace (nodes ++ more) (ts ++ us) := by
  induction h with
  | none ts => exact h'.behind ts
  | next gap read parts _ _ ih =>
    rw [List.append_assoc]
    exact .next gap read parts ih

/-- A token in front that is of none of the nodes. -/
theorem cons (t : LocatedToken) (h : InPlace nodes ts) : InPlace nodes (t :: ts) := h.behind [t]

/-- Tokens behind that are of none of the nodes. -/
theorem before (h : InPlace nodes ts) (us : List LocatedToken) : InPlace nodes (ts ++ us) := by
  have hboth := h.append (.none us)
  rwa [List.append_nil] at hboth

/-- Nodes in braces. -/
theorem braced (h : InPlace nodes ts) (q r : Position) : InPlace nodes (LocatedToken.braced q ts r) := (h.cons _).before _

/-- Each node of the trees is read from a stretch of the tokens. -/
theorem readFrom (h : InPlace nodes ts) : ∀ n ∈ nodesOfAll nodes, ∃ stretch, n.ReadFrom stretch ∧ stretch <:+: ts := by
  induction h with
  | none ts => exact fun n hn => absurd hn List.not_mem_nil
  | @next gap n nodes stretch rest read parts _ ihparts ihrest =>
    intro m hm
    have hstretch : stretch <:+: gap ++ stretch ++ rest := List.infix_append gap stretch rest
    rw [nodesOfAll_cons, nodes_eq_parts, List.cons_append, List.mem_cons, List.mem_append] at hm
    rcases hm with rfl | hm | hm
    · exact ⟨stretch, read, hstretch⟩
    · obtain ⟨inner, hread, hinner⟩ := ihparts m hm
      exact ⟨inner, hread, hinner.trans hstretch⟩
    · obtain ⟨later, hread, hlater⟩ := ihrest m hm
      exact ⟨later, hread, hlater.trans (List.suffix_append _ rest).isInfix⟩

end InPlace

end Node

/-! ## The nodes of a located phrase -/

/-- The nodes right inside a phrase, or the one that it is. -/
def Phrase.trees : Phrase → List Node
  | expression _ e => [.expression e]
  | placeholderArgs args => args.map .expression
  | commandArgs args => args.map .expression
  | target t => t.parts.map .expression
  | statement _ s => [.statement s]
  | statements _ body => body.map .statement

namespace Located

open Node (InPlace)

/-- What stands at some rank may stand anywhere. -/
theorem loosest {rank : Nat} {e : Expression} {ts : List LocatedToken} (h : Located (.expression rank e) ts) :
    Located (.expression 0 e) ts := by
  induction rank with
  | zero => exact h
  | succ rank ih => exact ih (.loosen h)

/-- An expression is in place where its parts are. -/
theorem expression_inPlace {rank : Nat} {e : Expression} {ts : List LocatedToken} (h : Located (.expression rank e) ts)
    (hparts : InPlace (e.parts.map .expression) ts) : InPlace [.expression e] ts :=
  .single (.expression h.loosest h.leadsIn) hparts

/-- A statement is in place where its parts are. -/
theorem statement_inPlace {inLoop : Bool} {s : Statement} {ts : List LocatedToken} (h : Located (.statement inLoop s) ts)
    (hparts : InPlace s.parts ts) : InPlace [.statement s] ts := by
  obtain ⟨t, rest, rfl, hplace⟩ := h.statement_first
  exact .single (.statement inLoop h hplace) hparts

/-- The nodes of a located phrase are in place in it. -/
theorem inPlace {x : Phrase} {ts : List LocatedToken} (h : Located x ts) : InPlace x.trees ts := by
  induction h with
  | literal p value => exact (Located.literal p value).expression_inPlace (.none _)
  | name p n => exact (Located.name p n).expression_inPlace (.none _)
  | globalName p q r n => exact (Located.globalName p q r n).expression_inPlace (.none _)
  | globalAt p q r hkey ih => exact (Located.globalAt p q r hkey).expression_inPlace (((ih.cons _).cons _).before _)
  | placeholder p q r n hargs ih => exact (Located.placeholder p q r n hargs).expression_inPlace (((ih.cons _).cons _).before _)
  | group q r _ ih => exact (ih.cons _).before _
  | unary p op hoperand ih => exact (Located.unary p op hoperand).expression_inPlace (ih.cons _)
  | binary q op hleft hright ihleft ihright =>
    exact (Located.binary q op hleft hright).expression_inPlace (ihleft.append (ihright.cons _))
  | ternary q r hcondition hthen helse ihcondition ihthen ihelse =>
    refine (Located.ternary q r hcondition hthen helse).expression_inPlace ?_
    exact (ihcondition.append (ihthen.cons _)).append (ihelse.cons _)
  | loosen _ ih => exact ih
  | noPlaceholderArgs | noCommandArgs | targetName | targetGlobalName | noStatements => exact .none _
  | placeholderArg q _ _ iharg ihrest => exact (iharg.cons _).append ihrest
  | lastCommandArg _ ih => exact ih
  | commandArg q _ _ iharg ihrest => exact iharg.append (ihrest.cons _)
  | targetGlobalAt p q r _ ih => exact ((ih.cons _).cons _).before _
  | groupedTarget q r _ ih => exact (ih.cons _).before _
  | assign inLoop q htarget hvalue ihtarget ihvalue =>
    have hparts := ihtarget.append (ihvalue.cons ⟨.symbol .assign, q⟩)
    rw [Phrase.trees, Phrase.trees, ← List.map_singleton (f := Node.expression), ← List.map_append] at hparts
    exact (Located.assign inLoop q htarget hvalue).statement_inPlace hparts
  | ifThen p q r hcondition hthen ihcondition ihthen =>
    have hparts := (ihcondition.cons ⟨.keyword .ifWord, p⟩).append (ihthen.braced q r)
    exact (Located.ifThen p q r hcondition hthen).statement_inPlace (by simpa [Phrase.trees, Statement.parts] using hparts)
  | ifElse p q r o q' r' hcondition hthen helse ihcondition ihthen ihelse =>
    refine (Located.ifElse p q r o q' r' hcondition hthen helse).statement_inPlace ?_
    exact ((ihcondition.cons _).append (ihthen.braced q r)).append ((ihelse.braced q' r').cons _)
  | elseIf p q r o p' hcondition hthen hinner ihcondition ihthen ihinner =>
    refine (Located.elseIf p q r o p' hcondition hthen hinner).statement_inPlace ?_
    exact ((ihcondition.cons _).append (ihthen.braced q r)).append (ihinner.cons _)
  | whileLoop inLoop p q r hcondition hbody ihcondition ihbody =>
    exact (Located.whileLoop inLoop p q r hcondition hbody).statement_inPlace ((ihcondition.cons _).append (ihbody.braced q r))
  | forLoop inLoop p o a s q r counter hstart hstop hbody ihstart ihstop ihbody =>
    refine (Located.forLoop inLoop p o a s q r counter hstart hstop hbody).statement_inPlace ?_
    exact ((((ihstart.cons _).cons _).cons _).append (ihstop.cons _)).append (ihbody.braced q r)
  | block p r hbody ih => exact (Located.block p r hbody).statement_inPlace (ih.braced p r)
  | bareCommand inLoop p n => exact (Located.bareCommand inLoop p n).statement_inPlace (.none _)
  | command inLoop p q r n hargs ih =>
    exact (Located.command inLoop p q r n hargs).statement_inPlace (((ih.cons _).cons _).before _)
  | breakLoop p => exact (Located.breakLoop p).statement_inPlace (.none _)
  | continueLoop p => exact (Located.continueLoop p).statement_inPlace (.none _)
  | returnScript inLoop p => exact (Located.returnScript inLoop p).statement_inPlace (.none _)
  | expression inLoop hvalue ih => exact (Located.expression inLoop hvalue).statement_inPlace ih
  | semicolon q _ ih => exact ih.cons _
  | statement _ _ ihs ihrest => exact ihs.append ihrest

end Located

/-! ## Places in the order of the tree -/

namespace Position

/-- A place is not in front of another one, by line first and by column second. -/
def NotBehind (p q : Position) : Prop := p.line < q.line ∨ p.line = q.line ∧ p.column ≤ q.column

/-- No place is behind itself. -/
theorem NotBehind.refl (p : Position) : p.NotBehind p := .inr ⟨rfl, Nat.le_refl _⟩

/-- What comes before a place is not behind it. -/
theorem Before.notBehind {p q : Position} (h : p.Before q) : p.NotBehind q := h.imp_right fun h => ⟨h.1, Nat.le_of_lt h.2⟩

end Position

/-- The places of the tokens are in order. -/
def InOrder (ts : List LocatedToken) : Prop := (ts.map LocatedToken.position).Pairwise Position.Before

namespace InOrder

variable {ts us : List LocatedToken} {t u : LocatedToken}

/-- A beginning of tokens in order is in order. -/
theorem left (h : InOrder (ts ++ us)) : InOrder ts := by
  unfold InOrder at h
  rw [List.map_append] at h
  exact (List.pairwise_append.mp h).1

/-- So is an end of them. -/
theorem right (h : InOrder (ts ++ us)) : InOrder us := by
  unfold InOrder at h
  rw [List.map_append] at h
  exact (List.pairwise_append.mp h).2.1

/-- What stands in front comes before what stands behind. -/
theorem before (h : InOrder (ts ++ us)) (ht : t ∈ ts) (hu : u ∈ us) : t.position.Before u.position := by
  unfold InOrder at h
  rw [List.map_append] at h
  exact (List.pairwise_append.mp h).2.2 _ (List.mem_map_of_mem ht) _ (List.mem_map_of_mem hu)

/-- No token is in front of the first one. -/
theorem head (h : InOrder (t :: ts)) (hu : u ∈ t :: ts) : t.position.NotBehind u.position := by
  rcases List.mem_cons.mp hu with rfl | hu
  · exact .refl _
  · exact (@InOrder.before [t] ts t u h List.mem_cons_self hu).notBehind

end InOrder

namespace Node

/-- The token that a node stands at is one of those it is read from, and that of an expression is no opening parenthesis. -/
theorem ReadFrom.token {n : Node} {ts : List LocatedToken} (h : n.ReadFrom ts) :
    ∃ t ∈ ts, n.position = t.position ∧ ((∃ e, n = .expression e) → t.token ≠ .symbol .lparen) := by
  cases h with
  | @statement s inLoop t rest located place => exact ⟨t, List.mem_cons_self, place, fun ⟨e, he⟩ => nomatch he⟩
  | expression located place =>
    obtain ⟨opening, t, rest, -, htoken, hplace⟩ := place
    exact ⟨t, by simp, hplace, fun _ => htoken ▸ Expression.leading_ne_lparen _⟩

/-- No part of a node stands in front of it. -/
theorem ReadFrom.notBehind_parts {n m : Node} {ts : List LocatedToken} {t : LocatedToken} (h : n.ReadFrom ts) (horder : InOrder ts)
    (ht : t ∈ ts) (hm : m.position = t.position) (hparts : m ∈ nodesOfAll n.parts)
    (htoken : (∃ e, m = .expression e) → t.token ≠ .symbol .lparen) : n.position.NotBehind m.position := by
  rw [hm]
  cases h with
  | @statement s inLoop u rest located place =>
    rw [show Node.position (.statement s) = u.position from place]
    exact horder.head ht
  | @expression e ts located place =>
    obtain ⟨opening, u, rest, hopening, -, hplace⟩ := place
    have hexpression : ∃ part, m = .expression part := by
      have hparts' : m ∈ Expression.nodesOfAll e.parts := nodesOfAll_expressions e.parts ▸ hparts
      exact Expression.nodesOfAll_expression e.parts m hparts'
    rw [show Node.position (.expression e) = u.position from hplace]
    rcases List.mem_append.mp ht with ht | ht
    · exact absurd (hopening t ht) (htoken hexpression)
    · exact horder.right.head ht

namespace InPlace

variable {nodes : List Node} {ts : List LocatedToken}

/-- The nodes stand at tokens among these. -/
theorem token (h : InPlace nodes ts) : ∀ n ∈ nodesOfAll nodes,
    ∃ t ∈ ts, n.position = t.position ∧ ((∃ e, n = .expression e) → t.token ≠ .symbol .lparen) := by
  intro n hn
  obtain ⟨stretch, hread, hstretch⟩ := h.readFrom n hn
  obtain ⟨t, ht, hplace⟩ := hread.token
  exact ⟨t, hstretch.subset ht, hplace⟩

variable {more : List Node} {us : List LocatedToken}

/-- What is read in front stands in front. -/
theorem before_behind (h : InPlace nodes ts) (h' : InPlace more us) (horder : InOrder (ts ++ us)) :
    ∀ n ∈ nodesOfAll nodes, ∀ m ∈ nodesOfAll more, n.position.Before m.position := by
  intro n hn m hm
  obtain ⟨t, ht, hplace, -⟩ := h.token n hn
  obtain ⟨u, hu, hplace', -⟩ := h'.token m hm
  rw [hplace, hplace']
  exact horder.before ht hu

/-- In the order of the trees no node stands in front of one before it. -/
theorem in_order (h : InPlace nodes ts) (horder : InOrder ts) :
    ((nodesOfAll nodes).map Node.position).Pairwise Position.NotBehind := by
  rw [List.pairwise_map]
  induction h with
  | none ts => exact List.Pairwise.nil
  | @next gap n nodes stretch rest read parts hrest ihparts ihrest =>
    have hstretch : InOrder stretch := horder.left.right
    rw [nodesOfAll_cons]
    refine List.pairwise_append.mpr ⟨?_, ihrest horder.right, fun m hm k hk => ?_⟩
    · rw [nodes_eq_parts]
      refine List.pairwise_cons.mpr ⟨fun m hm => ?_, ihparts hstretch⟩
      obtain ⟨t, ht, hplace, htoken⟩ := parts.token m hm
      exact read.notBehind_parts hstretch ht hplace hm htoken
    · have hwhole : InPlace [n] (gap ++ stretch) := (InPlace.single read parts).behind gap
      exact (hwhole.before_behind hrest horder m (by rwa [nodesOfAll_single]) k hk).notBehind

/-- No node occurs twice: a node is not inside itself, and different parts stand at different places. -/
theorem nodup (h : InPlace nodes ts) (horder : InOrder ts) : (nodesOfAll nodes).Nodup := by
  induction h with
  | none ts => exact List.nodup_nil
  | @next gap n nodes stretch rest read parts hrest ihparts ihrest =>
    rw [nodesOfAll_cons]
    refine List.nodup_append.mpr ⟨?_, ihrest horder.right, fun m hm k hk => ?_⟩
    · rw [nodes_eq_parts]
      refine List.nodup_cons.mpr ⟨?_, ihparts horder.left.right⟩
      have hinside := n.not_mem_parts
      rwa [nodes_eq_parts, List.tail_cons] at hinside
    · rintro rfl
      have hwhole : InPlace [n] (gap ++ stretch) := (InPlace.single read parts).behind gap
      exact m.position.not_before_self (hwhole.before_behind hrest horder m (by rwa [nodesOfAll_single]) m hk)

end InPlace

end Node

end EventScript
