import EventScript.Proofs.Script.Grammar

/-!
# The grammar with places

`Located x ts` says that the tokens `ts`, each at its place, are a phrase of the accepted dialect, that `x` is its tree, and that each
node of the tree has the place it should have. There is one rule for each production: a node that starts with a token of its own takes
the place of that token, a binary operator and a choice take over the one of their first operand, and a statement stands at its first
token. Without the places it is `Derives` (`Located.derives`).

So a statement of a located phrase stands at the first token of its own (`Located.statement_first`), and an expression at the first one
that is no opening parenthesis (`Located.leadsIn`).
-/

namespace EventScript

open Expression (operandRank)

/-- Tokens in braces, each brace at its place. -/
def LocatedToken.braced (q : Position) (ts : List LocatedToken) (r : Position) : List LocatedToken :=
  ⟨.symbol .lbrace, q⟩ :: ts ++ [⟨.symbol .rbrace, r⟩]

theorem LocatedToken.map_braced (q : Position) (ts : List LocatedToken) (r : Position) :
    (braced q ts r).map (·.token) = Statement.braced (ts.map (·.token)) := by
  simp [braced, Statement.braced]

/-- The tokens are a phrase of the accepted dialect with this tree, and each node of it has the place it should have. -/
inductive Located : Phrase → List LocatedToken → Prop where
  | literal (p : Position) (value : Literal) :
      Located (.expression (operandRank + 1) (.literal p value)) [⟨value.token, p⟩]
  | name (p : Position) (n : String) : Located (.expression (operandRank + 1) (.name p n)) [⟨.ident n, p⟩]
  | globalName (p q r : Position) (n : String) :
      Located (.expression (operandRank + 1) (.globalName p n)) [⟨.keyword .globalWord, p⟩, ⟨.symbol .dot, q⟩, ⟨.ident n, r⟩]
  | globalAt (p q r : Position) {key : Expression} {ts : List LocatedToken} : Located (.expression 0 key) ts →
      Located (.expression (operandRank + 1) (.globalAt p key))
        (⟨.keyword .globalWord, p⟩ :: ⟨.symbol .lbracket, q⟩ :: ts ++ [⟨.symbol .rbracket, r⟩])
  | placeholder (p q r : Position) (n : String) {args : List Expression} {ts : List LocatedToken} :
      Located (.placeholderArgs args) ts →
        Located (.expression (operandRank + 1) (.placeholder p n args))
          (⟨.symbol .percent, p⟩ :: ⟨.ident n, q⟩ :: ts ++ [⟨.symbol .percent, r⟩])
  /-- Parentheses leave no node, and the expression in them keeps its place. -/
  | group (q r : Position) {e : Expression} {ts : List LocatedToken} : Located (.expression 0 e) ts →
      Located (.expression (operandRank + 1) e) (⟨.symbol .lparen, q⟩ :: ts ++ [⟨.symbol .rparen, r⟩])
  | unary (p : Position) (op : UnaryOp) {operand : Expression} {ts : List LocatedToken} :
      Located (.expression operandRank operand) ts →
        Located (.expression operandRank (.unary p op operand)) (⟨.symbol op.token, p⟩ :: ts)
  | binary (q : Position) (op : BinaryOp) {left right : Expression} {ts us : List LocatedToken} :
      Located (.expression op.rank left) ts → Located (.expression (op.rank + 1) right) us →
        Located (.expression op.rank (.binary left.position left op right)) (ts ++ ⟨.symbol op.token, q⟩ :: us)
  | ternary (q r : Position) {condition thenValue elseValue : Expression} {ts us vs : List LocatedToken} :
      Located (.expression 1 condition) ts → Located (.expression 0 thenValue) us → Located (.expression 0 elseValue) vs →
        Located (.expression 0 (.ternary condition.position condition thenValue elseValue))
          (ts ++ ⟨.symbol .question, q⟩ :: us ++ ⟨.symbol .colon, r⟩ :: vs)
  | loosen {rank : Nat} {e : Expression} {ts : List LocatedToken} : Located (.expression (rank + 1) e) ts →
      Located (.expression rank e) ts
  | noPlaceholderArgs : Located (.placeholderArgs []) []
  | placeholderArg (q : Position) {arg : Expression} {rest : List Expression} {ts us : List LocatedToken} :
      Located (.expression operandRank arg) ts → Located (.placeholderArgs rest) us →
        Located (.placeholderArgs (arg :: rest)) (⟨.symbol .colon, q⟩ :: ts ++ us)
  | noCommandArgs : Located (.commandArgs []) []
  | lastCommandArg {arg : Expression} {ts : List LocatedToken} : Located (.expression 0 arg) ts →
      Located (.commandArgs [arg]) ts
  /-- Behind a comma there may be no more arguments. -/
  | commandArg (q : Position) {arg : Expression} {rest : List Expression} {ts us : List LocatedToken} :
      Located (.expression 0 arg) ts → Located (.commandArgs rest) us →
        Located (.commandArgs (arg :: rest)) (ts ++ ⟨.symbol .comma, q⟩ :: us)
  | targetName (p : Position) (n : String) : Located (.target (.name n)) [⟨.ident n, p⟩]
  | targetGlobalName (p q r : Position) (n : String) :
      Located (.target (.globalName n)) [⟨.keyword .globalWord, p⟩, ⟨.symbol .dot, q⟩, ⟨.ident n, r⟩]
  | targetGlobalAt (p q r : Position) {key : Expression} {ts : List LocatedToken} : Located (.expression 0 key) ts →
      Located (.target (.globalAt key))
        (⟨.keyword .globalWord, p⟩ :: ⟨.symbol .lbracket, q⟩ :: ts ++ [⟨.symbol .rbracket, r⟩])
  | groupedTarget (q r : Position) {t : Target} {ts : List LocatedToken} : Located (.target t) ts →
      Located (.target t) (⟨.symbol .lparen, q⟩ :: ts ++ [⟨.symbol .rparen, r⟩])
  | assign (inLoop : Bool) (q : Position) {target : Target} {value : Expression} {t : LocatedToken} {ts us : List LocatedToken} :
      Located (.target target) (t :: ts) → Located (.expression 0 value) us →
        Located (.statement inLoop (.assign t.position target value)) (t :: ts ++ ⟨.symbol .assign, q⟩ :: us)
  | ifThen {inLoop : Bool} (p q r : Position) {condition : Expression} {thenBody : List Statement} {ts us : List LocatedToken} :
      Located (.expression 0 condition) ts → Located (.statements inLoop thenBody) us →
        Located (.statement inLoop (.ifElse p condition thenBody none))
          (⟨.keyword .ifWord, p⟩ :: ts ++ LocatedToken.braced q us r)
  | ifElse {inLoop : Bool} (p q r o q' r' : Position) {condition : Expression} {thenBody elseBody : List Statement}
      {ts us vs : List LocatedToken} : Located (.expression 0 condition) ts → Located (.statements inLoop thenBody) us →
        Located (.statements inLoop elseBody) vs →
          Located (.statement inLoop (.ifElse p condition thenBody (some elseBody)))
            (⟨.keyword .ifWord, p⟩ :: ts ++ LocatedToken.braced q us r ++
              ⟨.keyword .elseWord, o⟩ :: LocatedToken.braced q' vs r')
  | elseIf {inLoop : Bool} (p q r o p' : Position) {condition innerCondition : Expression} {thenBody innerThen : List Statement}
      {innerElse : Option (List Statement)} {ts us vs : List LocatedToken} :
      Located (.expression 0 condition) ts → Located (.statements inLoop thenBody) us →
        Located (.statement inLoop (.ifElse p' innerCondition innerThen innerElse)) vs →
          Located (.statement inLoop (.ifElse p condition thenBody
              (some [.ifElse p' innerCondition innerThen innerElse])))
            (⟨.keyword .ifWord, p⟩ :: ts ++ LocatedToken.braced q us r ++ ⟨.keyword .elseWord, o⟩ :: vs)
  | whileLoop (inLoop : Bool) (p q r : Position) {condition : Expression} {body : List Statement} {ts us : List LocatedToken} :
      Located (.expression 0 condition) ts → Located (.statements true body) us →
        Located (.statement inLoop (.whileLoop p condition body))
          (⟨.keyword .whileWord, p⟩ :: ts ++ LocatedToken.braced q us r)
  | forLoop (inLoop : Bool) (p o a s q r : Position) (counter : String) {start stop : Expression} {body : List Statement}
      {ts us vs : List LocatedToken} : Located (.expression 0 start) ts → Located (.expression 0 stop) us →
        Located (.statements true body) vs →
          Located (.statement inLoop (.forLoop p counter start stop body))
            (⟨.keyword .forWord, p⟩ :: ⟨.ident counter, o⟩ :: ⟨.symbol .assign, a⟩ :: ts ++ ⟨.symbol .colon, s⟩ :: us ++
              LocatedToken.braced q vs r)
  | block {inLoop : Bool} (p r : Position) {body : List Statement} {ts : List LocatedToken} :
      Located (.statements inLoop body) ts → Located (.statement inLoop (.block p body)) (LocatedToken.braced p ts r)
  | bareCommand (inLoop : Bool) (p : Position) (n : String) :
      Located (.statement inLoop (.command p n [])) [⟨.command n, p⟩]
  | command (inLoop : Bool) (p q r : Position) (n : String) {args : List Expression} {ts : List LocatedToken} :
      Located (.commandArgs args) ts →
        Located (.statement inLoop (.command p n args))
          (⟨.command n, p⟩ :: ⟨.symbol .lparen, q⟩ :: ts ++ [⟨.symbol .rparen, r⟩])
  | breakLoop (p : Position) : Located (.statement true (.breakLoop p)) [⟨.keyword .breakWord, p⟩]
  | continueLoop (p : Position) : Located (.statement true (.continueLoop p)) [⟨.keyword .continueWord, p⟩]
  | returnScript (inLoop : Bool) (p : Position) :
      Located (.statement inLoop (.returnScript p)) [⟨.keyword .returnWord, p⟩]
  | expression (inLoop : Bool) {value : Expression} {t : LocatedToken} {ts : List LocatedToken} :
      Located (.expression 0 value) (t :: ts) → Located (.statement inLoop (.expression t.position value)) (t :: ts)
  | noStatements (inLoop : Bool) : Located (.statements inLoop []) []
  | semicolon {inLoop : Bool} (q : Position) {body : List Statement} {ts : List LocatedToken} :
      Located (.statements inLoop body) ts → Located (.statements inLoop body) (⟨.symbol .semicolon, q⟩ :: ts)
  | statement {inLoop : Bool} {s : Statement} {rest : List Statement} {ts us : List LocatedToken} :
      Located (.statement inLoop s) ts → Located (.statements inLoop rest) us →
        Located (.statements inLoop (s :: rest)) (ts ++ us)

/-! ## The token a node stands at -/

/-- The token that an expression stands at: the first one of it that is no opening parenthesis. -/
def Expression.leading : Expression → Token
  | .literal _ value => value.token
  | .name _ n => .ident n
  | .globalName _ _ => .keyword .globalWord
  | .globalAt _ _ => .keyword .globalWord
  | .binary _ left _ _ => left.leading
  | .unary _ op _ => .symbol op.token
  | .ternary _ condition _ _ => condition.leading
  | .placeholder _ _ _ => .symbol .percent

theorem Expression.leading_ne_lparen (e : Expression) : e.leading ≠ .symbol .lparen := by
  cases e with
  | literal p value =>
    cases value with
    | bool b => cases b <;> simp [leading, Literal.token]
    | _ => simp [leading, Literal.token]
  | binary p left op right => exact left.leading_ne_lparen
  | ternary p condition thenValue elseValue => exact condition.leading_ne_lparen
  | unary p op operand => cases op <;> simp [leading, UnaryOp.token]
  | _ => simp [leading]

/-- Behind nothing but opening parentheses the tokens have the one that the expression stands at. -/
inductive Expression.LeadsIn (e : Expression) : List LocatedToken → Prop
  | intro (opening : List LocatedToken) (t : LocatedToken) (rest : List LocatedToken)
      (hopening : ∀ u ∈ opening, u.token = .symbol .lparen) (htoken : t.token = e.leading) (hplace : e.position = t.position) :
      e.LeadsIn (opening ++ t :: rest)

namespace Expression.LeadsIn

variable {e e' : Expression} {ts us : List LocatedToken} {t : LocatedToken}

/-- An expression that starts with a token of its own. -/
theorem atFirst (htoken : t.token = e.leading) (hplace : e.position = t.position) : e.LeadsIn (t :: ts) :=
  .intro [] t ts (fun _ hu => absurd hu List.not_mem_nil) htoken hplace

/-- Around a group stands an opening parenthesis. -/
theorem group (h : e.LeadsIn ts) (ht : t.token = .symbol .lparen) : e.LeadsIn (t :: ts) := by
  obtain ⟨opening, u, rest, hopening, htoken, hplace⟩ := h
  exact .intro (t :: opening) u rest (List.forall_mem_cons.mpr ⟨ht, hopening⟩) htoken hplace

/-- What starts with an expression may stand where that does. -/
theorem extend (h : e.LeadsIn ts) (hleading : e'.leading = e.leading) (hplace : e'.position = e.position) :
    e'.LeadsIn (ts ++ us) := by
  obtain ⟨opening, t, rest, hopening, htoken, hposition⟩ := h
  rw [List.append_assoc]
  exact .intro opening t (rest ++ us) hopening (htoken.trans hleading.symm) (hplace.trans hposition)

end Expression.LeadsIn

namespace Located

/-- An expression stands at the first of its tokens that is no opening parenthesis. -/
theorem leadsIn {rank : Nat} {e : Expression} {ts : List LocatedToken} (h : Located (.expression rank e) ts) : e.LeadsIn ts := by
  generalize hx : Phrase.expression rank e = x at h
  induction h generalizing rank e with
  | literal | name | globalName | globalAt | placeholder | unary =>
    cases hx
    exact .atFirst rfl rfl
  | group q r _ ih =>
    cases hx
    exact .group ((ih rfl).extend rfl rfl) rfl
  | binary q op _ _ ih =>
    cases hx
    exact (ih rfl).extend rfl rfl
  | ternary q r _ _ _ ih =>
    cases hx
    rw [List.append_assoc]
    exact (ih rfl).extend rfl rfl
  | loosen _ ih =>
    cases hx
    exact ih rfl
  | _ => cases hx

/-- A statement stands at the first of its tokens. -/
theorem statement_first {inLoop : Bool} {s : Statement} {ts : List LocatedToken} (h : Located (.statement inLoop s) ts) :
    ∃ t rest, ts = t :: rest ∧ s.position = t.position := by
  cases h <;> exact ⟨_, _, rfl, rfl⟩

theorem ne_nil {rank : Nat} {e : Expression} {ts : List LocatedToken} (h : Located (.expression rank e) ts) : ts ≠ [] := by
  obtain ⟨opening, t, rest, -, -, -⟩ := h.leadsIn
  simp

/-- An expression that is assigned to is read as the target, in parentheses too. -/
theorem target {rank : Nat} {e : Expression} {ts : List LocatedToken} {t : Target} (h : Located (.expression rank e) ts)
    (ht : Parse.target? e = some t) : Located (.target t) ts := by
  generalize hx : Phrase.expression rank e = x at h
  induction h generalizing rank with
  | name p n =>
    cases hx
    cases ht
    exact .targetName p n
  | globalName p q r n =>
    cases hx
    cases ht
    exact .targetGlobalName p q r n
  | globalAt p q r hkey _ =>
    cases hx
    cases ht
    exact .targetGlobalAt p q r hkey
  | group q r _ ih =>
    cases hx
    exact .groupedTarget q r (ih rfl)
  | loosen _ ih =>
    cases hx
    exact ih rfl
  | literal | placeholder | unary | binary | ternary =>
    cases hx
    cases ht
  | _ => cases hx

/-! ## Without the places -/

/-- Without the places it is a derivation in the accepted dialect. -/
theorem derives {x : Phrase} {ts : List LocatedToken} (h : Located x ts) : Derives .accepted x (ts.map (·.token)) := by
  induction h with
  | literal p value => exact .literal p value
  | name p n => exact .name p n
  | globalName p q r n => exact .globalName p n
  | globalAt p q r _ ih => simpa using Derives.globalAt p ih
  | placeholder p q r n _ ih => simpa using Derives.placeholder p n ih
  | group q r _ ih => simpa using Derives.group ih
  | unary p op _ ih => exact .unary p op ih
  | binary q op _ _ ihleft ihright => simpa using Derives.binary _ op ihleft ihright
  | ternary q r _ _ _ ihcondition ihthen ihelse => simpa using Derives.ternary _ ihcondition ihthen ihelse
  | loosen _ ih => exact .loosen ih
  | noPlaceholderArgs => exact .noPlaceholderArgs
  | placeholderArg q _ _ iharg ihrest => simpa using Derives.placeholderArg iharg ihrest
  | noCommandArgs => exact .noCommandArgs
  | lastCommandArg _ ih => exact .lastCommandArg ih
  | @commandArg q arg rest ts us harg hrest iharg ihrest =>
    rw [List.map_append, List.map_cons]
    cases hrest with
    | noCommandArgs => exact .trailingComma rfl iharg
    | lastCommandArg | commandArg => exact .commandArg iharg ihrest
  | targetName p n => exact .targetName n
  | targetGlobalName p q r n => exact .targetGlobalName n
  | targetGlobalAt p q r _ ih => simpa using Derives.targetGlobalAt ih
  | groupedTarget q r _ ih => simpa using Derives.groupedTarget rfl ih
  | assign inLoop q _ _ ihtarget ihvalue => simpa using Derives.assign inLoop _ ihtarget ihvalue
  | ifThen p q r _ _ ihcondition ihthen => simpa [LocatedToken.map_braced] using Derives.ifThen p ihcondition ihthen
  | ifElse p q r o q' r' _ _ _ ihcondition ihthen ihelse =>
    simpa [LocatedToken.map_braced] using Derives.ifElse p ihcondition ihthen ihelse
  | elseIf p q r o p' _ _ _ ihcondition ihthen ihelse =>
    simpa [LocatedToken.map_braced] using Derives.elseIf p p' ihcondition ihthen ihelse
  | whileLoop inLoop p q r _ _ ihcondition ihbody =>
    simpa [LocatedToken.map_braced] using Derives.whileLoop inLoop p ihcondition ihbody
  | forLoop inLoop p o a s q r counter _ _ _ ihstart ihstop ihbody =>
    simpa [LocatedToken.map_braced] using Derives.forLoop inLoop p counter ihstart ihstop ihbody
  | block p r _ ih => simpa [LocatedToken.map_braced] using Derives.block p ih
  | bareCommand inLoop p n => exact .bareCommand inLoop p n
  | command inLoop p q r n _ ih => simpa using Derives.command inLoop p n ih
  | breakLoop p => exact .breakLoop p
  | continueLoop p => exact .continueLoop p
  | returnScript inLoop p => exact .returnScript inLoop p
  | expression inLoop _ ih => exact .expression inLoop _ ih
  | noStatements inLoop => exact .noStatements inLoop
  | semicolon q _ ih => exact .semicolon ih
  | statement _ _ ihs ihrest => simpa using Derives.statement ihs ihrest

end Located

end EventScript
