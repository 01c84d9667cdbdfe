import EventScript.Proofs.Script.Written
import Mathlib.Data.List.Chain

/-!
# The grammar of the language

`Derives d x ts` says that the tokens `ts` are a phrase of the grammar, and that `x` is its tree: there is one rule for each
production, and one for each line of the table of precedences. No rule asks for the place of a node, so a tree is that of its
tokens up to places. The dialect `accepted` has two rules more than the documented grammar: a comma may stand behind the last
argument of a command, and the target of an assignment may stand in parentheses. What they are used for shows in the tokens:
a phrase without them has no comma in front of a closing parenthesis and no closing parenthesis in front of an equals sign
(`Derives.plain`), and where neither is found they have not been used (`Derives.documented`).
-/

namespace EventScript

open Expression (operandRank)

/-- The documented grammar, and the one of the texts that are accepted. -/
inductive Dialect where
  | documented
  | accepted
deriving DecidableEq, Repr

/-- What a run of tokens is read as. An expression has a rank that it may stand at, and statements are inside a loop or not. -/
inductive Phrase where
  | expression (rank : Nat) (e : Expression)
  | placeholderArgs (args : List Expression)
  | commandArgs (args : List Expression)
  | target (t : Target)
  | statement (inLoop : Bool) (s : Statement)
  | statements (inLoop : Bool) (body : List Statement)

/-- The tokens are a phrase of the grammar with this tree. -/
inductive Derives (d : Dialect) : Phrase → List Token → Prop where
  | literal (p : Position) (value : Literal) : Derives d (.expression (operandRank + 1) (.literal p value)) [value.token]
  | name (p : Position) (n : String) : Derives d (.expression (operandRank + 1) (.name p n)) [.ident n]
  | globalName (p : Position) (n : String) :
      Derives d (.expression (operandRank + 1) (.globalName p n)) [.keyword .globalWord, .symbol .dot, .ident n]
  | globalAt (p : Position) {key : Expression} {ts : List Token} : Derives d (.expression 0 key) ts →
      Derives d (.expression (operandRank + 1) (.globalAt p key))
        (.keyword .globalWord :: .symbol .lbracket :: ts ++ [.symbol .rbracket])
  | placeholder (p : Position) (n : String) {args : List Expression} {ts : List Token} :
      Derives d (.placeholderArgs args) ts →
        Derives d (.expression (operandRank + 1) (.placeholder p n args))
          (.symbol .percent :: .ident n :: ts ++ [.symbol .percent])
  | group {e : Expression} {ts : List Token} : Derives d (.expression 0 e) ts →
      Derives d (.expression (operandRank + 1) e) (.symbol .lparen :: ts ++ [.symbol .rparen])
  | unary (p : Position) (op : UnaryOp) {operand : Expression} {ts : List Token} :
      Derives d (.expression operandRank operand) ts →
        Derives d (.expression operandRank (.unary p op operand)) (.symbol op.token :: ts)
  | binary (p : Position) (op : BinaryOp) {left right : Expression} {ts us : List Token} :
      Derives d (.expression op.rank left) ts → Derives d (.expression (op.rank + 1) right) us →
        Derives d (.expression op.rank (.binary p left op right)) (ts ++ .symbol op.token :: us)
  | ternary (p : Position) {condition thenValue elseValue : Expression} {ts us vs : List Token} :
      Derives d (.expression 1 condition) ts → Derives d (.expression 0 thenValue) us →
        Derives d (.expression 0 elseValue) vs →
          Derives d (.expression 0 (.ternary p condition thenValue elseValue))
            (ts ++ .symbol .question :: us ++ .symbol .colon :: vs)
  /-- What binds tighter may stand where something looser may. -/
  | loosen {rank : Nat} {e : Expression} {ts : List Token} : Derives d (.expression (rank + 1) e) ts →
      Derives d (.expression rank e) ts
  | noPlaceholderArgs : Derives d (.placeholderArgs []) []
  | placeholderArg {arg : Expression} {rest : List Expression} {ts us : List Token} :
      Derives d (.expression operandRank arg) ts → Derives d (.placeholderArgs rest) us →
        Derives d (.placeholderArgs (arg :: rest)) (.symbol .colon :: ts ++ us)
  | noCommandArgs : Derives d (.commandArgs []) []
  | lastCommandArg {arg : Expression} {ts : List Token} : Derives d (.expression 0 arg) ts →
      Derives d (.commandArgs [arg]) ts
  | commandArg {arg next : Expression} {rest : List Expression} {ts us : List Token} :
      Derives d (.expression 0 arg) ts → Derives d (.commandArgs (next :: rest)) us →
        Derives d (.commandArgs (arg :: next :: rest)) (ts ++ .symbol .comma :: us)
  /-- In the documented grammar commas stand between arguments only. -/
  | trailingComma {arg : Expression} {ts : List Token} : d = .accepted → Derives d (.expression 0 arg) ts →
      Derives d (.commandArgs [arg]) (ts ++ [.symbol .comma])
  | targetName (n : String) : Derives d (.target (.name n)) [.ident n]
  | targetGlobalName (n : String) :
      Derives d (.target (.globalName n)) [.keyword .globalWord, .symbol .dot, .ident n]
  | targetGlobalAt {key : Expression} {ts : List Token} : Derives d (.expression 0 key) ts →
      Derives d (.target (.globalAt key)) (.keyword .globalWord :: .symbol .lbracket :: ts ++ [.symbol .rbracket])
  /-- In the documented grammar a target does not stand in parentheses. -/
  | groupedTarget {t : Target} {ts : List Token} : d = .accepted → Derives d (.target t) ts →
      Derives d (.target t) (.symbol .lparen :: ts ++ [.symbol .rparen])
  | assign (inLoop : Bool) (p : Position) {target : Target} {value : Expression} {ts us : List Token} :
      Derives d (.target target) ts → Derives d (.expression 0 value) us →
        Derives d (.statement inLoop (.assign p target value)) (ts ++ .symbol .assign :: us)
  | ifThen {inLoop : Bool} (p : Position) {condition : Expression} {thenBody : List Statement} {ts us : List Token} :
      Derives d (.expression 0 condition) ts → Derives d (.statements inLoop thenBody) us →
        Derives d (.statement inLoop (.ifElse p condition thenBody none))
          (.keyword .ifWord :: ts ++ Statement.braced us)
  | ifElse {inLoop : Bool} (p : Position) {condition : Expression} {thenBody elseBody : List Statement}
      {ts us vs : List Token} : Derives d (.expression 0 condition) ts → Derives d (.statements inLoop thenBody) us →
        Derives d (.statements inLoop elseBody) vs →
          Derives d (.statement inLoop (.ifElse p condition thenBody (some elseBody)))
            (.keyword .ifWord :: ts ++ Statement.braced us ++ .keyword .elseWord :: Statement.braced vs)
  | elseIf {inLoop : Bool} (p q : Position) {condition innerCondition : Expression} {thenBody innerThen : List Statement}
      {innerElse : Option (List Statement)} {ts us vs : List Token} :
      Derives d (.expression 0 condition) ts → Derives d (.statements inLoop thenBody) us →
        Derives d (.statement inLoop (.ifElse q innerCondition innerThen innerElse)) vs →
          Derives d (.statement inLoop (.ifElse p condition thenBody
              (some [.ifElse q innerCondition innerThen innerElse])))
            (.keyword .ifWord :: ts ++ Statement.braced us ++ .keyword .elseWord :: vs)
  | whileLoop (inLoop : Bool) (p : Position) {condition : Expression} {body : List Statement} {ts us : List Token} :
      Derives d (.expression 0 condition) ts → Derives d (.statements true body) us →
        Derives d (.statement inLoop (.whileLoop p condition body)) (.keyword .whileWord :: ts ++ Statement.braced us)
  | forLoop (inLoop : Bool) (p : Position) (counter : String) {start stop : Expression} {body : List Statement}
      {ts us vs : List Token} : Derives d (.expression 0 start) ts → Derives d (.expression 0 stop) us →
        Derives d (.statements true body) vs →
          Derives d (.statement inLoop (.forLoop p counter start stop body))
            (.keyword .forWord :: .ident counter :: .symbol .assign :: ts ++ .symbol .colon :: us ++
              Statement.braced vs)
  | block {inLoop : Bool} (p : Position) {body : List Statement} {ts : List Token} :
      Derives d (.statements inLoop body) ts → Derives d (.statement inLoop (.block p body)) (Statement.braced ts)
  | bareCommand (inLoop : Bool) (p : Position) (n : String) :
      Derives d (.statement inLoop (.command p n [])) [.command n]
  | command (inLoop : Bool) (p : Position) (n : String) {args : List Expression} {ts : List Token} :
      Derives d (.commandArgs args) ts →
        Derives d (.statement inLoop (.command p n args)) (.command n :: .symbol .lparen :: ts ++ [.symbol .rparen])
  | breakLoop (p : Position) : Derives d (.statement true (.breakLoop p)) [.keyword .breakWord]
  | continueLoop (p : Position) : Derives d (.statement true (.continueLoop p)) [.keyword .continueWord]
  | returnScript (inLoop : Bool) (p : Position) :
      Derives d (.statement inLoop (.returnScript p)) [.keyword .returnWord]
  | expression (inLoop : Bool) (p : Position) {value : Expression} {ts : List Token} :
      Derives d (.expression 0 value) ts → Derives d (.statement inLoop (.expression p value)) ts
  | noStatements (inLoop : Bool) : Derives d (.statements inLoop []) []
  /-- A semicolon is a statement that leaves no node. -/
  | semicolon {inLoop : Bool} {body : List Statement} {ts : List Token} : Derives d (.statements inLoop body) ts →
      Derives d (.statements inLoop body) (.symbol .semicolon :: ts)
  | statement {inLoop : Bool} {s : Statement} {rest : List Statement} {ts us : List Token} :
      Derives d (.statement inLoop s) ts → Derives d (.statements inLoop rest) us →
        Derives d (.statements inLoop (s :: rest)) (ts ++ us)

/-! ## Where the two dialects differ -/

/-- The two tokens may follow each other in the documented grammar, as far as commas and targets go. -/
def Token.Follows (t u : Token) : Prop :=
  ¬(t = .symbol .comma ∧ u = .symbol .rparen) ∧ ¬(t = .symbol .rparen ∧ u = .symbol .assign)

/-- No comma stands in front of a closing parenthesis, and no closing parenthesis in front of an equals sign. -/
def Plain (ts : List Token) : Prop := ts.IsChain Token.Follows

instance (t u : Token) : Decidable (t.Follows u) := inferInstanceAs (Decidable (_ ∧ _))

instance (ts : List Token) : Decidable (Plain ts) := inferInstanceAs (Decidable (List.IsChain Token.Follows ts))

namespace Plain

variable {t : Token} {ts us : List Token}

/-- A beginning of a plain run is plain. -/
theorem left (h : Plain (ts ++ us)) : Plain ts := List.IsChain.left_of_append h

/-- So is an end of it. -/
theorem right (h : Plain (ts ++ us)) : Plain us := List.IsChain.right_of_append h

/-- So is what is behind its first token. -/
theorem tail (h : Plain (t :: ts)) : Plain ts := List.IsChain.tail h

/-- A run of tokens up to and with one of them. -/
theorem upTo (h : Plain (ts ++ t :: us)) : Plain (ts ++ [t]) := by
  rw [List.append_cons] at h
  exact h.left

/-- Tokens next to each other may follow each other. -/
theorem follows {u : Token} (h : Plain (ts ++ [t] ++ u :: us)) : t.Follows u :=
  (List.isChain_append.mp h).2.2 t (by simp) u (by simp)

end Plain

/-- A phrase with the token that always stands behind it, if there is one. -/
def Phrase.withClosing : Phrase → List Token → List Token
  | .commandArgs _, ts => ts ++ [.symbol .rparen]
  | .target _, ts => ts ++ [.symbol .assign]
  | _, ts => ts

namespace Derives

/-- What is accepted and plain, with what stands behind it, is derived in the documented grammar. -/
theorem documented {x : Phrase} {ts : List Token} (h : Derives .accepted x ts) :
    Plain (x.withClosing ts) → Derives .documented x ts := by
  induction h with
  | literal p value => exact fun _ => .literal p value
  | name p n => exact fun _ => .name p n
  | globalName p n => exact fun _ => .globalName p n
  | globalAt p _ ih => exact fun hplain => .globalAt p (ih hplain.left.tail.tail)
  | placeholder p n _ ih => exact fun hplain => .placeholder p n (ih hplain.left.tail.tail)
  | group _ ih => exact fun hplain => .group (ih hplain.left.tail)
  | unary p op _ ih => exact fun hplain => .unary p op (ih hplain.tail)
  | binary p op _ _ ihleft ihright =>
    exact fun hplain => .binary p op (ihleft hplain.left) (ihright hplain.right.tail)
  | ternary p _ _ _ ihcondition ihthen ihelse =>
    intro hplain
    have hfront := hplain.left
    exact .ternary p (ihcondition hfront.left) (ihthen hfront.right.tail) (ihelse hplain.right.tail)
  | loosen _ ih => exact fun hplain => .loosen (ih hplain)
  | noPlaceholderArgs => exact fun _ => .noPlaceholderArgs
  | placeholderArg _ _ iharg ihrest =>
    exact fun hplain => .placeholderArg (iharg hplain.left.tail) (ihrest hplain.right)
  | noCommandArgs => exact fun _ => .noCommandArgs
  | lastCommandArg _ ih => exact fun hplain => .lastCommandArg (ih hplain.left)
  | commandArg _ _ iharg ihrest =>
    intro hplain
    rw [Phrase.withClosing, List.append_assoc] at hplain
    exact .commandArg (iharg hplain.left) (ihrest hplain.right.tail)
  | trailingComma _ _ _ => exact fun hplain => absurd ⟨rfl, rfl⟩ hplain.follows.1
  | targetName n => exact fun _ => .targetName n
  | targetGlobalName n => exact fun _ => .targetGlobalName n
  | targetGlobalAt _ ih => exact fun hplain => .targetGlobalAt (ih hplain.left.left.tail.tail)
  | groupedTarget _ _ _ => exact fun hplain => absurd ⟨rfl, rfl⟩ hplain.follows.2
  | assign inLoop p _ _ ihtarget ihvalue =>
    exact fun hplain => .assign inLoop p (ihtarget hplain.upTo) (ihvalue hplain.right.tail)
  | ifThen p _ _ ihcondition ihthen =>
    exact fun hplain => .ifThen p (ihcondition hplain.left.tail) (ihthen hplain.right.left.tail)
  | ifElse p _ _ _ ihcondition ihthen ihelse =>
    intro hplain
    have hfront := hplain.left
    exact .ifElse p (ihcondition hfront.left.tail) (ihthen hfront.right.left.tail)
      (ihelse hplain.right.tail.left.tail)
  | elseIf p q _ _ _ ihcondition ihthen ihelse =>
    intro hplain
    have hfront := hplain.left
    exact .elseIf p q (ihcondition hfront.left.tail) (ihthen hfront.right.left.tail) (ihelse hplain.right.tail)
  | whileLoop inLoop p _ _ ihcondition ihbody =>
    exact fun hplain => .whileLoop inLoop p (ihcondition hplain.left.tail) (ihbody hplain.right.left.tail)
  | forLoop inLoop p counter _ _ _ ihstart ihstop ihbody =>
    intro hplain
    have hfront := hplain.left
    exact .forLoop inLoop p counter (ihstart hfront.left.tail.tail.tail) (ihstop hfront.right.tail)
      (ihbody hplain.right.left.tail)
  | block p _ ih => exact fun hplain => .block p (ih hplain.left.tail)
  | bareCommand inLoop p n => exact fun _ => .bareCommand inLoop p n
  | command inLoop p n _ ih => exact fun hplain => .command inLoop p n (ih hplain.tail.tail)
  | breakLoop p => exact fun _ => .breakLoop p
  | continueLoop p => exact fun _ => .continueLoop p
  | returnScript inLoop p => exact fun _ => .returnScript inLoop p
  | expression inLoop p _ ih => exact fun hplain => .expression inLoop p (ih hplain)
  | noStatements inLoop => exact fun _ => .noStatements inLoop
  | semicolon _ ih => exact fun hplain => .semicolon (ih hplain.tail)
  | statement _ _ ihs ihrest => exact fun hplain => .statement (ihs hplain.left) (ihrest hplain.right)

end Derives

/-! ### The documented grammar is plain -/

/-- A plain run of tokens that starts with no closing parenthesis and no equals sign and ends with no comma. -/
structure Smooth (ts : List Token) : Prop where
  plain : Plain ts
  first : ∀ t ∈ ts.head?, t ≠ .symbol .rparen ∧ t ≠ .symbol .assign
  last : ∀ t ∈ ts.getLast?, t ≠ .symbol .comma

namespace Token

/-- The token is none of those that the two dialects differ about. -/
def Harmless (t : Token) : Prop := t ≠ .symbol .rparen ∧ t ≠ .symbol .assign ∧ t ≠ .symbol .comma

/-- No dialect minds a name. -/
theorem harmless_ident (n : String) : (ident n).Harmless := ⟨by simp, by simp, by simp⟩

/-- Nor a command. -/
theorem harmless_command (n : String) : (command n).Harmless := ⟨by simp, by simp, by simp⟩

/-- Nor a keyword. -/
theorem harmless_keyword (k : Keyword) : (keyword k).Harmless := ⟨by simp, by simp, by simp⟩

/-- Of the symbols there are three that matter. -/
theorem harmless_symbol {s : Symbol} (h : s ≠ .rparen ∧ s ≠ .assign ∧ s ≠ .comma) : (symbol s).Harmless :=
  ⟨by simpa using h.1, by simpa using h.2.1, by simpa using h.2.2⟩

/-- No dialect minds a literal. -/
theorem harmless_literal (l : Literal) : l.token.Harmless := by
  cases l with
  | bool b => cases b <;> exact harmless_keyword _
  | null => exact harmless_keyword _
  | _ => exact ⟨by simp [Literal.token], by simp [Literal.token], by simp [Literal.token]⟩

/-- Nor a binary operator. -/
theorem harmless_binary (op : BinaryOp) : (symbol op.token).Harmless := harmless_symbol (by cases op <;> decide)

/-- Nor a prefix operator. -/
theorem harmless_unary (op : UnaryOp) : (symbol op.token).Harmless := harmless_symbol (by cases op <;> decide)

end Token

namespace Smooth

variable {t : Token} {ts us : List Token}

/-- Nothing is smooth. -/
theorem nil : Smooth [] := ⟨List.isChain_nil, by simp, by simp⟩

/-- Smooth runs in a row are smooth: none of them begins or ends with what matters. -/
theorem append (h : Smooth ts) (h' : Smooth us) : Smooth (ts ++ us) := by
  refine ⟨List.isChain_append.mpr ⟨h.plain, h'.plain, fun t ht u hu => ?_⟩, fun t ht => ?_, fun t ht => ?_⟩
  · exact ⟨fun hcomma => h.last t ht hcomma.1, fun hassign => (h'.first u hu).2 hassign.2⟩
  · cases ts with
    | nil => exact h'.first t ht
    | cons a ts => exact h.first t ht
  · rw [List.getLast?_append] at ht
    cases hus : us.getLast? with
    | none =>
      rw [hus] at ht
      exact h.last t ht
    | some u =>
      rw [hus] at ht
      exact h'.last t (hus ▸ ht)

/-- A token that is harmless is smooth on its own. -/
theorem single (h : t.Harmless) : Smooth [t] := by
  refine ⟨List.isChain_singleton t, fun u hu => ?_, fun u hu => ?_⟩
  · cases hu
    exact ⟨h.1, h.2.1⟩
  · cases hu
    exact h.2.2

/-- It may stand in front of a smooth run. -/
theorem cons (ht : t.Harmless) (h : Smooth ts) : Smooth (t :: ts) := (single ht).append h

/-- Two of them may enclose it. -/
theorem enclosed {u : Token} (ht : t.Harmless) (h : Smooth ts) (hu : u.Harmless) : Smooth (t :: ts ++ [u]) :=
  (cons ht h).append (single hu)

/-- So may braces. -/
theorem braced (h : Smooth ts) : Smooth (Statement.braced ts) :=
  enclosed (Token.harmless_symbol (by decide)) h (Token.harmless_symbol (by decide))

/-- Runs of tokens that may follow each other, the second one any plain run that ends with no comma. -/
theorem join (h : Smooth ts) (hts : ts ≠ []) (h' : Plain us) (hus : us ≠ [])
    (hlast : ∀ u ∈ us.getLast?, u ≠ .symbol .comma) (hjoint : ∀ t ∈ ts.getLast?, ∀ u ∈ us.head?, t.Follows u) :
    Smooth (ts ++ us) := by
  refine ⟨List.isChain_append.mpr ⟨h.plain, h', hjoint⟩, ?_, ?_⟩
  · rw [List.head?_append_of_ne_nil ts hts]
    exact h.first
  · rw [List.getLast?_append_of_ne_nil ts hus]
    exact hlast

/-- A closing parenthesis may stand behind what ends with no comma. -/
theorem parenthesized (h : Smooth ts) : Smooth (.symbol .lparen :: ts ++ [.symbol .rparen]) := by
  have hfront : Smooth (.symbol .lparen :: ts) := cons (Token.harmless_symbol (by decide)) h
  refine join hfront (by simp) (List.isChain_singleton _) (by simp) (by simp) fun a ha u hu => ?_
  cases hu
  exact ⟨fun hcomma => hfront.last a ha hcomma.1, by simp⟩

/-- A comma may stand in front of what starts with no closing parenthesis. -/
theorem comma (h : Smooth ts) (hts : ts ≠ []) (h' : Smooth us) (hus : us ≠ []) :
    Smooth (ts ++ .symbol .comma :: us) := by
  obtain ⟨u, us, rfl⟩ := List.exists_cons_of_ne_nil hus
  have hback : Plain (.symbol .comma :: u :: us) :=
    List.isChain_cons_cons.mpr ⟨⟨fun hclose => (h'.first u rfl).1 hclose.2, by simp⟩, h'.plain⟩
  refine join h hts hback (by simp) ?_ fun a _ v hv => ?_
  · rw [List.getLast?_cons_cons]
    exact h'.last
  · cases hv
    exact ⟨by simp, by simp⟩

/-- An equals sign may stand behind what ends with no closing parenthesis. -/
theorem assign (h : Smooth ts) (hts : ts ≠ []) (hlast : .symbol .rparen ∉ ts.getLast?) (h' : Smooth us) :
    Smooth (ts ++ .symbol .assign :: us) := by
  have hback : Plain (.symbol .assign :: us) :=
    List.isChain_cons.mpr ⟨fun u _ => ⟨by simp, by simp⟩, h'.plain⟩
  refine join h hts hback (by simp) (fun u hu => ?_) fun a ha v hv => ?_
  · cases us with
    | nil =>
      cases hu
      simp
    | cons b us =>
      rw [List.getLast?_cons_cons] at hu
      exact h'.last u hu
  · cases hv
    exact ⟨by simp, fun hclose => hlast (hclose.1 ▸ ha)⟩

end Smooth

namespace Derives

variable {d : Dialect}

/-- No expression is written as nothing. -/
theorem expression_ne_nil {rank : Nat} {e : Expression} {ts : List Token} (h : Derives d (.expression rank e) ts) :
    ts ≠ [] := by
  generalize hx : Phrase.expression rank e = x at h
  induction h generalizing rank e with
  | loosen _ ih =>
    cases hx
    exact ih rfl
  | literal | name | globalName | globalAt | placeholder | group | unary | binary | ternary => simp
  | _ => cases hx

/-- Neither are arguments, if there are any. -/
theorem commandArgs_ne_nil {arg : Expression} {rest : List Expression} {ts : List Token}
    (h : Derives d (.commandArgs (arg :: rest)) ts) : ts ≠ [] := by
  cases h with
  | lastCommandArg h => exact h.expression_ne_nil
  | commandArg => simp
  | trailingComma => simp

/-- In the documented grammar a target ends with a name or a bracket. -/
theorem target_last {t : Target} {ts : List Token} (h : Derives .documented (.target t) ts) :
    ts ≠ [] ∧ .symbol .rparen ∉ ts.getLast? := by
  cases h with
  | targetName n => simp
  | targetGlobalName n => simp
  | targetGlobalAt =>
    refine ⟨by simp, ?_⟩
    rw [List.getLast?_concat]
    simp
  | groupedTarget h => cases h

open Token in
/-- The tokens of a phrase of the documented grammar are plain. -/
theorem smooth {x : Phrase} {ts : List Token} (h : Derives .documented x ts) : Smooth ts := by
  induction h with
  | literal p value => exact .single (harmless_literal value)
  | name p n => exact .single (harmless_ident n)
  | globalName p n | targetGlobalName n =>
    exact .cons (harmless_keyword _) (.cons (harmless_symbol (by decide)) (.single (harmless_ident n)))
  | globalAt p _ ih | targetGlobalAt _ ih =>
    exact .enclosed (harmless_keyword _) (.cons (harmless_symbol (by decide)) ih) (harmless_symbol (by decide))
  | placeholder p n _ ih =>
    exact .enclosed (harmless_symbol (by decide)) (.cons (harmless_ident n) ih) (harmless_symbol (by decide))
  | group _ ih => exact ih.parenthesized
  | unary p op _ ih => exact .cons (harmless_unary op) ih
  | binary p op _ _ ihleft ihright => exact ihleft.append (.cons (harmless_binary op) ihright)
  | ternary p _ _ _ ihcondition ihthen ihelse =>
    have hfront := ihcondition.append (.cons (harmless_symbol (s := .question) (by decide)) ihthen)
    exact hfront.append (.cons (harmless_symbol (by decide)) ihelse)
  | loosen _ ih => exact ih
  | noPlaceholderArgs => exact .nil
  | placeholderArg _ _ iharg ihrest => exact (iharg.cons (harmless_symbol (by decide))).append ihrest
  | noCommandArgs => exact .nil
  | lastCommandArg _ ih => exact ih
  | commandArg harg hrest iharg ihrest => exact iharg.comma harg.expression_ne_nil ihrest hrest.commandArgs_ne_nil
  | trailingComma h => cases h
  | targetName n => exact .single (harmless_ident n)
  | groupedTarget h => cases h
  | assign inLoop p htarget _ ihtarget ihvalue =>
    exact ihtarget.assign htarget.target_last.1 htarget.target_last.2 ihvalue
  | ifThen p _ _ ihcondition ihthen => exact (ihcondition.cons (harmless_keyword _)).append ihthen.braced
  | ifElse p _ _ _ ihcondition ihthen ihelse =>
    have hfront := (ihcondition.cons (harmless_keyword .ifWord)).append ihthen.braced
    exact hfront.append (ihelse.braced.cons (harmless_keyword _))
  | elseIf p q _ _ _ ihcondition ihthen ihelse =>
    have hfront := (ihcondition.cons (harmless_keyword .ifWord)).append ihthen.braced
    exact hfront.append (ihelse.cons (harmless_keyword _))
  | whileLoop inLoop p _ _ ihcondition ihbody => exact (ihcondition.cons (harmless_keyword _)).append ihbody.braced
  | forLoop inLoop p counter _ _ _ ihstart ihstop ihbody =>
    have hcounter : Smooth [.keyword .forWord, .ident counter] := .cons (harmless_keyword _) (.single (harmless_ident _))
    have hstart := hcounter.assign (by simp) (by simp) ihstart
    exact (hstart.append (ihstop.cons (harmless_symbol (s := .colon) (by decide)))).append ihbody.braced
  | block p _ ih => exact ih.braced
  | bareCommand inLoop p n => exact .single (harmless_command n)
  | command inLoop p n _ ih => exact ih.parenthesized.cons (harmless_command n)
  | breakLoop p | continueLoop p | returnScript inLoop p => exact .single (harmless_keyword _)
  | expression inLoop p _ ih => exact ih
  | noStatements inLoop => exact .nil
  | semicolon _ ih => exact ih.cons (harmless_symbol (by decide))
  | statement _ _ ihs ihrest => exact ihs.append ihrest

/-- A run of statements that is accepted is of the documented grammar just if it is plain. -/
theorem documented_iff_plain {inLoop : Bool} {body : List Statement} {ts : List Token}
    (h : Derives .accepted (.statements inLoop body) ts) : Derives .documented (.statements inLoop body) ts ↔ Plain ts :=
  ⟨fun hdocumented => hdocumented.smooth.plain, h.documented⟩

end Derives

end EventScript
