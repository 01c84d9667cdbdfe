import EventScript.Proofs.Parse.Located

/-!
# Names as they are written

The name of a command is the word behind its sign in upper case, and the name of a placeholder is the word behind its sign as it stands
there. So it is wherever in a text they are, and whatever else is in it (`WritesCommand.name_eq`, `WritesPlaceholder.name_eq`).
-/

namespace EventScript

/-! ## Words -/

namespace Token

variable {n : String} {follow : List Char}

/-- Behind the sign of a command the name is read as one token. -/
def IsCommandName (n : String) : Prop := ∃ t, Lexeme ('#' :: n.toList) t

/-- A command name is a word of characters that may stand in names. -/
theorem isCommandName_iff : IsCommandName n ↔ n.toList ≠ [] ∧ ∀ c ∈ n.toList, isNameChar c = true := by
  constructor
  · rintro ⟨t, c, rest, hword, hread⟩
    obtain ⟨rfl, rfl⟩ : '#' = c ∧ n.toList = rest := List.cons.inj hword
    have hcommand : readCommand n.toList = .ok (t, n.toList.length) := hread
    simp only [readCommand] at hcommand
    split_ifs at hcommand with hempty
    have hall : n.toList.takeWhile isNameChar = n.toList :=
      (List.takeWhile_prefix _).eq_of_length (congrArg Prod.snd (Except.ok.inj hcommand))
    rw [hall] at hempty
    exact ⟨by simpa using hempty, List.takeWhile_eq_self_iff.mp hall⟩
  · rintro ⟨hne, hchars⟩
    refine ⟨.command (Text.upper n), '#', n.toList, rfl, ?_⟩
    show readCommand n.toList = _
    simp only [readCommand]
    rw [List.takeWhile_eq_self_iff.mpr hchars, if_neg (by simpa using hne), String.ofList_toList]

instance : Decidable (IsCommandName n) :=
  decidable_of_iff (n.toList ≠ [] ∧ n.toList.all isNameChar = true) (by rw [isCommandName_iff, List.all_eq_true])

/-- A command word is read up to what lengthens no name. -/
theorem IsCommandName.read (h : IsCommandName n) (hfollow : Text.Stops isNameChar follow) :
    read '#' (n.toList ++ follow) = .ok (.command (Text.upper n), n.toList.length) := by
  obtain ⟨hne, hchars⟩ := isCommandName_iff.mp h
  show readCommand (n.toList ++ follow) = _
  simp only [readCommand]
  rw [hfollow.takeWhile, List.takeWhile_eq_self_iff.mpr hchars, if_neg (by simpa using hne), String.ofList_toList]

/-- A name is read up to what lengthens no name. -/
theorem ReadsAsName.read (h : ReadsAsName n) (hfollow : Text.Stops isNameChar follow) :
    ∃ c rest, n.toList = c :: rest ∧ StartsWord c ∧ Token.read c (rest ++ follow) = .ok (.ident n, rest.length) := by
  obtain ⟨c, rest, hn, -⟩ := id h
  obtain ⟨hstart, hrest, hkeyword⟩ := (readsAsName_iff hn).mp h
  refine ⟨c, rest, hn, hstart, ?_⟩
  rw [hstart.read, readWord, hfollow.takeWhile, List.takeWhile_eq_self_iff.mpr hrest, ← hn, String.ofList_toList, hkeyword]

end Token

/-! ## Reading a word -/

section

variable {spelling : String} {follow : List Char}

/-- A hash sign and a command name are scanned to the command, up to what stops the name. -/
theorem scanFrom_commandWord (hname : Token.IsCommandName spelling) (hfollow : Text.Stops isNameChar follow) (p : Position) :
    scanFrom 0 p ('#' :: (spelling.toList ++ follow)) =
      (scanFrom 0 ((p.advance '#').past spelling.toList) follow).cons ⟨.command (Text.upper spelling), p⟩ := by
  rw [scanFrom, hname.read hfollow, ← scanFrom_pass]
  rfl

/-- A percent sign is scanned to itself. -/
theorem scanFrom_percent (p : Position) (cs : List Char) :
    scanFrom 0 p ('%' :: cs) = (scanFrom 0 (p.advance '%') cs).cons ⟨.symbol .percent, p⟩ := rfl

/-- A name is scanned to itself, up to what stops it. -/
theorem scanFrom_word (hname : Token.ReadsAsName spelling) (hfollow : Text.Stops isNameChar follow) (p : Position) :
    scanFrom 0 p (spelling.toList ++ follow) = (scanFrom 0 (p.past spelling.toList) follow).cons ⟨.ident spelling, p⟩ := by
  obtain ⟨c, rest, hspelling, hstart, hread⟩ := hname.read hfollow
  have hcomment : commentLength? c (rest ++ follow) = none := by
    unfold commentLength?
    split
    · cases hstart.symbol
    · cases hstart.symbol
    · rfl
  rw [hspelling, List.cons_append, scanFrom, Token.isSeparator_of_read hread, hcomment, hread, Position.past_cons, ← scanFrom_pass]
  rfl

end

/-! ## The tokens from a place on -/

variable {t u : LocatedToken} {front front' rest rest' ts : List LocatedToken} {p : Position}

/-- What the first character that is left of a text adds to the tokens: nothing, the token that starts there, or their end. -/
theorem scanFrom_cons_cases (pass : Nat) (p : Position) (c : Char) (cs : List Char) :
    (∃ pass', (scanFrom pass p (c :: cs)).tokens = (scanFrom pass' (p.advance c) cs).tokens) ∨
      (∃ pass' token, (scanFrom pass p (c :: cs)).tokens = ⟨token, p⟩ :: (scanFrom pass' (p.advance c) cs).tokens) ∨
      (scanFrom pass p (c :: cs)).tokens = [] := by
  cases pass with
  | succ pass => exact .inl ⟨pass, rfl⟩
  | zero =>
    rw [scanFrom]
    split_ifs
    · exact .inl ⟨0, rfl⟩
    split
    next n _ => exact .inl ⟨n, rfl⟩
    next =>
      split
      next token n _ => exact .inr (.inl ⟨n, token, rfl⟩)
      next => exact .inr (.inr rfl)

/-- Reading on from a place gives no tokens before it. -/
theorem notBehind_of_mem_scanFrom {cs : List Char} {pass : Nat} (ht : t ∈ (scanFrom pass p cs).tokens) :
    p.NotBehind t.position := by
  induction cs generalizing pass p with
  | nil => cases pass <;> cases ht
  | cons c cs ih =>
    have hlater : ∀ pass', t ∈ (scanFrom pass' (p.advance c) cs).tokens → p.NotBehind t.position := fun pass' ht => by
      have hnot := ih ht
      have hbefore := p.before_advance c
      unfold Position.NotBehind at hnot ⊢
      unfold Position.Before at hbefore
      omega
    obtain ⟨pass', htokens⟩ | ⟨pass', token, htokens⟩ | htokens := scanFrom_cons_cases pass p c cs <;> rw [htokens] at ht
    · exact hlater pass' ht
    · rcases List.mem_cons.mp ht with rfl | ht
      · exact .refl p
      · exact hlater pass' ht
    · cases ht

/-- Behind the first character that is left, no token is at the place of it. -/
theorem position_ne_of_mem_scanFrom {c : Char} {cs : List Char} {pass : Nat}
    (ht : t ∈ (scanFrom pass (p.advance c) cs).tokens) : t.position ≠ p := by
  intro heq
  have hnot := notBehind_of_mem_scanFrom ht
  have hbefore := p.before_advance c
  rw [heq] at hnot
  unfold Position.NotBehind at hnot
  unfold Position.Before at hbefore
  omega

/-- From the place of a token on, the tokens are those of the text that is left there. -/
theorem scanFrom_at {before cs : List Char} {pass : Nat} (ht : t ∈ (scanFrom pass p (before ++ cs)).tokens)
    (hplace : t.position = p.past before) :
    ∃ front rest, (scanFrom pass p (before ++ cs)).tokens = front ++ t :: rest ∧ (scanFrom 0 (p.past before) cs).tokens = t :: rest := by
  induction before generalizing pass p with
  | nil =>
    rw [Position.past_nil] at hplace ⊢
    rw [List.nil_append] at ht ⊢
    cases cs with
    | nil => cases pass <;> cases ht
    | cons c cs =>
      cases pass with
      | succ pass => exact absurd hplace (position_ne_of_mem_scanFrom ht)
      | zero =>
        obtain ⟨pass', htokens⟩ | ⟨pass', token, htokens⟩ | htokens := scanFrom_cons_cases 0 p c cs <;> rw [htokens] at ht ⊢
        · exact absurd hplace (position_ne_of_mem_scanFrom ht)
        · rcases List.mem_cons.mp ht with rfl | ht
          · exact ⟨[], _, rfl, rfl⟩
          · exact absurd hplace (position_ne_of_mem_scanFrom ht)
        · cases ht
  | cons c before ih =>
    rw [Position.past_cons] at hplace ⊢
    obtain ⟨pass', htokens⟩ | ⟨pass', token, htokens⟩ | htokens := scanFrom_cons_cases pass p c (before ++ cs) <;>
      rw [List.cons_append, htokens] at ht ⊢
    · exact ih ht hplace
    · rcases List.mem_cons.mp ht with rfl | ht
      · have hbefore := p.before_past (List.cons_ne_nil c before)
        rw [Position.past_cons, ← hplace] at hbefore
        exact absurd hbefore p.not_before_self
      · obtain ⟨front, rest, hfront, hrest⟩ := ih ht hplace
        exact ⟨⟨token, p⟩ :: front, rest, by rw [hfront, List.cons_append], hrest⟩
    · cases ht

/-- In tokens that stand in order there is one at a place, and so are those behind it. -/
theorem InOrder.unique (h : InOrder ts) (hts : ts = front ++ t :: rest) (hts' : ts = front' ++ u :: rest')
    (hplace : t.position = u.position) : t = u ∧ rest = rest' := by
  have hnot : ∀ {ahead behind : List LocatedToken} {v w : LocatedToken}, ts = ahead ++ v :: behind → w ∈ behind →
      v.position ≠ w.position := fun {ahead behind v w} heq hw hplace => by
    rw [heq] at h
    have hbefore := @InOrder.before [v] behind v w h.right (List.mem_singleton_self v) hw
    rw [hplace] at hbefore
    exact w.position.not_before_self hbefore
  obtain ⟨more, hfront, hrest⟩ | ⟨more, hfront, hrest⟩ := List.append_eq_append_iff.mp (hts.symm.trans hts')
  · cases more with
    | nil => exact List.cons.inj hrest
    | cons v more =>
      obtain ⟨rfl, rfl⟩ := List.cons.inj hrest
      exact absurd hplace (hnot hts (List.mem_append_right more List.mem_cons_self))
  · cases more with
    | nil => exact (List.cons.inj hrest).imp Eq.symm Eq.symm
    | cons v more =>
      obtain ⟨rfl, rfl⟩ := List.cons.inj hrest
      exact absurd hplace.symm (hnot hts' (List.mem_append_right more List.mem_cons_self))

/-- The tokens of a text from the place of one of them on: those of the text that is left there. -/
theorem scanFrom_of_infix {text : String} {before cs : List Char} (htext : text.toList = before ++ cs)
    (hts : t :: ts <:+: (scan text).tokens) (hplace : t.position = .behind before) :
    ∃ more, (scanFrom 0 (.behind before) cs).tokens = t :: ts ++ more := by
  obtain ⟨ahead, more, hsplit⟩ := hts
  rw [List.append_assoc, List.cons_append] at hsplit
  have hpast : (⟨1, 1⟩ : Position).past before = .behind before := Position.past_behind [] before
  have hscan : scan text = scanFrom 0 ⟨1, 1⟩ (before ++ cs) := by rw [scan, htext]
  have ht : t ∈ (scanFrom 0 ⟨1, 1⟩ (before ++ cs)).tokens := by
    rw [← hscan, ← hsplit]
    exact List.mem_append_right ahead List.mem_cons_self
  obtain ⟨front, rest, hfront, hrest⟩ := scanFrom_at ht (hplace.trans hpast.symm)
  rw [← hscan] at hfront
  rw [hpast] at hrest
  refine ⟨more, ?_⟩
  rw [hrest, ← ((scan_in_order text).unique hsplit.symm hfront rfl).2, List.cons_append]

/-! ## Nodes as they are written -/

/-- An accepted text has this node, and at the place of the node it has the name in this spelling, behind one of these fronts. -/
structure Writes (Front : List Char → Prop) (text : String) (node : Node) (spelling : String) : Prop where
  accepted : ∃ s, Script.parse text = .ok s ∧ node ∈ s.nodes
  written : ∃ before front after, text.toList = before ++ (front ++ (spelling.toList ++ after)) ∧ Front front ∧
    Text.Stops isNameChar after ∧ node.position = .behind before

/-- An accepted text has this command, and writes the name of it so. -/
def WritesCommand (text spelling : String) (p : Position) (name : String) (args : List Expression) : Prop :=
  Writes (· = ['#']) text (.statement (.command p name args)) spelling

/-- An accepted text has this placeholder, and writes the name of it so. -/
def WritesPlaceholder (text spelling : String) (p : Position) (name : String) (args : List Expression) : Prop :=
  Writes (fun front => ∃ gap, Filler gap ∧ front = '%' :: gap) text (.expression (.placeholder p name args)) spelling

/-- A command stands at its own token. -/
theorem Located.command_token {inLoop : Bool} {p : Position} {name : String} {args : List Expression} {ts : List LocatedToken}
    (h : Located (.statement inLoop (.command p name args)) ts) : [⟨.command name, p⟩] <:+: ts := by
  cases h with
  | bareCommand => exact List.infix_rfl
  | command => exact ⟨[], _, rfl⟩

/-- A placeholder stands at its percent sign, and its name is behind it. -/
theorem Located.placeholder_tokens {rank : Nat} {p : Position} {name : String} {args : List Expression} {ts : List LocatedToken}
    (h : Located (.expression rank (.placeholder p name args)) ts) :
    ∃ q, [⟨.symbol .percent, p⟩, ⟨.ident name, q⟩] <:+: ts := by
  generalize hx : Phrase.expression rank (.placeholder p name args) = x at h
  induction h generalizing rank with
  | placeholder p q r n =>
    cases hx
    exact ⟨q, [], _, rfl⟩
  | group q r _ ih =>
    cases hx
    obtain ⟨q', hwithin⟩ := ih rfl
    exact ⟨q', hwithin.trans (List.infix_append [_] _ [_])⟩
  | loosen _ ih =>
    cases hx
    exact ih rfl
  | _ => cases hx

variable {text spelling name : String} {args : List Expression} {node : Node} {Front : List Char → Prop}

/-- A written node is read from a stretch of tokens, and those that start at its place are read from the text there. -/
theorem Writes.scanFrom (h : Writes Front text node spelling) :
    ∃ front after stretch, Front front ∧ Text.Stops isNameChar after ∧ node.ReadFrom stretch ∧
      ∀ {t ts}, t :: ts <:+: stretch → t.position = node.position →
        ∃ more, (EventScript.scanFrom 0 node.position (front ++ (spelling.toList ++ after))).tokens = t :: ts ++ more := by
  obtain ⟨⟨s, hparse, hnode⟩, before, front, after, htext, hfront, hafter, hplace⟩ := h
  have hmem : node ∈ Node.nodesOfAll (s.statements.map .statement) := Node.nodesOfAll_statements s.statements ▸ hnode
  obtain ⟨stretch, hread, hstretch⟩ := (Script.inPlace_of_parse hparse).readFrom node hmem
  refine ⟨front, after, stretch, hfront, hafter, hread, fun hts ht => ?_⟩
  rw [hplace] at ht ⊢
  exact scanFrom_of_infix htext (hts.trans hstretch) ht

/-- A command has the name that is written in the text, in upper case. -/
theorem WritesCommand.name_eq (hname : Token.IsCommandName spelling) (h : WritesCommand text spelling p name args) :
    name = Text.upper spelling := by
  obtain ⟨_, after, stretch, rfl, hafter, hread, htokens⟩ := h.scanFrom
  cases hread with | statement inLoop hlocated _ =>
  obtain ⟨more, hmore⟩ := htokens hlocated.command_token rfl
  have htoken := List.cons.inj ((congrArg TokenList.tokens (scanFrom_commandWord hname hafter p)).symm.trans hmore)
  exact (Token.command.inj (congrArg LocatedToken.token htoken.1)).symm

/-- A placeholder has the name that is written in the text. -/
theorem WritesPlaceholder.name_eq (hname : Token.ReadsAsName spelling) (h : WritesPlaceholder text spelling p name args) :
    name = spelling := by
  obtain ⟨_, after, stretch, ⟨gap, hgap, rfl⟩, hafter, hread, htokens⟩ := h.scanFrom
  cases hread with | expression hlocated _ =>
  obtain ⟨q, hwithin⟩ := hlocated.placeholder_tokens
  obtain ⟨more, hmore⟩ := htokens hwithin rfl
  have hscan : scanFrom 0 p ('%' :: (gap ++ (spelling.toList ++ after))) = _ := scanFrom_percent p _
  rw [hgap.scanFrom, scanFrom_word hname hafter] at hscan
  have htoken := List.cons.inj (List.cons.inj ((congrArg TokenList.tokens hscan).symm.trans hmore)).2
  exact (Token.ident.inj (congrArg LocatedToken.token htoken.1)).symm

/-! ## Scripts of one name -/

/-- A command without arguments is parsed from its name. -/
theorem parse_command (hname : Token.IsCommandName spelling) :
    Script.parse ("#" ++ spelling) = .ok ⟨[.command ⟨1, 1⟩ (Text.upper spelling) []]⟩ := by
  have htext : ("#" ++ spelling).toList = '#' :: (spelling.toList ++ []) := by
    rw [String.toList_append, List.append_nil]
    rfl
  rw [Script.parse, scan, htext, scanFrom_commandWord hname (.nil _)]
  rfl

/-- A placeholder without arguments is parsed from its name. -/
theorem parse_placeholder (hname : Token.ReadsAsName spelling) :
    Script.parse ("%" ++ spelling ++ "%") = .ok ⟨[.expression ⟨1, 1⟩ (.placeholder ⟨1, 1⟩ spelling [])]⟩ := by
  have htext : ("%" ++ spelling ++ "%").toList = '%' :: (spelling.toList ++ ['%']) := by
    rw [String.toList_append, String.toList_append]
    rfl
  rw [Script.parse, scan, htext, scanFrom_percent, scanFrom_word hname (.cons (by decide) _)]
  rfl

/-- A command name can be written in a text. -/
theorem exists_writesCommand (hname : Token.IsCommandName spelling) :
    ∃ text p args, WritesCommand text spelling p (Text.upper spelling) args := by
  refine ⟨"#" ++ spelling, ⟨1, 1⟩, [], ⟨_, parse_command hname, List.mem_singleton_self _⟩, [], ['#'], [], ?_, rfl, .nil _, rfl⟩
  rw [String.toList_append, List.append_nil]
  rfl

/-- A placeholder name can be written in a text. -/
theorem exists_writesPlaceholder (hname : Token.ReadsAsName spelling) :
    ∃ text p args, WritesPlaceholder text spelling p spelling args := by
  refine ⟨"%" ++ spelling ++ "%", ⟨1, 1⟩, [], ⟨_, parse_placeholder hname, ?_⟩, [], ['%'], ['%'], ?_, ⟨[], .nil, rfl⟩,
    .cons (by decide) _, rfl⟩
  · exact List.mem_cons_of_mem _ (List.mem_singleton_self _)
  · rw [String.toList_append, String.toList_append]
    rfl

end EventScript
