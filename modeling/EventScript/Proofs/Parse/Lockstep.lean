import EventScript.Proofs.Parse.Ending
import EventScript.Proofs.Script.Places
import EventScript.Proofs.Token.Joining

/-!
# Two parses in lockstep

A parse is run on some tokens, and beside it another one on the same tokens at other places, perhaps with more behind them: either
nothing, or a semicolon and any other tokens. `Mirrors` says that the second one comes to the same result, at the other places, and
if nothing is behind the tokens also to the same fault. The rules take both parses one step further at a time. Where the first one
looks at the end of its text the second one may be looking at a semicolon; the rule for `peek` leaves it to the reader to treat
both alike.
-/

namespace EventScript.Parse

variable {α β : Type} {f : Position → Position} {more : List LocatedToken}

/-- The second cursor is before the same tokens as the first one, at the places that `f` gives, with `more` behind them. -/
structure Beside (f : Position → Position) (more : List LocatedToken) (c d : Cursor) : Prop where
  tokens : d.tokens = c.tokens.map (·.relocate f) ++ more
  depth : d.depth = c.depth
  loops : d.loops = c.loops
  behind : more = [] ∧ d.ending = c.ending.relocate f ∨ ∃ p rest, more = ⟨.symbol .semicolon, p⟩ :: rest

namespace Beside

variable {c d : Cursor} {t : LocatedToken} {ts : List LocatedToken}

/-- The second cursor is before the same token, elsewhere, and before the others behind it. -/
theorem of_cons (h : Beside f more c d) (ht : c.tokens = t :: ts) :
    d.tokens = t.relocate f :: (ts.map (·.relocate f) ++ more) := by
  rw [h.tokens, ht]
  rfl

/-- Both may pass over it. -/
theorem tail (h : Beside f more c d) (ht : c.tokens = t :: ts) :
    Beside f more { c with tokens := c.tokens.tail } { d with tokens := d.tokens.tail } := by
  refine ⟨?_, h.depth, h.loops, h.behind⟩
  rw [h.of_cons ht, ht]
  rfl

end Beside

/-- From the second cursor `m'` comes to the result that `m` comes to from the first one, changed by `r`, and the cursors behind them
are beside each other, if `P` holds of the first of these. A fault of `m` is also one of `m'` if nothing is behind the tokens. -/
structure Mirrors (f : Position → Position) (more : List LocatedToken) (P : Cursor → Prop) (m m' : Parse α) (r : α → α)
    (c d : Cursor) : Prop where
  result : ∀ a c₁, m.run c = .ok (a, c₁) → P c₁ → ∃ d₁, m'.run d = .ok (r a, d₁) ∧ Beside f more c₁ d₁
  fault : ∀ x, more = [] → m.run c = .error (.fault x) → m'.run d = .error (.fault (x.relocate f))

/-- What holds in every place. -/
def Always (_ : Cursor) : Prop := True

/-- Wherever the cursors are beside each other, `m'` mirrors `m`. -/
def Alike (f : Position → Position) (more : List LocatedToken) (m m' : Parse α) (r : α → α) : Prop :=
  ∀ c d, Beside f more c d → Mirrors f more Always m m' r c d

section run

variable {m : Parse α} {g : α → Parse β} {c : Cursor}

/-- Behind a part that gives a result the rest goes on from there. -/
theorem run_bind_of_ok {a : α} {c₁ : Cursor} (h : m.run c = .ok (a, c₁)) : (m >>= g).run c = (g a).run c₁ := by
  rw [StateT.run_bind, h]
  rfl

/-- A part that stops is the end of the whole. -/
theorem run_bind_of_error {s : ParseStop} (h : m.run c = .error s) : (m >>= g).run c = .error s := by
  rw [StateT.run_bind, h]
  rfl

/-- Before a token one sees it and its place. -/
theorem peek_of_cons {t : LocatedToken} {ts : List LocatedToken} (h : c.tokens = t :: ts) :
    Parse.peek.run c = .ok ((some t.token, t.position), c) := by
  obtain ⟨tokens, ending, depth, loops⟩ := c
  cases h
  rfl

/-- At the end of a text one sees the place of the end. -/
theorem peek_of_complete {p : Position} (h : c.tokens = []) (hending : c.ending = .complete p) :
    Parse.peek.run c = .ok ((none, p), c) := by
  obtain ⟨tokens, ending, depth, loops⟩ := c
  cases h
  cases hending
  rfl

/-- Where a text is broken off there is the fault of that. -/
theorem peek_of_broken {x : ParseFault} (h : c.tokens = []) (hending : c.ending = .broken x) :
    Parse.peek.run c = .error (.fault x) := by
  obtain ⟨tokens, ending, depth, loops⟩ := c
  cases h
  cases hending
  rfl

end run

namespace Mirrors

variable {P : Cursor → Prop} {c d : Cursor}

section rules

variable {m m' : Parse α} {r : α → α}

/-- The same result is mirrored, changed as it has to be. -/
theorem pure {a a' : α} (h : Beside f more c d) (ha : a' = r a) :
    Mirrors f more P (Pure.pure a) (Pure.pure a') r c d := by
  refine ⟨fun b c₁ hrun _ => ?_, fun x _ hrun => ?_⟩
  · cases hrun
    exact ⟨d, by rw [ha]; rfl, h⟩
  · cases hrun

/-- A parse without fuel is mirrored by any other. -/
theorem outOfFuel : Mirrors f more P (throw .outOfFuel) m' r c d := by
  refine ⟨fun b c₁ hrun _ => ?_, fun x _ hrun => ?_⟩ <;> cases hrun

/-- A fault is mirrored by the one elsewhere, if nothing is behind the tokens. -/
theorem throwFault {x x' : ParseFault} (hx : more = [] → x' = x.relocate f) :
    Mirrors f more P (throw (.fault x)) (throw (.fault x')) r c d := by
  refine ⟨fun b c₁ hrun _ => ?_, fun y hmore hrun => ?_⟩
  · cases hrun
  · cases hrun
    rw [hx hmore]
    rfl

/-- A parse without a result is mirrored by anything, if there is more behind the tokens. -/
theorem stuck (hmore : more ≠ []) (h : Yields m c fun _ _ => False) : Mirrors f more P m m' r c d :=
  ⟨fun _ _ hrun _ => absurd (h.result hrun) id, fun _ hnil => absurd hnil hmore⟩

/-- What is mirrored everywhere is mirrored anywhere. -/
theorem weaken (h : Mirrors f more Always m m' r c d) : Mirrors f more P m m' r c d :=
  ⟨fun a c₁ hrun _ => h.result a c₁ hrun trivial, h.fault⟩

end rules

section steps

variable {r : β → β}

/-- A part of a parse and the rest of it. The rest may be looked at to see where the part ends. -/
theorem bindWhere {m m' : Parse α} {g g' : α → Parse β} {r₁ : α → α} {P₁ : Cursor → Prop}
    (h : Mirrors f more P₁ m m' r₁ c d) (hnil : more = [] → ∀ c₁, P₁ c₁)
    (hwhere : ∀ a c₁, Yields (g a) c₁ fun _ _ => P₁ c₁)
    (hrest : ∀ a c₁ d₁, Beside f more c₁ d₁ → Mirrors f more P (g a) (g' (r₁ a)) r c₁ d₁) :
    Mirrors f more P (m >>= g) (m' >>= g') r c d := by
  refine ⟨fun b c₂ hrun hP => ?_, fun x hmore hrun => ?_⟩
  · cases hm : m.run c with
    | error s =>
      rw [run_bind_of_error hm] at hrun
      cases hrun
    | ok s =>
      obtain ⟨a, c₁⟩ := s
      rw [run_bind_of_ok hm] at hrun
      obtain ⟨d₁, hm', hbeside⟩ := h.result a c₁ hm ((hwhere a c₁).result hrun)
      rw [run_bind_of_ok hm']
      exact (hrest a c₁ d₁ hbeside).result b c₂ hrun hP
  · cases hm : m.run c with
    | error s =>
      rw [run_bind_of_error hm] at hrun
      cases hrun
      exact run_bind_of_error (h.fault x hmore hm)
    | ok s =>
      obtain ⟨a, c₁⟩ := s
      rw [run_bind_of_ok hm] at hrun
      obtain ⟨d₁, hm', hbeside⟩ := h.result a c₁ hm (hnil hmore c₁)
      rw [run_bind_of_ok hm']
      exact (hrest a c₁ d₁ hbeside).fault x hmore hrun

/-- Two parts are mirrored one after the other. -/
theorem bind {m m' : Parse α} {g g' : α → Parse β} {r₁ : α → α} (h : Mirrors f more Always m m' r₁ c d)
    (hrest : ∀ a c₁ d₁, Beside f more c₁ d₁ → Mirrors f more P (g a) (g' (r₁ a)) r c₁ d₁) :
    Mirrors f more P (m >>= g) (m' >>= g') r c d :=
  bindWhere h (fun _ _ => trivial) (fun _ _ => Yields.any) hrest

/-- What a parse ends in, changed. -/
theorem map {m m' : Parse α} {r₁ : α → α} {k k' : α → β} (h : Mirrors f more P m m' r₁ c d)
    (hk : ∀ a, k' (r₁ a) = r (k a)) :
    Mirrors f more P (m >>= fun a => Pure.pure (k a)) (m' >>= fun a => Pure.pure (k' a)) r c d := by
  refine ⟨fun b c₂ hrun hP => ?_, fun x hmore hrun => ?_⟩
  · cases hm : m.run c with
    | error s =>
      rw [run_bind_of_error hm] at hrun
      cases hrun
    | ok s =>
      obtain ⟨a, c₁⟩ := s
      rw [run_bind_of_ok hm] at hrun
      cases hrun
      obtain ⟨d₁, hm', hbeside⟩ := h.result a c₂ hm hP
      refine ⟨d₁, ?_, hbeside⟩
      rw [run_bind_of_ok hm', hk]
      rfl
  · cases hm : m.run c with
    | error s =>
      rw [run_bind_of_error hm] at hrun
      cases hrun
      exact run_bind_of_error (h.fault x hmore hm)
    | ok s =>
      rw [run_bind_of_ok hm] at hrun
      cases hrun

/-- Both parses take one step. -/
theorem step {m m' : Parse α} {g g' : α → Parse β} {a a' : α} {c₁ d₁ : Cursor} (hm : m.run c = .ok (a, c₁))
    (hm' : m'.run d = .ok (a', d₁)) (h : Mirrors f more P (g a) (g' a') r c₁ d₁) :
    Mirrors f more P (m >>= g) (m' >>= g') r c d := by
  refine ⟨fun b c₂ hrun hP => ?_, fun x hmore hrun => ?_⟩
  · rw [run_bind_of_ok hm] at hrun
    rw [run_bind_of_ok hm']
    exact h.result b c₂ hrun hP
  · rw [run_bind_of_ok hm] at hrun
    rw [run_bind_of_ok hm']
    exact h.fault x hmore hrun

/-- Looking at the next token. At the end of the first text the second parse is there too, or looks at a semicolon. -/
theorem peek {g g' : Option Token × Position → Parse β} (h : Beside f more c d)
    (htoken : ∀ t ts, c.tokens = t :: ts →
      Mirrors f more P (g (some t.token, t.position)) (g' (some t.token, f t.position)) r c d)
    (hend : ∀ p next p', c.tokens = [] →
      (more = [] ∧ next = none ∧ p' = f p ∨ more ≠ [] ∧ next = some (.symbol .semicolon)) →
        Mirrors f more P (g (none, p)) (g' (next, p')) r c d) :
    Mirrors f more P (Parse.peek >>= g) (Parse.peek >>= g') r c d := by
  cases hc : c.tokens with
  | cons t ts => exact step (peek_of_cons hc) (peek_of_cons (h.of_cons hc)) (htoken t ts hc)
  | nil =>
    have hd : d.tokens = more := by
      rw [h.tokens, hc]
      rfl
    cases hending : c.ending with
    | broken x =>
      have hpeek := run_bind_of_error (g := g) (peek_of_broken hc hending)
      refine ⟨fun _ _ hrun _ => ?_, fun y hmore hrun => ?_⟩
      · rw [hpeek] at hrun
        cases hrun
      · rw [hpeek] at hrun
        cases hrun
        have hbehind := (h.behind.resolve_right (by rw [hmore]; simp)).2
        rw [hending] at hbehind
        exact run_bind_of_error (peek_of_broken (hd.trans hmore) hbehind)
    | complete p =>
      rcases h.behind with ⟨hmore, hbehind⟩ | ⟨p', rest, hmore⟩
      · rw [hending] at hbehind
        exact step (peek_of_complete hc hending) (peek_of_complete (hd.trans hmore) hbehind)
          (hend p none (f p) hc (.inl ⟨hmore, rfl, rfl⟩))
      · refine step (peek_of_complete hc hending) (peek_of_cons (hd.trans hmore)) (hend p _ p' hc (.inr ⟨?_, rfl⟩))
        rw [hmore]
        exact List.cons_ne_nil _ _

/-- A failure is mirrored where its cause does not hang on what is behind the tokens. -/
theorem fail {cause cause' : ParseCause} (h : Beside f more c d) (hcause : more = [] → cause' = cause) :
    Mirrors f more P (Parse.fail cause : Parse β) (Parse.fail cause') r c d := by
  refine peek h (fun t ts _ => throwFault fun hmore => ?_) fun p next p' _ hnext => throwFault fun hmore => ?_
  · rw [hcause hmore]
    rfl
  · rcases hnext with ⟨-, -, hp⟩ | ⟨hne, -⟩
    · rw [hcause hmore, hp]
      rfl
    · exact absurd hmore hne

/-- Behind a fault nothing is read. -/
theorem failing {g g' : α → Parse β} {cause cause' : ParseCause} (h : Beside f more c d)
    (hcause : more = [] → cause' = cause) :
    Mirrors f more P (Parse.fail cause >>= g) (Parse.fail cause' >>= g') r c d := by
  have hnone : Yields (Parse.fail cause >>= g) c fun _ _ => False := .bind .fail
  refine ⟨fun b c₂ hrun _ => absurd (hnone.result hrun) id, fun x hmore hrun => ?_⟩
  have hfail : Mirrors f more Always (Parse.fail cause : Parse α) (Parse.fail cause') id c d := fail h hcause
  cases hm : (Parse.fail cause : Parse α).run c with
  | ok s => exact absurd (Yields.fail.result (Q := fun _ _ => False) hm) id
  | error s =>
    rw [run_bind_of_error hm] at hrun
    cases hrun
    exact run_bind_of_error (hfail.fault x hmore hm)

/-- Both pass over a token. -/
theorem advance {g g' : Unit → Parse β} {t : LocatedToken} {ts : List LocatedToken} (h : Beside f more c d)
    (ht : c.tokens = t :: ts) (hrest : ∀ c₁ d₁, Beside f more c₁ d₁ → Mirrors f more P (g ()) (g' ()) r c₁ d₁) :
    Mirrors f more P (Parse.advance >>= g) (Parse.advance >>= g') r c d :=
  step rfl rfl (hrest _ _ (h.tail ht))

/-- Asking for a symbol that is no semicolon. -/
theorem atSymbol {g g' : Bool → Parse β} {s : Symbol} (hs : s ≠ .semicolon) (h : Beside f more c d)
    (hthere : ∀ t ts, c.tokens = t :: ts → Mirrors f more P (g true) (g' true) r c d)
    (hnot : Mirrors f more P (g false) (g' false) r c d) :
    Mirrors f more P (Parse.atSymbol s >>= g) (Parse.atSymbol s >>= g') r c d := by
  unfold Parse.atSymbol
  rw [bind_assoc, bind_assoc]
  refine peek h (fun t ts ht => ?_) fun p next p' hnil hnext => ?_
  · simp only [pure_bind]
    by_cases htoken : t.token = .symbol s
    · rw [decide_eq_true (congrArg some htoken)]
      exact hthere t ts ht
    · rw [decide_eq_false (fun heq => htoken (Option.some.inj heq))]
      exact hnot
  · have hne : next ≠ some (.symbol s) := by
      rcases hnext with ⟨-, rfl, -⟩ | ⟨-, rfl⟩
      · exact nofun
      · simpa using hs.symm
    simp only [pure_bind]
    rw [decide_eq_false hne, decide_eq_false nofun]
    exact hnot

/-- Both expect a symbol, which is no semicolon. -/
theorem expect {g g' : Unit → Parse β} {s : Symbol} (hs : s ≠ .semicolon) (h : Beside f more c d)
    (hrest : ∀ c₁ d₁, Beside f more c₁ d₁ → Mirrors f more P (g ()) (g' ()) r c₁ d₁) :
    Mirrors f more P (Parse.expect s >>= g) (Parse.expect s >>= g') r c d := by
  unfold Parse.expect
  rw [bind_assoc, bind_assoc]
  refine peek h (fun t ts ht => ?_) fun p next p' hnil hnext => ?_
  · dsimp only
    split
    · exact advance h ht hrest
    · exact failing h fun _ => rfl
  · have hne : next ≠ some (.symbol s) := by
      rcases hnext with ⟨-, rfl, -⟩ | ⟨-, rfl⟩
      · exact nofun
      · simpa using hs.symm
    dsimp only
    rw [if_neg nofun, if_neg hne]
    refine failing h fun hmore => ?_
    rcases hnext with ⟨-, rfl, -⟩ | ⟨hmore', -⟩
    · rfl
    · exact absurd hmore hmore'

/-- Both expect a name. -/
theorem name {g g' : String → Parse β} {cause : ParseCause} (h : Beside f more c d)
    (hrest : ∀ n c₁ d₁, Beside f more c₁ d₁ → Mirrors f more P (g n) (g' n) r c₁ d₁) :
    Mirrors f more P (Parse.name cause >>= g) (Parse.name cause >>= g') r c d := by
  refine bind (show Mirrors f more Always (Parse.name cause) (Parse.name cause) id c d from ?_) hrest
  unfold Parse.name
  refine peek h (fun t ts ht => ?_) fun p next p' hnil hnext => ?_
  · cases t.token with
    | ident n => exact advance h ht fun c₁ d₁ h₁ => pure h₁ rfl
    | _ => exact fail h fun _ => rfl
  · rcases hnext with ⟨-, rfl, -⟩ | ⟨-, rfl⟩ <;> exact fail h fun _ => rfl

/-- Both look at their cursors. -/
theorem get {g g' : Cursor → Parse β} (h : Mirrors f more P (g c) (g' d) r c d) :
    Mirrors f more P (MonadState.get >>= g) (MonadState.get >>= g') r c d :=
  step rfl rfl h

/-- Going a level deeper, in front of the same tokens. -/
theorem descend {g g' : Unit → Parse β} (h : Beside f more c d)
    (hrest : ∀ c₁ d₁, Beside f more c₁ d₁ → c₁.tokens = c.tokens → Mirrors f more P (g ()) (g' ()) r c₁ d₁) :
    Mirrors f more P (Parse.descend >>= g) (Parse.descend >>= g') r c d := by
  unfold Parse.descend
  simp only [bind_assoc]
  have hdeeper : Beside f more { c with depth := c.depth + 1 } { d with depth := d.depth + 1 } :=
    ⟨h.tokens, congrArg (· + 1) h.depth, h.loops, h.behind⟩
  refine step rfl rfl (get ?_)
  have hsame : nestingLimit < d.depth + 1 ↔ nestingLimit < c.depth + 1 := by rw [h.depth]
  by_cases hlimit : nestingLimit < c.depth + 1
  · rw [if_pos hlimit, if_pos (by exact hsame.mpr hlimit)]
    exact failing hdeeper fun _ => rfl
  · rw [if_neg hlimit, if_neg (by exact fun hdeep => hlimit (hsame.mp hdeep))]
    exact step rfl rfl (hrest _ _ hdeeper rfl)

/-- Both come back from a level. -/
theorem ascend {g g' : Unit → Parse β} (h : Beside f more c d)
    (hrest : ∀ c₁ d₁, Beside f more c₁ d₁ → Mirrors f more P (g ()) (g' ()) r c₁ d₁) :
    Mirrors f more P (Parse.ascend >>= g) (Parse.ascend >>= g') r c d :=
  step rfl rfl (hrest _ _ ⟨h.tokens, congrArg (· - 1) h.depth, h.loops, h.behind⟩)

/-- Both come back to the same depth. -/
theorem restoreDepth {g g' : Unit → Parse β} {depth depth' : Nat} (h : Beside f more c d) (hdepth : depth' = depth)
    (hrest : ∀ c₁ d₁, Beside f more c₁ d₁ → Mirrors f more P (g ()) (g' ()) r c₁ d₁) :
    Mirrors f more P (Parse.restoreDepth depth >>= g) (Parse.restoreDepth depth' >>= g') r c d :=
  step rfl rfl (hrest _ _ ⟨h.tokens, hdepth, h.loops, h.behind⟩)

/-- Both go into a loop. -/
theorem enterLoop {g g' : Unit → Parse β} (h : Beside f more c d)
    (hrest : ∀ c₁ d₁, Beside f more c₁ d₁ → Mirrors f more P (g ()) (g' ()) r c₁ d₁) :
    Mirrors f more P (Parse.enterLoop >>= g) (Parse.enterLoop >>= g') r c d :=
  step rfl rfl (hrest _ _ ⟨h.tokens, h.depth, congrArg (· + 1) h.loops, h.behind⟩)

/-- Both come out of it. -/
theorem leaveLoop {g g' : Unit → Parse β} (h : Beside f more c d)
    (hrest : ∀ c₁ d₁, Beside f more c₁ d₁ → Mirrors f more P (g ()) (g' ()) r c₁ d₁) :
    Mirrors f more P (Parse.leaveLoop >>= g) (Parse.leaveLoop >>= g') r c d :=
  step rfl rfl (hrest _ _ ⟨h.tokens, h.depth, congrArg (· - 1) h.loops, h.behind⟩)

end steps

end Mirrors

end EventScript.Parse
