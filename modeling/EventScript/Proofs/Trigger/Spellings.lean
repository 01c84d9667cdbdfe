import EventScript.Proofs.Parse.Words
import EventScript.Proofs.Registries
import EventScript.Proofs.Run.Basic
import EventScript.Proofs.Text.Cases
import EventScript.Trigger.Activation

/-!
# Spellings of a name

Commands are registered under their names in upper case and placeholders under theirs in lower case, so that a name means the same in
either case. `names_in_either_case` says how far that goes: a command is also meant by its name in upper case, and a placeholder by its
name in lower case. In the other case the name means it too, unless there is a character in it whose case cannot be undone.
-/

namespace EventScript

/-! ## Spellings that scripts use -/

namespace Registry

variable {α : Type} {use : Registry α → String → Option α → Prop} {r : Registry α} {name spelling : String}

/-- The spelling names what is registered under the name, and scripts that use the spelling find it. -/
structure Names (use : Registry α → String → Option α → Prop) (r : Registry α) (name spelling : String) : Prop
    extends r.SameName name spelling where
  used (x : α) : use (r.insert name x) spelling (some x)

/-- The spelling does not name what is registered under the name, and scripts that use the spelling find what they found before. -/
structure Misses (use : Registry α → String → Option α → Prop) (r : Registry α) (name spelling : String) : Prop
    extends r.OtherName name spelling where
  used (x : α) : use (r.insert name x) spelling (r.get? spelling)

theorem names_of_fold_eq (hfold : r.fold spelling = r.fold name)
    (huse : ∀ x, use (r.insert name x) spelling ((r.insert name x).get? spelling)) : r.Names use name spelling where
  toSameName := sameName_of_fold_eq hfold
  used x := (sameName_of_fold_eq hfold).found x ▸ huse x

theorem misses_of_fold_ne (hfold : r.fold spelling ≠ r.fold name)
    (huse : ∀ x, use (r.insert name x) spelling ((r.insert name x).get? spelling)) : r.Misses use name spelling where
  toOtherName := otherName_of_fold_ne hfold
  used x := (otherName_of_fold_ne hfold).missed x ▸ huse x

end Registry

namespace Engine

variable {H : Type}

/-- The host of a script that runs in an engine, directly or as that of a trigger. -/
inductive Surrounds (caller : Caller) (handOver : HandOver H) : Host (Engine H) → Prop
  | directly (hook : Hook H) (deadline : Option Deadline) : Surrounds caller handOver (surroundings caller hook deadline handOver)
  | inTrigger (a : Activation H) (deadline : Option Deadline) (runSync : RunSync H) :
    Surrounds caller handOver (triggerSurroundings a caller deadline handOver runSync)

/-- There are scripts that write the spelling as a command, and where neither the hook nor the engine itself deals with it, each of
them runs the given command, or fails if none is given. -/
def RunsCommand (r : Registry (Command H)) (spelling : String) (command : Option (Command H)) : Prop :=
  (∃ text p name args, WritesCommand text spelling p name args) ∧
    ∀ text p name args, WritesCommand text spelling p name args →
      ∀ caller handOver host, Surrounds caller handOver host → ∀ values s s', s'.world.commands = r →
        host.offerCommand name values s = (.ok false, s') →
          host.runCommand name values s =
            (match command with
              | some c => Run.ofAct (perform handOver (c caller values))
              | none => Run.fail (.unknownCommand (Text.upper spelling))) s'

/-- There are scripts that write the spelling as a placeholder, and where neither the hook nor the engine itself answers it, in each of
them it comes to the answer of the given placeholder, or to `null` if none is given. -/
def ResolvesPlaceholder (r : Registry (Placeholder H)) (spelling : String) (placeholder : Option (Placeholder H)) : Prop :=
  (∃ text p name args, WritesPlaceholder text spelling p name args) ∧
    ∀ text p name args, WritesPlaceholder text spelling p name args →
      ∀ caller handOver host, Surrounds caller handOver host → ∀ values s s', s'.world.placeholders = r →
        Run.ofAct (host.offerPlaceholder name values) s = (.ok none, s') →
          host.resolve name values s =
            (match placeholder with
              | some x => Run.ofAct (perform handOver (x caller values))
              | none => pure .null) s'

theorem Surrounds.command? {caller : Caller} {handOver : HandOver H} {host : Host (Engine H)} (h : Surrounds caller handOver host)
    (name : String) (e : Engine H) :
    host.command? name e = (e.commands.get? name).map fun c values => perform handOver (c caller values) := by
  cases h <;> rfl

theorem Surrounds.placeholder? {caller : Caller} {handOver : HandOver H} {host : Host (Engine H)}
    (h : Surrounds caller handOver host) (name : String) (e : Engine H) :
    host.placeholder? name e = (e.placeholders.get? name).map fun x values => perform handOver (x caller values) := by
  cases h <;> rfl

/-- What scripts run that write a spelling as a command is what is registered under it. -/
theorem runsCommand {r : Registry (Command H)} (hfold : r.fold = Text.upper) {spelling : String}
    (hname : Token.IsCommandName spelling) : RunsCommand r spelling (r.get? spelling) := by
  obtain ⟨text, p, args, hwrites⟩ := exists_writesCommand hname
  refine ⟨⟨text, p, _, args, hwrites⟩, ?_⟩
  intro text p name args hwrites caller handOver host hhost values s s' hcommands hoffer
  obtain rfl := hwrites.name_eq hname
  have hfound : host.command? (Text.upper spelling) s'.world =
      (r.get? spelling).map fun c values => perform handOver (c caller values) := by
    rw [hhost.command?, hcommands, Registry.get?, Registry.get?, hfold, Text.upper_upper]
  unfold Host.runCommand
  rw [Run.bind_ok hoffer, if_neg Bool.false_ne_true, Run.get_bind, hfound, Text.upper_upper]
  cases r.get? spelling <;> rfl

/-- What scripts find that write a spelling as a placeholder is what is registered under it. -/
theorem resolvesPlaceholder {r : Registry (Placeholder H)} {spelling : String} (hname : Token.ReadsAsName spelling) :
    ResolvesPlaceholder r spelling (r.get? spelling) := by
  obtain ⟨text, p, args, hwrites⟩ := exists_writesPlaceholder hname
  refine ⟨⟨text, p, _, args, hwrites⟩, ?_⟩
  intro text p name args hwrites caller handOver host hhost values s s' hplaceholders hoffer
  obtain rfl := hwrites.name_eq hname
  have hfound : host.placeholder? name s'.world = (r.get? name).map fun x values => perform handOver (x caller values) := by
    rw [hhost.placeholder?, hplaceholders]
  unfold Host.resolve
  rw [Run.bind_ok hoffer]
  dsimp only
  rw [Run.get_bind, hfound]
  cases r.get? name <;> rfl

open Text in
/-- A name of a command means what is registered under it as it is and in upper case, and in lower case unless there is a capital in it
whose lower case is that of another letter. A name of a placeholder does as it is and in lower case, and in upper case unless there is a
character in it whose upper case is that of others, or a small sigma that the capital in its place does not become. In the cases that are
left out the spelling is another name. -/
theorem names_in_either_case {e : Engine H} (hcommands : e.commands.fold = upper) (hplaceholders : e.placeholders.fold = lower)
    (n : String) :
    ((Token.IsCommandName n → e.commands.Names RunsCommand n n) ∧
      (Token.IsCommandName (upper n) → e.commands.Names RunsCommand n (upper n)) ∧
      (Token.IsCommandName (lower n) →
        ((∀ c ∈ n.toList, ¬IsOneWayCapital c) → e.commands.Names RunsCommand n (lower n)) ∧
        ((∃ c ∈ n.toList, IsOneWayCapital c) → e.commands.Misses RunsCommand n (lower n)))) ∧
    ((Token.ReadsAsName n → e.placeholders.Names ResolvesPlaceholder n n) ∧
      (Token.ReadsAsName (lower n) → e.placeholders.Names ResolvesPlaceholder n (lower n)) ∧
      (Token.ReadsAsName (upper n) →
        ((∀ c ∈ n.toList, ¬IsOneWaySmall c) ∧ SigmasInPlace [] n.toList →
          e.placeholders.Names ResolvesPlaceholder n (upper n)) ∧
        ((∃ c ∈ n.toList, IsOneWaySmall c) ∨ ¬SigmasInPlace [] n.toList →
          e.placeholders.Misses ResolvesPlaceholder n (upper n)))) := by
  have hruns : ∀ {spelling}, Token.IsCommandName spelling → ∀ x,
      RunsCommand (e.commands.insert n x) spelling ((e.commands.insert n x).get? spelling) :=
    fun hname x => runsCommand (r := e.commands.insert n x) hcommands hname
  have hresolves : ∀ {spelling}, Token.ReadsAsName spelling → ∀ x,
      ResolvesPlaceholder (e.placeholders.insert n x) spelling ((e.placeholders.insert n x).get? spelling) :=
    fun hname x => resolvesPlaceholder hname
  refine ⟨⟨fun hname => ?_, fun hname => ?_, fun hname => ⟨fun hnone => ?_, ?_⟩⟩,
    ⟨fun hname => ?_, fun hname => ?_, fun hname => ⟨fun hnone => ?_, fun hsome => ?_⟩⟩⟩
  · exact Registry.names_of_fold_eq rfl (hruns hname)
  · exact Registry.names_of_fold_eq (by rw [hcommands, upper_upper]) (hruns hname)
  · exact Registry.names_of_fold_eq (by rwa [hcommands, upper_lower_iff]) (hruns hname)
  · rintro ⟨c, hc, honeWay⟩
    refine Registry.misses_of_fold_ne (fun hfold => ?_) (hruns hname)
    rw [hcommands, upper_lower_iff] at hfold
    exact hfold c hc honeWay
  · exact Registry.names_of_fold_eq rfl (hresolves hname)
  · exact Registry.names_of_fold_eq (by rw [hplaceholders, lower_lower]) (hresolves hname)
  · exact Registry.names_of_fold_eq (by rwa [hplaceholders, lower_upper_iff]) (hresolves hname)
  · refine Registry.misses_of_fold_ne (fun hfold => ?_) (hresolves hname)
    rw [hplaceholders, lower_upper_iff] at hfold
    rcases hsome with ⟨c, hc, honeWay⟩ | hplace
    · exact hfold.1 c hc honeWay
    · exact hplace hfold.2

/-- In a new engine a name that ends in a sigma is known in both cases, one with another theta or a sharp `s` in it is not. -/
theorem names_in_either_case_new :
    let e : Engine Unit := .new {} .attached true () (.memory ∅) .empty (.steady 1)
    (e.commands.Names RunsCommand "οδος" "ΟΔΟΣ" ∧ e.placeholders.Names ResolvesPlaceholder "οδος" "ΟΔΟΣ") ∧
      e.commands.Misses RunsCommand "ϴ" "θ" ∧ e.placeholders.Misses ResolvesPlaceholder "straße" "STRASSE" := by
  intro e
  have hsigma : Text.upper "οδος" = "ΟΔΟΣ" := by decide +kernel
  have htheta : Text.lower "ϴ" = "θ" := by decide +kernel
  have hsharp : Text.upper "straße" = "STRASSE" := by decide +kernel
  have hnames := fun n => names_in_either_case (e := e) rfl rfl n
  have hcommand := (hnames "οδος").1.2.1
  have hplaceholder := (hnames "οδος").2.2.2
  have htwoThetas := (hnames "ϴ").1.2.2
  have htwoLetters := (hnames "straße").2.2.2
  rw [hsigma] at hcommand hplaceholder
  rw [htheta] at htwoThetas
  rw [hsharp] at htwoLetters
  have hplain : ∀ c ∈ "οδος".toList, ¬Text.IsOneWaySmall c := fun c hc => of_decide_eq_true
    (List.all_eq_true.mp (by decide +kernel : "οδος".toList.all fun c => decide (¬Text.IsOneWaySmall c)) c hc)
  refine ⟨⟨hcommand (by decide +kernel), ?_⟩, (htwoThetas (by decide +kernel)).2 ⟨'ϴ', by decide +kernel, by decide +kernel⟩, ?_⟩
  · exact (hplaceholder ⟨'Ο', "ΔΟΣ".toList, by decide +kernel, by decide +kernel⟩).1 ⟨hplain, by decide +kernel⟩
  · exact (htwoLetters ⟨'S', "TRASSE".toList, by decide +kernel, by decide +kernel⟩).2
      (.inl ⟨'ß', by decide +kernel, by decide +kernel⟩)

/-- A command that is registered as `ϴ` is not the one that a script runs under the lower case of this name. -/
theorem command_in_lower_case_false :
    let r : Registry (Command Unit) := .empty Text.upper
    Token.IsCommandName "ϴ" ∧ Text.lower "ϴ" = "θ" ∧ Token.IsCommandName "θ" ∧
      Script.parse "#θ" = .ok ⟨[.command ⟨1, 1⟩ "Θ" []]⟩ ∧ ∀ c : Command Unit, (r.insert "ϴ" c).get? "Θ" = none := by
  intro r
  have htheta : Token.IsCommandName "θ" := by decide +kernel
  have hparse := parse_command htheta
  have hupper : Text.upper "θ" = "Θ" := by decide +kernel
  rw [hupper] at hparse
  refine ⟨by decide +kernel, by decide +kernel, htheta, hparse, fun c => ?_⟩
  have hfold : r.fold "ϴ" ≠ r.fold "Θ" := by decide +kernel
  rw [Registry.get?_insert, if_neg hfold]
  exact Std.ExtTreeMap.getElem?_empty

end Engine

end EventScript
