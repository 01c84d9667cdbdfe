import EventScript.Proofs.Parse.Joining
import EventScript.Proofs.Token.Lexemes

/-!
# Where texts and faults are

A parse does not look at places but hands them on: on tokens at other places it does the same, and reports its fault at the other
place (`statementsAlike`). So the place of a fault is one of those that the parse was given, of a token or of the end of the text
(`position_of_fault`), and each of these is the place of a character of the text or of its end: `lexing_lossless`.
-/

namespace EventScript

namespace Ending

/-- The place that a parse sees behind the last token. -/
def position : Ending → Position
  | .complete p => p
  | .broken x => x.position

end Ending

namespace Parse

/-- Places that no token has may be moved, and the tokens are where they were. -/
theorem beside_of_fixed {f : Position → Position} (c : Cursor) (htokens : ∀ u ∈ c.tokens, f u.position = u.position)
    (hending : f c.ending.position = c.ending.position) : Beside f [] c c := by
  refine ⟨?_, rfl, rfl, .inl ⟨rfl, ?_⟩⟩
  · rw [List.append_nil]
    refine (List.map_congr_left fun u hu => ?_).trans (List.map_id _) |>.symm
    rw [LocatedToken.relocate, htokens u hu]
    rfl
  · cases hc : c.ending with
    | complete p =>
      rw [hc] at hending
      exact congrArg Ending.complete hending.symm
    | broken x =>
      rw [hc] at hending
      exact congrArg (fun p => Ending.broken ⟨x.cause, p⟩) hending.symm

/-- A fault is at the place of a token, or where the tokens end. -/
theorem position_of_fault {fuel : Nat} {inBlock : Bool} {c : Cursor} {x : ParseFault}
    (h : (statements fuel inBlock).run c = .error (.fault x)) :
    x.position ∈ c.tokens.map LocatedToken.position ∨ x.position = c.ending.position := by
  by_contra hnot
  obtain ⟨htokens, hending⟩ := not_or.mp hnot
  -- the fault moves with its place, and the tokens do not show it
  let f : Position → Position := fun p => if p = x.position then ⟨p.line + 1, p.column⟩ else p
  have hfixed : ∀ p, p ≠ x.position → f p = p := fun p hp => if_neg hp
  have hbeside : Beside f [] c c := beside_of_fixed c
    (fun u hu => hfixed _ fun heq => htokens (heq ▸ List.mem_map_of_mem hu)) (hfixed _ (Ne.symm hending))
  have hmoved := ((statementsAlike f [] fuel).statements fuel (Nat.le_refl _) inBlock c c hbeside).fault x rfl h
  rw [h] at hmoved
  have hposition : x.position = f x.position := congrArg ParseFault.position (ParseStop.fault.inj (Except.error.inj hmoved))
  have hline := congrArg Position.line hposition
  simp [f] at hline

end Parse

theorem Script.position_of_fault {text : String} {x : ParseFault} (h : Script.parse text = .error x) :
    x.position.IsOf text.toList := by
  rcases Parse.position_of_fault (Script.run_of_parse_error h) with hmem | hend
  · obtain ⟨u, hu, hposition⟩ := List.mem_map.mp hmem
    exact hposition ▸ position_of_token hu
  · cases hending : (scan text).ending with
    | complete q =>
      rw [hending] at hend
      exact ⟨text.toList, [], (List.append_nil _).symm, hend.trans (position_of_complete hending)⟩
    | broken y =>
      rw [hending] at hend
      exact hend ▸ position_of_broken hending

/-- A text whose tokens can be read to its end is a row of lexemes, each behind white space and comments and with more of them behind
the last, and each token stands at the first character of its lexeme. The end is behind the whole text, and the places of the tokens
and of the end are in order. What is wrong with a text is reported at the place of one of its characters or at its end. A text has at
most as many tokens as characters, and the parse of them comes to an end. -/
theorem lexing_lossless (text : String) :
    (∀ q, (scan text).ending = .complete q →
      (∃ pieces last, text.toList = pieces.flatMap Piece.text ++ last ∧ (∀ x ∈ pieces, x.WellFormed) ∧ Trailing last ∧
        (scan text).tokens = Piece.located [] pieces) ∧
      q = .behind text.toList ∧ ((scan text).tokens.map LocatedToken.position ++ [q]).Pairwise Position.Before) ∧
    (∀ x, (scan text).ending = .broken x ∨ Script.parse text = .error x → x.position.IsOf text.toList) ∧
    (scan text).tokens.length ≤ text.toList.length ∧
    (Parse.statements (Parse.fuelFor (scan text).tokens.length) false).run ⟨(scan text).tokens, (scan text).ending, 0, 0⟩ ≠
      .error .outOfFuel := by
  refine ⟨fun q hq => ?_, fun x hx => hx.elim position_of_broken Script.position_of_fault, length_tokens_le text,
    Parse.statements_ne_outOfFuel (scan text) false 0 0⟩
  have hend := position_of_complete hq
  obtain ⟨pieces, last, htext, hpieces, htokens, hrest⟩ := scan_dissected text
  rw [hq] at hrest
  cases hrest with
  | complete hlast =>
    refine ⟨⟨pieces, last, htext, hpieces, hlast, htokens⟩, hend, ?_⟩
    rw [htokens, hend, htext]
    exact Piece.located_in_order last hpieces

/-- Behind a comment the next line starts with a token, and a character that cannot be read is reported where it stands. -/
theorem lexing_lossless_two_lines :
    (∃ q, (scan "1 //\nx").ending = .complete q ∧ q = .behind "1 //\nx".toList) ∧
      ∃ x, (scan "1\n @").ending = .broken x ∧ x.position.IsOf "1\n @".toList := by
  have hcomplete : (scan "1 //\nx").ending = .complete ⟨2, 2⟩ := by decide +kernel
  have hbroken : (scan "1\n @").ending = .broken ⟨.unexpectedCharacter '@', ⟨2, 2⟩⟩ := by decide +kernel
  exact ⟨⟨_, hcomplete, ((lexing_lossless "1 //\nx").1 _ hcomplete).2.1⟩,
    ⟨_, hbroken, (lexing_lossless "1\n @").2.1 _ (.inl hbroken)⟩⟩

end EventScript
