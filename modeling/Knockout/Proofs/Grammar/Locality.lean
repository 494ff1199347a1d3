import Knockout.Proofs.Grammar.Spelling
import Mathlib.Tactic.Lemma

/-!
# Spelling is local

What a grammar spells is a front of the tokens, and it is spelled whatever tokens follow that front
(`Local`). Every rule of the grammar keeps this, so a part of a definition can be read off by itself
and put in front of other tokens (`Local.append`).
-/

namespace Knockout

variable {α : Type} {G : Grammar α} {tokens rest : List Token}

/-- What the grammar spells is a front of the tokens and does not depend on those after it. -/
structure Local (G : Grammar α) : Prop where
  splits : ∀ {tokens a rest}, G tokens a rest →
    ∃ front, tokens = front ++ rest ∧ ∀ other, G (front ++ other) a other

/-- What is spelled with nothing after it is spelled in front of anything. -/
lemma Local.append {a : α} (locality : Local G) (spelled : G tokens a []) (rest : List Token) :
    G (tokens ++ rest) a rest := by
  obtain ⟨front, rfl, anywhere⟩ := locality.splits spelled
  rw [List.append_nil]
  exact anywhere rest

/-- A comma that may be there is the same in front of any other tokens. -/
lemma OptionalComma.local (comma : OptionalComma tokens rest) :
    ∃ front, tokens = front ++ rest ∧ ∀ other, OptionalComma (front ++ other) other := by
  cases comma with
  | absent => exact ⟨[], rfl, fun _ => .absent⟩
  | @present c _ comma => exact ⟨[c], rfl, fun _ => .present comma⟩

namespace Local

/-- Entries are spelled in the same way whatever comes after them. -/
lemma entries (each : Local G) : Local (Entries G) where
  splits := by
    intro tokens as rest spelled
    induction spelled with
    | nil => exact ⟨[], rfl, fun _ => .nil⟩
    | @cons _ _ mid next _ _ entry comma _ ih =>
      obtain ⟨first, rfl, anyFirst⟩ := each.splits entry
      obtain ⟨gap, rfl, anyGap⟩ := comma.local
      obtain ⟨later, rfl, anyLater⟩ := ih
      refine ⟨first ++ gap ++ later, by simp only [List.append_assoc], fun other => ?_⟩
      simp only [List.append_assoc]
      exact .cons (anyFirst _) (anyGap _) (anyLater other)

/-- Entries up to a closing symbol are spelled in the same way whatever comes after it. -/
lemma enclosed (each : Local G) (closer : Symbol) : Local (Enclosed G closer) where
  splits := by
    intro tokens as rest spelled
    obtain @⟨_, _, c, _, spelled, close⟩ := spelled
    obtain ⟨front, rfl, anywhere⟩ := each.entries.splits spelled
    refine ⟨front ++ [c], by simp, fun other => .intro (c := c) ?_ close⟩
    rw [List.append_assoc]
    exact anywhere (c :: other)

/-- A section is spelled in the same way whatever comes after it. -/
lemma sectioned (each : Local G) (word : Keyword) : Local (Section word G) where
  splits := by
    intro tokens as rest spelled
    cases spelled with
    | intro key opening body =>
      obtain ⟨front, rfl, anywhere⟩ := (each.enclosed .rbrace).splits body
      exact ⟨_ :: _ :: front, rfl, fun other => .intro key opening (anywhere other)⟩

end Local

/-- An attribute of the header does not depend on what comes after it. -/
lemma Header.Item.local : Local Header.Item.Spelled where
  splits := by
    intro tokens item rest spelled
    cases spelled with
    | name key colon value => exact ⟨[_, _, _], rfl, fun _ => .name key colon value⟩
    | teamCount key colon value => exact ⟨[_, _, _], rfl, fun _ => .teamCount key colon value⟩
    | venue key colon value => exact ⟨[_, _, _], rfl, fun _ => .venue key colon value⟩

/-- An attribute of a player does not depend on what comes after it. -/
lemma Player.Item.local : Local Player.Item.Spelled where
  splits := by
    intro tokens item rest spelled
    cases spelled with
    | position key colon value => exact ⟨[_, _, _], rfl, fun _ => .position key colon value⟩
    | number key colon value => exact ⟨[_, _, _], rfl, fun _ => .number key colon value⟩
    | age key colon value => exact ⟨[_, _, _], rfl, fun _ => .age key colon value⟩

/-- A player does not depend on what comes after it. -/
lemma Player.Tree.local : Local Player.Tree.Spelled where
  splits := by
    intro tokens t rest spelled
    cases spelled with
    | intro key colon name opening items =>
      obtain ⟨front, rfl, anywhere⟩ := (Player.Item.local.enclosed .rbracket).splits items
      exact ⟨_ :: _ :: _ :: _ :: front, rfl,
        fun other => .intro key colon name opening (anywhere other)⟩

/-- A team does not depend on what comes after it. -/
lemma Team.Tree.local : Local Team.Tree.Spelled where
  splits := by
    intro tokens t rest spelled
    cases spelled with
    | intro key colon name opening players =>
      obtain ⟨front, rfl, anywhere⟩ := (Player.Tree.local.enclosed .rbracket).splits players
      exact ⟨_ :: _ :: _ :: _ :: front, rfl,
        fun other => .intro key colon name opening (anywhere other)⟩

/-- A minute does not depend on what comes after it. -/
lemma Scorer.minute_local : Local Scorer.MinuteSpelled where
  splits := by
    intro tokens n rest spelled
    obtain ⟨key, colon, value⟩ := spelled
    exact ⟨[_, _, _], rfl, fun _ => .intro key colon value⟩

/-- A scorer does not depend on what comes after it. -/
lemma Scorer.Tree.local : Local Scorer.Tree.Spelled where
  splits := by
    intro tokens t rest spelled
    cases spelled with
    | intro key colon player opening minutes =>
      obtain ⟨front, rfl, anywhere⟩ := (Scorer.minute_local.enclosed .rbracket).splits minutes
      exact ⟨_ :: _ :: _ :: _ :: front, rfl,
        fun other => .intro key colon player opening (anywhere other)⟩

/-- An attribute of a match does not depend on what comes after it. -/
lemma Fixture.Item.local : Local Fixture.Item.Spelled where
  splits := by
    intro tokens item rest spelled
    cases spelled with
    | result key colon value => exact ⟨[_, _, _], rfl, fun _ => .result key colon value⟩
    | scorers key colon opening list =>
      obtain ⟨front, rfl, anywhere⟩ := (Scorer.Tree.local.enclosed .rbracket).splits list
      exact ⟨_ :: _ :: _ :: front, rfl, fun other => .scorers key colon opening (anywhere other)⟩

/-- A match does not depend on what comes after it. -/
lemma Fixture.Tree.local : Local Fixture.Tree.Spelled where
  splits := by
    intro tokens t rest spelled
    cases spelled with
    | intro key colon first versus second opening items =>
      obtain ⟨front, rfl, anywhere⟩ := (Fixture.Item.local.enclosed .rbracket).splits items
      exact ⟨_ :: _ :: _ :: _ :: _ :: _ :: front, rfl,
        fun other => .intro key colon first versus second opening (anywhere other)⟩

/-- A phase does not depend on what comes after it. -/
lemma Round.local : Local Round.Spelled where
  splits := by
    intro tokens r rest spelled
    cases spelled with
    | intro key colon opening fixtures =>
      obtain ⟨front, rfl, anywhere⟩ := (Fixture.Tree.local.enclosed .rbracket).splits fixtures
      exact ⟨_ :: _ :: _ :: front, rfl, fun other => .intro key colon opening (anywhere other)⟩

end Knockout
