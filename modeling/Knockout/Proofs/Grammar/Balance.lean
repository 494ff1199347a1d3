import Knockout.Proofs.Grammar.Spelling
import Knockout.Proofs.Lexing.Delimiters

/-!
# Delimiters of definitions

What the grammar spells leaves as many braces and brackets open as there are before it, and so every
spelled definition closes whatever it opens: `Definition.Spelled.closes`.
-/

namespace Knockout

/-- After the tokens that a grammar reads as much is open as before them. -/
def Grammar.Balanced (G : Grammar α) : Prop :=
  ∀ tokens a rest, G tokens a rest → ∀ braces brackets,
    Symbol.closes braces brackets (Token.symbols tokens) =
      Symbol.closes braces brackets (Token.symbols rest)

namespace Grammar.Balanced

variable {G : Grammar α}

/-- Entries leave as much open as each of them does. -/
lemma entries (balanced : Balanced G) : Balanced (Entries G) := by
  intro tokens as rest spelled
  induction spelled with
  | nil => exact fun _ _ => rfl
  | cons entry comma more ih =>
    intro braces brackets
    rw [balanced _ _ _ entry]
    cases comma with
    | absent => exact ih braces brackets
    | present comma =>
      rw [Token.symbols_cons, comma]
      exact ih braces brackets

/-- Entries between brackets. -/
lemma bracketed (balanced : Balanced G) {o : Token} (opening : o.kind = .symbol .lbracket) :
    ∀ tokens as rest, Enclosed G .rbracket tokens as rest → ∀ braces brackets,
      Symbol.closes braces brackets (Token.symbols (o :: tokens)) =
        Symbol.closes braces brackets (Token.symbols rest) := by
  intro tokens as rest body braces brackets
  obtain ⟨entries, close⟩ := body
  rw [Token.symbols_cons, opening]
  show Symbol.closes braces (brackets + 1) (Token.symbols tokens) = _
  rw [balanced.entries _ _ _ entries, Token.symbols_cons, close]
  simp [Kind.symbol?, Symbol.closes]

/-- Entries between braces. -/
lemma sectioned (balanced : Balanced G) (word : Keyword) : Balanced (Section word G) := by
  intro tokens as rest spelled braces brackets
  obtain ⟨key, opening, entries, close⟩ := spelled
  simp only [Token.symbols_cons, key, opening]
  show Symbol.closes (braces + 1) brackets (Token.symbols _) = _
  rw [balanced.entries _ _ _ entries, Token.symbols_cons, close]
  simp [Kind.symbol?, Symbol.closes]

end Grammar.Balanced

open Grammar (Balanced)

/-- A number is no symbol. -/
lemma Token.SpellsNumber.symbol? {t : Token} {n : UInt32} (spells : t.SpellsNumber n) :
    t.kind.symbol? = none := by
  obtain ⟨kind, -⟩ := spells
  rw [kind]
  rfl

/-- A position is no symbol. -/
lemma Token.SpellsPosition.symbol? {t : Token} {p : Position} (spells : t.SpellsPosition p) :
    t.kind.symbol? = none := by
  cases spells with
  | word kind => rw [kind]; rfl
  | string kind _ => rw [kind]; rfl

/-- An attribute of the header leaves nothing open. -/
lemma Header.Item.balanced : Balanced Header.Item.Spelled := by
  intro tokens item rest spelled braces brackets
  cases spelled with
  | name key colon value | venue key colon value =>
    simp only [Token.symbols_cons, key, colon, value]
    rfl
  | teamCount key colon value =>
    simp only [Token.symbols_cons, key, colon, value.symbol?]
    rfl

/-- An attribute of a player leaves nothing open. -/
lemma Player.Item.balanced : Balanced Player.Item.Spelled := by
  intro tokens item rest spelled braces brackets
  cases spelled with
  | position key colon value | number key colon value | age key colon value =>
    simp only [Token.symbols_cons, key, colon, value.symbol?]
    rfl

/-- A player closes what it opens. -/
lemma Player.balanced : Balanced Player.Tree.Spelled := by
  intro tokens tree rest spelled braces brackets
  obtain ⟨key, colon, name, opening, items⟩ := spelled
  rw [← Player.Item.balanced.bracketed opening _ _ _ items]
  simp only [Token.symbols_cons, key, colon, name]
  rfl

/-- A team closes what it opens. -/
lemma Team.balanced : Balanced Team.Tree.Spelled := by
  intro tokens tree rest spelled braces brackets
  obtain ⟨key, colon, name, opening, players⟩ := spelled
  rw [← Player.balanced.bracketed opening _ _ _ players]
  simp only [Token.symbols_cons, key, colon, name]
  rfl

/-- A minute leaves nothing open. -/
lemma Scorer.minute_balanced : Balanced Scorer.MinuteSpelled := by
  intro tokens minute rest spelled braces brackets
  obtain ⟨key, colon, value⟩ := spelled
  simp only [Token.symbols_cons, key, colon, value.symbol?]
  rfl

/-- A scorer closes what it opens. -/
lemma Scorer.balanced : Balanced Scorer.Tree.Spelled := by
  intro tokens tree rest spelled braces brackets
  obtain ⟨key, colon, player, opening, minutes⟩ := spelled
  rw [← Scorer.minute_balanced.bracketed opening _ _ _ minutes]
  simp only [Token.symbols_cons, key, colon, player]
  rfl

/-- An attribute of a match closes what it opens. -/
lemma Fixture.Item.balanced : Balanced Fixture.Item.Spelled := by
  intro tokens item rest spelled braces brackets
  cases spelled with
  | result key colon value =>
    simp only [Token.symbols_cons, key, colon, value]
    rfl
  | scorers key colon opening list =>
    rw [← Scorer.balanced.bracketed opening _ _ _ list]
    simp only [Token.symbols_cons, key, colon]
    rfl

/-- A match closes what it opens. -/
lemma Fixture.balanced : Balanced Fixture.Tree.Spelled := by
  intro tokens tree rest spelled braces brackets
  obtain ⟨key, colon, first, versus, second, opening, items⟩ := spelled
  rw [← Fixture.Item.balanced.bracketed opening _ _ _ items]
  simp only [Token.symbols_cons, key, colon, first, versus, second]
  rfl

/-- A phase closes what it opens. -/
lemma Round.balanced : Balanced Round.Spelled := by
  intro tokens round rest spelled braces brackets
  obtain ⟨key, colon, opening, fixtures⟩ := spelled
  rw [← Fixture.balanced.bracketed opening _ _ _ fixtures]
  simp only [Token.symbols_cons, key, colon]
  rfl

/-- A spelled definition closes what it opens and nothing else. -/
theorem Definition.Spelled.closes {tokens : List Token} {d : Definition}
    (spelled : Spelled tokens d) : Symbol.closes 0 0 (Token.symbols tokens) = true := by
  obtain ⟨header, teams, rounds⟩ := spelled
  rw [Header.Item.balanced.sectioned _ _ _ _ header, Team.balanced.sectioned _ _ _ _ teams,
    Round.balanced.sectioned _ _ _ _ rounds]
  rfl

end Knockout
