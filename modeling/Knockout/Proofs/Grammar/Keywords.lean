import Knockout.Proofs.Grammar.Spelling
import Mathlib.Tactic.Lemma

/-!
# Keywords of definitions

The keywords among the tokens that spell a definition are those of its syntax tree, one for every
part that a keyword opens and in the same order: `Definition.Spelled.keywords`.
-/

namespace Knockout

/-- The keyword that a token is, if it is one. -/
def Kind.keyword? : Kind → Option Keyword
  | .keyword k => some k
  | _ => none

/-- The keywords among some tokens, in their order. -/
def Token.keywords (tokens : List Token) : List Keyword := tokens.filterMap (·.kind.keyword?)

/-- A token brings its keyword, if it is one, in front of the others. -/
@[simp] lemma Token.keywords_cons (t : Token) (tokens : List Token) :
    keywords (t :: tokens) = t.kind.keyword?.toList ++ keywords tokens := by
  cases word : t.kind.keyword? <;> simp [keywords, word]

/-! ## Keywords of syntax trees -/

/-- The keyword of a player. -/
def Player.Tree.keywords (_ : Player.Tree) : List Keyword := [.player]

/-- The keywords of a team and its players. -/
def Team.Tree.keywords (t : Team.Tree) : List Keyword :=
  .team :: t.players.flatMap Player.Tree.keywords

/-- The keyword of a scorer. -/
def Scorer.Tree.keywords (_ : Scorer.Tree) : List Keyword := [.scorer]

/-- The keywords of an attribute of a match. -/
def Fixture.Item.keywords : Fixture.Item → List Keyword
  | .result _ => []
  | .scorers list => list.flatMap Scorer.Tree.keywords

/-- The keywords of a match and its scorers. -/
def Fixture.Tree.keywords (t : Fixture.Tree) : List Keyword :=
  .fixture :: t.items.flatMap Item.keywords

/-- The keywords of a phase and its matches. -/
def Round.keywords (r : Round) : List Keyword :=
  .phase r.phase :: r.fixtures.flatMap Fixture.Tree.keywords

/-- The keywords of a definition, one for every part that a keyword opens. -/
def Definition.keywords (d : Definition) : List Keyword :=
  .tournament :: .teams :: d.teams.flatMap Team.Tree.keywords ++
    .elimination :: d.rounds.flatMap Round.keywords

/-! ## Keywords of spellings -/

/-- A comma is no keyword. -/
lemma OptionalComma.keywords {tokens rest : List Token} (comma : OptionalComma tokens rest) :
    Token.keywords tokens = Token.keywords rest := by
  cases comma with
  | absent => rfl
  | present comma =>
    rw [Token.keywords_cons, comma]
    rfl

/-- The keywords of the tokens that a grammar reads are those of the tree that they spell. -/
def Grammar.Lists (G : Grammar α) (words : α → List Keyword) : Prop :=
  ∀ tokens a rest, G tokens a rest → Token.keywords tokens = words a ++ Token.keywords rest

namespace Grammar.Lists

variable {G : Grammar α} {words : α → List Keyword}

/-- Entries have the keywords of each of them in turn. -/
lemma entries (lists : Lists G words) : Lists (Entries G) (·.flatMap words) := by
  intro tokens as rest spelled
  induction spelled with
  | nil => rfl
  | cons entry comma more ih =>
    rw [lists _ _ _ entry, comma.keywords, ih]
    exact (List.append_assoc _ _ _).symm

/-- The symbols around entries are no keywords. -/
lemma enclosed (lists : Lists G words) (closer : Symbol) :
    Lists (Enclosed G closer) (·.flatMap words) := by
  intro tokens as rest spelled
  obtain ⟨entries, close⟩ := spelled
  rw [lists.entries _ _ _ entries, Token.keywords_cons, close]
  rfl

/-- A section has its own word in front of the keywords of its entries. -/
lemma sectioned (lists : Lists G words) (word : Keyword) :
    Lists (Section word G) fun as => word :: as.flatMap words := by
  intro tokens as rest spelled
  obtain ⟨key, opening, body⟩ := spelled
  rw [Token.keywords_cons, Token.keywords_cons, key, opening, lists.enclosed _ _ _ _ body]
  rfl

end Grammar.Lists

open Grammar (Lists)

/-- A number is no keyword. -/
lemma Token.SpellsNumber.keyword? {t : Token} {n : UInt32} (spells : t.SpellsNumber n) :
    t.kind.keyword? = none := by
  obtain ⟨kind, -⟩ := spells
  rw [kind]
  rfl

/-- A position is no keyword. -/
lemma Token.SpellsPosition.keyword? {t : Token} {p : Position} (spells : t.SpellsPosition p) :
    t.kind.keyword? = none := by
  cases spells with
  | word kind => rw [kind]; rfl
  | string kind _ => rw [kind]; rfl

/-- The attributes of the header have no keywords. -/
lemma Header.Item.lists : Lists Header.Item.Spelled fun _ => [] := by
  intro tokens item rest spelled
  cases spelled with
  | name key colon value | venue key colon value =>
    simp only [Token.keywords_cons, key, colon, value]
    rfl
  | teamCount key colon value =>
    simp only [Token.keywords_cons, key, colon, value.keyword?]
    rfl

/-- The attributes of a player have no keywords. -/
lemma Player.Item.lists : Lists Player.Item.Spelled fun _ => [] := by
  intro tokens item rest spelled
  cases spelled with
  | position key colon value | number key colon value | age key colon value =>
    simp only [Token.keywords_cons, key, colon, value.keyword?]
    rfl

/-- The only keyword of a player is the one that opens it. -/
lemma Player.Tree.lists : Lists Player.Tree.Spelled keywords := by
  intro tokens tree rest spelled
  obtain ⟨key, colon, name, opening, items⟩ := spelled
  have body := Player.Item.lists.enclosed _ _ _ _ items
  simp only [Token.keywords_cons, key, colon, name, opening, body]
  simp [Kind.keyword?, keywords]

/-- A team has its own keyword and those of its players. -/
lemma Team.Tree.lists : Lists Team.Tree.Spelled keywords := by
  intro tokens tree rest spelled
  obtain ⟨key, colon, name, opening, players⟩ := spelled
  have body := Player.Tree.lists.enclosed _ _ _ _ players
  simp only [Token.keywords_cons, key, colon, name, opening, body]
  rfl

/-- Minutes have no keywords. -/
lemma Scorer.minute_lists : Lists Scorer.MinuteSpelled fun _ => [] := by
  intro tokens minute rest spelled
  obtain ⟨key, colon, value⟩ := spelled
  simp only [Token.keywords_cons, key, colon, value.keyword?]
  rfl

/-- The only keyword of a scorer is the one that opens it. -/
lemma Scorer.Tree.lists : Lists Scorer.Tree.Spelled keywords := by
  intro tokens tree rest spelled
  obtain ⟨key, colon, player, opening, minutes⟩ := spelled
  have body := Scorer.minute_lists.enclosed _ _ _ _ minutes
  simp only [Token.keywords_cons, key, colon, player, opening, body]
  simp [Kind.keyword?, keywords]

/-- An attribute of a match has the keywords of the scorers in it. -/
lemma Fixture.Item.lists : Lists Fixture.Item.Spelled keywords := by
  intro tokens item rest spelled
  cases spelled with
  | result key colon value =>
    simp only [Token.keywords_cons, key, colon, value]
    rfl
  | scorers key colon opening list =>
    have body := Scorer.Tree.lists.enclosed _ _ _ _ list
    simp only [Token.keywords_cons, key, colon, opening, body]
    rfl

/-- A match has its own keyword and those of its scorers. -/
lemma Fixture.Tree.lists : Lists Fixture.Tree.Spelled keywords := by
  intro tokens tree rest spelled
  obtain ⟨key, colon, first, versus, second, opening, items⟩ := spelled
  have body := Fixture.Item.lists.enclosed _ _ _ _ items
  simp only [Token.keywords_cons, key, colon, first, versus, second, opening, body]
  rfl

/-- A phase has its own keyword and those of its matches. -/
lemma Round.lists : Lists Round.Spelled keywords := by
  intro tokens round rest spelled
  obtain ⟨key, colon, opening, fixtures⟩ := spelled
  have body := Fixture.Tree.lists.enclosed _ _ _ _ fixtures
  simp only [Token.keywords_cons, key, colon, opening, body]
  rfl

/-- A definition is spelled with the keywords of its parts and no others. -/
theorem Definition.Spelled.keywords {tokens : List Token} {d : Definition}
    (spelled : Spelled tokens d) : Token.keywords tokens = d.keywords := by
  obtain ⟨header, teams, rounds⟩ := spelled
  rw [Header.Item.lists.sectioned _ _ _ _ header, Team.Tree.lists.sectioned _ _ _ _ teams,
    Round.lists.sectioned _ _ _ _ rounds]
  simp [Definition.keywords, Token.keywords]

end Knockout
