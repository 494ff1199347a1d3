import Knockout.Proofs.Grammar.Tree
import Knockout.Text.Numeral

/-!
# The grammar

Which tokens spell which syntax tree. A grammar relates a stream of tokens to the tree that its
front spells and to the tokens after that front, so one part of a definition after another is read
off without cutting the stream into pieces first. Nothing here mentions a reader: each rule lists
the tokens it wants, and `Definition.Spelled` is the rule for a whole definition.

A repetition (`Entries`) allows at most one comma after each of its entries.
-/

namespace Knockout

/-- A way to spell trees: tokens, the tree that their front spells, the tokens after it. -/
abbrev Grammar (α : Type) := List Token → α → List Token → Prop

/-- At most one comma. -/
inductive OptionalComma : List Token → List Token → Prop where
  | absent : OptionalComma rest rest
  | present (comma : c.kind = .symbol .comma) : OptionalComma (c :: rest) rest

/-- Entries one after another, each with at most one comma after it. -/
inductive Entries (G : Grammar α) : Grammar (List α) where
  | nil : Entries G rest [] rest
  | cons (entry : G tokens a mid) (comma : OptionalComma mid next) (more : Entries G next as rest) :
    Entries G tokens (a :: as) rest

/-- Entries and the symbol that closes them. -/
inductive Enclosed (G : Grammar α) (closer : Symbol) : Grammar (List α) where
  | intro (entries : Entries G tokens as (c :: rest)) (close : c.kind = .symbol closer) :
    Enclosed G closer tokens as rest

/-- A section of a definition: its word and its entries between braces. -/
inductive Section (word : Keyword) (G : Grammar α) : Grammar (List α) where
  | intro (key : k.kind = .keyword word) (opening : o.kind = .symbol .lbrace)
    (body : Enclosed G .rbrace tokens as rest) :
    Section word G (k :: o :: tokens) as rest

/-- A token that spells a number of 32 bits. -/
inductive Token.SpellsNumber (t : Token) (n : UInt32) : Prop where
  | intro (kind : t.kind = .number) (value : Text.ofLiteral? t.lexeme = some n)

/-- A token that spells a position: a position word, or a string that spells one. -/
inductive Token.SpellsPosition (t : Token) (p : Position) : Prop where
  | word (kind : t.kind = .position p)
  | string (kind : t.kind = .string) (value : Position.ofWord? t.lexeme = some p)

/-- `name: STRING`, `teams: INT` or `venue: STRING`. -/
inductive Header.Item.Spelled : Grammar Header.Item where
  | name (key : k.kind = .attribute .name) (colon : c.kind = .symbol .colon)
    (value : v.kind = .string) : Spelled (k :: c :: v :: rest) (.name v) rest
  | teamCount (key : k.kind = .attribute .teamCount) (colon : c.kind = .symbol .colon)
    (value : v.SpellsNumber n) : Spelled (k :: c :: v :: rest) (.teamCount n v) rest
  | venue (key : k.kind = .attribute .venue) (colon : c.kind = .symbol .colon)
    (value : v.kind = .string) : Spelled (k :: c :: v :: rest) (.venue v) rest

/-- `position: POSITION`, `number: INT` or `age: INT`. -/
inductive Player.Item.Spelled : Grammar Player.Item where
  | position (key : k.kind = .attribute .position) (colon : c.kind = .symbol .colon)
    (value : v.SpellsPosition p) : Spelled (k :: c :: v :: rest) (.position p) rest
  | number (key : k.kind = .attribute .number) (colon : c.kind = .symbol .colon)
    (value : v.SpellsNumber n) : Spelled (k :: c :: v :: rest) (.number n) rest
  | age (key : k.kind = .attribute .age) (colon : c.kind = .symbol .colon)
    (value : v.SpellsNumber n) : Spelled (k :: c :: v :: rest) (.age n) rest

/-- `player: STRING [ … ]`. -/
inductive Player.Tree.Spelled : Grammar Player.Tree where
  | intro (key : k.kind = .keyword .player) (colon : c.kind = .symbol .colon)
    (name : v.kind = .string) (opening : o.kind = .symbol .lbracket)
    (items : Enclosed Player.Item.Spelled .rbracket tokens as rest) :
    Spelled (k :: c :: v :: o :: tokens) ⟨v, as⟩ rest

/-- `team: STRING [ … ]`. -/
inductive Team.Tree.Spelled : Grammar Team.Tree where
  | intro (key : k.kind = .keyword .team) (colon : c.kind = .symbol .colon)
    (name : v.kind = .string) (opening : o.kind = .symbol .lbracket)
    (players : Enclosed Player.Tree.Spelled .rbracket tokens as rest) :
    Spelled (k :: c :: v :: o :: tokens) ⟨v, as⟩ rest

/-- `minute: INT`. -/
inductive Scorer.MinuteSpelled : Grammar UInt32 where
  | intro (key : k.kind = .attribute .minute) (colon : c.kind = .symbol .colon)
    (value : v.SpellsNumber n) : MinuteSpelled (k :: c :: v :: rest) n rest

/-- `scorer: STRING [ … ]`. -/
inductive Scorer.Tree.Spelled : Grammar Scorer.Tree where
  | intro (key : k.kind = .keyword .scorer) (colon : c.kind = .symbol .colon)
    (player : v.kind = .string) (opening : o.kind = .symbol .lbracket)
    (minutes : Enclosed Scorer.MinuteSpelled .rbracket tokens as rest) :
    Spelled (k :: c :: v :: o :: tokens) ⟨v, as⟩ rest

/-- `result: STRING` or `scorers: [ … ]`. -/
inductive Fixture.Item.Spelled : Grammar Fixture.Item where
  | result (key : k.kind = .attribute .result) (colon : c.kind = .symbol .colon)
    (value : v.kind = .string) : Spelled (k :: c :: v :: rest) (.result v) rest
  | scorers (key : k.kind = .attribute .scorers) (colon : c.kind = .symbol .colon)
    (opening : o.kind = .symbol .lbracket)
    (list : Enclosed Scorer.Tree.Spelled .rbracket tokens as rest) :
    Spelled (k :: c :: o :: tokens) (.scorers as) rest

/-- `match: STRING vs STRING [ … ]`. -/
inductive Fixture.Tree.Spelled : Grammar Fixture.Tree where
  | intro (key : k.kind = .keyword .fixture) (colon : c.kind = .symbol .colon)
    (first : v.kind = .string) (versus : x.kind = .versus) (second : w.kind = .string)
    (opening : o.kind = .symbol .lbracket)
    (items : Enclosed Fixture.Item.Spelled .rbracket tokens as rest) :
    Spelled (k :: c :: v :: x :: w :: o :: tokens) ⟨v, w, as⟩ rest

/-- A phase: `quarterfinals: [ … ]`, `semifinal: [ … ]` or `final: [ … ]`. -/
inductive Round.Spelled : Grammar Round where
  | intro (key : k.kind = .keyword (.phase p)) (colon : c.kind = .symbol .colon)
    (opening : o.kind = .symbol .lbracket)
    (fixtures : Enclosed Fixture.Tree.Spelled .rbracket tokens as rest) :
    Spelled (k :: c :: o :: tokens) ⟨p, as⟩ rest

/-- A whole definition: three sections and nothing after them. -/
inductive Definition.Spelled : List Token → Definition → Prop where
  | intro (header : Section .tournament Header.Item.Spelled tokens items afterHeader)
    (teams : Section .teams Team.Tree.Spelled afterHeader teamTrees afterTeams)
    (rounds : Section .elimination Round.Spelled afterTeams roundTrees []) :
    Spelled tokens ⟨items, teamTrees, roundTrees⟩

end Knockout
