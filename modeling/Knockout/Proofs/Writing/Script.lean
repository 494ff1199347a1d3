import Knockout.Text.Blank
import Knockout.Token.Kind
import Knockout.Tournament

/-!
# Writing tournaments

Which texts say which tournament, apart from any reader. A tournament is first written as atoms: its
reserved words, symbols and values in a row (`Tournament.Script`), with the attributes of an entry
and the phases in any order and a comma or none after each entry. Atoms are then written as text
(`Atom.Written`), each reserved word in either language, with blanks between any two of them.
-/

namespace Knockout

/-- A word, a symbol or a value, before its spelling is chosen. -/
inductive Atom where
  /-- A reserved word of a kind. -/
  | word (k : Kind)
  | symbol (s : Symbol)
  | string (text : String)
  | number (n : UInt32)

namespace Atom

/-- The spellings of an atom: any word of the vocabulary that has the kind, the text between quotes,
the number in decimal. Neither a quote nor a line feed can be written between quotes. -/
inductive Spelled : Atom → List Char → Prop where
  | word (listed : (w, k) ∈ Kind.vocabulary) : Spelled (.word k) w.toList
  | symbol : Spelled (.symbol s) [s.char]
  | string (plain : ∀ c ∈ text.toList, c ≠ '"' ∧ c ≠ '\n') :
    Spelled (.string text) ('"' :: text.toList ++ ['"'])
  | number : Spelled (.number n) (toString n.toNat).toList

/-- The texts that show some atoms in a row. Before the first, after the last and between any two
there may be any blanks, and between two there is at least one. -/
inductive Written : List Atom → List Char → Prop where
  | nil (gap : ∀ c ∈ blanks, Text.isBlank c = true) : Written [] blanks
  | cons (gap : ∀ c ∈ blanks, Text.isBlank c = true) (spelled : Spelled a cs)
    (apart : ∀ c ∈ rest.head?, Text.isBlank c = true) (more : Written as rest) :
    Written (a :: as) (blanks ++ (cs ++ rest))

/-- `attribute: value` -/
def valued (a : Attribute) (value : Atom) : List Atom :=
  [.word (.attribute a), .symbol .colon, value]

/-- `keyword: "name" [ … ]` -/
def named (k : Keyword) (name : String) (body : List Atom) : List Atom :=
  [.word (.keyword k), .symbol .colon, .string name, .symbol .lbracket] ++
    (body ++ [.symbol .rbracket])

/-- `word: [ … ]` -/
def listed (k : Kind) (body : List Atom) : List Atom :=
  [.word k, .symbol .colon, .symbol .lbracket] ++ (body ++ [.symbol .rbracket])

/-- `KEYWORD { … }` -/
def braced (k : Keyword) (body : List Atom) : List Atom :=
  [.word (.keyword k), .symbol .lbrace] ++ (body ++ [.symbol .rbrace])

end Atom

/-- A way to write things as atoms. -/
abbrev Script (α : Type) := α → List Atom → Prop

/-- Entries one after another, each with a comma after it or without one. -/
inductive Script.Each (E : Script α) : Script (List α) where
  | nil : Each E [] []
  | cons (entry : E a first) (more : Each E as others) : Each E (a :: as) (first ++ others)
  | comma (entry : E a first) (more : Each E as others) :
    Each E (a :: as) (first ++ .symbol .comma :: others)

open Atom

/-- The attributes of the header. -/
inductive Tournament.HeaderScript (d : Tournament) : Script Attribute where
  | name : HeaderScript d .name (valued .name (.string d.name))
  | teamCount : HeaderScript d .teamCount (valued .teamCount (.number d.declaredTeams))
  | venue : HeaderScript d .venue (valued .venue (.string d.venue))

/-- The attributes of a player: the position and the age where they are known. -/
inductive Player.AttributeScript (p : Player) : Script Attribute where
  | position (known : p.position = some q) :
    AttributeScript p .position (valued .position (.word (.position q)))
  | number : AttributeScript p .number (valued .number (.number p.number))
  | age (known : p.age = some n) : AttributeScript p .age (valued .age (.number n))

/-- Which attributes a player has. -/
def Player.attributes (p : Player) : List Attribute :=
  (p.position.map fun _ => .position).toList ++ [.number] ++ (p.age.map fun _ => .age).toList

/-- A player, the attributes in any order. -/
inductive Player.Script : Script Player where
  | intro (order : as.Perm p.attributes) (each : Script.Each p.AttributeScript as body) :
    Script p (named .player p.name body)

/-- A team with its players. -/
inductive Team.Script : Script Team where
  | intro (each : Script.Each Player.Script t.players body) :
    Script t (named .team t.name body)

/-- The attribute of a scorer. -/
inductive Scorer.AttributeScript (s : Scorer) : Script Attribute where
  | minute : AttributeScript s .minute (valued .minute (.number s.minute))

/-- A scorer. -/
inductive Scorer.Script : Script Scorer where
  | intro (each : Script.Each s.AttributeScript [.minute] body) :
    Script s (named .scorer s.player body)

/-- The attributes of a match. -/
inductive Fixture.AttributeScript (f : Fixture) : Script Attribute where
  | result : AttributeScript f .result (valued .result (.string f.score))
  | scorers (each : Script.Each Scorer.Script f.scorers body) :
    AttributeScript f .scorers (listed (.attribute .scorers) body)

/-- A match, the attributes in any order. -/
inductive Fixture.Script : Script Fixture where
  | intro (order : as.Perm [.result, .scorers]) (each : Script.Each f.AttributeScript as body) :
    Script f ([.word (.keyword .fixture), .symbol .colon, .string f.first, .word .versus,
      .string f.second, .symbol .lbracket] ++ (body ++ [.symbol .rbracket]))

/-- A phase of a bracket with its matches. -/
inductive Bracket.Script (b : Bracket) : Script Phase where
  | intro (each : Script.Each Fixture.Script (b.fixtures p) body) :
    Script b p (listed (.keyword (.phase p)) body)

/-- A tournament: the header, the teams, and the phases in any order. -/
inductive Tournament.Script : Script Tournament where
  | intro (order : as.Perm [.name, .teamCount, .venue])
    (header : Script.Each d.HeaderScript as headerBody)
    (teams : Script.Each Team.Script d.teams teamsBody)
    (phases : ps.Perm Phase.all) (rounds : Script.Each d.bracket.Script ps roundsBody) :
    Script d (braced .tournament headerBody ++ (braced .teams teamsBody ++
      braced .elimination roundsBody))

/-- A text that says a tournament. -/
def Tournament.Written (d : Tournament) (text : String) : Prop :=
  ∃ atoms, d.Script atoms ∧ Atom.Written atoms text.toList

end Knockout
