import Knockout.Phase
import Knockout.Squad

/-!
# Kinds of token

The words of the definition language and its symbols. Every reserved word has a Spanish and an
English spelling, and both stand for the same kind, so nothing that reads tokens looks at the
spelling again. `Kind.vocabulary` is the table of words.
-/

namespace Knockout

/-- Words that open a section, an entry or a phase. -/
inductive Keyword where
  | tournament
  | teams
  | elimination
  | team
  | player
  | fixture
  | scorer
  | phase (p : Phase)
  deriving DecidableEq, Repr

namespace Keyword

/-- The canonical word. -/
def name : Keyword → String
  | .tournament => "TOURNEY"
  | .teams => "TEAMS"
  | .elimination => "ELIMINATION"
  | .team => "team"
  | .player => "player"
  | .fixture => "match"
  | .scorer => "scorer"
  | .phase p => p.key

/-- The words for keywords, the Spanish one before the English one where they differ. -/
def vocabulary : List (String × Keyword) :=
  [("TORNEO", .tournament), ("TOURNEY", .tournament),
    ("EQUIPOS", .teams), ("TEAMS", .teams),
    ("ELIMINACION", .elimination), ("ELIMINATION", .elimination),
    ("equipo", .team), ("team", .team),
    ("jugador", .player), ("player", .player),
    ("partido", .fixture), ("match", .fixture),
    ("goleador", .scorer), ("scorer", .scorer),
    ("cuartos", .phase .quarterfinals), ("quarterfinals", .phase .quarterfinals),
    ("semifinal", .phase .semifinal),
    ("final", .phase .final)]

end Keyword

/-- Words that name an attribute, as in `name: "Copa"`. -/
inductive Attribute where
  | name
  | teamCount
  | venue
  | position
  | number
  | age
  | result
  | scorers
  | minute
  deriving DecidableEq, Repr

namespace Attribute

/-- The canonical word. -/
def word : Attribute → String
  | .name => "name"
  | .teamCount => "teams"
  | .venue => "venue"
  | .position => "position"
  | .number => "number"
  | .age => "age"
  | .result => "result"
  | .scorers => "scorers"
  | .minute => "minute"

/-- The words for attributes, the Spanish one before the English one. -/
def vocabulary : List (String × Attribute) :=
  [("nombre", .name), ("name", .name),
    ("equipos", .teamCount), ("teams", .teamCount),
    ("sede", .venue), ("venue", .venue),
    ("posicion", .position), ("position", .position),
    ("numero", .number), ("number", .number),
    ("edad", .age), ("age", .age),
    ("resultado", .result), ("result", .result),
    ("goleadores", .scorers), ("scorers", .scorers),
    ("minuto", .minute), ("minute", .minute)]

end Attribute

/-- Punctuation of one character. -/
inductive Symbol where
  | lbrace
  | rbrace
  | lbracket
  | rbracket
  | colon
  | comma
  | dash
  deriving DecidableEq, Repr

namespace Symbol

/-- The character of a symbol. -/
def char : Symbol → Char
  | .lbrace => '{'
  | .rbrace => '}'
  | .lbracket => '['
  | .rbracket => ']'
  | .colon => ':'
  | .comma => ','
  | .dash => '-'

/-- The symbol a character stands for. -/
def ofChar? : Char → Option Symbol
  | '{' => some .lbrace
  | '}' => some .rbrace
  | '[' => some .lbracket
  | ']' => some .rbracket
  | ':' => some .colon
  | ',' => some .comma
  | '-' => some .dash
  | _ => none

/-- Each symbol is found again from its character. -/
theorem ofChar?_char (s : Symbol) : ofChar? s.char = some s := by
  cases s <;> rfl

/-- A character stands for a symbol exactly when it is that symbol's character. -/
theorem ofChar?_eq_some_iff {c : Char} {s : Symbol} : ofChar? c = some s ↔ c = s.char := by
  constructor
  · intro h
    unfold ofChar? at h
    split at h <;> cases h <;> rfl
  · rintro rfl
    exact ofChar?_char s

end Symbol

/-- What a token is, apart from how it was written. -/
inductive Kind where
  | keyword (k : Keyword)
  | attribute (a : Attribute)
  | position (p : Position)
  | identifier
  | string
  | number
  | symbol (s : Symbol)
  /-- The word between the two sides of a match. -/
  | versus
  deriving DecidableEq, Repr

namespace Kind

/-- Broad class of a token in listings. -/
def family : Kind → String
  | .keyword _ => "reserved-word"
  | .attribute _ => "attribute-word"
  | .position _ => "position-word"
  | .identifier => "identifier"
  | .string => "string-literal"
  | .number => "integer-literal"
  | .symbol _ => "symbol"
  | .versus => "connector"

/-- A kind as messages name it: reserved words and symbols between quotes. -/
def text : Kind → String
  | .keyword k => s!"'{k.name}'"
  | .attribute a => s!"'{a.word}'"
  | .position p => s!"'{p.name}'"
  | .identifier => "identifier"
  | .string => "string"
  | .number => "number"
  | .symbol s => s!"'{s.char}'"
  | .versus => "'vs'"

/-- Every reserved word with its kind. -/
def vocabulary : List (String × Kind) :=
  Keyword.vocabulary.map (fun w => (w.1, .keyword w.2)) ++
    Attribute.vocabulary.map (fun w => (w.1, .attribute w.2)) ++
    [("vs", .versus)] ++
    Position.vocabulary.map (fun w => (w.1, .position w.2))

/-- The kind of a word; a word that is not reserved is an identifier. -/
def ofWord (word : String) : Kind := (vocabulary.lookup word).getD .identifier

end Kind

end Knockout
