import Knockout.Token.Basic

/-!
# Syntax faults

What can be wrong with the tokens of a definition. Each fault names its cause and the token it is
about; `SyntaxFault.span` is the place to point at. A `SyntaxError` is a fault as it is reported:
numbered, with its message and span.
-/

namespace Knockout

/-- What a reader was looking for. -/
inductive Expected where
  /-- A reserved word or a symbol. -/
  | token (k : Kind)
  | tournamentName
  | teamCount
  | venue
  | teamName
  | playerName
  | shirtNumber
  | age
  | position
  | firstTeam
  | secondTeam
  | result
  | minute
  deriving DecidableEq, Repr

namespace Expected

/-- What was looked for, as messages name it. -/
def text : Expected → String
  | .token k => k.text
  | .tournamentName => "a tournament name"
  | .teamCount => "a team count"
  | .venue => "a venue"
  | .teamName => "a team name"
  | .playerName => "a player name"
  | .shirtNumber => "a shirt number"
  | .age => "an age"
  | .position => "a playing position"
  | .firstTeam => "the first team"
  | .secondTeam => "the second team"
  | .result => "a result such as \"2-1\""
  | .minute => "a minute"

end Expected

/-- The nine blocks of a definition, each a repetition of entries. -/
inductive BlockName where
  /-- Attributes of the tournament. -/
  | header
  | teams
  /-- Players of a team. -/
  | roster
  /-- Attributes of a player. -/
  | player
  | elimination
  /-- Matches of a phase. -/
  | fixtures
  /-- Attributes of a match. -/
  | fixture
  /-- Scorers of a match. -/
  | scorers
  /-- Attributes of a scorer. -/
  | scorer
  deriving DecidableEq, Repr

/-- Category of a syntax fault. -/
inductive SyntaxFaultKind where
  /-- A token that does not fit where it stands. -/
  | unexpectedToken
  /-- An attribute that the block around it does not have. -/
  | unknownAttribute
  /-- A word that opens no section or phase. -/
  | unknownSection
  /-- The header declares another number of teams than are defined. -/
  | cardinalityMismatch
  /-- A team name defined before. -/
  | duplicateTeam
  /-- A match names a team that is not defined. -/
  | unknownTeamReference
  deriving DecidableEq, Repr

/-- Whether a fault of this kind may have left something out of the tournament. -/
def SyntaxFaultKind.isStructural : SyntaxFaultKind → Bool
  | .unexpectedToken | .unknownAttribute | .unknownSection => true
  | .cardinalityMismatch | .duplicateTeam | .unknownTeamReference => false

/-- A cause of a syntax error. -/
inductive SyntaxFault where
  /-- Another token stands where one was looked for. -/
  | unexpected (wanted : Expected) (found : Token)
  /-- The tokens end where one was looked for. -/
  | endOfInput (wanted : Expected)
  /-- A numeral whose value does not fit. -/
  | numberOutOfRange (literal : Token)
  /-- A string that spells no position. -/
  | notAPosition (word : Token)
  /-- A token that starts no entry of the block it stands in. -/
  | stray (block : BlockName) (found : Token)
  /-- A token after the last section. -/
  | trailing (found : Token)
  | duplicateTeam (name : Token)
  | unknownTeam (name : Token)
  /-- Another number of teams than declared; the declaring token is absent when there is none. -/
  | teamCount (declared : UInt32) (defined : Nat) (count : Option Token)
  deriving DecidableEq, Repr

namespace SyntaxFault

/-- The category of a stray token depends on the block. -/
def strayKind : BlockName → SyntaxFaultKind
  | .header | .player | .fixture | .scorer => .unknownAttribute
  | .teams | .elimination => .unknownSection
  | .roster | .fixtures | .scorers => .unexpectedToken

/-- The category of a fault. -/
def kind : SyntaxFault → SyntaxFaultKind
  | .unexpected .. | .endOfInput _ | .numberOutOfRange _ | .notAPosition _ => .unexpectedToken
  | .stray block _ => strayKind block
  | .trailing _ => .unknownSection
  | .duplicateTeam _ => .duplicateTeam
  | .unknownTeam _ => .unknownTeamReference
  | .teamCount .. => .cardinalityMismatch

/-- What is said about a stray token. -/
def strayMessage (block : BlockName) (found : String) : String :=
  match block with
  | .header => s!"{found} is not a TOURNEY attribute"
  | .teams => s!"{found} is not a team definition"
  | .roster => s!"expected 'player', found {found}"
  | .player => s!"{found} is not a player attribute"
  | .elimination =>
    s!"{found} is not a phase; expected 'quarterfinals', 'semifinal' or 'final'"
  | .fixtures => s!"expected 'match', found {found}"
  | .fixture => s!"{found} is not a match attribute"
  | .scorers => s!"expected 'scorer', found {found}"
  | .scorer => s!"{found} is not a scorer attribute"

/-- What is said about two numbers of teams that differ. -/
def teamCountMessage (declared defined : Nat) : String :=
  let plural := if declared = 1 then "" else "s"
  let were := if defined = 1 then "was" else "were"
  s!"declared {declared} team{plural} but {defined} {were} defined"

/-- The fault as people read it. -/
def message : SyntaxFault → String
  | .unexpected wanted found => s!"expected {wanted.text}, found {found.quoted}"
  | .endOfInput wanted => s!"expected {wanted.text}, found end of input"
  | .numberOutOfRange literal => s!"number out of range: {literal.lexeme}"
  | .notAPosition word => s!"{word.quoted} is not a playing position"
  | .stray block found => strayMessage block found.quoted
  | .trailing found => s!"unexpected {found.quoted} after the ELIMINATION block"
  | .duplicateTeam name => s!"team '{name.lexeme}' is already defined"
  | .unknownTeam name => s!"team '{name.lexeme}' is not defined in TEAMS"
  | .teamCount declared defined _ => teamCountMessage declared.toNat defined

/-- Where a fault is: the token it is about, the end of the tokens, or no place at all. -/
def span (ending : Span) : SyntaxFault → Span
  | .unexpected _ t | .numberOutOfRange t | .notAPosition t | .stray _ t | .trailing t
  | .duplicateTeam t | .unknownTeam t | .teamCount _ _ (some t) => t.span
  | .endOfInput _ => ending
  | .teamCount _ _ none => .unknown

/-- Whether a fault says that the tokens end too soon. -/
def isEndOfInput : SyntaxFault → Bool
  | .endOfInput _ => true
  | _ => false

end SyntaxFault

/-- A syntax fault as it is reported. -/
structure SyntaxError where
  /-- Place in the list of errors, from 1. -/
  number : Nat
  kind : SyntaxFaultKind
  message : String
  span : Span
  deriving DecidableEq, Repr

end Knockout
