import Knockout.Syntax.Block
import Knockout.Tournament

/-!
# The elimination rounds

The section `ELIMINATION { … }`: phases with their matches, matches with their result and scorers.
A side that names no defined team is a fault where team references are judged strictly.
-/

namespace Knockout

/-- How strictly a definition is judged. -/
structure Strictness where
  /-- Whether a match has to name defined teams. -/
  teamReferences : Bool := false
  deriving DecidableEq, Repr

namespace Scorer

/-- The attributes of a scorer: the minute of the goal. -/
def block : Block Unit where
  name := .scorer
  closer := .rbracket
  entry?
    | .attribute .minute => some ()
    | _ => none

/-- The minute; without one the scorer stays as it is. -/
def entry (s : Scorer) (_ : Unit) : Reader Scorer := do
  let _ ← Reader.symbol .colon
  match ← Reader.number .minute with
  | some (minute, _) => return { s with minute }
  | none => return s

/-- A scorer, after the word that starts it. -/
def reader : Reader Scorer := do
  let _ ← Reader.symbol .colon
  let player ← Reader.string .playerName
  let _ ← Reader.symbol .lbracket
  block.read entry { player := (player.map Token.lexeme).getD "" }

/-- The scorers of a match. -/
def listBlock : Block Unit where
  name := .scorers
  closer := .rbracket
  entry?
    | .keyword .scorer => some ()
    | _ => none

/-- One more scorer. -/
def listEntry (scorers : List Scorer) (_ : Unit) : Reader (List Scorer) := do
  return scorers ++ [← reader]

/-- A list of scorers; where no bracket opens it there is none. -/
def listReader : Reader (List Scorer) := do
  if ← Reader.symbol .lbracket then listBlock.read listEntry []
  else return []

end Scorer

namespace Fixture

/-- Which attribute an entry gives. -/
inductive Field where
  | result
  | scorers
  deriving DecidableEq, Repr

/-- The name of a side whose own name is missing. -/
def placeholder : String := "Unknown"

/-- The attributes of a match. -/
def block : Block Field where
  name := .fixture
  closer := .rbracket
  entry?
    | .attribute .result => some .result
    | .attribute .scorers => some .scorers
    | _ => none

/-- The value of an attribute: a result takes the place of the one before it, scorers come after
those before them. -/
def entry (f : Fixture) (field : Field) : Reader Fixture := do
  let _ ← Reader.symbol .colon
  match field with
  | .result =>
    match ← Reader.string .result with
    | some t => return { f with score := t.lexeme }
    | none => return f
  | .scorers => return { f with scorers := f.scorers ++ (← Scorer.listReader) }

/-- Whether a name on a side of a match leaves no doubt: it is that of a team or the word for an
opponent not known yet. -/
def isKnownSide (teams : List Team) (name : String) : Bool :=
  name == Winner.undecidedText || teams.any (·.name == name)

/-- One side of a match. A name that is not known is a fault where that is asked for. -/
def side (strictness : Strictness) (teams : List Team) (wanted : Expected) : Reader String := do
  match ← Reader.string wanted with
  | none => return placeholder
  | some t =>
    if strictness.teamReferences && !isKnownSide teams t.lexeme then
      Reader.report (.unknownTeam t)
      return t.lexeme
    else return t.lexeme

/-- A match, after the word that starts it. -/
def reader (strictness : Strictness) (teams : List Team) : Reader Fixture := do
  let _ ← Reader.symbol .colon
  let first ← side strictness teams .firstTeam
  let _ ← Reader.versus
  let second ← side strictness teams .secondTeam
  let _ ← Reader.symbol .lbracket
  block.read entry { first, second }

/-- The matches of a phase. -/
def listBlock : Block Unit where
  name := .fixtures
  closer := .rbracket
  entry?
    | .keyword .fixture => some ()
    | _ => none

/-- One more match in a phase of the bracket. -/
def listEntry (strictness : Strictness) (teams : List Team) (phase : Phase) (b : Bracket)
    (_ : Unit) : Reader Bracket := do
  return b.push phase (← reader strictness teams)

end Fixture

namespace Bracket

/-- The phases of the section. A phase may come more than once; its matches add up. -/
def block : Block Phase where
  name := .elimination
  closer := .rbrace
  entry?
    | .keyword (.phase p) => some p
    | _ => none

/-- A phase, after the word that names it. -/
def entry (strictness : Strictness) (teams : List Team) (b : Bracket) (phase : Phase) :
    Reader Bracket := do
  let _ ← Reader.symbol .colon
  let _ ← Reader.symbol .lbracket
  Fixture.listBlock.read (Fixture.listEntry strictness teams phase) b

/-- The whole section, after the teams. -/
def reader (strictness : Strictness) (teams : List Team) : Reader Bracket := do
  let _ ← Reader.keyword .elimination
  let _ ← Reader.symbol .lbrace
  block.read (entry strictness teams) {}

end Bracket

end Knockout
