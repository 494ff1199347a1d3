import Knockout.Syntax.Block

/-!
# The teams

The section `TEAMS { … }`: teams with their rosters, and players with their attributes. A team
whose name is defined already is a fault and is left out; a team without a name is kept under a
placeholder.
-/

namespace Knockout

namespace Player

/-- Which attribute an entry gives. -/
inductive Field where
  | position
  | number
  | age
  deriving DecidableEq, Repr

/-- The attributes of a player. -/
def block : Block Field where
  name := .player
  closer := .rbracket
  entry?
    | .attribute .position => some .position
    | .attribute .number => some .number
    | .attribute .age => some .age
    | _ => none

/-- The value of an attribute; without one the player stays as it is. -/
def entry (p : Player) (f : Field) : Reader Player := do
  let _ ← Reader.symbol .colon
  match f with
  | .position =>
    match ← Reader.position with
    | some position => return { p with position := some position }
    | none => return p
  | .number =>
    match ← Reader.number .shirtNumber with
    | some (number, _) => return { p with number }
    | none => return p
  | .age =>
    match ← Reader.number .age with
    | some (age, _) => return { p with age := some age }
    | none => return p

/-- A player, after the word that starts it. -/
def reader : Reader Player := do
  let _ ← Reader.symbol .colon
  let name ← Reader.string .playerName
  let _ ← Reader.symbol .lbracket
  block.read entry { name := (name.map Token.lexeme).getD "" }

/-- The players of a team. -/
def roster : Block Unit where
  name := .roster
  closer := .rbracket
  entry?
    | .keyword .player => some ()
    | _ => none

/-- One more player. -/
def rosterEntry (players : List Player) (_ : Unit) : Reader (List Player) := do
  return players ++ [← reader]

end Player

namespace Team

/-- The name of a team whose own name is missing. -/
def placeholder : String := "Unknown team"

/-- A team with its roster, added to the teams before it unless its name is taken. -/
def enrol (teams : List Team) (name : Option Token) (players : List Player) :
    Reader (List Team) :=
  match name with
  | none => return teams ++ [⟨placeholder, players⟩]
  | some t =>
    if teams.any (·.name == t.lexeme) then do
      Reader.report (.duplicateTeam t)
      return teams
    else return teams ++ [⟨t.lexeme, players⟩]

/-- The teams of the section. -/
def block : Block Unit where
  name := .teams
  closer := .rbrace
  entry?
    | .keyword .team => some ()
    | _ => none

/-- A team, after the word that starts it. -/
def entry (teams : List Team) (_ : Unit) : Reader (List Team) := do
  let _ ← Reader.symbol .colon
  let name ← Reader.string .teamName
  let _ ← Reader.symbol .lbracket
  let players ← Player.roster.read Player.rosterEntry []
  enrol teams name players

/-- The whole section. -/
def reader : Reader (List Team) := do
  let _ ← Reader.keyword .teams
  let _ ← Reader.symbol .lbrace
  block.read entry []

end Team

end Knockout
