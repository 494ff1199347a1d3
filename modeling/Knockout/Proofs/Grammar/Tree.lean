import Knockout.Syntax.Header
import Knockout.Token.Basic
import Knockout.Tournament

/-!
# Syntax trees

What a well-formed definition says, as a tree: the header with its attributes, the teams with their
players, the rounds with their matches and scorers, everything in the order in which it is written.
`Definition.tournament` is the tournament such a tree stands for. Here the rules for repetitions are
laid down once and apart from any reader: the last value of an attribute wins (`lastOf`), lists of
scorers add up, the matches of a phase that comes more than once add up, and of teams that share a
name the first one counts (`Team.firsts`).
-/

namespace Knockout

/-- The value that the last of some entries gives, among those that give one. -/
def lastOf (value? : α → Option β) (entries : List α) : Option β :=
  (entries.filterMap value?).getLast?

/-- Nothing comes last where there is nothing. -/
@[simp] theorem lastOf_nil (value? : α → Option β) : lastOf value? [] = none := rfl

/-- The value of an entry lasts as long as no later entry gives one. -/
theorem lastOf_cons (value? : α → Option β) (a : α) (as : List α) :
    lastOf value? (a :: as) = (lastOf value? as).or (value? a) := by
  unfold lastOf
  rw [List.filterMap_cons]
  cases value? a with
  | none => simp
  | some v => simp [List.getLast?_cons]

/-- An attribute of the header with its value. -/
inductive Header.Item where
  | name (text : Token)
  | teamCount (n : UInt32) (literal : Token)
  | venue (text : Token)

namespace Header.Item

/-- The name an attribute gives. -/
def name? : Header.Item → Option String
  | .name text => some text.lexeme
  | .teamCount .. | .venue _ => none

/-- The number of teams an attribute gives, with the token it is read from. -/
def count? : Header.Item → Option (UInt32 × Token)
  | .teamCount n literal => some (n, literal)
  | .name _ | .venue _ => none

/-- The venue an attribute gives. -/
def venue? : Header.Item → Option String
  | .venue text => some text.lexeme
  | .name _ | .teamCount .. => none

end Header.Item

/-- The header that some attributes give. -/
def Header.ofItems (items : List Header.Item) : Header where
  name := (lastOf Item.name? items).getD ""
  venue := (lastOf Item.venue? items).getD ""
  count := lastOf Item.count? items

/-- An attribute of a player with its value. -/
inductive Player.Item where
  | position (p : Position)
  | number (n : UInt32)
  | age (n : UInt32)

namespace Player.Item

/-- The position an attribute gives. -/
def position? : Player.Item → Option Position
  | .position p => some p
  | .number _ | .age _ => none

/-- The shirt number an attribute gives. -/
def number? : Player.Item → Option UInt32
  | .number n => some n
  | .position _ | .age _ => none

/-- The age an attribute gives. -/
def age? : Player.Item → Option UInt32
  | .age n => some n
  | .position _ | .number _ => none

end Player.Item

/-- A player as it is written. -/
structure Player.Tree where
  name : Token
  items : List Player.Item

/-- The player that is meant. -/
def Player.Tree.player (t : Player.Tree) : Player where
  name := t.name.lexeme
  position := lastOf Item.position? t.items
  number := (lastOf Item.number? t.items).getD 0
  age := lastOf Item.age? t.items

/-- A team as it is written. -/
structure Team.Tree where
  name : Token
  players : List Player.Tree

/-- The team that is meant. -/
def Team.Tree.team (t : Team.Tree) : Team where
  name := t.name.lexeme
  players := t.players.map Player.Tree.player

/-- The teams whose name no team before them has. -/
def Team.firsts : List Team → List Team
  | [] => []
  | t :: ts => t :: (firsts ts).filter (·.name != t.name)

/-- A scorer as it is written. -/
structure Scorer.Tree where
  player : Token
  minutes : List UInt32

/-- The scorer that is meant. -/
def Scorer.Tree.scorer (t : Scorer.Tree) : Scorer where
  player := t.player.lexeme
  minute := t.minutes.getLast?.getD 0

/-- An attribute of a match with its value. -/
inductive Fixture.Item where
  | result (text : Token)
  | scorers (list : List Scorer.Tree)

namespace Fixture.Item

/-- The result an attribute gives. -/
def result? : Fixture.Item → Option String
  | .result text => some text.lexeme
  | .scorers _ => none

/-- The scorers an attribute gives. -/
def scorerList : Fixture.Item → List Scorer
  | .result _ => []
  | .scorers list => list.map Scorer.Tree.scorer

end Fixture.Item

/-- A match as it is written. -/
structure Fixture.Tree where
  first : Token
  second : Token
  items : List Fixture.Item

/-- The match that is meant. -/
def Fixture.Tree.fixture (t : Fixture.Tree) : Fixture where
  first := t.first.lexeme
  second := t.second.lexeme
  score := (lastOf Item.result? t.items).getD Goals.pendingText
  scorers := t.items.flatMap Item.scorerList

/-- The strings that name the two sides of a match. -/
def Fixture.Tree.sides (t : Fixture.Tree) : List Token := [t.first, t.second]

/-- A phase with its matches as it is written. -/
structure Round where
  phase : Phase
  fixtures : List Fixture.Tree

/-- The strings that name the sides of the matches of a round. -/
def Round.sides (r : Round) : List Token := r.fixtures.flatMap Fixture.Tree.sides

/-- The matches of a phase, from all the rounds that name it. -/
def Round.fixturesOf (rounds : List Round) (p : Phase) : List Fixture :=
  (rounds.filter (·.phase = p)).flatMap fun r => r.fixtures.map Fixture.Tree.fixture

/-- The bracket of some rounds. -/
def Bracket.ofRounds (rounds : List Round) : Bracket where
  quarterfinals := some (Round.fixturesOf rounds .quarterfinals)
  semifinal := some (Round.fixturesOf rounds .semifinal)
  final := some (Round.fixturesOf rounds .final)

/-- A whole definition as it is written. -/
structure Definition where
  header : List Header.Item
  teams : List Team.Tree
  rounds : List Round

namespace Definition

/-- The tournament that is meant. -/
def tournament (d : Definition) : Tournament where
  name := (Header.ofItems d.header).name
  venue := (Header.ofItems d.header).venue
  declaredTeams := (Header.ofItems d.header).declared
  teams := Team.firsts (d.teams.map Team.Tree.team)
  bracket := .ofRounds d.rounds

/-- The strings that name the sides of matches, in the order in which they are written. -/
def sides (d : Definition) : List Token := d.rounds.flatMap Round.sides

end Definition

end Knockout
