import Knockout.Phase
import Knockout.Score
import Knockout.Squad

/-!
# Tournaments

A fixture is a match of the bracket, played or not; its winner is never stored apart from the
score, it follows from it. A bracket holds the fixtures of each phase, and a tournament puts the
teams beside the bracket.
-/

namespace Knockout

/-- A goal credited to a player. -/
structure Scorer where
  player : String
  minute : UInt32 := 0
  deriving DecidableEq, Repr

/-- A match of the bracket, played or not. The winner is no part of it but follows from its sides
and its score (`Fixture.winner`), so that no fixture can have a wrong one. -/
structure Fixture where
  /-- Name of the first side. -/
  first : String
  /-- Name of the second side. -/
  second : String
  /-- The score as it was written. -/
  score : String := Goals.pendingText
  scorers : List Scorer := []
  deriving DecidableEq, Repr

namespace Fixture

/-- Goals of both sides, when the score can be read. -/
def goals? (f : Fixture) : Option Goals := Goals.ofScore? f.score

/-- Whether the score can be read. -/
def isCompleted (f : Fixture) : Bool := f.goals?.isSome

/-- The outcome. -/
def winner (f : Fixture) : Winner := .ofScore f.first f.second f.score

/-- Whether a team plays on either side. -/
def involves (f : Fixture) (team : String) : Bool := f.first == team || f.second == team

end Fixture

/-- The fixtures of each phase, in definition order. A phase may be missing altogether, which is
not the same as being empty. -/
structure Bracket where
  quarterfinals : Option (List Fixture) := some []
  semifinal : Option (List Fixture) := some []
  final : Option (List Fixture) := some []
  deriving DecidableEq, Repr

namespace Bracket

/-- A bracket without any phase. -/
def bare : Bracket := ⟨none, none, none⟩

/-- The fixtures of a phase, if the bracket has it. -/
def get? (b : Bracket) : Phase → Option (List Fixture)
  | .quarterfinals => b.quarterfinals
  | .semifinal => b.semifinal
  | .final => b.final

/-- The bracket with the fixtures of one phase replaced. -/
def set (b : Bracket) (p : Phase) (fixtures : List Fixture) : Bracket :=
  match p with
  | .quarterfinals => { b with quarterfinals := some fixtures }
  | .semifinal => { b with semifinal := some fixtures }
  | .final => { b with final := some fixtures }

/-- The fixtures of a phase; a missing phase has none. -/
def fixtures (b : Bracket) (p : Phase) : List Fixture := (b.get? p).getD []

/-- The bracket with one more fixture at the end of a phase. -/
def push (b : Bracket) (p : Phase) (f : Fixture) : Bracket := b.set p (b.fixtures p ++ [f])

/-- Every fixture with its phase, in bracket order. -/
def all (b : Bracket) : List (Phase × Fixture) :=
  Phase.all.flatMap fun p => (b.fixtures p).map (p, ·)

/-- Number of fixtures. -/
def size (b : Bracket) : Nat :=
  Phase.all.foldl (fun n p => n + (b.fixtures p).length) 0

/-- Setting the matches of a phase changes that phase alone. -/
@[simp] theorem get?_set (b : Bracket) (p q : Phase) (fs : List Fixture) :
    (b.set p fs).get? q = if p = q then some fs else b.get? q := by
  cases p <;> cases q <;> rfl

/-- A further match comes last in its phase and changes no other. -/
@[simp] theorem fixtures_push (b : Bracket) (p q : Phase) (f : Fixture) :
    (b.push p f).fixtures q = if p = q then b.fixtures p ++ [f] else b.fixtures q := by
  by_cases h : p = q <;> simp [push, fixtures, h]

/-- The fixtures are counted as they are listed. -/
theorem length_all (b : Bracket) : b.all.length = b.size := by
  simp [all, size, Phase.all, Nat.add_assoc]

end Bracket

/-- A knockout tournament. -/
structure Tournament where
  name : String := ""
  venue : String := ""
  /-- Number of teams the header declares. -/
  declaredTeams : UInt32 := 0
  /-- Teams in definition order. -/
  teams : List Team := []
  bracket : Bracket := {}
  deriving DecidableEq, Repr

namespace Tournament

/-- The first team of a name. -/
def team? (t : Tournament) (name : String) : Option Team := t.teams.find? (·.name == name)

/-- Whether a team of this name is defined. -/
def hasTeam (t : Tournament) (name : String) : Bool := (t.team? name).isSome

/-- The first team whose roster lists a player of this name. -/
def teamOfPlayer? (t : Tournament) (player : String) : Option Team :=
  t.teams.find? (·.lists player)

end Tournament

end Knockout
