import Knockout.Saturating
import Knockout.Tournament

/-!
# Standings

What each team has achieved: the completed fixtures it played, its goals, and the latest phase it
is scheduled in. Teams with more wins come first; among equals the definition order is kept.
-/

namespace Knockout

/-- What a team has achieved. -/
structure Standing where
  team : String
  played : UInt32 := 0
  won : UInt32 := 0
  lost : UInt32 := 0
  goalsFor : UInt64 := 0
  goalsAgainst : UInt64 := 0
  goalDifference : Int64 := 0
  /-- The latest phase with a fixture of the team, completed or not. -/
  phaseReached : Option Phase := none
  deriving DecidableEq, Repr

namespace Standing

/-- A completed fixture more, with the goals of the team and those of its opponent. -/
def play (s : Standing) (own other : UInt32) : Standing :=
  { s with
    played := s.played + 1
    won := if other < own then s.won + 1 else s.won
    lost := if own < other then s.lost + 1 else s.lost
    goalsFor := addCapped s.goalsFor own.toUInt64
    goalsAgainst := addCapped s.goalsAgainst other.toUInt64
    goalDifference :=
      addClamped s.goalDifference (own.toUInt64.toInt64 - other.toUInt64.toInt64) }

/-- A phase in which the team is scheduled. -/
def reach (s : Standing) (p : Phase) : Standing :=
  { s with phaseReached := some ((s.phaseReached.map (·.latest p)).getD p) }

/-- One fixture more; only those of the team count. A team that is on both sides counts as the
first. -/
def add (s : Standing) (p : Phase) (f : Fixture) : Standing :=
  if f.involves s.team then
    match f.goals? with
    | none => s.reach p
    | some g =>
      if f.first == s.team then (s.reach p).play g.first g.second
      else (s.reach p).play g.second g.first
  else s

/-- What a team has achieved in a bracket. -/
def ofTeam (b : Bracket) (t : Team) : Standing :=
  b.all.foldl (fun s f => s.add f.1 f.2) { team := t.name }

/-- The standings of a tournament, most wins first. -/
def table (t : Tournament) : List Standing :=
  (t.teams.map (ofTeam t.bracket)).mergeSort fun a b => b.won ≤ a.won

end Standing

end Knockout
