import Knockout.Saturating
import Knockout.Tournament

/-!
# Summary

The general figures of a tournament. Totals count the fixtures whose score can be read.
-/

namespace Knockout

/-- General figures of a tournament. -/
structure Summary where
  name : String
  venue : String
  teams : Nat
  fixtures : Nat
  completed : Nat
  goals : UInt64
  /-- Goals for each completed fixture; zero when there is none. -/
  averageGoals : Float
  /-- Mean age of the players that declare one; absent when none does. -/
  averageAge : Option Float
  /-- The earliest phase with a fixture that is not completed. -/
  currentPhase : Option Phase

namespace Summary

/-- Completed fixtures and their goals, counted so far. -/
structure Totals where
  completed : Nat := 0
  goals : UInt64 := 0
  deriving DecidableEq, Repr

/-- The totals with one more fixture. -/
def Totals.add (t : Totals) (f : Fixture) : Totals :=
  match f.goals? with
  | none => t
  | some g =>
    { completed := t.completed + 1
      goals := addCapped t.goals (g.first.toUInt64 + g.second.toUInt64) }

/-- The totals of all matches. -/
def totals (b : Bracket) : Totals := b.all.foldl (fun t f => t.add f.2) {}

/-- The ages that the players declare, in definition order. -/
def ages (teams : List Team) : List UInt32 :=
  teams.flatMap fun t => t.players.filterMap Player.age

/-- Mean of some ages, if there are any. -/
def mean? (ages : List UInt32) : Option Float :=
  if ages.isEmpty then none
  else some (ages.foldl (fun sum a => sum + a.toFloat) 0 / Float.ofNat ages.length)

/-- The earliest phase with a fixture that is not completed. -/
def currentPhase? (b : Bracket) : Option Phase :=
  Phase.all.find? fun p => (b.fixtures p).any (!·.isCompleted)

/-- The summary of a tournament. -/
def ofTournament (t : Tournament) : Summary :=
  let totals := totals t.bracket
  { name := t.name
    venue := t.venue
    teams := t.teams.length
    fixtures := t.bracket.size
    completed := totals.completed
    goals := totals.goals
    averageGoals :=
      if totals.completed = 0 then 0 else totals.goals.toFloat / Float.ofNat totals.completed
    averageAge := mean? (ages t.teams)
    currentPhase := currentPhase? t.bracket }

end Summary

end Knockout
