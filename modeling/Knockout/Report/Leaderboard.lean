import Knockout.Tournament

/-!
# Leaderboard

The goals of each scorer over all fixtures, most goals first and by name among equals. Players with
as many goals share a rank, and the next rank leaves room for all of them: 1, 1, 3.
-/

namespace Knockout

/-- The goals of one scorer. -/
structure ScorerRow where
  /-- One more than the number of scorers with more goals. -/
  rank : Nat := 0
  player : String
  /-- The team whose roster lists the player, if any does. -/
  team : Option String
  goals : UInt32
  /-- The minute of each goal, in bracket order. -/
  minutes : List UInt32
  deriving DecidableEq, Repr

namespace Leaderboard

/-- One more goal: it is added to the row of its scorer, or opens one. -/
def credit (t : Tournament) (s : Scorer) : List ScorerRow → List ScorerRow
  | [] =>
    [{ player := s.player, team := (t.teamOfPlayer? s.player).map (·.name), goals := 1,
       minutes := [s.minute] }]
  | row :: rows =>
    if row.player = s.player then
      { row with goals := row.goals + 1, minutes := row.minutes ++ [s.minute] } :: rows
    else row :: credit t s rows

/-- The goals of each scorer, in the order of their first goals. -/
def tally (t : Tournament) : List ScorerRow :=
  (t.bracket.all.flatMap (·.2.scorers)).foldl (fun rows s => credit t s rows) []

/-- Whether a row may stand before another. -/
def precedes (a b : ScorerRow) : Bool :=
  b.goals < a.goals || (a.goals == b.goals && a.player ≤ b.player)

/-- Gives ranks to rows in order. `place` is the place of the first row, and `above` holds the goals
and the rank of the row before it. -/
def rankFrom (place : Nat) (above : Option (UInt32 × Nat)) : List ScorerRow → List ScorerRow
  | [] => []
  | row :: rows =>
    let rank :=
      match above with
      | some (goals, rank) => if goals = row.goals then rank else place
      | none => place
    { row with rank } :: rankFrom (place + 1) (some (row.goals, rank)) rows

/-- The leaderboard of a tournament. -/
def ofTournament (t : Tournament) : List ScorerRow :=
  rankFrom 1 none ((tally t).mergeSort precedes)

end Leaderboard

end Knockout
