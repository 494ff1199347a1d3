import Knockout.Command.Session
import Knockout.Records
import Knockout.Text.Table

/-!
# Printing reports

The command that prints the reports on the tournament of a file, all of them or one.
-/

namespace Knockout

/-- Which reports to print. -/
inductive ReportPart where
  | summary
  | standings
  | scorers
  | bracket
  | all
  deriving DecidableEq, Repr

namespace ReportPart

/-- The word for a choice. -/
def name : ReportPart → String
  | .summary => "summary"
  | .standings => "standings"
  | .scorers => "scorers"
  | .bracket => "bracket"
  | .all => "all"

/-- The choice a word stands for. -/
def ofName? : String → Option ReportPart
  | "summary" => some .summary
  | "standings" => some .standings
  | "scorers" => some .scorers
  | "bracket" => some .bracket
  | "all" => some .all
  | _ => none

/-- The reports of a choice, in the order in which they are printed. -/
def parts : ReportPart → List ReportPart
  | .all => [.summary, .standings, .scorers, .bracket]
  | p => [p]

end ReportPart

namespace Reports

/-- A number with two digits after the point. -/
def twoPlaces (x : Float) : String := Decimal.fixedText 2 (Decimal.Binary.ofFloat x)

def summaryText (s : Summary) : String :=
  Text.tableText ["Statistic", "Value"]
    [["Tournament", s.name],
      ["Venue", s.venue],
      ["Teams", toString s.teams],
      ["Matches scheduled", toString s.fixtures],
      ["Matches completed", toString s.completed],
      ["Total goals", toString s.goals.toNat],
      ["Goals per match", twoPlaces s.averageGoals],
      ["Average player age", (s.averageAge.map twoPlaces).getD "N/A"],
      ["Current phase", (s.currentPhase.map Phase.label).getD "Finished"]]

def standingsText (rows : List Standing) : String :=
  Text.tableText ["Team", "P", "W", "L", "GF", "GA", "GD", "Phase"]
    (rows.map fun s =>
      [s.team, toString s.played.toNat, toString s.won.toNat, toString s.lost.toNat,
        toString s.goalsFor.toNat, toString s.goalsAgainst.toNat,
        toString s.goalDifference.toInt, (s.phaseReached.map Phase.label).getD "-"])

/-- The leaderboard as a table. -/
def scorersText (rows : List ScorerRow) : String :=
  Text.tableText ["#", "Player", "Team", "Goals", "Minutes"]
    (rows.map fun r =>
      [toString r.rank, r.player, r.team.getD "-", toString r.goals.toNat,
        String.intercalate ", " (r.minutes.map fun m => s!"{m.toNat}'")])

def bracketText (rows : List BracketRow) : String :=
  Text.tableText ["Phase", "Team A", "Score", "Team B", "Winner"]
    (rows.map fun r => [r.phase.label, r.first, r.score, r.second, r.winner])

def partText (t : Tournament) : ReportPart → String
  | .summary => summaryText (Summary.ofTournament t)
  | .standings => standingsText (Standing.table t)
  | .scorers => scorersText (Leaderboard.ofTournament t)
  | .bracket => bracketText t.bracket.table
  | .all => ""

def partRecord (t : Tournament) : ReportPart → Json
  | .summary => (Summary.ofTournament t).record
  | .standings => .list Standing.record (Standing.table t)
  | .scorers => .list ScorerRow.record (Leaderboard.ofTournament t)
  | .bracket => .list BracketRow.record t.bracket.table
  | .all => .null

/-- The chosen reports as tables, an empty line between them. -/
def text (t : Tournament) (choice : ReportPart) : String :=
  String.intercalate "\n" (choice.parts.map (partText t))

/-- The record of the chosen reports. -/
def record (t : Tournament) (choice : ReportPart) : Json :=
  .object (choice.parts.map fun p => (p.name, partRecord t p))

/-- Prints reports on the tournament of a file. -/
def run (s : Session) (config : Config) (strict : Bool) (format : Option OutputFormat)
    (choice : ReportPart) (file : Path) : Execution :=
  match s.loadTournament (config.strictness strict) file with
  | (stderr, .error f) => { stderr, failure := some f }
  | (stderr, .ok t) =>
    { stderr
      stdout :=
        match format.getD config.format with
        | .text => text t choice
        | .json => (record t choice).pretty ++ "\n" }

end Reports

end Knockout
