import Knockout.Diagnostic
import Knockout.Json
import Knockout.Report.BracketTable
import Knockout.Report.Leaderboard
import Knockout.Report.Standing
import Knockout.Report.Summary

/-!
# Records

The JSON form of tournaments, errors and reports. The order of the fields is part of the form.
-/

namespace Knockout

/-- The record of a place. -/
def Location.record (l : Location) : Json :=
  .object [("offset", .nat l.offset), ("line", .nat l.line), ("column", .nat l.column)]

def Span.record (s : Span) : Json :=
  .object [("start", s.first.record), ("end", s.stop.record)]

def LexicalError.record (e : LexicalError) : Json :=
  .object [("number", .nat e.number), ("lexeme", .string e.fault.lexeme),
    ("kind", .string e.fault.kind.name), ("message", .string e.fault.message),
    ("span", e.span.record)]

def SyntaxError.record (e : SyntaxError) : Json :=
  .object [("number", .nat e.number), ("kind", .string e.kind.name),
    ("message", .string e.message), ("span", e.span.record)]

/-- The record of a phase is its key. -/
def Phase.record (p : Phase) : Json := .string p.key

/-- The record of a position is its canonical word. -/
def Position.record (p : Position) : Json := .string p.name

/-- The record of a 32-bit number. -/
def Json.count (n : UInt32) : Json := .nat n.toNat

def Player.record (p : Player) : Json :=
  .object [("name", .string p.name), ("position", .option Position.record p.position),
    ("number", .count p.number), ("age", .option Json.count p.age)]

def Team.record (t : Team) : Json :=
  .object [("name", .string t.name), ("players", .list Player.record t.players)]

def Scorer.record (s : Scorer) : Json :=
  .object [("player", .string s.player), ("minute", .count s.minute)]

/-- The record of a fixture; the winner is written out. -/
def Fixture.record (f : Fixture) : Json :=
  .object [("team_a", .string f.first), ("team_b", .string f.second), ("score", .string f.score),
    ("scorers", .list Scorer.record f.scorers), ("winner", .string f.winner.text)]

/-- The record of a bracket has the phases that are there. -/
def Bracket.record (b : Bracket) : Json :=
  .object (Phase.all.filterMap fun p => (b.get? p).map fun fs => (p.key, .list Fixture.record fs))

def Tournament.record (t : Tournament) : Json :=
  .object [("name", .string t.name), ("venue", .string t.venue),
    ("declared_team_count", .count t.declaredTeams), ("teams", .list Team.record t.teams),
    ("phases", t.bracket.record)]

def Summary.record (s : Summary) : Json :=
  .object [("name", .string s.name), ("venue", .string s.venue), ("team_count", .nat s.teams),
    ("match_count", .nat s.fixtures), ("completed_matches", .nat s.completed),
    ("total_goals", .nat s.goals.toNat), ("average_goals", .real s.averageGoals),
    ("average_age", .option Json.real s.averageAge),
    ("current_phase", .option Phase.record s.currentPhase)]

def Standing.record (s : Standing) : Json :=
  .object [("team", .string s.team), ("played", .count s.played), ("won", .count s.won),
    ("lost", .count s.lost), ("goals_for", .nat s.goalsFor.toNat),
    ("goals_against", .nat s.goalsAgainst.toNat),
    ("goal_difference", .int s.goalDifference.toInt),
    ("phase_reached", .option Phase.record s.phaseReached)]

/-- The record of a row of the leaderboard. -/
def ScorerRow.record (r : ScorerRow) : Json :=
  .object [("rank", .nat r.rank), ("player", .string r.player),
    ("team", .option Json.string r.team), ("goals", .count r.goals),
    ("minutes", .list Json.count r.minutes)]

def BracketRow.record (r : BracketRow) : Json :=
  .object [("phase", r.phase.record), ("team_a", .string r.first), ("team_b", .string r.second),
    ("score", .string r.score), ("winner", .string r.winner)]

end Knockout
