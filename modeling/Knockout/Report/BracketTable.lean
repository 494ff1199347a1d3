import Knockout.Tournament

/-!
# Bracket table

Every fixture of a bracket as a row of a table, in phase order and then in definition order.
-/

namespace Knockout

/-- A fixture as a table shows it. -/
structure BracketRow where
  phase : Phase
  first : String
  second : String
  score : String
  /-- The winning team, or the word for a draw or an open outcome. -/
  winner : String
  deriving DecidableEq, Repr

namespace BracketRow

/-- The row of a match in its phase. -/
def ofFixture (phase : Phase) (f : Fixture) : BracketRow :=
  { phase, first := f.first, second := f.second, score := f.score, winner := f.winner.text }

end BracketRow

/-- The rows of all matches, phase by phase. -/
def Bracket.table (b : Bracket) : List BracketRow :=
  b.all.map fun f => BracketRow.ofFixture f.1 f.2

/-- Every fixture has its row. -/
theorem Bracket.length_table (b : Bracket) : b.table.length = b.size := by
  simp [table, length_all]

end Knockout
