import Knockout.Text.Blank
import Knockout.Text.Numeral

/-!
# Scores

A score is a text. It counts as played when it is two numbers of goals joined by a dash, with
blanks allowed around each; everything else leaves the fixture undecided.
-/

namespace Knockout

/-- Goals of the two sides of a fixture, the first side first. -/
structure Goals where
  first : UInt32
  second : UInt32
  deriving DecidableEq, Repr

namespace Goals

/-- The score text of a fixture that has not been played. -/
def pendingText : String := "Pending"

/-- Goals of one side: a run of digits with blanks around it. -/
def ofSide? (side : List Char) : Option UInt32 := Text.smallNumber? (Text.trim side)

/-- Reads a score. There has to be exactly one dash, with the goals of one side before it and
those of the other after it. -/
def ofScore? (score : String) : Option Goals :=
  match score.toList.dropWhile (· ≠ '-') with
  | [] => none
  | _ :: after =>
    if '-' ∈ after then none
    else do
      let first ← ofSide? (score.toList.takeWhile (· ≠ '-'))
      let second ← ofSide? after
      some ⟨first, second⟩

/-- The same goals, seen from the other side. -/
def swap (g : Goals) : Goals := ⟨g.second, g.first⟩

end Goals

/-- Outcome of a fixture. -/
inductive Winner where
  /-- The team that scored more. -/
  | team (name : String)
  /-- Both sides scored the same. -/
  | draw
  /-- Not played yet, or played with a score that cannot be read. -/
  | undecided
  deriving DecidableEq, Repr

namespace Winner

/-- The word for an opponent or a winner that is not known yet. -/
def undecidedText : String := "TBD"

/-- Outcome of a fixture between two teams, from its score. -/
def ofScore (first second score : String) : Winner :=
  match Goals.ofScore? score with
  | none => .undecided
  | some goals =>
    if goals.second < goals.first then .team first
    else if goals.first < goals.second then .team second
    else .draw

/-- The winning team, if there is one. -/
def team? : Winner → Option String
  | .team name => some name
  | .draw | .undecided => none

/-- The outcome as tables show it. -/
def text : Winner → String
  | .team name => name
  | .draw => "Draw"
  | .undecided => undecidedText

end Winner

end Knockout
