/-!
# Phases

The three rounds of a knockout bracket, earliest first.
-/

namespace Knockout

/-- A round of the bracket. -/
inductive Phase where
  | quarterfinals
  | semifinal
  | final
  deriving DecidableEq, Repr

namespace Phase

/-- All phases, earliest first. -/
def all : List Phase := [.quarterfinals, .semifinal, .final]

/-- Name of a phase as a key of data. -/
def key : Phase → String
  | .quarterfinals => "quarterfinals"
  | .semifinal => "semifinal"
  | .final => "final"

/-- Name of a phase for people. -/
def label : Phase → String
  | .quarterfinals => "Quarterfinals"
  | .semifinal => "Semifinal"
  | .final => "Final"

/-- The phase in which the winners of this one play. -/
def next? : Phase → Option Phase
  | .quarterfinals => some .semifinal
  | .semifinal => some .final
  | .final => none

/-- Place of a phase in the bracket, from 0. -/
def rank : Phase → Nat
  | .quarterfinals => 0
  | .semifinal => 1
  | .final => 2

/-- The later of two phases. -/
def latest (p q : Phase) : Phase := if p.rank < q.rank then q else p

/-- Every phase is listed. -/
theorem mem_all (p : Phase) : p ∈ all := by
  cases p <;> decide

/-- The next phase is the one whose place comes right after. -/
theorem toList_next? (p : Phase) : p.next?.toList = all.filter fun q => q.rank = p.rank + 1 := by
  cases p <;> rfl

end Phase

end Knockout
