import Knockout.Proofs.Conservation
import Knockout.Proofs.Graph.Structure

/-!
# The figures of the summary

The summary counts the rows of the bracket table, sums up the completed fixtures, and names the
earliest phase in which a fixture is open (`Summary.currentPhase?_eq_some_iff`); there is one
exactly when not every fixture is completed. The main statement is `Summary.ofTournament_exact`.
-/

namespace Knockout

/-- What is found among all phases is the earliest of its kind. -/
lemma Phase.find?_all_eq_some_iff {kind : Phase → Bool} {p : Phase} :
    all.find? kind = some p ↔ kind p = true ∧ ∀ q, q.rank < p.rank → kind q = false := by
  have earliest {p : Phase} (found : all.find? kind = some p) :
      kind p = true ∧ ∀ q, q.rank < p.rank → kind q = false := by
    obtain ⟨holds, earlier, later, split, clear⟩ := List.find?_eq_some_iff_append.1 found
    refine ⟨holds, fun q before => ?_⟩
    have ordered : all.Pairwise fun p q => p.rank < q.rank := by decide
    have listed := mem_all q
    rw [split] at ordered listed
    obtain mem | mem := List.mem_append.1 listed
    · simpa using clear q mem
    · obtain rfl | behind := List.mem_cons.1 mem
      · exact absurd before (Nat.lt_irrefl _)
      · have after := (List.pairwise_cons.1 (List.pairwise_append.1 ordered).2.1).1 q behind
        exact absurd before (Nat.lt_asymm after)
  refine ⟨earliest, fun ⟨holds, clear⟩ => ?_⟩
  -- two phases that are both the earliest have the same rank
  cases found : all.find? kind with
  | none => exact absurd holds (List.find?_eq_none.1 found p (mem_all p))
  | some q =>
    obtain ⟨holds', clear'⟩ := earliest found
    obtain before | level | after := Nat.lt_trichotomy q.rank p.rank
    · rw [clear q before] at holds'
      cases holds'
    · rw [eq_of_rank level]
    · rw [clear' p after] at holds
      cases holds

variable {b : Bracket} {p : Phase}

/-- The matches of a bracket are those of its phases. -/
lemma Bracket.mem_all {f : Fixture} : (p, f) ∈ b.all ↔ f ∈ b.fixtures p := by
  simp [all, Phase.mem_all]

/-- There is a score for each completed match. -/
lemma length_scores (fs : List (Phase × Fixture)) :
    (scores fs).length = fs.countP (·.2.isCompleted) :=
  List.length_filterMap_eq_countP

namespace Summary

/-- A phase is open if one of its matches is not completed. -/
lemma open_iff :
    (b.fixtures p).any (!·.isCompleted) = true ↔ ∃ f ∈ b.fixtures p, f.isCompleted = false := by
  simp only [List.any_eq_true, Bool.not_eq_true']

/-- A phase is over if all its matches are completed. -/
lemma not_open_iff :
    (b.fixtures p).any (!·.isCompleted) = false ↔ ∀ f ∈ b.fixtures p, f.isCompleted = true := by
  simp only [List.any_eq_false, Bool.not_eq_true', Bool.not_eq_false]

/-- The current phase is the earliest in which a fixture is open. -/
lemma currentPhase?_eq_some_iff :
    currentPhase? b = some p ↔ (∃ f ∈ b.fixtures p, f.isCompleted = false) ∧
      ∀ q, q.rank < p.rank → ∀ f ∈ b.fixtures q, f.isCompleted = true := by
  rw [currentPhase?, Phase.find?_all_eq_some_iff, open_iff]
  simp only [not_open_iff]

/-- No phase is open exactly when every match is completed. -/
lemma currentPhase?_eq_none_iff :
    currentPhase? b = none ↔ ∀ f ∈ b.all, f.2.isCompleted = true := by
  rw [currentPhase?, List.find?_eq_none]
  simp only [Bool.not_eq_true, not_open_iff]
  constructor
  · rintro completed ⟨p, f⟩ listed
    exact completed p (Phase.mem_all p) f (Bracket.mem_all.1 listed)
  · intro completed p _ f listed
    exact completed (p, f) (Bracket.mem_all.2 listed)

/-- **The summary is exact.** Where there are fewer than 2 ^ 31 fixtures, it counts the rows of the
table and the fixtures with a score that can be read, and sums up the goals of both sides over these
without stopping at a limit. The current phase is the earliest with a fixture whose score cannot be
read; there is none exactly when all fixtures are completed. -/
theorem ofTournament_exact (t : Tournament) (room : t.bracket.size < 2 ^ 31) :
    (ofTournament t).fixtures = t.bracket.table.length ∧
    (ofTournament t).completed = t.bracket.all.countP (·.2.isCompleted) ∧
    (ofTournament t).goals.toNat =
      ((t.bracket.all.filterMap (·.2.goals?)).map fun g => g.first.toNat + g.second.toNat).sum ∧
    (∀ p, (ofTournament t).currentPhase = some p ↔
      (∃ f ∈ t.bracket.fixtures p, f.isCompleted = false) ∧
        ∀ q, q.rank < p.rank → ∀ f ∈ t.bracket.fixtures q, f.isCompleted = true) ∧
    ((ofTournament t).currentPhase = none ↔
      (ofTournament t).completed = (ofTournament t).fixtures) := by
  obtain ⟨completed, goals⟩ := totals_sums t.bracket room
  have counted : (ofTournament t).completed = t.bracket.all.countP (·.2.isCompleted) :=
    completed.trans (length_scores _)
  refine ⟨t.bracket.length_table.symm, counted, goals, fun p => currentPhase?_eq_some_iff, ?_⟩
  have fixtures : (ofTournament t).fixtures = t.bracket.all.length := t.bracket.length_all.symm
  rw [counted, fixtures, List.countP_eq_length]
  exact currentPhase?_eq_none_iff

/-- No quarterfinals, an open semifinal before a final that is played, and goals of more than 32
bits. -/
def openSemifinal : Tournament where
  bracket :=
    { quarterfinals := none
      semifinal := some [⟨"A", "B", "4294967295-4294967295", []⟩, ⟨"C", "D", "1-", []⟩]
      final := some [⟨"A", "C", "2-0", []⟩] }

/-- An open semifinal is the current phase, and the goals do not fit in 32 bits. -/
theorem ofTournament_exact_openSemifinal :
    openSemifinal.bracket.size < 2 ^ 31 ∧ (ofTournament openSemifinal).fixtures = 3 ∧
      (ofTournament openSemifinal).completed = 2 ∧
      (ofTournament openSemifinal).goals.toNat = 8589934592 ∧
      (ofTournament openSemifinal).currentPhase = some .semifinal := by
  have room : openSemifinal.bracket.size < 2 ^ 31 := by decide
  obtain ⟨fixtures, completed, goals, phase, -⟩ := ofTournament_exact openSemifinal room
  refine ⟨room, fixtures.trans (by decide), completed.trans (by decide), goals.trans (by decide),
    ?_⟩
  refine (phase .semifinal).2 ⟨by decide, fun q before => ?_⟩
  cases q with
  | quarterfinals => exact nofun
  | semifinal => exact absurd before (by decide)
  | final => exact absurd before (by decide)

end Summary

end Knockout
