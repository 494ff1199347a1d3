import Knockout.Proofs.Results
import Knockout.Report.Summary
import Mathlib.Algebra.BigOperators.Group.List.Lemmas
import Mathlib.Algebra.Order.Ring.Int
import Mathlib.Tactic.Lemma

/-!
# What one team scores, another concedes

Each completed fixture is a result of two teams, seen from either side. A sum over the results of
all teams is therefore a sum over the fixtures (`sum_results`), and the figures of the standings add
up to those of the summary. The main statement is `Standing.table_conserves`.
-/

namespace Knockout

/-- The goals of the completed fixtures. -/
def scores (fs : List (Phase × Fixture)) : List Goals := fs.filterMap (·.2.goals?)

/-- The completed fixtures are between two of the teams. -/
def Paired (names : List String) (fs : List (Phase × Fixture)) : Prop :=
  ∀ f ∈ fs, f.2.isCompleted = true →
    f.2.first ≠ f.2.second ∧ f.2.first ∈ names ∧ f.2.second ∈ names

variable {f : Phase × Fixture} {fs : List (Phase × Fixture)} {g : Goals} {names : List String}

/-! ## Counting twice -/

/-- What a result weighs for a team is its share as the first side or as the second. -/
lemma sum_result?_eq (weight : Goals → Nat) {f : Fixture} (goals : f.goals? = some g)
    (apart : f.first ≠ f.second) (name : String) :
    ((f.result? name).toList.map weight).sum =
      (if name = f.first then weight g else 0) + if name = f.second then weight g.swap else 0 := by
  rw [Fixture.result?, goals]
  by_cases first : f.first = name
  · have other : name ≠ f.second := first ▸ apart
    simp [first, other]
  · by_cases second : f.second = name
    · simp [first, second, Ne.symm first]
    · simp [first, second, Ne.symm first, Ne.symm second]

/-- A sum over distinct names to which one of them contributes. -/
lemma sum_ite_eq (distinct : names.Nodup) {name : String} (listed : name ∈ names) (n : Nat) :
    (names.map fun other => if other = name then n else 0).sum = n := by
  rw [List.sum_map_eq_nsmul_single name _ fun other apart _ => if_neg apart,
    List.count_eq_one_of_mem distinct listed, if_pos rfl, one_nsmul]

/-- Both sides have their share in a completed fixture, and nobody else. -/
lemma sum_result? (weight : Goals → Nat) (distinct : names.Nodup) (paired : Paired names [f]) :
    (names.map fun name => ((f.2.result? name).toList.map weight).sum).sum =
      (f.2.goals?.toList.map fun g => weight g + weight g.swap).sum := by
  cases goals : f.2.goals? with
  | none =>
    have unplayed (name : String) : f.2.result? name = none := by
      simp [Fixture.result?, goals]
    simp [unplayed]
  | some g =>
    have completed : f.2.isCompleted = true := by rw [Fixture.isCompleted, goals]; rfl
    obtain ⟨apart, first, second⟩ := paired f (List.mem_singleton_self f) completed
    simp only [sum_result?_eq weight goals apart]
    rw [List.sum_map_add, sum_ite_eq distinct first, sum_ite_eq distinct second]
    simp

/-- What the results of all teams weigh together. -/
lemma sum_results (weight : Goals → Nat) (distinct : names.Nodup) (paired : Paired names fs) :
    (names.map fun name => ((results fs name).map weight).sum).sum =
      ((scores fs).map fun g => weight g + weight g.swap).sum := by
  induction fs using List.reverseRecOn with
  | nil => simp [results, scores]
  | append_singleton fs f ih =>
    obtain ⟨before, last⟩ := List.forall_mem_append.1 paired
    rw [scores, filterMap_concat, ← scores, List.map_append, List.sum_append, ← ih before,
      ← sum_result? weight distinct last, ← List.sum_map_add]
    simp only [results, filterMap_concat, List.map_append, List.sum_append]

/-! ## The summary -/

namespace Summary

/-- The goals of both sides together fit into 64 bits. -/
lemma toNat_add_goals (g : Goals) :
    (g.first.toUInt64 + g.second.toUInt64).toNat = g.first.toNat + g.second.toNat := by
  have first := g.first.toNat_lt
  have second := g.second.toNat_lt
  rw [UInt64.toNat_add, UInt32.toNat_toUInt64, UInt32.toNat_toUInt64]
  exact Nat.mod_eq_of_lt (by omega)

/-- What the totals say of some results. -/
def Totals.Sums (t : Totals) (gs : List Goals) : Prop :=
  t.completed = gs.length ∧ t.goals.toNat = (gs.map fun g => g.first.toNat + g.second.toNat).sum

/-- One fixture more. -/
lemma Totals.Sums.add {t : Totals} (sums : t.Sums (scores fs)) (room : fs.length + 1 < 2 ^ 31)
    (f : Phase × Fixture) : (t.add f.2).Sums (scores (fs ++ [f])) := by
  obtain ⟨completed, goals⟩ := sums
  have most : (scores fs).length ≤ fs.length := List.length_filterMap_le _ _
  have first := Standing.sum_goals_le Goals.first (scores fs)
  have second := Standing.sum_goals_le Goals.second (scores fs)
  rw [scores, filterMap_concat, ← scores, Totals.add]
  cases f.2.goals? with
  | none => exact ⟨by simpa using completed, by simpa using goals⟩
  | some g =>
    refine ⟨by simpa using completed, ?_⟩
    have fits : t.goals.toNat + (g.first.toUInt64 + g.second.toUInt64).toNat < UInt64.size := by
      have firstMore := g.first.toNat_lt
      have secondMore := g.second.toNat_lt
      rw [toNat_add_goals, goals, List.sum_map_add, UInt64.size]
      omega
    rw [toNat_addCapped fits, toNat_add_goals, goals, List.map_append, List.sum_append]
    rfl

/-- The totals of the summary are the sums over the completed fixtures. -/
lemma totals_sums (b : Bracket) (room : b.size < 2 ^ 31) : (totals b).Sums (scores b.all) := by
  rw [← b.length_all] at room
  rw [totals]
  generalize b.all = fs at room
  induction fs using List.reverseRecOn with
  | nil => exact ⟨rfl, rfl⟩
  | append_singleton fs f ih =>
    rw [List.length_append, List.length_singleton] at room
    rw [List.foldl_append]
    exact (ih (by omega)).add room f

end Summary

/-! ## The standings -/

/-- A team that is found by its name has that name. -/
lemma Tournament.mem_names (t : Tournament) {name : String} (defined : t.hasTeam name = true) :
    name ∈ t.teams.map (·.name) := by
  obtain ⟨team, listed, same⟩ := List.find?_isSome.1 defined
  exact List.mem_map.2 ⟨team, listed, eq_of_beq same⟩

namespace Standing

/-- A sum over the rows is a sum over the teams. -/
lemma sum_table {M : Type} [AddCommMonoid M] (t : Tournament) (figure : Standing → M) :
    ((table t).map figure).sum = (t.teams.map fun team => figure (ofTeam t.bracket team)).sum := by
  rw [table, ((List.mergeSort_perm _ _).map figure).sum_eq, List.map_map]
  rfl

/-- A figure that is the weight of the results of a team adds up to the weight of the fixtures, seen
from both sides. -/
lemma sum_figures {t : Tournament} (distinct : (t.teams.map (·.name)).Nodup)
    (paired : Paired (t.teams.map (·.name)) t.bracket.all) (figure : Standing → Nat)
    (weight : Goals → Nat)
    (weighs : ∀ team, figure (ofTeam t.bracket team) =
      ((results t.bracket.all team.name).map weight).sum) :
    ((table t).map figure).sum =
      ((scores t.bracket.all).map fun g => weight g + weight g.swap).sum := by
  rw [sum_table, ← sum_results weight distinct paired, List.map_map]
  exact congrArg _ (List.map_congr_left fun team _ => weighs team)

/-- A count is a sum of ones. -/
lemma countP_eq_sum (kind : Goals → Prop) [DecidablePred kind] (gs : List Goals) :
    gs.countP kind = (gs.map fun g => if kind g then 1 else 0).sum := by
  rw [List.sum_map_ite, List.countP_eq_length_filter]
  simp

/-- Where the differences of the rows are exact, so is their sum. -/
lemma sum_differences (rows : List Standing)
    (exact : ∀ s ∈ rows, s.goalDifference.toInt = s.goalsFor.toNat - s.goalsAgainst.toNat) :
    (rows.map (·.goalDifference.toInt)).sum =
      ((rows.map (·.goalsFor.toNat)).sum : Nat) -
        ((rows.map (·.goalsAgainst.toNat)).sum : Nat) := by
  induction rows with
  | nil => rfl
  | cons s rows ih =>
    obtain ⟨difference, exact⟩ := List.forall_mem_cons.1 exact
    simp only [List.map_cons, List.sum_cons, difference, ih exact]
    omega

/-- **What one team scores, another concedes.** Where teams have different names and completed
fixtures are between two of the teams, goals for and goals against add up to the goals of the
summary, so that the differences cancel out; there are as many wins as defeats, and each completed
fixture is played twice. -/
theorem table_conserves (t : Tournament) (distinct : (t.teams.map (·.name)).Nodup)
    (room : t.bracket.size < 2 ^ 31)
    (paired : ∀ f ∈ t.bracket.all, f.2.isCompleted = true →
      f.2.first ≠ f.2.second ∧ t.hasTeam f.2.first = true ∧ t.hasTeam f.2.second = true) :
    ((table t).map (·.goalsFor.toNat)).sum = (Summary.ofTournament t).goals.toNat ∧
      ((table t).map (·.goalsAgainst.toNat)).sum = (Summary.ofTournament t).goals.toNat ∧
      ((table t).map (·.goalDifference.toInt)).sum = 0 ∧
      ((table t).map (·.won.toNat)).sum = ((table t).map (·.lost.toNat)).sum ∧
      ((table t).map (·.played.toNat)).sum = 2 * (Summary.ofTournament t).completed := by
  have counts (team : Team) : (ofTeam t.bracket team).Counts (results t.bracket.all team.name) :=
    counts_upTo team (t.bracket.length_all ▸ room)
  have paired : Paired (t.teams.map (·.name)) t.bracket.all := fun f listed completed =>
    have ⟨apart, first, second⟩ := paired f listed completed
    ⟨apart, t.mem_names first, t.mem_names second⟩
  obtain ⟨completed, goals⟩ := Summary.totals_sums t.bracket room
  have goalsFor := sum_figures distinct paired (·.goalsFor.toNat) (·.first.toNat)
    fun team => (counts team).goalsFor
  have goalsAgainst := sum_figures distinct paired (·.goalsAgainst.toNat) (·.second.toNat)
    fun team => (counts team).goalsAgainst
  have won := sum_figures distinct paired (·.won.toNat)
    (fun g => if g.second < g.first then 1 else 0)
    fun team => (counts team).won.trans (countP_eq_sum _ _)
  have lost := sum_figures distinct paired (·.lost.toNat)
    (fun g => if g.first < g.second then 1 else 0)
    fun team => (counts team).lost.trans (countP_eq_sum _ _)
  have played := sum_figures distinct paired (·.played.toNat) (fun _ => 1)
    fun team => (counts team).played.trans (by simp)
  have difference := sum_differences (table t) fun s row => by
    obtain ⟨team, -, rfl⟩ := List.mem_map.1 (List.mem_mergeSort.1 row)
    exact (counts team).goalDifference
  have total : ((table t).map (·.goalsFor.toNat)).sum = (Summary.ofTournament t).goals.toNat :=
    goalsFor.trans goals.symm
  have total' : ((table t).map (·.goalsAgainst.toNat)).sum = (Summary.ofTournament t).goals.toNat :=
    (goalsAgainst.trans (congrArg List.sum (List.map_congr_left fun g _ => Nat.add_comm _ _))).trans
      goals.symm
  refine ⟨total, total', ?_, ?_, ?_⟩
  · rw [difference, total, total']
    exact Int.sub_self _
  · rw [won, lost]
    exact congrArg List.sum (List.map_congr_left fun g _ => Nat.add_comm _ _)
  · rw [played, List.map_const', List.sum_replicate, Nat.nsmul_eq_mul, Nat.mul_comm]
    exact congrArg (2 * ·) completed.symm

/-- Three teams, a draw, and a final that is not played yet. -/
def threeTeams : Tournament where
  teams := [⟨"A", []⟩, ⟨"B", []⟩, ⟨"C", []⟩]
  bracket :=
    { quarterfinals := none
      semifinal := some [⟨"A", "B", "3000000000-1", []⟩, ⟨"C", "B", "2-2", []⟩]
      final := some [⟨"A", "TBD", Goals.pendingText, []⟩] }

/-- The draw and two wins add up, with sums that 32 bits do not hold. -/
theorem table_conserves_threeTeams :
    ((threeTeams.teams.map (·.name)).Nodup ∧ threeTeams.bracket.size < 2 ^ 31 ∧
      ∀ f ∈ threeTeams.bracket.all, f.2.isCompleted = true →
        f.2.first ≠ f.2.second ∧ threeTeams.hasTeam f.2.first = true ∧
          threeTeams.hasTeam f.2.second = true) ∧
    ((table threeTeams).map (·.goalsFor.toNat)).sum = 3000000005 ∧
      ((table threeTeams).map (·.goalDifference.toInt)).sum = 0 ∧
      ((table threeTeams).map (·.played.toNat)).sum = 4 := by
  have distinct : (threeTeams.teams.map (·.name)).Nodup := by decide
  have room : threeTeams.bracket.size < 2 ^ 31 := by decide
  have paired : ∀ f ∈ threeTeams.bracket.all, f.2.isCompleted = true →
      f.2.first ≠ f.2.second ∧ threeTeams.hasTeam f.2.first = true ∧
        threeTeams.hasTeam f.2.second = true := by
    decide
  obtain ⟨goalsFor, -, differences, -, played⟩ := table_conserves threeTeams distinct room paired
  exact ⟨⟨distinct, room, paired⟩, goalsFor.trans (by decide), differences,
    played.trans (by decide)⟩

end Standing

end Knockout
