import Knockout.Proofs.Standings
import Mathlib.Algebra.Order.BigOperators.Group.List
import Mathlib.Algebra.Order.Ring.Nat
import Mathlib.Data.List.Induction
import Mathlib.Tactic.Lemma

/-!
# Results of a team

The results of a team are the goals of the completed fixtures that it plays in, its own goals first.
As long as there are fewer than 2 ^ 31 fixtures, no number of a row wraps round or stops at its
limit: after every fixture the row holds the exact figures of the results so far
(`Standing.counts_upTo`, `Standing.reaches_upTo`). The main statement is `Standing.table_exact`.
-/

namespace Knockout

/-- The goals of a completed fixture that a team plays in, those of the team first. A team on both
sides is taken for the first side. -/
def Fixture.result? (f : Fixture) (team : String) : Option Goals :=
  if f.first = team then f.goals?
  else if f.second = team then f.goals?.map Goals.swap
  else none

/-- The goals of the completed fixtures that a team plays in, those of the team first. -/
def results (fs : List (Phase × Fixture)) (team : String) : List Goals :=
  fs.filterMap fun f => f.2.result? team

/-- A match is a result for the teams that play in it, once it is completed. -/
lemma Fixture.isSome_result? (f : Fixture) (team : String) :
    (f.result? team).isSome = (f.isCompleted && f.involves team) := by
  rw [result?, isCompleted, involves]
  by_cases first : f.first = team
  · simp [first]
  · by_cases second : f.second = team
    · simp [first, second]
    · simp [first, second]

/-- There is one for each completed fixture of the team. -/
lemma length_results (fs : List (Phase × Fixture)) (team : String) :
    (results fs team).length = fs.countP fun f => f.2.isCompleted && f.2.involves team := by
  simp only [results, List.length_filterMap_eq_countP, Fixture.isSome_result?]

/-- A further element adds what is made of it. -/
lemma filterMap_concat {α β : Type} (h : α → Option β) (l : List α) (a : α) :
    (l ++ [a]).filterMap h = l.filterMap h ++ (h a).toList := by
  rw [List.filterMap_append, List.filterMap_cons, List.filterMap_nil]
  cases h a <;> rfl

/-- The rank of the later of two phases is the greater one. -/
lemma Phase.rank_latest (p q : Phase) : (p.latest q).rank = max p.rank q.rank := by
  cases p <;> cases q <;> rfl

/-- The later of two phases is one of them. -/
lemma Phase.latest_eq_or (p q : Phase) : p.latest q = p ∨ p.latest q = q := by
  rw [latest]
  split
  · exact .inr rfl
  · exact .inl rfl

namespace Standing

variable {s : Standing} {p : Phase} {f : Fixture} {g : Goals} {gs : List Goals}
  {fs : List (Phase × Fixture)}

/-- What one fixture does to a row. -/
lemma add_eq (s : Standing) (p : Phase) (f : Fixture) :
    s.add p f =
      match f.result? s.team with
      | some g => (s.reach p).play g.first g.second
      | none => if f.involves s.team then s.reach p else s := by
  cases goals : f.goals? with
  | none =>
    have unplayed : f.result? s.team = none := by simp [Fixture.result?, goals]
    rw [add, goals, unplayed]
  | some g =>
    rw [add_of_goals goals, Fixture.result?, goals]
    by_cases first : f.first = s.team
    · simp [first]
    · by_cases second : f.second = s.team
      · simp [first, second, Goals.swap]
      · simp [first, second, Fixture.involves]

/-! ## Numbers -/

/-- The numbers of a row are those of some results. -/
structure Counts (s : Standing) (gs : List Goals) : Prop where
  played : s.played.toNat = gs.length
  won : s.won.toNat = gs.countP fun g => g.second < g.first
  lost : s.lost.toNat = gs.countP fun g => g.first < g.second
  goalsFor : s.goalsFor.toNat = (gs.map (·.first.toNat)).sum
  goalsAgainst : s.goalsAgainst.toNat = (gs.map (·.second.toNat)).sum
  goalDifference : s.goalDifference.toInt = s.goalsFor.toNat - s.goalsAgainst.toNat

/-- A sum of goals is at most the greatest number for each match. -/
lemma sum_goals_le (side : Goals → UInt32) (gs : List Goals) :
    (gs.map fun g => (side g).toNat).sum ≤ gs.length * (2 ^ 32 - 1) := by
  have most : ∀ n ∈ gs.map fun g => (side g).toNat, n ≤ 2 ^ 32 - 1 :=
    List.forall_mem_map.2 fun g _ => Nat.le_pred_of_lt (side g).toNat_lt
  simpa using List.sum_le_card_nsmul _ _ most

/-- A count of results does not wrap round. -/
lemma toNat_count {n : UInt32} {kind : Goals → Prop} [DecidablePred kind]
    (exact : n.toNat = gs.countP kind) (room : gs.length + 1 < 2 ^ 31) (g : Goals) :
    (if kind g then n + 1 else n).toNat = (gs ++ [g]).countP kind := by
  have most : gs.countP kind ≤ gs.length := List.countP_le_length
  rw [List.countP_append, List.countP_singleton, ← exact]
  by_cases hit : kind g
  · rw [if_pos hit, if_pos (decide_eq_true hit), UInt32.toNat_add]
    exact Nat.mod_eq_of_lt (by rw [exact, UInt32.toNat_one]; omega)
  · rw [if_neg hit, if_neg (by simpa using hit)]
    rfl

/-- A number of 32 bits keeps its value with 64. -/
lemma toInt_toInt64 (n : UInt32) : n.toUInt64.toInt64.toInt = n.toNat := by
  rw [Int64.toInt, UInt64.toBitVec_toInt64, BitVec.toInt_eq_toNat_bmod, UInt64.toNat_toBitVec,
    UInt32.toNat_toUInt64]
  have small := n.toNat_lt
  exact Int.bmod_eq_of_le (by omega) (by omega)

/-- The goals of one fixture apart fit in 64 bits. -/
lemma toInt_difference (own other : UInt32) :
    (own.toUInt64.toInt64 - other.toUInt64.toInt64).toInt = own.toNat - other.toNat := by
  rw [Int64.toInt_sub, toInt_toInt64, toInt_toInt64]
  have small := own.toNat_lt
  have small' := other.toNat_lt
  exact Int.bmod_eq_of_le (by omega) (by omega)

/-- A sum of goals does not stop at its limit. -/
lemma toNat_goals {sum : UInt64} {side : Goals → UInt32}
    (exact : sum.toNat = (gs.map fun g => (side g).toNat).sum) (room : gs.length + 1 < 2 ^ 31)
    (g : Goals) :
    (addCapped sum (side g).toUInt64).toNat = sum.toNat + (side g).toNat := by
  have most := sum_goals_le side gs
  have more := (side g).toNat_lt
  rw [toNat_addCapped, UInt32.toNat_toUInt64]
  rw [UInt32.toNat_toUInt64, exact, UInt64.size]
  omega

/-- Nor does a difference. -/
lemma Counts.toInt_difference (counts : s.Counts gs) (room : gs.length + 1 < 2 ^ 31) (g : Goals) :
    (addClamped s.goalDifference (g.first.toUInt64.toInt64 - g.second.toUInt64.toInt64)).toInt =
      s.goalDifference.toInt + (g.first.toNat - g.second.toNat) := by
  have own := sum_goals_le Goals.first gs
  have other := sum_goals_le Goals.second gs
  have ownMore := g.first.toNat_lt
  have otherMore := g.second.toNat_lt
  have difference := counts.goalDifference
  rw [counts.goalsFor, counts.goalsAgainst] at difference
  rw [toInt_addClamped, Standing.toInt_difference]
  · rw [Standing.toInt_difference, difference, Int64.toInt_minValue]
    omega
  · rw [Standing.toInt_difference, difference, Int64.toInt_maxValue]
    omega

/-- One result more. -/
lemma Counts.play (counts : s.Counts gs) (room : gs.length + 1 < 2 ^ 31) (g : Goals) :
    (s.play g.first g.second).Counts (gs ++ [g]) := by
  have goalsFor := toNat_goals counts.goalsFor room g
  have goalsAgainst := toNat_goals counts.goalsAgainst room g
  constructor
  case played =>
    have every : s.played.toNat = gs.countP fun _ => decide True := by simpa using counts.played
    have next := toNat_count every room g
    rw [if_pos trivial] at next
    exact next.trans (by simp)
  case won => exact toNat_count counts.won room g
  case lost => exact toNat_count counts.lost room g
  case goalsFor =>
    rw [List.map_append, List.sum_append, ← counts.goalsFor]
    exact goalsFor
  case goalsAgainst =>
    rw [List.map_append, List.sum_append, ← counts.goalsAgainst]
    exact goalsAgainst
  case goalDifference =>
    have difference := counts.toInt_difference room g
    rw [counts.goalDifference] at difference
    rw [Standing.play, difference, goalsFor, goalsAgainst]
    omega

/-- The numbers do not depend on the phase. -/
lemma Counts.reach (counts : s.Counts gs) (p : Phase) : (s.reach p).Counts gs :=
  ⟨counts.played, counts.won, counts.lost, counts.goalsFor, counts.goalsAgainst,
    counts.goalDifference⟩

/-! ## Phases -/

/-- A row names the latest phase of the fixtures of its team. -/
structure Reaches (s : Standing) (fs : List (Phase × Fixture)) : Prop where
  scheduled : ∀ p, s.phaseReached = some p → ∃ f, (p, f) ∈ fs ∧ f.involves s.team
  latest : ∀ p f, (p, f) ∈ fs → f.involves s.team →
    ∃ q, s.phaseReached = some q ∧ p.rank ≤ q.rank

/-- A fixture of the team may reach a later phase. -/
lemma Reaches.reach (reaches : s.Reaches fs) (p : Phase) {f : Fixture}
    (involved : f.involves s.team) : (s.reach p).Reaches (fs ++ [(p, f)]) := by
  cases before : s.phaseReached with
  | none =>
    have reached : (s.reach p).phaseReached = some p := by rw [Standing.reach, before]; rfl
    refine ⟨fun q eq => ⟨f, ?_, involved⟩, fun q f' listed involved' => ⟨p, reached, ?_⟩⟩
    · rw [reached] at eq
      simp [Option.some.inj eq]
    · obtain listed | listed := List.mem_append.1 listed
      · obtain ⟨q', eq, -⟩ := reaches.latest q f' listed involved'
        rw [before] at eq
        cases eq
      · cases List.mem_singleton.1 listed
        exact Nat.le_refl _
  | some q =>
    have reached : (s.reach p).phaseReached = some (q.latest p) := by
      rw [Standing.reach, before]; rfl
    refine ⟨fun q' eq => ?_, fun q' f' listed involved' => ⟨q.latest p, reached, ?_⟩⟩
    · rw [reached] at eq
      cases eq
      obtain same | same := q.latest_eq_or p
      · obtain ⟨f', listed, involved'⟩ := reaches.scheduled q before
        exact ⟨f', List.mem_append_left _ (by rwa [same]), involved'⟩
      · exact ⟨f, List.mem_append_right _ (by simp [same]), involved⟩
    · rw [Phase.rank_latest]
      obtain listed | listed := List.mem_append.1 listed
      · obtain ⟨_, eq, le⟩ := reaches.latest q' f' listed involved'
        rw [before] at eq
        cases eq
        exact Nat.le_trans le (Nat.le_max_left _ _)
      · cases List.mem_singleton.1 listed
        exact Nat.le_max_right _ _

/-- A fixture of other teams does not count. -/
lemma Reaches.skip (reaches : s.Reaches fs) (p : Phase) {f : Fixture}
    (apart : f.involves s.team = false) : s.Reaches (fs ++ [(p, f)]) := by
  refine ⟨fun q eq => ?_, fun q f' listed involved => ?_⟩
  · obtain ⟨f', listed, involved⟩ := reaches.scheduled q eq
    exact ⟨f', List.mem_append_left _ listed, involved⟩
  · obtain listed | listed := List.mem_append.1 listed
    · exact reaches.latest q f' listed involved
    · cases List.mem_singleton.1 listed
      rw [apart] at involved
      cases involved

/-! ## Rows -/

/-- One fixture more. -/
lemma Counts.add (counts : s.Counts (results fs s.team)) (room : fs.length + 1 < 2 ^ 31)
    (p : Phase) (f : Fixture) : (s.add p f).Counts (results (fs ++ [(p, f)]) s.team) := by
  have most : (results fs s.team).length ≤ fs.length := List.length_filterMap_le _ _
  rw [results, filterMap_concat, ← results, add_eq]
  cases f.result? s.team with
  | none =>
    rw [Option.toList_none, List.append_nil]
    dsimp only
    split
    · exact counts.reach p
    · exact counts
  | some g => exact (counts.reach p).play (by omega) g

/-- A further match may be the latest that its team has reached. -/
lemma Reaches.add (reaches : s.Reaches fs) (p : Phase) (f : Fixture) :
    (s.add p f).Reaches (fs ++ [(p, f)]) := by
  have played := f.isSome_result? s.team
  rw [add_eq]
  cases result : f.result? s.team with
  | none =>
    dsimp only
    split
    · next involved => exact reaches.reach p involved
    · next apart => exact reaches.skip p (Bool.eq_false_iff.2 apart)
  | some g =>
    rw [result, Option.isSome_some, Eq.comm, Bool.and_eq_true] at played
    have reached := reaches.reach p played.2
    exact ⟨reached.scheduled, reached.latest⟩

/-- The row of a team after some fixtures. -/
def upTo (team : Team) (fs : List (Phase × Fixture)) : Standing :=
  fs.foldl (fun s f => s.add f.1 f.2) { team := team.name }

/-- A further match is added last. -/
lemma upTo_concat (team : Team) (fs : List (Phase × Fixture)) (p : Phase) (f : Fixture) :
    upTo team (fs ++ [(p, f)]) = (upTo team fs).add p f :=
  List.foldl_append

/-- A row keeps the name of its team. -/
lemma team_upTo (team : Team) (fs : List (Phase × Fixture)) : (upTo team fs).team = team.name :=
  team_foldl _ _

/-- A row counts the results so far, as long as they can be counted. -/
lemma counts_upTo (team : Team) (room : fs.length < 2 ^ 31) :
    (upTo team fs).Counts (results fs team.name) := by
  induction fs using List.reverseRecOn with
  | nil => exact ⟨rfl, rfl, rfl, rfl, rfl, rfl⟩
  | append_singleton fs f ih =>
    rw [List.length_append, List.length_singleton] at room
    have counts := ih (by omega)
    rw [← team_upTo team fs] at counts ⊢
    rw [upTo_concat]
    exact counts.add room f.1 f.2

/-- A row names the latest phase so far. -/
lemma reaches_upTo (team : Team) (fs : List (Phase × Fixture)) : (upTo team fs).Reaches fs := by
  induction fs using List.reverseRecOn with
  | nil => exact ⟨nofun, nofun⟩
  | append_singleton fs f ih =>
    rw [upTo_concat]
    exact ih.add f.1 f.2

/-- A result is a win, a defeat or level. -/
lemma countP_outcomes (gs : List Goals) :
    (gs.countP fun g => g.second < g.first) + (gs.countP fun g => g.first < g.second) +
      (gs.countP fun g => g.first = g.second) = gs.length := by
  induction gs with
  | nil => rfl
  | cons g gs ih =>
    have one : (if g.second < g.first then 1 else 0) + (if g.first < g.second then 1 else 0) +
        (if g.first = g.second then 1 else 0) = 1 := by
      simp only [UInt32.lt_iff_toNat_lt, ← UInt32.toNat_inj]
      split_ifs <;> omega
    simp only [List.countP_cons, decide_eq_true_eq, List.length_cons]
    omega

/-! ## Order -/

/-- Elements that may stand in any order keep theirs in a sorted list. -/
lemma filter_mergeSort {α : Type} {le : α → α → Bool}
    (trans : ∀ a b c, le a b = true → le b c = true → le a c = true)
    (total : ∀ a b, (le a b || le b a) = true) {kind : α → Bool}
    (alike : ∀ a b, kind a = true → kind b = true → le a b = true) (xs : List α) :
    (xs.mergeSort le).filter kind = xs.filter kind := by
  have inOrder : (xs.filter kind).Pairwise fun a b => le a b = true :=
    List.pairwise_filter.2 (List.pairwise_of_forall alike)
  have kept : (xs.filter kind).Sublist ((xs.mergeSort le).filter kind) := by
    have sub := (List.sublist_mergeSort trans total inOrder List.filter_sublist).filter kind
    rwa [List.filter_filter, funext fun a => Bool.and_self (kind a)] at sub
  exact (kept.eq_of_length ((List.mergeSort_perm xs le).filter kind).length_eq.symm).symm

/-- The order by numbers of wins is transitive. -/
lemma won_le_trans (rank : Team → UInt32) (a b c : Team) (ab : decide (rank b ≤ rank a) = true)
    (bc : decide (rank c ≤ rank b) = true) : decide (rank c ≤ rank a) = true :=
  decide_eq_true (UInt32.le_trans (of_decide_eq_true bc) (of_decide_eq_true ab))

/-- Of two teams one may come first by its number of wins. -/
lemma won_le_total (rank : Team → UInt32) (a b : Team) :
    (decide (rank b ≤ rank a) || decide (rank a ≤ rank b)) = true := by
  rw [Bool.or_eq_true, decide_eq_true_eq, decide_eq_true_eq]
  exact UInt32.le_total _ _

/-- The teams in the order of their rows: more wins come first, and among as many wins the teams are
in definition order. -/
lemma exists_order (t : Tournament) :
    ∃ order : List Team, order.Perm t.teams ∧ table t = order.map (ofTeam t.bracket) ∧
      (order.Pairwise fun a b => (ofTeam t.bracket b).won ≤ (ofTeam t.bracket a).won) ∧
      ∀ wins, (order.filter fun team => (ofTeam t.bracket team).won = wins) =
        t.teams.filter fun team => (ofTeam t.bracket team).won = wins := by
  have trans := won_le_trans fun team => (ofTeam t.bracket team).won
  have total := won_le_total fun team => (ofTeam t.bracket team).won
  refine ⟨t.teams.mergeSort fun a b => (ofTeam t.bracket b).won ≤ (ofTeam t.bracket a).won,
    List.mergeSort_perm _ _, ?_, ?_, fun wins => ?_⟩
  · refine Eq.symm (List.map_mergeSort ?_)
    exact fun _ _ _ _ => rfl
  · exact (List.pairwise_mergeSort trans total _).imp of_decide_eq_true
  · refine filter_mergeSort trans total (fun a b wonA wonB => decide_eq_true ?_) _
    rw [of_decide_eq_true wonA, of_decide_eq_true wonB]
    exact UInt32.le_refl _

/-! ## The table -/

/-- What a row tells of a team and its fixtures. -/
structure Tells (s : Standing) (team : String) (fs : List (Phase × Fixture)) : Prop where
  name : s.team = team
  played : s.played.toNat = fs.countP fun f => f.2.isCompleted && f.2.involves team
  /-- The other numbers are those of the results, exactly. -/
  counts : s.Counts (results fs team)
  /-- Fixtures are won, lost or level. -/
  outcomes :
    s.won.toNat + s.lost.toNat + ((results fs team).countP fun g => g.first = g.second) =
      s.played.toNat
  /-- The phase is the latest one with a fixture of the team, completed or not. -/
  phase : s.Reaches fs

/-- **The standings are exact.** The rows are those of the teams, each team in its place: more wins
come first, and teams with as many wins stand in definition order. As long as there are fewer than
2 ^ 31 fixtures, a row holds the exact numbers of its team, not only in the end but after every
fixture on the way: none of them wraps round or stops at its limit. -/
theorem table_exact (t : Tournament) (room : t.bracket.size < 2 ^ 31) :
    (∃ order : List Team, order.Perm t.teams ∧ table t = order.map (ofTeam t.bracket) ∧
      (order.Pairwise fun a b => (ofTeam t.bracket b).won ≤ (ofTeam t.bracket a).won) ∧
      ∀ wins, (order.filter fun team => (ofTeam t.bracket team).won = wins) =
        t.teams.filter fun team => (ofTeam t.bracket team).won = wins) ∧
    ∀ team, (ofTeam t.bracket team).Tells team.name t.bracket.all ∧
      ∀ fs, fs <+: t.bracket.all → (upTo team fs).Tells team.name fs := by
  have told (team : Team) (fs : List (Phase × Fixture)) (front : fs <+: t.bracket.all) :
      (upTo team fs).Tells team.name fs := by
    have counts : (upTo team fs).Counts (results fs team.name) :=
      counts_upTo team (Nat.lt_of_le_of_lt (t.bracket.length_all ▸ front.length_le) room)
    refine ⟨team_upTo team fs, ?_, counts, ?_, reaches_upTo team fs⟩
    · rw [counts.played, length_results]
    · rw [counts.won, counts.lost, counts.played, countP_outcomes]
  exact ⟨exists_order t, fun team => ⟨told team _ (List.prefix_refl _), told team⟩⟩

/-- A team that is listed twice, scores that do not fit together in 32 bits, and no semifinal. -/
def hugeScores : Tournament where
  teams := [⟨"B", []⟩, ⟨"A", []⟩, ⟨"A", []⟩]
  bracket :=
    { quarterfinals := some [⟨"A", "A", "4000000000-0", []⟩, ⟨"B", "A", "1-4000000000", []⟩]
      semifinal := none
      final := some [⟨"A", "B", Goals.pendingText, []⟩] }

/-- Scores that do not fit together in 32 bits are summed exactly. -/
theorem table_exact_hugeScores :
    hugeScores.bracket.size < 2 ^ 31 ∧
      ((ofTeam hugeScores.bracket ⟨"A", []⟩).goalsFor.toNat = 8000000000 ∧
        (ofTeam hugeScores.bracket ⟨"A", []⟩).goalDifference.toInt = 7999999999 ∧
        (ofTeam hugeScores.bracket ⟨"A", []⟩).phaseReached = some .final) := by
  have room : hugeScores.bracket.size < 2 ^ 31 := by decide
  obtain ⟨-, told⟩ := table_exact hugeScores room
  obtain ⟨-, -, counts, -, phase⟩ := (told ⟨"A", []⟩).1
  refine ⟨room, counts.goalsFor.trans (by decide), ?_, ?_⟩
  · rw [counts.goalDifference, counts.goalsFor, counts.goalsAgainst]
    decide
  · have pending : (Phase.final, ⟨"A", "B", Goals.pendingText, []⟩) ∈ hugeScores.bracket.all := by
      decide
    obtain ⟨p, reached, late⟩ := phase.latest _ _ pending rfl
    cases p with
    | quarterfinals => exact absurd late (by decide)
    | semifinal => exact absurd late (by decide)
    | final => exact reached

end Standing

end Knockout
