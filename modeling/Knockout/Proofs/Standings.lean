import Knockout.Report.Standing
import Mathlib.Data.List.Count
import Mathlib.Tactic.Lemma

/-!
# Standings and winners

The outcome of a fixture is worked out twice, from its score for the fixture itself and from the
goals of each side for the standings. `Standing.won_add` and `Standing.lost_add` compare the two one
fixture at a time. They differ in one case only: a team that plays itself counts as the first side
in the standings, and so has lost there when the second side has won. The main statement is
`Standing.table_agrees`.
-/

namespace Knockout

/-! ## Outcomes for a team -/

namespace Fixture

/-- Whether the team is the winner. -/
def wonBy (f : Fixture) (team : String) : Bool := f.winner == .team team

/-- Whether the team has played and another one is the winner. -/
def lostBy (f : Fixture) (team : String) : Bool :=
  f.isCompleted && f.involves team && f.winner != .draw && f.winner != .team team

/-- Whether the team has played itself and the second side has scored more. -/
def lostToItself (f : Fixture) (team : String) : Bool :=
  f.first == team && f.second == team && f.goals?.any fun g => g.first < g.second

variable {f : Fixture} {team : String} {g : Goals}

/-- A match without a result is neither won nor lost. -/
lemma outcomes_of_unplayed (team : String) (unplayed : f.goals? = none) :
    f.wonBy team = false ∧ f.lostBy team = false ∧ f.lostToItself team = false := by
  refine ⟨?_, ?_, ?_⟩
  · rw [goals?] at unplayed
    rw [wonBy, winner, Winner.ofScore, unplayed]
    rfl
  · rw [lostBy, isCompleted, unplayed]
    rfl
  · rw [lostToItself, unplayed]
    exact Bool.and_false _

/-- The side with more goals is the winner. -/
lemma winner_of_goals (goals : f.goals? = some g) :
    f.winner =
      if g.second < g.first then .team f.first
      else if g.first < g.second then .team f.second
      else .draw := by
  rw [goals?] at goals
  rw [winner, Winner.ofScore, goals]

/-- A match is won by the side with more goals. -/
lemma wonBy_iff (goals : f.goals? = some g) :
    f.wonBy team = true ↔
      (g.second < g.first ∧ f.first = team) ∨ (g.first < g.second ∧ f.second = team) := by
  rw [wonBy, beq_iff_eq, winner_of_goals goals]
  split
  · next ahead => simp [ahead, UInt32.lt_asymm ahead]
  · split
    · next ahead behind => simp [ahead, behind]
    · next ahead behind => simp [ahead, behind]

/-- A team has lost to itself when the second side has more goals and it is on both. -/
lemma lostToItself_iff (goals : f.goals? = some g) :
    f.lostToItself team = true ↔ g.first < g.second ∧ f.first = team ∧ f.second = team := by
  rw [lostToItself, goals]
  simp [and_comm]

/-- A match is lost by the side with fewer goals, if another team is on the other side. -/
lemma lostBy_iff (goals : f.goals? = some g) :
    f.lostBy team = true ↔
      (g.first < g.second ∧ f.first = team ∧ f.second ≠ team) ∨
        (g.second < g.first ∧ f.second = team ∧ f.first ≠ team) := by
  rw [lostBy, isCompleted, involves, goals, winner_of_goals goals]
  simp only [Option.isSome_some, Bool.true_and, Bool.and_eq_true, Bool.or_eq_true, beq_iff_eq,
    bne_iff_ne]
  split
  · next ahead =>
    simp only [UInt32.lt_asymm ahead, ahead, ne_eq, reduceCtorEq, Winner.team.injEq]
    tauto
  · split
    · next ahead behind =>
      simp only [ahead, behind, ne_eq, reduceCtorEq, Winner.team.injEq]
      tauto
    · next ahead behind => simp [ahead, behind]

/-- A team that has lost to itself is the winner. -/
lemma outcomes_of_lostToItself (itself : f.lostToItself team = true) :
    f.wonBy team = true ∧ f.lostBy team = false := by
  cases goals : f.goals? with
  | none =>
    rw [(outcomes_of_unplayed team goals).2.2] at itself
    cases itself
  | some g =>
    obtain ⟨behind, first, second⟩ := (lostToItself_iff goals).1 itself
    refine ⟨(wonBy_iff goals).2 (.inr ⟨behind, second⟩), Bool.eq_false_iff.2 fun lost => ?_⟩
    obtain ⟨-, -, other⟩ | ⟨-, -, other⟩ := (lostBy_iff goals).1 lost
    · exact other second
    · exact other first

end Fixture

/-- The number of fixtures of one kind. -/
def Bracket.countP (b : Bracket) (kind : Fixture → Bool) : Nat := b.all.countP fun f => kind f.2

namespace Bracket

/-- There are no more matches of a kind than matches. -/
lemma countP_le (b : Bracket) (kind : Fixture → Bool) : b.countP kind ≤ b.size := by
  rw [← b.length_all]
  exact List.countP_le_length

/-- The matches of a kind are those of another kind as well and those that are not. -/
lemma countP_split (b : Bracket) (kind other : Fixture → Bool) :
    b.countP kind =
      b.countP (fun f => kind f && other f) + b.countP (fun f => kind f && !other f) := by
  have split := b.all.countP_eq_countP_filter_add (fun f => kind f.2) fun f => other f.2
  rw [List.countP_filter, List.countP_filter] at split
  simpa [countP] using split

/-- Fixtures with itself that a team has lost are won by it. -/
lemma countP_wonBy (b : Bracket) (team : String) :
    b.countP (·.wonBy team) =
      b.countP (·.lostToItself team) + b.countP fun f => f.wonBy team && !f.lostToItself team := by
  rw [b.countP_split (·.wonBy team) (·.lostToItself team)]
  congr 2
  funext f
  cases itself : f.lostToItself team with
  | false => exact Bool.and_false _
  | true => rw [(Fixture.outcomes_of_lostToItself itself).1]; rfl

/-- They are not lost against another team. -/
lemma countP_lostBy (b : Bracket) (team : String) :
    (b.countP fun f => f.lostBy team || f.lostToItself team) =
      b.countP (·.lostToItself team) + b.countP (·.lostBy team) := by
  rw [b.countP_split _ (·.lostToItself team)]
  congr 2 <;> funext f <;> cases itself : f.lostToItself team with
  | false => simp
  | true => simp [(Fixture.outcomes_of_lostToItself itself).2]

end Bracket

/-! ## One fixture -/

namespace Standing

variable {s : Standing} {p : Phase} {f : Fixture} {g : Goals}

/-- A match does not change the team of a row. -/
lemma team_add : (s.add p f).team = s.team := by
  unfold add
  split
  · split
    · rfl
    · split <;> rfl
  · rfl

/-- A match without a result changes neither wins nor losses. -/
lemma results_of_unplayed (unplayed : f.goals? = none) :
    (s.add p f).won = s.won ∧ (s.add p f).lost = s.lost := by
  rw [add, unplayed]
  split <;> exact ⟨rfl, rfl⟩

/-- The first side is looked at first. -/
lemma add_of_goals (goals : f.goals? = some g) :
    s.add p f =
      if f.first = s.team then (s.reach p).play g.first g.second
      else if f.second = s.team then (s.reach p).play g.second g.first
      else s := by
  rw [add, goals, Fixture.involves]
  by_cases first : f.first = s.team
  · simp [first]
  · simp [first]

/-- A fixture that the team has won is one more, but for one with itself that the second side has
won. -/
lemma won_add :
    (s.add p f).won =
      if f.wonBy s.team && !f.lostToItself s.team then s.won + 1 else s.won := by
  cases goals : f.goals? with
  | none =>
    rw [(results_of_unplayed goals).1, (Fixture.outcomes_of_unplayed s.team goals).1]
    rfl
  | some g =>
    simp only [Bool.and_eq_true, Bool.not_eq_true', ← Bool.not_eq_true, Fixture.wonBy_iff goals,
      Fixture.lostToItself_iff goals]
    rw [add_of_goals goals]
    split
    · next first =>
      -- if the second side is the team as well, its win is not seen
      have apart : g.second < g.first → ¬g.first < g.second := UInt32.lt_asymm
      refine if_congr ?_ rfl rfl
      tauto
    · next first =>
      split
      · next second => simp [first, second, play, reach]
      · next second => simp [first, second]

/-- A fixture that the team has lost is one more, and so is one with itself that the second side has
won. -/
lemma lost_add :
    (s.add p f).lost =
      if f.lostBy s.team || f.lostToItself s.team then s.lost + 1 else s.lost := by
  cases goals : f.goals? with
  | none =>
    obtain ⟨-, lost, itself⟩ := Fixture.outcomes_of_unplayed s.team goals
    rw [(results_of_unplayed goals).2, lost, itself]
    rfl
  | some g =>
    simp only [Bool.or_eq_true, Fixture.lostBy_iff goals, Fixture.lostToItself_iff goals]
    rw [add_of_goals goals]
    split
    · next first =>
      -- a defeat of the first side counts, whoever the second side is
      refine if_congr ?_ rfl rfl
      tauto
    · next first =>
      split
      · next second => simp [first, second, play, reach]
      · next second => simp [first, second]

/-! ## All fixtures -/

/-- Matches do not change the team of a row. -/
lemma team_foldl (fs : List (Phase × Fixture)) (s : Standing) :
    (fs.foldl (fun s f => s.add f.1 f.2) s).team = s.team := by
  induction fs generalizing s with
  | nil => rfl
  | cons f fs ih => rw [List.foldl_cons, ih, team_add]

/-- A number that goes up by one at some fixtures counts them in the end. -/
lemma foldl_counts (count : Standing → UInt32) (hit : Fixture → String → Bool)
    (step : ∀ s p f, count (add s p f) = if hit f s.team then count s + 1 else count s)
    (fs : List (Phase × Fixture)) (s : Standing) :
    count (fs.foldl (fun s f => s.add f.1 f.2) s) =
      count s + .ofNat (fs.countP fun f => hit f.2 s.team) := by
  induction fs generalizing s with
  | nil => simp
  | cons f fs ih =>
    rw [List.foldl_cons, ih, step, team_add, List.countP_cons]
    split
    · rw [UInt32.ofNat_add, UInt32.add_assoc, UInt32.add_comm 1]
      rfl
    · rfl

/-- What the standings say in numbers that wrap round. -/
lemma ofTeam_eq (b : Bracket) (t : Team) :
    (ofTeam b t).won = .ofNat (b.countP fun f => f.wonBy t.name && !f.lostToItself t.name) ∧
      (ofTeam b t).lost = .ofNat (b.countP fun f => f.lostBy t.name || f.lostToItself t.name) := by
  have won := foldl_counts won (fun f team => f.wonBy team && !f.lostToItself team)
    (fun _ _ _ => won_add) b.all { team := t.name }
  have lost := foldl_counts lost (fun f team => f.lostBy team || f.lostToItself team)
    (fun _ _ _ => lost_add) b.all { team := t.name }
  rw [UInt32.zero_add] at won lost
  exact ⟨won, lost⟩

/-- **Standings and winners agree, but for teams that play themselves.** In each row the fixtures
won are those that the team is the winner of, and the fixtures lost are those it has played that
another team is the winner of; only fixtures of the team with itself that the second side has won
are counted as lost instead. The numbers wrap round where there are too many fixtures for them. -/
theorem table_agrees (t : Tournament) (s : Standing) (row : s ∈ table t) :
    (s.won + .ofNat (t.bracket.countP (·.lostToItself s.team)) =
        .ofNat (t.bracket.countP (·.wonBy s.team)) ∧
      s.lost = .ofNat (t.bracket.countP (·.lostBy s.team)) +
        .ofNat (t.bracket.countP (·.lostToItself s.team))) ∧
    (t.bracket.size < UInt32.size →
      s.won.toNat + t.bracket.countP (·.lostToItself s.team) =
          t.bracket.countP (·.wonBy s.team) ∧
        s.lost.toNat =
          t.bracket.countP (·.lostBy s.team) + t.bracket.countP (·.lostToItself s.team)) := by
  obtain ⟨team, -, rfl⟩ := List.mem_map.1 (List.mem_mergeSort.1 row)
  obtain ⟨won, lost⟩ := ofTeam_eq t.bracket team
  have name : (ofTeam t.bracket team).team = team.name := team_foldl _ _
  have wins := t.bracket.countP_wonBy team.name
  have losses := t.bracket.countP_lostBy team.name
  rw [name, won, lost]
  refine ⟨⟨?_, ?_⟩, fun room => ?_⟩
  · rw [wins, UInt32.ofNat_add, UInt32.add_comm]
  · rw [losses, UInt32.ofNat_add, UInt32.add_comm]
  · have whole (kind : Fixture → Bool) :
        (UInt32.ofNat (t.bracket.countP kind)).toNat = t.bracket.countP kind :=
      UInt32.toNat_ofNat_of_lt' (Nat.lt_of_le_of_lt (t.bracket.countP_le kind) room)
    rw [whole, whole, wins, losses]
    exact ⟨Nat.add_comm _ _, Nat.add_comm _ _⟩

/-- A team that has played itself, and the second side has won. -/
def playsItself : Tournament where
  teams := [⟨"A", []⟩]
  bracket := { final := some [⟨"A", "A", "1-2", []⟩] }

/-- Its winner has won nothing. -/
theorem table_disagrees :
    ¬∀ s ∈ table playsItself,
      s.won.toNat = playsItself.bracket.countP (·.wonBy s.team) ∧
        s.lost.toNat = playsItself.bracket.countP (·.lostBy s.team) := by
  decide +kernel

/-- A team that has played itself, and lost, has one win less in its row than in the bracket, and
one loss more. -/
theorem table_agrees_playsItself :
    ∃ s ∈ table playsItself,
      s.won.toNat + playsItself.bracket.countP (·.lostToItself s.team) =
          playsItself.bracket.countP (·.wonBy s.team) ∧
        s.lost.toNat = playsItself.bracket.countP (·.lostBy s.team) +
          playsItself.bracket.countP (·.lostToItself s.team) := by
  have row : ofTeam playsItself.bracket ⟨"A", []⟩ ∈ table playsItself := by decide +kernel
  exact ⟨_, row, (table_agrees playsItself _ row).2 (by decide)⟩

end Standing

end Knockout
