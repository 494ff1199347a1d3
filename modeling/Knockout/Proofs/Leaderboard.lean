import Knockout.Report.Leaderboard
import Mathlib.Algebra.BigOperators.Group.List.Lemmas
import Mathlib.Algebra.GroupWithZero.Nat
import Mathlib.Tactic.Lemma

/-!
# Goals and ranks

The rows that are gathered goal by goal are the accounts of the scorers, one for each name
(`Leaderboard.exists_tally`); the ranks that are given row by row count the rows with more goals
(`Leaderboard.rankFrom_eq`). The main statement is `Leaderboard.ofTournament_accounts`.
-/

namespace Knockout

/-- Every goal that is credited to a player, in bracket order. -/
def Bracket.credits (b : Bracket) : List Scorer := b.all.flatMap (·.2.scorers)

namespace Leaderboard

variable {t : Tournament} {s : Scorer} {credits : List Scorer} {name : String}

/-! ## Goals -/

/-- What some goals say of one scorer. -/
def account (t : Tournament) (credits : List Scorer) (name : String) : ScorerRow where
  player := name
  team := (t.teamOfPlayer? name).map (·.name)
  goals := .ofNat (credits.countP (·.player = name))
  minutes := (credits.filter (·.player = name)).map (·.minute)

/-- An account is kept under the name of its player. -/
@[simp] lemma account_player : (account t credits name).player = name := rfl

/-- A goal of one player changes no other account. -/
lemma account_append_of_ne (other : s.player ≠ name) :
    account t (credits ++ [s]) name = account t credits name := by
  simp [account, List.countP_append, List.filter_append, other]

/-- A goal adds one to the account of its player, with the minute of it. -/
lemma account_append_self (t : Tournament) (credits : List Scorer) (s : Scorer) :
    account t (credits ++ [s]) s.player =
      { account t credits s.player with
        goals := (account t credits s.player).goals + 1
        minutes := (account t credits s.player).minutes ++ [s.minute] } := by
  simp [account, List.countP_append, List.filter_append, UInt32.ofNat_add]

/-- The first goal of a player opens an account. -/
lemma account_append_new (first : ∀ c ∈ credits, c.player ≠ s.player) :
    account t (credits ++ [s]) s.player =
      { player := s.player, team := (t.teamOfPlayer? s.player).map (·.name), goals := 1,
        minutes := [s.minute] } := by
  have uncounted : credits.countP (·.player = s.player) = 0 := by
    simpa [List.countP_eq_zero] using first
  have unlisted : credits.filter (·.player = s.player) = [] := by
    simpa [List.filter_eq_nil_iff] using first
  rw [account_append_self, account, uncounted, unlisted]
  rfl

/-- One goal more changes the account of its scorer only. A new scorer comes last. -/
lemma credit_accounts {names : List String} (distinct : names.Nodup)
    (first : s.player ∉ names → ∀ c ∈ credits, c.player ≠ s.player) :
    credit t s (names.map (account t credits)) =
      (if s.player ∈ names then names else names ++ [s.player]).map
        (account t (credits ++ [s])) := by
  induction names with
  | nil =>
    rw [if_neg List.not_mem_nil, List.nil_append, List.map_singleton,
      account_append_new (first List.not_mem_nil)]
    rfl
  | cons name names ih =>
    obtain ⟨fresh, distinct⟩ := List.nodup_cons.1 distinct
    rw [List.map_cons, credit, account_player]
    by_cases same : name = s.player
    · subst same
      have others : names.map (account t credits) = names.map (account t (credits ++ [s])) :=
        List.map_congr_left fun other listed =>
          (account_append_of_ne fun eq => fresh (eq ▸ listed)).symm
      rw [if_pos rfl, if_pos List.mem_cons_self, List.map_cons, account_append_self, others]
      rfl
    · have first' : s.player ∉ names → ∀ c ∈ credits, c.player ≠ s.player := fun absent =>
        first (by simp [absent, Ne.symm same])
      have kept :
          (if s.player ∈ name :: names then name :: names else name :: names ++ [s.player]) =
            name :: if s.player ∈ names then names else names ++ [s.player] := by
        simp only [List.mem_cons, Ne.symm same, false_or]
        split <;> rfl
      rw [if_neg same, ih distinct first', kept, List.map_cons,
        account_append_of_ne (Ne.symm same)]

/-- The rows are the accounts of the scorers, each of them once. -/
lemma exists_tally (t : Tournament) :
    ∃ names : List String, names.Nodup ∧
      (∀ name, name ∈ names ↔ name ∈ t.bracket.credits.map (·.player)) ∧
      tally t = names.map (account t t.bracket.credits) := by
  change ∃ names : List String, _ ∧ _ ∧ t.bracket.credits.foldl _ [] = _
  generalize t.bracket.credits = credits
  induction credits using List.reverseRecOn with
  | nil => exact ⟨[], List.nodup_nil, fun _ => Iff.rfl, rfl⟩
  | append_singleton credits s ih =>
    obtain ⟨names, distinct, complete, rows⟩ := ih
    have first : s.player ∉ names → ∀ c ∈ credits, c.player ≠ s.player := fun absent c given eq =>
      absent ((complete _).2 (eq ▸ List.mem_map_of_mem given))
    refine ⟨if s.player ∈ names then names else names ++ [s.player], ?_, fun name => ?_, ?_⟩
    · split
      · exact distinct
      · next absent => exact List.nodup_append_comm.1 (List.nodup_cons.2 ⟨absent, distinct⟩)
    · rw [List.map_append, List.mem_append, ← complete name, List.map_singleton,
        List.mem_singleton]
      split
      · next listed => exact ⟨.inl, fun either => either.elim id (· ▸ listed)⟩
      · rw [List.mem_append, List.mem_singleton]
    · rw [List.foldl_append, rows]
      exact credit_accounts distinct first

/-- Each goal is counted for one scorer. -/
lemma sum_counts {names : List String} (distinct : names.Nodup)
    (complete : ∀ name, name ∈ names ↔ name ∈ credits.map (·.player)) :
    (names.map fun name => credits.countP (·.player = name)).sum = credits.length := by
  have perm : names.Perm (credits.map (·.player)).dedup :=
    (List.perm_ext_iff_of_nodup distinct (List.nodup_dedup _)).2 fun name =>
      (complete name).trans List.mem_dedup.symm
  have count (name : String) :
      credits.countP (·.player = name) = (credits.map (·.player)).count name := by
    rw [List.count, List.countP_map]
    rfl
  simp only [count]
  rw [(perm.map _).sum_eq, List.sum_map_count_dedup_eq_length, List.length_map]

/-- An account counts the goals of its player, as long as all goals can be counted. -/
lemma toNat_goals_account (t : Tournament) (room : credits.length < UInt32.size) (name : String) :
    (account t credits name).goals.toNat = credits.countP (·.player = name) :=
  UInt32.toNat_ofNat_of_lt' (Nat.lt_of_le_of_lt List.countP_le_length room)

/-- The accounts cover all goals. -/
lemma sum_accounts (t : Tournament) (room : credits.length < UInt32.size) {names : List String}
    (distinct : names.Nodup)
    (complete : ∀ name, name ∈ names ↔ name ∈ credits.map (·.player)) :
    ((names.map (account t credits)).map (·.goals.toNat)).sum = credits.length := by
  rw [List.map_map, ← sum_counts distinct complete]
  exact congrArg _ (List.map_congr_left fun name _ => toNat_goals_account t room name)

/-! ## Order -/

/-- More goals come first, and among equals the lesser name. -/
lemma precedes_iff (a b : ScorerRow) :
    precedes a b = true ↔ b.goals < a.goals ∨ a.goals = b.goals ∧ a.player ≤ b.player := by
  simp [precedes]

/-- The order of the rows is transitive. -/
lemma precedes_trans (a b c : ScorerRow) (ab : precedes a b = true) (bc : precedes b c = true) :
    precedes a c = true := by
  rw [precedes_iff] at ab bc ⊢
  obtain more | ⟨same, before⟩ := ab
  · obtain more' | ⟨same', -⟩ := bc
    · exact .inl (UInt32.lt_trans more' more)
    · exact .inl (same' ▸ more)
  · obtain more' | ⟨same', before'⟩ := bc
    · exact .inl (same ▸ more')
    · exact .inr ⟨same.trans same', String.le_trans before before'⟩

/-- Of two rows one may come before the other. -/
lemma precedes_total (a b : ScorerRow) : (precedes a b || precedes b a) = true := by
  rw [Bool.or_eq_true, precedes_iff, precedes_iff]
  by_cases same : a.goals = b.goals
  · exact (String.le_total a.player b.player).imp (fun le => .inr ⟨same, le⟩)
      fun le => .inr ⟨same.symm, le⟩
  · obtain le | le := UInt32.le_total a.goals b.goals
    · exact .inr (.inl (UInt32.lt_of_le_of_ne le same))
    · exact .inl (.inl (UInt32.lt_of_le_of_ne le (Ne.symm same)))

/-- Sorted rows are in order of goals, and then of names. -/
lemma pairwise_sorted (rows : List ScorerRow) :
    (rows.mergeSort precedes).Pairwise fun a b =>
      b.goals < a.goals ∨ a.goals = b.goals ∧ a.player ≤ b.player :=
  (List.pairwise_mergeSort precedes_trans precedes_total rows).imp (precedes_iff _ _).1

/-! ## Ranks -/

/-- The rank of a row among rows: one more than the number of those with more goals. -/
def rankAmong (rows : List ScorerRow) (goals : UInt32) : Nat :=
  1 + rows.countP (goals < ·.goals)

/-- The rank at a place, from the goals and the rank of the row above. -/
def nextRank (place : Nat) (above : Option (UInt32 × Nat)) (goals : UInt32) : Nat :=
  match above with
  | some (more, rank) => if more = goals then rank else place
  | none => place

variable {rows before later : List ScorerRow} {row : ScorerRow} {goals : UInt32}

/-- Rows with no more goals do not change a rank. -/
lemma rankAmong_append (behind : ∀ row ∈ later, row.goals ≤ goals) :
    rankAmong (rows ++ later) goals = rankAmong rows goals := by
  have noneAbove : later.countP (goals < ·.goals) = 0 :=
    List.countP_eq_zero.2 fun row listed => by
      simpa [UInt32.not_lt] using behind row listed
  rw [rankAmong, List.countP_append, noneAbove]
  rfl

/-- Behind rows with more goals, the rank is one more than their number. -/
lemma rankAmong_of_ahead (ahead : ∀ row ∈ rows, goals < row.goals) :
    rankAmong rows goals = rows.length + 1 := by
  have every : rows.countP (goals < ·.goals) = rows.length :=
    List.countP_eq_length.2 fun row listed => decide_eq_true (ahead row listed)
  rw [rankAmong, every, Nat.add_comm]

/-- The last row and its rank are enough to know the next rank. -/
lemma rank_next (sorted : (before ++ [row]).Pairwise fun a b => b.goals ≤ a.goals) :
    nextRank (before.length + 1)
        (before.getLast?.map fun last => (last.goals, rankAmong before last.goals)) row.goals =
      rankAmong before row.goals := by
  obtain rfl | ⟨init, last, rfl⟩ := List.eq_nil_or_concat' before
  · rfl
  · rw [List.getLast?_concat, Option.map_some, nextRank]
    split
    · next same => rw [same]
    · next other =>
      obtain ⟨inOrder, -, least⟩ := List.pairwise_append.1 sorted
      have behind : row.goals ≤ last.goals :=
        least last (List.mem_append_right _ (List.mem_singleton_self _)) row
          (List.mem_singleton_self _)
      refine (rankAmong_of_ahead fun earlier listed => ?_).symm
      have ahead : last.goals ≤ earlier.goals := by
        obtain listed | listed := List.mem_append.1 listed
        · exact (List.pairwise_append.1 inOrder).2.2 earlier listed last (List.mem_singleton_self _)
        · rw [List.mem_singleton.1 listed]
          exact UInt32.le_refl _
      exact UInt32.lt_of_lt_of_le (UInt32.lt_of_le_of_ne behind (Ne.symm other)) ahead

/-- The first row gets its rank from the row above it, and the others get theirs from it. -/
lemma rankFrom_cons (place : Nat) (above : Option (UInt32 × Nat)) (row : ScorerRow)
    (rows : List ScorerRow) :
    rankFrom place above (row :: rows) =
      { row with rank := nextRank place above row.goals } ::
        rankFrom (place + 1) (some (row.goals, nextRank place above row.goals)) rows :=
  rfl

/-- Ranks that are given in order are ranks among all rows. -/
lemma rankFrom_eq (before rows : List ScorerRow) (above : Option (UInt32 × Nat))
    (sorted : (before ++ rows).Pairwise fun a b => b.goals ≤ a.goals)
    (last : above = before.getLast?.map fun last => (last.goals, rankAmong before last.goals)) :
    rankFrom (before.length + 1) above rows =
      rows.map fun row => { row with rank := rankAmong (before ++ rows) row.goals } := by
  induction rows generalizing before above with
  | nil => rfl
  | cons row rows ih =>
    have split : before ++ row :: rows = (before ++ [row]) ++ rows := by simp
    rw [split] at sorted ⊢
    obtain ⟨upTo, -, behind⟩ := List.pairwise_append.1 sorted
    have atMost : ∀ later ∈ [row], later.goals ≤ row.goals := fun later listed => by
      rw [List.mem_singleton.1 listed]
      exact UInt32.le_refl _
    have rank : rankAmong (before ++ [row] ++ rows) row.goals = rankAmong before row.goals := by
      rw [rankAmong_append (behind row (List.mem_append_right _ (List.mem_singleton_self _))),
        rankAmong_append atMost]
    have next := ih (before ++ [row]) (some (row.goals, rankAmong before row.goals)) sorted <| by
      rw [List.getLast?_concat, Option.map_some, rankAmong_append atMost]
    rw [List.length_append] at next
    rw [rankFrom_cons, last, rank_next upTo, List.map_cons, rank]
    exact congrArg _ next

/-! ## The leaderboard -/

/-- What a leaderboard says of the goals of a tournament. -/
structure IsLeaderboard (t : Tournament) (board : List ScorerRow) : Prop where
  distinct : (board.map (·.player)).Nodup
  complete : ∀ name, name ∈ board.map (·.player) ↔ name ∈ t.bracket.credits.map (·.player)
  goals : ∀ row ∈ board, row.goals.toNat = t.bracket.credits.countP (·.player = row.player)
  /-- The minutes are in bracket order. -/
  minutes : ∀ row ∈ board,
    row.minutes = (t.bracket.credits.filter (·.player = row.player)).map (·.minute)
  /-- The first team counts whose roster lists the player. -/
  team : ∀ row ∈ board, row.team =
    (t.teams.find? fun team => team.players.any (·.name = row.player)).map (·.name)
  ordered : board.Pairwise fun a b =>
    b.goals < a.goals ∨ a.goals = b.goals ∧ a.player < b.player
  rank : ∀ row ∈ board, row.rank = 1 + board.countP (row.goals < ·.goals)

/-- The rows of the leaderboard are the sorted accounts, with their ranks. -/
lemma ofTournament_eq (t : Tournament) :
    ofTournament t = ((tally t).mergeSort precedes).map fun row =>
      { row with rank := rankAmong ((tally t).mergeSort precedes) row.goals } := by
  have sorted : ((tally t).mergeSort precedes).Pairwise fun a b => b.goals ≤ a.goals :=
    (pairwise_sorted _).imp fun order =>
      order.elim UInt32.le_of_lt fun same => same.1 ▸ UInt32.le_refl _
  exact rankFrom_eq [] _ none sorted rfl

/-- **The leaderboard accounts for every goal.** It has one row for each name that goals are
credited to, with the number of these goals, their minutes and the team of the player; rows are in
strict order, and ranks count the rows that are better. As long as 32 bits can count the goals, none
is lost. -/
theorem ofTournament_accounts (t : Tournament) (room : t.bracket.credits.length < UInt32.size) :
    IsLeaderboard t (ofTournament t) ∧
      ((ofTournament t).map (·.goals.toNat)).sum = t.bracket.credits.length := by
  obtain ⟨names, distinct, complete, rows⟩ := exists_tally t
  have sorted := pairwise_sorted (tally t)
  have perm : ((tally t).mergeSort precedes).Perm (names.map (account t t.bracket.credits)) :=
    rows ▸ List.mergeSort_perm (tally t) precedes
  rw [ofTournament_eq]
  generalize (tally t).mergeSort precedes = board at sorted perm
  have players : (board.map (·.player)).Perm names := by
    simpa [Function.comp_def] using perm.map (·.player)
  have row_eq (row : ScorerRow) (listed : row ∈ board) :
      row = account t t.bracket.credits row.player := by
    obtain ⟨name, -, rfl⟩ := List.mem_map.1 (perm.mem_iff.1 listed)
    rfl
  have apart : board.Pairwise fun a b => a.player ≠ b.player :=
    List.pairwise_map.1 (players.nodup_iff.2 distinct)
  refine ⟨{ distinct := ?distinct, complete := fun name => ?complete
            goals := List.forall_mem_map.2 fun row listed => ?goals
            minutes := List.forall_mem_map.2 fun row listed => ?minutes
            team := List.forall_mem_map.2 fun row listed => ?team
            ordered := List.pairwise_map.2 ((sorted.and apart).imp fun {a b} both => ?ordered)
            rank := List.forall_mem_map.2 fun row listed => ?rank }, ?total⟩
  case distinct => simpa [Function.comp_def] using players.nodup_iff.2 distinct
  case complete =>
    rw [← complete name, ← players.mem_iff]
    simp [Function.comp_def]
  case goals =>
    rw [row_eq row listed]
    exact toNat_goals_account t room row.player
  case minutes =>
    rw [row_eq row listed]
    rfl
  case team =>
    rw [row_eq row listed]
    rfl
  case ordered =>
    obtain ⟨more | ⟨same, before⟩, other⟩ := both
    · exact .inl more
    · exact .inr ⟨same, String.not_le.1 fun le => other (String.le_antisymm before le)⟩
  case rank =>
    rw [List.countP_map]
    rfl
  case total =>
    rw [List.map_map, ← sum_accounts t room distinct complete]
    exact (perm.map _).sum_eq

/-- Two players lead, and a third follows. -/
def sharedLead : Tournament where
  teams := [⟨"A", [{ name := "Pia" }]⟩, ⟨"B", [{ name := "Pia" }, { name := "Rut" }]⟩]
  bracket :=
    { semifinal := none
      final := some [⟨"A", "B", "3-2",
        [⟨"Rut", 9⟩, ⟨"Pia", 20⟩, ⟨"Oda", 31⟩, ⟨"Pia", 40⟩, ⟨"Oda", 88⟩]⟩] }

/-- Two players with two goals each share the first rank. -/
theorem ofTournament_accounts_sharedLead :
    sharedLead.bracket.credits.length < UInt32.size ∧
      IsLeaderboard sharedLead (ofTournament sharedLead) ∧
      ((ofTournament sharedLead).map (·.goals.toNat)).sum = 5 := by
  have room : sharedLead.bracket.credits.length < UInt32.size := by decide
  exact ⟨room, ofTournament_accounts sharedLead room⟩

example :
    (ofTournament sharedLead).map (fun row => (row.rank, row.player, row.team)) =
      [(1, "Oda", none), (1, "Pia", some "A"), (3, "Rut", some "B")] := by
  cbv

end Leaderboard

end Knockout
