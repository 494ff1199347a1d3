import Knockout.Proofs.Graph.Statements
import Knockout.Report.BracketTable
import Mathlib.Algebra.GroupWithZero.Nat
import Mathlib.Data.List.Induction
import Mathlib.Data.List.Nodup
import Mathlib.Data.List.Perm.Subperm
import Mathlib.Tactic.Lemma

/-!
# The graph of a bracket

Nodes are numbered through all phases as the rows of the bracket table are
(`Graph.flatMap_nodes_clusters`), while edges go by the places of fixtures in their phases
(`Graph.edges_clusters`). The main statement is `Graph.text_declares`.
-/

namespace Knockout

/-- A phase is known by its rank. -/
lemma Phase.eq_of_rank {p q : Phase} (same : p.rank = q.rank) : p = q := by
  cases p <;> cases q <;> first | rfl | cases same

namespace Bracket

variable {b : Bracket} {p q : Phase} {i j : Nat}

/-- The number of fixtures before a phase. -/
def before (b : Bracket) (p : Phase) : Nat :=
  ((Phase.all.takeWhile (· ≠ p)).map fun q => (b.fixtures q).length).sum

/-- The number of a fixture, from 1. -/
def numberOf (b : Bracket) (p : Phase) (i : Nat) : Nat := b.before p + i + 1

/-- The fixtures of a phase that lead to another one, each with the other: fixture `i` leads to
fixture `i / 2` of the phase whose place comes right after, if both are there. -/
def successionsFrom (b : Bracket) (p : Phase) : List (Nat × Nat) :=
  (Phase.all.filter fun q => q.rank = p.rank + 1).flatMap fun q =>
    ((List.range (b.fixtures p).length).filter fun i => i / 2 < (b.fixtures q).length).map
      fun i => (b.numberOf p i, b.numberOf q (i / 2))

/-- All fixtures that lead to another one, each with the other. -/
def successions (b : Bracket) : List (Nat × Nat) := Phase.all.flatMap b.successionsFrom

/-- The fixtures before a phase are those before the last one and those of it. -/
lemma before_next (next : q.rank = p.rank + 1) :
    b.before q = b.before p + (b.fixtures p).length := by
  cases p <;> cases q <;> cases next
  · exact Nat.add_comm _ 0
  · exact (Nat.add_assoc _ _ 0).symm

/-- All fixtures of an earlier phase come before a phase. -/
lemma before_le (earlier : p.rank < q.rank) : b.before p + (b.fixtures p).length ≤ b.before q := by
  cases p <;> cases q <;> simp [before, Phase.all, Phase.rank] at *

/-- The fixtures of a phase among all fixtures. -/
lemma exists_split (b : Bracket) (p : Phase) :
    ∃ earlier later, b.all = earlier ++ ((b.fixtures p).map (p, ·) ++ later) ∧
      earlier.length = b.before p := by
  cases p with
  | quarterfinals => exact ⟨[], _, rfl, rfl⟩
  | semifinal => exact ⟨_, _, rfl, List.length_map _⟩
  | final =>
    refine ⟨(b.fixtures .quarterfinals).map (.quarterfinals, ·) ++
      (b.fixtures .semifinal).map (.semifinal, ·), [], ?_, ?_⟩
    · rw [List.append_assoc]
      rfl
    · rw [List.length_append, List.length_map, List.length_map]
      rfl

/-- The matches of a phase and those before it are among all matches. -/
lemma before_add_le_size (b : Bracket) (p : Phase) :
    b.before p + (b.fixtures p).length ≤ b.size := by
  obtain ⟨earlier, later, listed, length⟩ := b.exists_split p
  rw [← b.length_all, listed, List.length_append, List.length_append, List.length_map, length]
  omega

/-- Fixtures have their numbers in the table. -/
lemma table_before_add {f : Fixture} (found : (b.fixtures p)[i]? = some f) :
    b.table[b.before p + i]? = some (.ofFixture p f) := by
  obtain ⟨earlier, later, listed, length⟩ := b.exists_split p
  obtain ⟨inside, -⟩ := List.getElem?_eq_some_iff.1 found
  rw [table, List.getElem?_map, listed, List.getElem?_append_right (by omega), ← length,
    Nat.add_sub_cancel_left, List.getElem?_append_left (by simpa using inside), List.getElem?_map,
    found]
  rfl

/-! ## Successions -/

/-- What a pair of numbers from a phase stands for. -/
lemma mem_successionsFrom {e : Nat × Nat} :
    e ∈ b.successionsFrom p ↔ ∃ q i, q.rank = p.rank + 1 ∧ i < (b.fixtures p).length ∧
      i / 2 < (b.fixtures q).length ∧ (b.numberOf p i, b.numberOf q (i / 2)) = e := by
  simp [successionsFrom, Phase.mem_all, and_assoc]

/-- What a pair of numbers stands for. -/
lemma mem_successions {e : Nat × Nat} :
    e ∈ b.successions ↔ ∃ p q i, q.rank = p.rank + 1 ∧ i < (b.fixtures p).length ∧
      i / 2 < (b.fixtures q).length ∧ (b.numberOf p i, b.numberOf q (i / 2)) = e := by
  simp only [successions, List.mem_flatMap, Phase.mem_all, true_and, mem_successionsFrom]

/-- Numbers go up from phase to phase. -/
lemma numberOf_lt (earlier : p.rank < q.rank) (inside : i < (b.fixtures p).length) (j : Nat) :
    b.numberOf p i < b.numberOf q j := by
  have le := before_le earlier (b := b)
  rw [numberOf, numberOf]
  omega

/-- A number is that of one fixture. -/
lemma numberOf_inj (insideP : i < (b.fixtures p).length) (insideQ : j < (b.fixtures q).length)
    (same : b.numberOf p i = b.numberOf q j) : p = q ∧ i = j := by
  obtain earlier | level | later := Nat.lt_trichotomy p.rank q.rank
  · exact absurd same (Nat.ne_of_lt (numberOf_lt earlier insideP j))
  · cases Phase.eq_of_rank level
    rw [numberOf, numberOf] at same
    exact ⟨rfl, by omega⟩
  · exact absurd same (Nat.ne_of_gt (numberOf_lt later insideQ i))

/-- Pairs are in the order of the fixtures that they start from. -/
lemma pairwise_successions (b : Bracket) : b.successions.Pairwise fun d e => d.1 < e.1 := by
  refine List.pairwise_flatMap.2 ⟨fun p _ => ?_, ?_⟩
  · rw [successionsFrom, ← Phase.toList_next?]
    cases p.next? with
    | none => exact .nil
    | some q =>
      rw [Option.toList_some, List.flatMap_singleton]
      refine List.pairwise_map.2 ((List.pairwise_lt_range.filter _).imp fun less => ?_)
      simp only [numberOf]
      omega
  · have ordered : Phase.all.Pairwise fun p q => p.rank < q.rank := by decide
    refine ordered.imp fun earlier d first e second => ?_
    obtain ⟨_, i, -, inside, -, rfl⟩ := mem_successionsFrom.1 first
    obtain ⟨_, j, -, -, -, rfl⟩ := mem_successionsFrom.1 second
    exact numberOf_lt earlier inside j

/-- The pairs with the same end as a given one come from two fixtures, which are neighbours. -/
lemma exists_sources {d : Nat × Nat} (given : d ∈ b.successions) :
    ∃ m n, ∀ e ∈ b.successions, e.2 = d.2 → e ∈ [(m, d.2), (n, d.2)] := by
  obtain ⟨p, q, i, next, -, inside, rfl⟩ := mem_successions.1 given
  refine ⟨b.numberOf p (2 * (i / 2)), b.numberOf p (2 * (i / 2) + 1), fun e other same => ?_⟩
  obtain ⟨p', q', i', next', -, inside', rfl⟩ := mem_successions.1 other
  obtain ⟨rfl, half⟩ := numberOf_inj inside' inside same
  have level : p'.rank = p.rank := by
    omega
  cases Phase.eq_of_rank level
  have either : 2 * (i' / 2) = i' ∨ 2 * (i' / 2) + 1 = i' := by omega
  rw [← half]
  obtain even | odd := either
  · rw [even]
    exact List.mem_cons_self
  · rw [odd]
    exact List.mem_cons_of_mem _ List.mem_cons_self

/-- At most one fixture is led to from another one. -/
lemma countP_fst_le (b : Bracket) (k : Nat) : b.successions.countP (·.1 = k) ≤ 1 := by
  have distinct : (b.successions.map (·.1)).Nodup :=
    List.pairwise_map.2 (b.pairwise_successions.imp Nat.ne_of_lt)
  have once := List.nodup_iff_count_le_one.1 distinct k
  rw [List.count, List.countP_map] at once
  simpa only [Function.comp_def, beq_eq_decide] using once

/-- At most two fixtures lead to another one. -/
lemma countP_snd_le (b : Bracket) (k : Nat) : b.successions.countP (·.2 = k) ≤ 2 := by
  rw [List.countP_eq_length_filter]
  cases ends : b.successions.filter (·.2 = k) with
  | nil => exact Nat.zero_le 2
  | cons d ds =>
    have listed {e : Nat × Nat} (mem : e ∈ d :: ds) : e ∈ b.successions ∧ e.2 = k := by
      simpa [← ends] using mem
    obtain ⟨given, rfl⟩ := listed List.mem_cons_self
    obtain ⟨m, n, sources⟩ := exists_sources given
    have distinct : (d :: ds).Nodup := by
      rw [← ends]
      exact (b.pairwise_successions.imp fun less eq => Nat.ne_of_lt less (congrArg _ eq)).filter _
    have inside : d :: ds ⊆ [(m, d.2), (n, d.2)] := fun e mem =>
      sources e (listed mem).1 (listed mem).2
    exact (distinct.subperm inside).length_le

end Bracket

namespace Graph

/-- The cluster of a phase with nodes numbered from `number` on, if the phase has any. -/
def cluster? (b : Bracket) (number : Nat) (p : Phase) : Option Cluster :=
  if b.fixtures p = [] then none
  else some ⟨p, ((b.fixtures p).zipIdx number).map fun n => ⟨n.2, n.1⟩⟩

/-- The clusters of some phases are that of the first phase and those of the others. -/
lemma clustersFrom_cons (b : Bracket) (number : Nat) (p : Phase) (phases : List Phase) :
    clustersFrom b number (p :: phases) =
      (cluster? b number p).toList ++ clustersFrom b (number + (b.fixtures p).length) phases := by
  rw [clustersFrom, cluster?]
  cases b.fixtures p <;> rfl

/-- A cluster numbers the matches of its phase in their order. -/
lemma flatMap_nodes_cluster? (b : Bracket) (number : Nat) (p : Phase) :
    (cluster? b number p).toList.flatMap (·.nodes) =
      ((b.fixtures p).zipIdx number).map fun n => ⟨n.2, n.1⟩ := by
  rw [cluster?]
  split
  · next empty => rw [empty]; rfl
  · exact List.flatMap_singleton _ _

/-- Nodes are numbered through all phases. -/
lemma flatMap_nodes_clustersFrom (b : Bracket) (number : Nat) (phases : List Phase) :
    (clustersFrom b number phases).flatMap (·.nodes) =
      ((phases.flatMap fun p => (b.fixtures p).map (p, ·)).zipIdx number).map
        fun f => ⟨f.2, f.1.2⟩ := by
  induction phases generalizing number with
  | nil => rfl
  | cons p phases ih =>
    rw [clustersFrom_cons, List.flatMap_append, flatMap_nodes_cluster?, ih, List.flatMap_cons,
      List.zipIdx_append, List.map_append, List.length_map, List.zipIdx_map, List.map_map]
    rfl

/-- The clusters, each with the numbers of its phase. -/
lemma clusters_eq (b : Bracket) :
    clusters b = Phase.all.filterMap fun p => cluster? b (b.before p + 1) p := by
  have semifinal : b.before .semifinal + 1 = 1 + (b.fixtures .quarterfinals).length :=
    Nat.add_comm _ _
  have final : b.before .final + 1 =
      1 + (b.fixtures .quarterfinals).length + (b.fixtures .semifinal).length := by
    have next : Phase.rank .final = Phase.rank .semifinal + 1 := rfl
    rw [← semifinal, Bracket.before_next next]
    omega
  rw [clusters, List.filterMap_eq_flatMap_toList]
  simp only [Phase.all, clustersFrom_cons, List.flatMap_cons, semifinal, final]
  rfl

/-- A phase with fixtures has one cluster. -/
lemma find?_clusters (b : Bracket) (p : Phase) :
    (clusters b).find? (·.phase == p) = cluster? b (b.before p + 1) p := by
  have hit (q : Phase) :
      (cluster? b (b.before q + 1) q).any (·.phase == p) =
        (decide (b.fixtures q ≠ []) && q == p) := by
    rw [cluster?]
    split
    · next empty => simp [empty]
    · next nonempty => simp [nonempty]
  have found : (Phase.all.find? fun q => decide (b.fixtures q ≠ []) && q == p) =
      if b.fixtures p = [] then none else some p := by
    by_cases empty : b.fixtures p = []
    · cases p <;> simp [Phase.all, empty]
    · cases p <;> simp [Phase.all, empty]
  rw [clusters_eq, List.find?_filterMap]
  simp only [hit]
  rw [found]
  split
  · next empty => rw [cluster?, if_pos empty]; rfl
  · rfl

/-- The edges between two phases, from their nodes. -/
lemma filterMap_nodes (fs gs : List Fixture) (m n : Nat) :
    ((((fs.zipIdx m).map fun f => Node.mk f.2 f.1).zipIdx).filterMap fun source =>
        ((gs.zipIdx n).map fun g => Node.mk g.2 g.1)[source.2 / 2]?.map fun target =>
          (source.1.number, target.number)) =
      ((List.range fs.length).filter fun i => i / 2 < gs.length).map
        fun i => (m + i, n + i / 2) := by
  induction fs using List.reverseRecOn with
  | nil => rfl
  | append_singleton fs f ih =>
    rw [List.zipIdx_append, List.map_append, List.zipIdx_append, List.filterMap_append, ih,
      List.length_append, List.length_singleton, List.range_succ, List.filter_append,
      List.map_append]
    refine congrArg _ ?_
    by_cases inside : fs.length / 2 < gs.length
    · simp [inside]
    · simp [inside]

/-- The edges that leave a phase. -/
lemma edgesOf_cluster? (b : Bracket) (p : Phase) :
    (cluster? b (b.before p + 1) p).toList.flatMap (edgesOf (clusters b)) =
      b.successionsFrom p := by
  rw [cluster?, Bracket.successionsFrom, ← Phase.toList_next?]
  split
  · next empty =>
    rw [empty]
    cases p.next? <;> rfl
  · rw [Option.toList_some, List.flatMap_singleton, edgesOf]
    cases p.next? with
    | none => rfl
    | some q =>
      rw [Option.bind_some, find?_clusters, cluster?, Option.toList_some, List.flatMap_singleton]
      by_cases empty : b.fixtures q = []
      · simp [empty]
      · rw [if_neg empty]
        refine (filterMap_nodes _ _ _ _).trans (List.map_congr_left fun i _ => ?_)
        simp only [Bracket.numberOf, Nat.add_right_comm]

/-- Edges go by the places of fixtures in their phases. -/
lemma edges_clusters (b : Bracket) : edges (clusters b) = b.successions := by
  have clusters : (clusters b).flatMap (edgesOf (clusters b)) =
      (Phase.all.filterMap fun p => cluster? b (b.before p + 1) p).flatMap (edgesOf (clusters b)) :=
    congrArg (List.flatMap _) (clusters_eq b)
  rw [edges, clusters, List.filterMap_eq_flatMap_toList, List.flatMap_assoc]
  simp only [edgesOf_cluster?]
  rfl

/-- Nodes are numbered as the fixtures are listed. -/
lemma flatMap_nodes_clusters (b : Bracket) :
    (clusters b).flatMap (·.nodes) = (b.all.zipIdx 1).map fun f => ⟨f.2, f.1.2⟩ :=
  flatMap_nodes_clustersFrom b 1 Phase.all

/-! ## The text -/

/-- The node of a row of the table. -/
def rowDeclaration (number : Nat) (r : BracketRow) : Declaration where
  name := nodeName number
  label := [r.first.toList, r.score.toList, r.second.toList]
  fill := if (Goals.ofScore? r.score).isSome then some "lightgreen".toList else none

/-- Nodes have the numbers of their rows. -/
lemma map_declaration_nodes (b : Bracket) :
    ((clusters b).flatMap (·.nodes)).map Node.declaration =
      (b.table.zipIdx 1).map fun r => rowDeclaration r.2 r.1 := by
  rw [flatMap_nodes_clusters, List.map_map, Bracket.table, List.zipIdx_map, List.map_map]
  rfl

/-- Nodes with one name have one number. -/
lemma nodeName_inj {m n : Nat} : nodeName m = nodeName n ↔ m = n := by
  refine ⟨fun same => ?_, congrArg _⟩
  have digits : Nat.toDigits 10 m = Nat.toDigits 10 n := (List.cons.inj same).2
  rw [← @Nat.ofDigitChars_ten_toDigits m, digits, Nat.ofDigitChars_ten_toDigits]

variable {b : Bracket} {m n : Nat}

/-- The text of a graph declares the edge of each succession and no others. -/
lemma mem_declaredEdges :
    (nodeName m, nodeName n) ∈ declaredEdges (text b).toList ↔ (m, n) ∈ b.successions := by
  rw [declaredEdges_text, edges_clusters, List.mem_map]
  constructor
  · rintro ⟨e, listed, same⟩
    obtain ⟨source, target⟩ := Prod.mk.inj same
    rwa [← nodeName_inj.1 source, ← nodeName_inj.1 target]
  · exact fun listed => ⟨_, listed, rfl⟩

/-- The next phase but one is not led to. -/
lemma final_notMem_successions {i j : Nat} (first : i < (b.fixtures .quarterfinals).length)
    (last : j < (b.fixtures .final).length) :
    (b.numberOf .quarterfinals i, b.numberOf .final j) ∉ b.successions := by
  intro listed
  obtain ⟨p, q, i', next, inside, inside', same⟩ := Bracket.mem_successions.1 listed
  obtain ⟨source, target⟩ := Prod.mk.inj same
  obtain ⟨rfl, -⟩ := Bracket.numberOf_inj inside first source
  obtain ⟨rfl, -⟩ := Bracket.numberOf_inj inside' last target
  cases next

/-- Edges go forward, from node to node. -/
lemma lt_of_mem_successions {e : Nat × Nat} (listed : e ∈ b.successions) :
    1 ≤ e.1 ∧ e.1 < e.2 ∧ e.2 ≤ b.size := by
  obtain ⟨p, q, i, next, inside, inside', rfl⟩ := Bracket.mem_successions.1 listed
  have last := b.before_add_le_size q
  refine ⟨Nat.le_add_left _ _, Bracket.numberOf_lt (by omega) inside _, ?_⟩
  simp only [Bracket.numberOf]
  omega

/-- **The graph is that of the table.** Its text declares a node for each row of the table, in order
and with its number, labelled with the two sides and the score between them and filled where the
score can be read. It declares an edge from each fixture `i` of a phase to fixture `i / 2` of the
next phase, where there is one, and no other: at most one from each node, at most two to each node,
always forward, and none that passes over the semifinal. -/
theorem text_declares (b : Bracket) :
    (declaredNodes (text b).toList = (b.table.zipIdx 1).map fun r => rowDeclaration r.2 r.1) ∧
    (declaredNodes (text b).toList).length = b.size ∧
    (∀ p i f, (b.fixtures p)[i]? = some f →
      b.table[b.numberOf p i - 1]? = some (.ofFixture p f)) ∧
    (declaredEdges (text b).toList =
      b.successions.map fun e => (nodeName e.1, nodeName e.2)) ∧
    (∀ k, (declaredEdges (text b).toList).countP (·.1 = nodeName k) ≤ 1 ∧
      (declaredEdges (text b).toList).countP (·.2 = nodeName k) ≤ 2) ∧
    (∀ m n, (nodeName m, nodeName n) ∈ declaredEdges (text b).toList →
      1 ≤ m ∧ m < n ∧ n ≤ b.size) ∧
    ∀ i j, i < (b.fixtures .quarterfinals).length → j < (b.fixtures .final).length →
      (nodeName (b.numberOf .quarterfinals i), nodeName (b.numberOf .final j)) ∉
        declaredEdges (text b).toList := by
  have nodes := (declaredNodes_text b).trans (map_declaration_nodes b)
  have edges := declaredEdges_text b
  rw [edges_clusters] at edges
  refine ⟨nodes, ?_, fun p i f found => b.table_before_add found, edges, fun k => ⟨?_, ?_⟩,
    fun m n listed => lt_of_mem_successions (mem_declaredEdges.1 listed),
    fun i j first last listed => final_notMem_successions first last (mem_declaredEdges.1 listed)⟩
  · rw [nodes, List.length_map, List.length_zipIdx, b.length_table]
  · rw [edges, List.countP_map]
    simpa only [Function.comp_def, nodeName_inj] using b.countP_fst_le k
  · rw [edges, List.countP_map]
    simpa only [Function.comp_def, nodeName_inj] using b.countP_snd_le k

end Graph

end Knockout
