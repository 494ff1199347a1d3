import Knockout.Proofs.Grammar.Reading
import Knockout.Syntax.Elimination

/-!
# The elimination rounds

The readers of the last section follow the grammar, as those of the sections before it do. Only the
sides of matches bring faults of their own (`Fixture.sideFaults`), and those depend on how strictly
a definition is judged and on the teams, not on the matches read before.
-/

namespace Knockout

/-! ## Scorers -/

namespace Scorer

/-- The scorer with another minute. -/
def give (s : Scorer) (minute : UInt32) : Scorer := { s with minute }

/-- The last minute is the one that counts. -/
lemma foldl_give (s : Scorer) (minutes : List UInt32) :
    minutes.foldl give s = { s with minute := minutes.getLast?.getD s.minute } := by
  induction minutes generalizing s with
  | nil => rfl
  | cons minute minutes ih => simp [ih, give, List.getLast?_cons]

/-- The block of a scorer reads minutes. -/
lemma follows : block.Follows entry MinuteSpelled give fun _ _ => [] where
  reads := by
    intro tokens minute rest spelled
    obtain ⟨key, colon, value⟩ := spelled
    refine ⟨_, _, (), rfl, by simp [block, key], fun s => ?_⟩
    rw [entry, Reader.run_bind_of_run (Reader.run_symbol colon)]
    exact Reader.run_bind_of_run (Reader.run_number value)
  spells := by
    intro t front e s start intact
    rw [block] at start
    dsimp only at start
    split at start
    · next key =>
      rw [entry] at intact ⊢
      obtain ⟨c, front, rfl, colon⟩ := Reader.symbol_of_intact (Reader.intact_of_bind intact)
      rw [Reader.run_bind_of_run (Reader.run_symbol colon)] at intact ⊢
      obtain ⟨v, front, n, rfl, value⟩ := Reader.number_of_intact (Reader.intact_of_bind intact)
      exact ⟨n, by
        rw [Reader.run_bind_of_run (Reader.run_number value)]
        exact .intro key colon value⟩
    · cases start
  punctuation _ := rfl
  closer_ne_comma := by decide

/-- A spelled scorer is read as the scorer that is meant. -/
lemma run_reader {k : Token} {front rest : List Token} {t : Tree}
    (spelled : Tree.Spelled (k :: front) t rest) : reader.run front = ⟨t.scorer, [], rest⟩ := by
  cases spelled with
  | intro _ colon player opening minutes =>
    refine (Reader.run_named colon player opening).trans ?_
    rw [follows.run_read minutes, Block.faultsFrom_nil, foldl_give]
    rfl

/-- If nothing structural is wrong, a scorer is spelled. -/
lemma spelled_of_intact {k : Token} {front : List Token} (key : k.kind = .keyword .scorer)
    (intact : (reader.run front).Intact) :
    ∃ t, Tree.Spelled (k :: front) t (reader.run front).rest := by
  obtain ⟨c, v, o, tokens, rfl, colon, player, opening, body⟩ := Reader.named_of_intact intact
  obtain ⟨minutes, spelled⟩ := follows.spelled_of_intact body
  refine ⟨⟨v, minutes⟩, .intro key colon player opening ?_⟩
  rw [reader, Reader.run_named colon player opening]
  exact spelled

/-- The list of scorers with one more. -/
def enlist (scorers : List Scorer) (t : Tree) : List Scorer := scorers ++ [t.scorer]

/-- Scorers are listed in their order. -/
lemma foldl_enlist (scorers : List Scorer) (trees : List Tree) :
    trees.foldl enlist scorers = scorers ++ trees.map Tree.scorer := by
  induction trees generalizing scorers with
  | nil => simp
  | cons t trees ih => simp [enlist, ih]

/-- Every entry of a list of scorers starts with the word for one. -/
lemma listBlock_entry? (k : Kind) :
    listBlock.entry? k = if k = .keyword .scorer then some () else none := by
  cases k with
  | keyword w => cases w <;> rfl
  | _ => rfl

/-- The block of a list of scorers reads scorers. -/
lemma list_follows : listBlock.Follows listEntry Tree.Spelled enlist fun _ _ => [] := by
  refine Block.Follows.of_keyword listBlock_entry? (by decide) ?_ ?_ ?_
  · intro tokens t rest spelled
    cases spelled with
    | intro key => exact ⟨_, _, rfl, key⟩
  · intro k front t rest spelled scorers
    exact Reader.run_bind_of_run (run_reader spelled)
  · intro k front key scorers intact
    exact spelled_of_intact key (Reader.intact_of_bind intact)

/-- A spelled list of scorers is read as the scorers that are meant. -/
lemma run_listReader {o : Token} {tokens rest : List Token} {trees : List Tree}
    (opening : o.kind = .symbol .lbracket)
    (list : Enclosed Tree.Spelled .rbracket tokens trees rest) :
    listReader.run (o :: tokens) = ⟨trees.map Tree.scorer, [], rest⟩ := by
  refine (Reader.run_bind_of_run (Reader.run_symbol opening)).trans ?_
  rw [if_pos rfl, list_follows.run_read list, Block.faultsFrom_nil, foldl_enlist]
  rfl

/-- If nothing structural is wrong, scorers stand between brackets. -/
lemma list_spelled_of_intact {tokens : List Token} (intact : (listReader.run tokens).Intact) :
    ∃ o front trees, tokens = o :: front ∧ o.kind = .symbol .lbracket ∧
      Enclosed Tree.Spelled .rbracket front trees (listReader.run tokens).rest := by
  obtain ⟨o, front, rfl, opening⟩ := Reader.symbol_of_intact (Reader.intact_of_bind intact)
  rw [listReader, Reader.run_bind_of_run (Reader.run_symbol opening), if_pos rfl] at intact ⊢
  obtain ⟨trees, spelled⟩ := list_follows.spelled_of_intact intact
  exact ⟨o, front, trees, rfl, opening, spelled⟩

end Scorer

/-! ## Matches -/

namespace Fixture

/-- The match with one more attribute. -/
def give (f : Fixture) : Item → Fixture
  | .result text => { f with score := text.lexeme }
  | .scorers list => { f with scorers := f.scorers ++ list.map Scorer.Tree.scorer }

/-- One attribute after another leaves the last result and adds the scorers up. -/
lemma foldl_give (f : Fixture) (items : List Item) :
    items.foldl give f =
      { first := f.first
        second := f.second
        score := (lastOf Item.result? items).getD f.score
        scorers := f.scorers ++ items.flatMap Item.scorerList } := by
  induction items generalizing f with
  | nil => simp
  | cons item items ih =>
    rw [List.foldl_cons, ih]
    cases item <;> simp [give, lastOf_cons, Item.result?, Item.scorerList]

/-- The block of a match reads its attributes. -/
lemma follows : block.Follows entry Item.Spelled give fun _ _ => [] where
  reads := by
    intro tokens item rest spelled
    cases spelled with
    | result key colon value =>
      refine ⟨_, _, .result, rfl, by simp [block, key], fun f => ?_⟩
      rw [entry, Reader.run_bind_of_run (Reader.run_symbol colon)]
      exact Reader.run_bind_of_run (Reader.run_string value)
    | scorers key colon opening list =>
      refine ⟨_, _, .scorers, rfl, by simp [block, key], fun f => ?_⟩
      rw [entry, Reader.run_bind_of_run (Reader.run_symbol colon)]
      exact Reader.run_bind_of_run (Scorer.run_listReader opening list)
  spells := by
    intro t front e f start intact
    unfold entry at intact ⊢
    obtain ⟨c, front, rfl, colon⟩ := Reader.symbol_of_intact (Reader.intact_of_bind intact)
    rw [Reader.run_bind_of_run (Reader.run_symbol colon)] at intact ⊢
    rw [block] at start
    dsimp only at start
    split at start
    · next key =>
      cases start
      obtain ⟨v, front, rfl, value⟩ := Reader.string_of_intact (Reader.intact_of_bind intact)
      exact ⟨.result v, by
        rw [Reader.run_bind_of_run (Reader.run_string value)]
        exact .result key colon value⟩
    · next key =>
      cases start
      obtain ⟨o, front, trees, rfl, opening, list⟩ :=
        Scorer.list_spelled_of_intact (Reader.intact_of_bind intact)
      exact ⟨.scorers trees, by
        rw [Reader.run_bind_of_run (Scorer.run_listReader opening list)]
        exact .scorers key colon opening list⟩
    · cases start
  punctuation _ := rfl
  closer_ne_comma := by decide

variable {strictness : Strictness} {teams : List Team}

/-- The fault of a side of a match, where there is one. -/
def sideFaults (strictness : Strictness) (teams : List Team) (t : Token) : List SyntaxFault :=
  if strictness.teamReferences && !isKnownSide teams t.lexeme then [.unknownTeam t] else []

/-- All that can be wrong with a side is that no team has its name. -/
lemma kind_of_mem_sideFaults {t : Token} :
    ∀ f ∈ sideFaults strictness teams t, f.kind = .unknownTeamReference := by
  intro f mem
  rw [sideFaults] at mem
  split at mem
  · obtain rfl := List.mem_singleton.1 mem
    rfl
  · cases mem

/-- The faults of the sides of a match. -/
def faults (strictness : Strictness) (teams : List Team) (t : Tree) : List SyntaxFault :=
  t.sides.flatMap (sideFaults strictness teams)

/-- A side is read by its name, which may be that of no team. -/
lemma run_side {wanted : Expected} {t : Token} {rest : List Token} (name : t.kind = .string) :
    (side strictness teams wanted).run (t :: rest) =
      ⟨t.lexeme, sideFaults strictness teams t, rest⟩ := by
  rw [side, Reader.run_bind_of_run (Reader.run_string name)]
  rw [sideFaults]
  dsimp only
  split <;> rfl

/-- A token that is no string leaves the placeholder for the side. -/
lemma run_side_of_ne {wanted : Expected} {t : Token} {rest : List Token} (ne : t.kind ≠ .string) :
    (side strictness teams wanted).run (t :: rest) =
      ⟨placeholder, [.unexpected wanted t], rest⟩ := by
  simp [side, Reader.string, Reader.run_expect_of_ne ne]

/-- If nothing structural is wrong, a side has a name. -/
lemma side_of_intact {wanted : Expected} {tokens : List Token}
    (intact : ((side strictness teams wanted).run tokens).Intact) :
    ∃ t rest, tokens = t :: rest ∧ t.kind = .string :=
  Reader.string_of_intact (Reader.intact_of_bind intact)

/-- A spelled match is read as the match that is meant, with the faults of its sides. -/
lemma run_reader {k : Token} {front rest : List Token} {t : Tree}
    (spelled : Tree.Spelled (k :: front) t rest) :
    (reader strictness teams).run front = ⟨t.fixture, faults strictness teams t, rest⟩ := by
  cases spelled with
  | intro _ colon first versus second opening items =>
    rw [reader, Reader.run_bind_of_run (Reader.run_symbol colon)]
    simp only [Reader.run_bind, run_side first, Reader.run_versus versus, run_side second,
      Reader.run_symbol opening, follows.run_read items, Block.faultsFrom_nil, foldl_give]
    simp [faults, Tree.sides, Tree.fixture]

/-- If nothing structural is wrong, a match is spelled. -/
lemma spelled_of_intact {k : Token} {front : List Token} (key : k.kind = .keyword .fixture)
    (intact : ((reader strictness teams).run front).Intact) :
    ∃ t, Tree.Spelled (k :: front) t ((reader strictness teams).run front).rest := by
  rw [reader] at intact
  obtain ⟨c, front, rfl, colon⟩ := Reader.symbol_of_intact (Reader.intact_of_bind intact)
  rw [Reader.run_bind_of_run (Reader.run_symbol colon)] at intact
  obtain ⟨v, front, rfl, first⟩ := side_of_intact (Reader.intact_of_bind intact)
  have intact := (Reader.intact_bind.1 intact).2
  rw [run_side first] at intact
  obtain ⟨x, front, rfl, versus⟩ := Reader.versus_of_intact (Reader.intact_of_bind intact)
  rw [Reader.run_bind_of_run (Reader.run_versus versus)] at intact
  obtain ⟨w, front, rfl, second⟩ := side_of_intact (Reader.intact_of_bind intact)
  have intact := (Reader.intact_bind.1 intact).2
  rw [run_side second] at intact
  obtain ⟨o, front, rfl, opening⟩ := Reader.symbol_of_intact (Reader.intact_of_bind intact)
  rw [Reader.run_bind_of_run (Reader.run_symbol opening)] at intact
  obtain ⟨items, list⟩ := follows.spelled_of_intact intact
  have spelled := Tree.Spelled.intro key colon first versus second opening list
  refine ⟨⟨v, w, items⟩, ?_⟩
  rw [run_reader spelled]
  exact spelled

/-- Every entry of a list of matches starts with the word for one. -/
lemma listBlock_entry? (k : Kind) :
    listBlock.entry? k = if k = .keyword .fixture then some () else none := by
  cases k with
  | keyword w => cases w <;> rfl
  | _ => rfl

/-- The block of a phase reads matches. -/
lemma list_follows (phase : Phase) :
    listBlock.Follows (listEntry strictness teams phase) Tree.Spelled
      (fun b t => b.push phase t.fixture) fun _ => faults strictness teams := by
  refine Block.Follows.of_keyword listBlock_entry? (by decide) ?_ ?_ ?_
  · intro tokens t rest spelled
    cases spelled with
    | intro key => exact ⟨_, _, rfl, key⟩
  · intro k front t rest spelled b
    simp [listEntry, run_reader spelled]
  · intro k front key b intact
    rw [listEntry] at intact ⊢
    obtain ⟨tree, spelled⟩ := spelled_of_intact key (Reader.intact_of_bind intact)
    exact ⟨tree, by simpa using spelled⟩

end Fixture

/-! ## Phases -/

namespace Bracket

/-- The bracket with the matches of one more round. -/
def enter (b : Bracket) (r : Round) : Bracket :=
  r.fixtures.foldl (fun b t => b.push r.phase t.fixture) b

/-- The faults of the sides of the matches of a round. -/
def roundFaults (strictness : Strictness) (teams : List Team) (r : Round) : List SyntaxFault :=
  r.sides.flatMap (Fixture.sideFaults strictness teams)

/-- The matches of a round come after those of its phase before them. -/
lemma get?_enter {b : Bracket} {p : Phase} {fs : List Fixture} (r : Round)
    (before : b.get? p = some fs) :
    (b.enter r).get? p =
      some (fs ++ if r.phase = p then r.fixtures.map Fixture.Tree.fixture else []) := by
  obtain ⟨q, trees⟩ := r
  rw [enter]
  induction trees generalizing b fs with
  | nil => simp [before]
  | cons t trees ih =>
    by_cases same : q = p
    -- each match goes to the end of its own phase and leaves the others alone
    · subst same
      have pushed : (b.push q t.fixture).get? q = some (fs ++ [t.fixture]) := by
        simp [push, fixtures, before]
      rw [List.foldl_cons, ih pushed]
      simp
    · have pushed : (b.push q t.fixture).get? p = some fs := by
        simp [push, same, before]
      rw [List.foldl_cons, ih pushed]
      simp [same]

/-- Round after round, every phase gets the matches of the rounds that name it. -/
lemma get?_foldl_enter {b : Bracket} {p : Phase} {fs : List Fixture} (rounds : List Round)
    (before : b.get? p = some fs) :
    (rounds.foldl enter b).get? p =
      some (fs ++ Round.fixturesOf rounds p) := by
  induction rounds generalizing b fs with
  | nil => simp [before, Round.fixturesOf]
  | cons r rounds ih =>
    rw [List.foldl_cons, ih (get?_enter r before)]
    by_cases same : r.phase = p <;> simp [same, Round.fixturesOf]

variable {strictness : Strictness} {teams : List Team}

/-- A spelled round is read as its matches, with the faults of their sides. -/
lemma run_entry {k : Token} {front rest : List Token} {r : Round} (b : Bracket)
    (spelled : Round.Spelled (k :: front) r rest) :
    (entry strictness teams b r.phase).run front =
      ⟨b.enter r, roundFaults strictness teams r, rest⟩ := by
  cases spelled with
  | intro _ colon opening fixtures =>
    rw [entry, Reader.run_bind_of_run (Reader.run_symbol colon),
      Reader.run_bind_of_run (Reader.run_symbol opening),
      (Fixture.list_follows _).run_read fixtures, Block.faultsFrom_const]
    simp only [enter, roundFaults, Round.sides, List.flatMap_assoc]
    rfl

/-- The block of the bracket reads phases. -/
lemma follows :
    block.Follows (entry strictness teams) Round.Spelled enter
      fun _ => roundFaults strictness teams where
  reads := by
    intro tokens r rest spelled
    cases tokens with
    | nil => cases spelled
    | cons k front =>
      have key : k.kind = .keyword (.phase r.phase) := by cases spelled; assumption
      exact ⟨k, front, r.phase, rfl, by simp [block, key], fun b => run_entry b spelled⟩
  spells := by
    intro t front p b start intact
    rw [block] at start
    dsimp only at start
    split at start
    · next key =>
      cases start
      rw [entry] at intact ⊢
      obtain ⟨c, front, rfl, colon⟩ := Reader.symbol_of_intact (Reader.intact_of_bind intact)
      rw [Reader.run_bind_of_run (Reader.run_symbol colon)] at intact ⊢
      obtain ⟨o, front, rfl, opening⟩ := Reader.symbol_of_intact (Reader.intact_of_bind intact)
      rw [Reader.run_bind_of_run (Reader.run_symbol opening)] at intact ⊢
      obtain ⟨trees, fixtures⟩ := (Fixture.list_follows p).spelled_of_intact intact
      exact ⟨⟨p, trees⟩, .intro key colon opening fixtures⟩
    · cases start
  punctuation _ := rfl
  closer_ne_comma := by decide

/-- Spelled rounds are read as the bracket that is meant, with the faults of all sides. -/
lemma run_reader {tokens rest : List Token} {rounds : List Round}
    (spelled : Section .elimination Round.Spelled tokens rounds rest) :
    (reader strictness teams).run tokens =
      ⟨ofRounds rounds, rounds.flatMap (roundFaults strictness teams), rest⟩ := by
  refine (follows.run_section rfl spelled {}).trans ?_
  rw [Block.faultsFrom_const]
  have phase : ∀ p, (rounds.foldl enter {}).get? p = some (Round.fixturesOf rounds p) := by
    intro p
    have empty : ({} : Bracket).get? p = some [] := by cases p <;> rfl
    exact get?_foldl_enter rounds empty
  have quarterfinals := phase .quarterfinals
  have semifinal := phase .semifinal
  have final := phase .final
  simp only [get?] at quarterfinals semifinal final
  simp only [ofRounds, ← quarterfinals, ← semifinal, ← final]

/-- If nothing structural is wrong, the section of the bracket is spelled. -/
lemma spelled_of_intact {tokens : List Token}
    (intact : ((reader strictness teams).run tokens).Intact) :
    ∃ rounds, Section .elimination Round.Spelled tokens rounds
      ((reader strictness teams).run tokens).rest :=
  follows.section_of_intact rfl rfl intact

end Bracket

end Knockout
