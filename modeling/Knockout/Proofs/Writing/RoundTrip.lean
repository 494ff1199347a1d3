import Knockout.Analysis
import Knockout.Proofs.Grammar.Acceptance
import Knockout.Proofs.Grammar.Balance
import Knockout.Proofs.Writing.Canonical
import Knockout.Proofs.Writing.Trees

/-!
# Round trip

Writing a tournament and reading the text gives the tournament back, without any error, in whatever
way it was written: `analyze_written`. The text is read as the tokens that were written, these are
spelled by a syntax tree of the tournament, and nothing in it is at fault: names are distinct, the
number of teams is right and, where it matters, the sides of matches are known.
-/

namespace Knockout

namespace Team

/-- Of teams with distinct names all come first under their names. -/
lemma firsts_of_nodup {teams : List Team} (distinct : (teams.map (·.name)).Nodup) :
    firsts teams = teams := by
  induction teams with
  | nil => rfl
  | cons t ts ih =>
    obtain ⟨fresh, distinct⟩ := List.nodup_cons.1 distinct
    rw [firsts, ih distinct]
    refine congrArg (t :: ·) (List.filter_eq_self.2 fun s mem => ?_)
    have named : s.name ∈ ts.map (·.name) := List.mem_map_of_mem mem
    have other : s.name ≠ t.name := ne_of_mem_of_not_mem named fresh
    simpa using other

/-- Teams with new and distinct names are not at fault. -/
lemma faultsFrom_eq_nil {teams : List Team} {trees : List Tree}
    (distinct : ((teams ++ trees.map Tree.team).map (·.name)).Nodup) :
    Block.faultsFrom enter nameFaults teams trees = [] := by
  induction trees generalizing teams with
  | nil => rfl
  | cons t trees ih =>
    have fresh : teams.any (·.name == t.name.lexeme) = false := by
      rw [List.any_eq_false]
      intro s mem same
      rw [List.map_append, List.nodup_append] at distinct
      exact distinct.2.2 s.name (List.mem_map_of_mem mem) t.name.lexeme List.mem_cons_self
        (beq_iff_eq.1 same)
    have entered : enter teams t = teams ++ [t.team] := by
      rw [enter, fresh]
      rfl
    have silent : nameFaults teams t = [] := by
      rw [nameFaults, fresh]
      rfl
    rw [Block.faultsFrom, silent, entered, List.nil_append]
    rw [List.map_cons, List.append_cons] at distinct
    exact ih distinct

end Team

/-- A side is known when it stands for an opponent still to be found or names a team. -/
lemma Fixture.isKnownSide_iff {teams : List Team} {name : String} :
    isKnownSide teams name = true ↔ name = "TBD" ∨ name ∈ teams.map (·.name) := by
  simp [isKnownSide, Winner.undecidedText]

namespace Definition.Means

variable {tree : Definition} {d : Tournament}

/-- The tournament of a syntax tree is the one that it means. -/
lemma tournament_eq (means : tree.Means d) (distinct : (d.teams.map (·.name)).Nodup)
    (present : ∀ p, (d.bracket.get? p).isSome = true) : tree.tournament = d := by
  obtain ⟨⟨as, order, header⟩, teams, ps, phases, rounds⟩ := means
  obtain ⟨name, declared, venue⟩ := Header.ofItems_of_means order header
  rw [tournament, name, declared, venue, teams, Team.firsts_of_nodup distinct,
    Bracket.ofRounds_of_means phases rounds present]

/-- Teams with distinct names have no faults about them. -/
lemma nameFaults_eq_nil (means : tree.Means d) (distinct : (d.teams.map (·.name)).Nodup) :
    tree.nameFaults = [] := by
  rw [← means.teams] at distinct
  exact Team.faultsFrom_eq_nil distinct

/-- Every side in a syntax tree is a side of a match that was written. -/
lemma exists_side (means : tree.Means d) {side : Token} (mem : side ∈ tree.sides) :
    ∃ p, ∃ f ∈ d.bracket.fixtures p, side.lexeme ∈ [f.first, f.second] := by
  obtain ⟨-, -, ps, -, rounds⟩ := means
  obtain ⟨r, round, mem⟩ := List.mem_flatMap.1 mem
  obtain ⟨t, fixture, mem⟩ := List.mem_flatMap.1 mem
  obtain ⟨p, -, fixtures⟩ := exists_means rounds round
  have written : t.fixture ∈ d.bracket.fixtures p := by
    rw [← fixtures]
    exact List.mem_map_of_mem fixture
  exact ⟨p, t.fixture, written, List.mem_map_of_mem (f := Token.lexeme) mem⟩

end Definition.Means

/-- Where all sides are known, or need not be, none is at fault. -/
lemma Definition.sideFaults_eq_nil {tree : Definition} {strictness : Strictness}
    (known : strictness.teamReferences = true →
      ∀ side ∈ tree.sides, Fixture.isKnownSide tree.tournament.teams side.lexeme = true) :
    tree.sideFaults strictness = [] := by
  refine List.flatMap_eq_nil_iff.2 fun side mem => ?_
  rw [Fixture.sideFaults]
  cases judged : strictness.teamReferences with
  | false => rfl
  | true => rw [known judged side mem]; rfl

/-- A text without errors is analysed as clean, and with its tournament. -/
lemma analyze_of_clean {strictness : Strictness} {text : String} {d : Tournament}
    (lexical : (tokenize text).errors = [])
    (parsed : parse strictness (tokenize text).tokens = ⟨d, []⟩) :
    (analyze strictness text).isClean = true ∧ (analyze strictness text).document? = some d := by
  have analysis : analyze strictness text = ⟨tokenize text, some ⟨d, []⟩⟩ := by
    rw [analyze, Lexed.isClean, lexical, parsed]
    rfl
  rw [analysis]
  refine ⟨?_, rfl⟩
  rw [Analysis.isClean, Analysis.lexicalErrors, lexical]
  rfl

/-- A tournament that is written as text is read from that text as it was, and nothing is wrong with
the text: as long as the names of teams are distinct, the declared number of teams is right, all
phases are there and, for a strict reading, every side of a match is a team or still to be found. -/
theorem analyze_written {strictness : Strictness} {d : Tournament} {text : String}
    (written : d.Written text) (distinct : (d.teams.map (·.name)).Nodup)
    (declared : d.declaredTeams.toNat = d.teams.length)
    (present : ∀ p, (d.bracket.get? p).isSome = true)
    (known : strictness.teamReferences = true → ∀ p, ∀ f ∈ d.bracket.fixtures p,
      ∀ side ∈ [f.first, f.second], side = "TBD" ∨ side ∈ d.teams.map (·.name)) :
    (analyze strictness text).isClean = true ∧ (analyze strictness text).document? = some d := by
  -- the tokens of the text are those that were written, and a syntax tree spells them
  obtain ⟨atoms, script, spelling⟩ := written
  obtain ⟨shown, sound⟩ := spelling.tokenize
  obtain ⟨tree, spelled, means⟩ := script.spelled shown
  have tournament : tree.tournament = d := means.tournament_eq distinct present
  have sides : tree.sideFaults strictness = [] := by
    refine Definition.sideFaults_eq_nil fun judged side mem => ?_
    obtain ⟨p, f, fixture, named⟩ := means.exists_side mem
    rw [tournament]
    exact Fixture.isKnownSide_iff.2 (known judged p f fixture side.lexeme named)
  have total : tree.tournament.countFaults tree.count = [] := by
    rw [tournament, Tournament.countFaults, if_pos declared]
  -- what the grammar spells is balanced, so the tokens are parsed at all
  refine analyze_of_clean (sound spelled.closes) ?_
  rw [parse_of_spelled spelled, means.nameFaults_eq_nil distinct, sides, total, tournament]
  rfl

/-- A tournament with one team and a final whose other side is still to be found. -/
def Tournament.halfFinal : Tournament where
  name := "Copa Ñandú"
  declaredTeams := 1
  teams := [⟨"A\\", [⟨"Zoe", some .goalkeeper, 1, none⟩]⟩]
  bracket := { final := some [⟨"A\\", "TBD", "2-1", [⟨"Zoe", 90⟩]⟩] }

/-- The tournament with a side still to be found is read back strictly. -/
theorem analyze_halfFinal :
    (analyze { teamReferences := true } Tournament.halfFinal.text).isClean = true ∧
      (analyze { teamReferences := true } Tournament.halfFinal.text).document? =
        some Tournament.halfFinal := by
  have plain : (Tournament.halfFinal.strings.all
      fun s => s.toList.all Piece.isStringChar) = true := by
    decide
  simp only [List.all_eq_true, Piece.isStringChar, Bool.and_eq_true, bne_iff_ne] at plain
  have known : ∀ p, ∀ f ∈ Tournament.halfFinal.bracket.fixtures p, ∀ side ∈ [f.first, f.second],
      side = "TBD" ∨ side ∈ Tournament.halfFinal.teams.map (·.name) := by
    intro p
    cases p <;> decide
  exact analyze_written (Tournament.written_text plain) (by decide) rfl
    (fun p => by cases p <;> rfl) fun _ => known

end Knockout
