import Knockout.Command.Session
import Knockout.Proofs.Blame.Errors
import Knockout.Proofs.Grammar.Keywords
import Knockout.Proofs.Provenance
import Knockout.Proofs.Writing.RoundTrip

/-!
# How complete a tournament is

When nothing structural is wrong with a definition, the user is told that the document itself is
complete. Matches and scorers are all there indeed, one for each keyword that opens one; so are
teams and players, but for the teams whose name is taken, which are dropped with their players.
`parse_completeBut` counts the entries of such documents, and `analyze_complete` is the statement on
whole texts.
-/

namespace Knockout

/-! ## Teams -/

namespace Team

/-- Of the teams that are entered one after another each is kept, or it is dropped with a fault and
another team of its name is kept. -/
lemma exists_dropped (teams : List Team) (trees : List Tree) :
    ∃ dropped : List Team,
      (teams ++ trees.map Tree.team).Perm (trees.foldl enter teams ++ dropped) ∧
        dropped.length = (Block.faultsFrom enter nameFaults teams trees).length ∧
        ∀ t ∈ dropped, t.name ∈ (trees.foldl enter teams).map (·.name) := by
  induction trees generalizing teams with
  | nil => exact ⟨[], .refl _, rfl, nofun⟩
  | cons t trees ih =>
    rw [List.foldl_cons, Block.faultsFrom, enter, nameFaults]
    split
    · next taken =>
      obtain ⟨dropped, perm, count, named⟩ := ih teams
      -- the team joins those dropped, and the one that has its name is kept up to the end
      refine ⟨t.team :: dropped, ?_, ?_, ?_⟩
      · have moved := (List.perm_middle (a := t.team)).trans (perm.cons t.team)
        exact moved.trans List.perm_middle.symm
      · simp [count, Nat.add_comm]
      · refine List.forall_mem_cons.2 ⟨?_, named⟩
        obtain ⟨s, mem, same⟩ := List.any_eq_true.1 taken
        rw [foldl_enter, List.map_append]
        exact List.mem_append_left _ (List.mem_map.2 ⟨s, mem, beq_iff_eq.1 same⟩)
    · obtain ⟨dropped, perm, count, named⟩ := ih (teams ++ [t.team])
      rw [List.append_assoc] at perm
      exact ⟨dropped, perm, count, named⟩

/-- From the first definition on, each team is kept, or dropped with a fault and the name of one
kept. -/
lemma exists_dropped_firsts (trees : List Tree) :
    ∃ dropped : List Team,
      (trees.map Tree.team).Perm (firsts (trees.map Tree.team) ++ dropped) ∧
        dropped.length = (allNameFaults trees).length ∧
        ∀ t ∈ dropped, t.name ∈ (firsts (trees.map Tree.team)).map (·.name) := by
  have kept : trees.foldl enter [] = firsts (trees.map Tree.team) := by
    rw [foldl_enter]
    simp
  have dropped := exists_dropped [] trees
  rwa [kept, List.nil_append] at dropped

end Team

/-! ## Matches -/

/-- The fixtures of one more round come before those of the others. -/
lemma Round.fixturesOf_cons (r : Round) (rounds : List Round) (p : Phase) :
    fixturesOf (r :: rounds) p =
      (if r.phase = p then r.fixtures.map Fixture.Tree.fixture else []) ++ fixturesOf rounds p := by
  rw [fixturesOf, List.filter_cons]
  by_cases same : r.phase = p <;> simp [same, fixturesOf]

/-- The bracket has the matches of all rounds, whichever phase they are in. -/
lemma Bracket.all_ofRounds_perm (rounds : List Round) :
    ((ofRounds rounds).all.map (·.2)).Perm
      (rounds.flatMap fun r => r.fixtures.map Fixture.Tree.fixture) := by
  have listed : ∀ rounds, (ofRounds rounds).all.map (·.2) =
      Round.fixturesOf rounds .quarterfinals ++
        (Round.fixturesOf rounds .semifinal ++ Round.fixturesOf rounds .final) := by
    intro rounds
    simp [all, Phase.all, fixtures, get?, ofRounds, Function.comp_def]
  induction rounds with
  | nil => exact .nil
  | cons r rounds ih =>
    rw [listed] at ih ⊢
    -- a round adds its matches to one of three lists, and counting forgets to which
    rw [List.perm_iff_count] at ih ⊢
    intro f
    have rest := ih f
    simp only [List.count_append] at rest
    cases phase : r.phase <;>
      simp only [Round.fixturesOf_cons, phase, List.flatMap_cons, List.count_append, if_true,
        reduceCtorEq, if_false, List.count_nil] <;>
      omega

/-! ## Counting keywords -/

/-- A keyword counts as often as tokens open an entry with it. -/
lemma Token.count_keywords (k : Keyword) (tokens : List Token) :
    (keywords tokens).count k = openers k tokens := by
  induction tokens with
  | nil => rfl
  | cons t ts ih =>
    rw [openers] at ih ⊢
    cases kind : t.kind <;>
      simp [Kind.keyword?, kind, List.count_cons, List.countP_cons, ih]

/-- Only lists of scorers have keywords, one for each scorer. -/
lemma Fixture.Item.count_keywords (item : Item) (k : Keyword) :
    item.keywords.count k = if k = .scorer then item.scorerList.length else 0 := by
  cases item with
  | result => simp [keywords, scorerList]
  | scorers list =>
    rw [keywords, scorerList, List.length_map]
    split
    · next same =>
      subst same
      exact count_flatMap_once (fun _ => rfl) list
    · next other =>
      refine count_flatMap_never (fun _ => ?_) list
      simp [Scorer.Tree.keywords, Ne.symm other]

namespace Definition

variable {tokens : List Token} {d : Definition}

/-- The parts of a definition are as many as its keywords. -/
lemma count_keywords (d : Definition) :
    d.keywords.count .team = d.teams.length ∧
      d.keywords.count .player = (d.teams.flatMap (·.players)).length ∧
      d.keywords.count .fixture = (d.rounds.flatMap (·.fixtures)).length ∧
      d.keywords.count .scorer =
        (d.rounds.flatMap fun r => r.fixtures.flatMap (·.fixture.scorers)).length := by
  refine ⟨?_, ?_, ?_, ?_⟩ <;>
    simp [keywords, Team.Tree.keywords, Player.Tree.keywords, Round.keywords, Fixture.Tree.keywords,
      Fixture.Item.count_keywords, Fixture.Tree.fixture, List.count_flatMap, Function.comp_def,
      List.map_const']

/-- The matches of a spelled definition and their scorers are as many as their keywords. -/
lemma Spelled.count_bracket (spelled : Spelled tokens d) :
    d.tournament.bracket.size = Token.openers .fixture tokens ∧
      (d.tournament.bracket.all.flatMap (·.2.scorers)).length = Token.openers .scorer tokens := by
  obtain ⟨-, -, fixtures, scorers⟩ := d.count_keywords
  have perm := Bracket.all_ofRounds_perm d.rounds
  rw [← Token.count_keywords, ← Token.count_keywords, spelled.keywords, fixtures, scorers]
  constructor
  · rw [← Bracket.length_all, ← List.length_map (·.2)]
    refine perm.length_eq.trans ?_
    simp [List.length_flatMap]
  · have scorers := (perm.flatMap_right Fixture.scorers).length_eq
    rw [List.flatMap_map] at scorers
    refine scorers.trans ?_
    simp [List.flatMap_assoc, List.flatMap_map]

/-- The teams of a spelled definition and their players are as many as their keywords, together with
the teams that are dropped. -/
lemma Spelled.count_teams (spelled : Spelled tokens d) :
    ∃ dropped : List Team, dropped.length = d.nameFaults.length ∧
      (∀ t ∈ dropped, t.name ∈ d.tournament.teams.map (·.name)) ∧
      d.tournament.teams.length + dropped.length = Token.openers .team tokens ∧
      (d.tournament.teams.flatMap Team.players).length + (dropped.flatMap Team.players).length =
        Token.openers .player tokens := by
  obtain ⟨teams, players, -, -⟩ := d.count_keywords
  obtain ⟨dropped, perm, count, named⟩ := Team.exists_dropped_firsts d.teams
  refine ⟨dropped, count, named, ?_, ?_⟩
  · rw [← Token.count_keywords, spelled.keywords, teams, ← List.length_append]
    refine perm.length_eq.symm.trans ?_
    simp
  · rw [← Token.count_keywords, spelled.keywords, players, ← List.length_append,
      ← List.flatMap_append]
    refine (perm.flatMap_right Team.players).length_eq.symm.trans ?_
    simp [List.length_flatMap, List.flatMap_map, Team.Tree.team]

end Definition

/-! ## Counting errors -/

/-- A fault about the end is structural. -/
lemma SyntaxFault.isEndOfInput_of_intact {f : SyntaxFault} (intact : f.kind.isStructural = false) :
    f.isEndOfInput = false := by
  cases f with
  | endOfInput => cases intact
  | _ => rfl

/-- Faults of one kind count for this kind alone. -/
lemma SyntaxFault.count_kind {faults : List SyntaxFault} {k : SyntaxFaultKind}
    (uniform : ∀ f ∈ faults, f.kind = k) (l : SyntaxFaultKind) :
    (faults.map kind).count l = if k = l then faults.length else 0 := by
  rw [List.map_congr_left uniform, List.map_const', List.count_replicate]
  simp only [beq_iff_eq]

/-- All that can be wrong with the number of teams is that it is not theirs. -/
lemma Tournament.kind_of_mem_countFaults {t : Tournament} {count : Option Token} :
    ∀ f ∈ t.countFaults count, f.kind = .cardinalityMismatch := by
  intro f mem
  rw [eq_of_mem_countFaults mem]
  rfl

/-- Each team that is dropped is reported once, and nothing else is reported in this way. -/
lemma parse_count_duplicates {strictness : Strictness} {tokens : List Token} {d : Definition}
    (spelled : Definition.Spelled tokens d) :
    ((parse strictness tokens).errors.map (·.kind)).count .duplicateTeam = d.nameFaults.length := by
  have intact : ∀ f ∈ d.nameFaults ++ d.sideFaults strictness ++ d.tournament.countFaults d.count,
      f.kind.isStructural = false := by
    intro f mem
    obtain mem | mem := List.mem_append.1 mem
    · exact d.not_structural strictness f mem
    · rw [Tournament.kind_of_mem_countFaults f mem]
      rfl
  have names : ∀ f ∈ d.nameFaults, f.kind = .duplicateTeam := Team.kind_of_mem_allNameFaults d.teams
  have others := fun f mem => SyntaxFault.isEndOfInput_of_intact (intact f mem)
  rw [parse_of_spelled spelled, SyntaxFault.dropRepeatedEnds_eq_self others,
    SyntaxError.map_ofFaults SyntaxFault.kind (fun _ _ => rfl), List.map_append, List.map_append,
    List.count_append, List.count_append, SyntaxFault.count_kind names,
    SyntaxFault.count_kind Definition.kind_of_mem_sideFaults,
    SyntaxFault.count_kind Tournament.kind_of_mem_countFaults]
  rfl

/-! ## Whole texts -/

/-- The document has every entry that a keyword opens but for some dropped teams: one for each error
about a repeated name, each with the name of a team that is kept, and lost with its players. -/
structure Parsed.CompleteBut (p : Parsed) (tokens : List Token) (dropped : List Team) : Prop where
  reported : dropped.length = (p.errors.map (·.kind)).count .duplicateTeam
  named : ∀ t ∈ dropped, t.name ∈ p.document.teams.map (·.name)
  teams : p.document.teams.length + dropped.length = Token.openers .team tokens
  players : (p.document.teams.flatMap Team.players).length +
    (dropped.flatMap Team.players).length = Token.openers .player tokens
  fixtures : p.document.bracket.size = Token.openers .fixture tokens
  scorers : (p.document.bracket.all.flatMap (·.2.scorers)).length = Token.openers .scorer tokens

/-- Where nothing is structurally wrong, only teams of repeated names are missing. -/
lemma parse_completeBut {strictness : Strictness} {tokens : List Token}
    (intact : ∀ e ∈ (parse strictness tokens).errors, e.kind.isStructural = false) :
    ∃ dropped, (parse strictness tokens).CompleteBut tokens dropped := by
  obtain ⟨d, spelled⟩ := Tournament.spelled_of_intact (parse_intact_iff.1 intact)
  have document : (parse strictness tokens).document = d.tournament :=
    congrArg Parsed.document (parse_of_spelled spelled)
  obtain ⟨dropped, count, named, teams, players⟩ := spelled.count_teams
  obtain ⟨fixtures, scorers⟩ := spelled.count_bracket
  rw [← document] at named teams players fixtures scorers
  exact ⟨dropped, count.trans (parse_count_duplicates spelled).symm, named, teams, players,
    fixtures, scorers⟩

/-- A text is parsed when nothing is wrong with its pieces, and its tokens are what is parsed. -/
lemma parsed_analyze_eq_some_iff {strictness : Strictness} {source : String} {p : Parsed} :
    (analyze strictness source).parsed = some p ↔
      (tokenize source).isClean = true ∧ parse strictness (tokenize source).tokens = p := by
  rw [analyze]
  split <;> simp [*]

/-- **Complete but for repeated teams.** Where a text has errors and none of them is structural, the
user is told that the document itself is complete. It is, but for the teams whose name is taken: all
matches and scorers are there, and so are all teams and players once these teams are added. -/
theorem analyze_complete {strictness : Strictness} {source : String} {p : Parsed}
    (parsed : (analyze strictness source).parsed = some p) (wrong : p.errors ≠ [])
    (intact : ∀ e ∈ p.errors, e.kind.isStructural = false) :
    (∀ (s : Session) (path : Path), s.syntaxWarning path p.errors =
      let counted := Text.counted p.errors.length "syntax error" "syntax errors"
      s.printer.line .warning "Warning"
        s!"{s.display path} has {counted}; the document itself is complete") ∧
    ∃ dropped, p.CompleteBut (tokenize source).tokens dropped := by
  obtain ⟨-, rfl⟩ := parsed_analyze_eq_some_iff.1 parsed
  refine ⟨fun s path => ?_, parse_completeBut intact⟩
  have faulty : (parse strictness (tokenize source).tokens).errors.isEmpty = false := by
    simpa using wrong
  have harmless : (parse strictness (tokenize source).tokens).errors.any (·.kind.isStructural) =
      false := by
    simpa using intact
  have joined : "; " ++ "the document itself is complete" = "; the document itself is complete" :=
    rfl
  rw [Session.syntaxWarning, faulty, harmless]
  simp [toString, String.append_assoc, joined]

namespace Tournament

/-- A text in which a tournament is written, whatever the names of its teams, gives the first team
of each name, and its keywords are those of all teams and players. -/
lemma Written.exists_parsed {d : Tournament} {text : String} (written : d.Written text)
    (strictness : Strictness) :
    ∃ p, (analyze strictness text).parsed = some p ∧
      (∀ e ∈ p.errors, e.kind.isStructural = false) ∧
      p.document.teams = Team.firsts d.teams ∧
      Token.openers .team (tokenize text).tokens = d.teams.length ∧
      Token.openers .player (tokenize text).tokens = (d.teams.flatMap Team.players).length := by
  obtain ⟨atoms, script, spelling⟩ := written
  obtain ⟨shown, sound⟩ := spelling.tokenize
  obtain ⟨tree, spelled, means⟩ := script.spelled shown
  have clean : (tokenize text).isClean = true := by
    rw [Lexed.isClean, sound spelled.closes]
    rfl
  refine ⟨_, parsed_analyze_eq_some_iff.2 ⟨clean, rfl⟩,
    parse_intact_iff.2 (intact_of_spelled spelled), ?_, ?_, ?_⟩
  · rw [parse_of_spelled spelled]
    show Team.firsts (tree.teams.map Team.Tree.team) = _
    rw [means.teams]
  · rw [← Token.count_keywords, spelled.keywords, tree.count_keywords.1, ← means.teams,
      List.length_map]
  · rw [← Token.count_keywords, spelled.keywords, tree.count_keywords.2.1, ← means.teams]
    simp [List.length_flatMap, List.flatMap_map, Team.Tree.team]

/-- A tournament whose only team is defined a second time, with the player who scores. -/
def twiceEnrolled : Tournament where
  declaredTeams := 1
  teams := [⟨"A", []⟩, ⟨"A", [⟨"P", none, 0, none⟩]⟩]
  bracket := { final := some [⟨"A", "TBD", "1-0", [⟨"P", 9⟩]⟩] }

/-- The second definition of the team is dropped. -/
lemma analyze_twiceEnrolled : ∃ p, (analyze {} twiceEnrolled.text).parsed = some p ∧
    p.errors ≠ [] ∧ (∀ e ∈ p.errors, e.kind.isStructural = false) ∧
    p.document.teams = [⟨"A", []⟩] ∧
    Token.openers .team (tokenize twiceEnrolled.text).tokens = 2 ∧
    Token.openers .player (tokenize twiceEnrolled.text).tokens = 1 := by
  have plain : (twiceEnrolled.strings.all fun s => s.toList.all Piece.isStringChar) = true := by
    decide
  simp only [List.all_eq_true, Piece.isStringChar, Bool.and_eq_true, bne_iff_ne] at plain
  obtain ⟨p, parsed, intact, kept, teams, players⟩ := (written_text plain).exists_parsed {}
  refine ⟨p, parsed, ?_, intact, kept, teams, players⟩
  -- without an error no team would be dropped, and there would be as many as there are keywords
  intro flawless
  obtain ⟨-, rfl⟩ := parsed_analyze_eq_some_iff.1 parsed
  obtain ⟨dropped, complete⟩ := parse_completeBut intact
  have reported := complete.reported
  have total := complete.teams
  rw [flawless] at reported
  rw [kept, teams, reported] at total
  cases total

end Tournament

open Tournament (twiceEnrolled)

/-- One team is dropped with its player. -/
theorem analyze_complete_twiceEnrolled :
    ∃ p, (analyze {} twiceEnrolled.text).parsed = some p ∧ p.errors ≠ [] ∧
      (∀ e ∈ p.errors, e.kind.isStructural = false) ∧
      ∃ dropped, p.CompleteBut (tokenize twiceEnrolled.text).tokens dropped ∧
        dropped.length = 1 ∧ (dropped.flatMap Team.players).length = 1 := by
  obtain ⟨p, parsed, wrong, intact, kept, teams, players⟩ := Tournament.analyze_twiceEnrolled
  obtain ⟨-, dropped, complete⟩ := analyze_complete parsed wrong intact
  refine ⟨p, parsed, wrong, intact, dropped, complete, ?_, ?_⟩
  · have total := complete.teams
    rw [kept, teams] at total
    exact Nat.add_left_cancel total
  · have total := complete.players
    rw [kept, players] at total
    exact (Nat.zero_add _).symm.trans total

/-- The document is not complete, although it is said to be. -/
theorem analyze_twiceEnrolled_incomplete :
    ∃ p, (analyze {} twiceEnrolled.text).parsed = some p ∧ p.errors ≠ [] ∧
      (∀ e ∈ p.errors, e.kind.isStructural = false) ∧
      p.document.teams.length ≠ Token.openers .team (tokenize twiceEnrolled.text).tokens ∧
      (p.document.teams.flatMap Team.players).length ≠
        Token.openers .player (tokenize twiceEnrolled.text).tokens := by
  obtain ⟨p, parsed, wrong, intact, kept, teams, players⟩ := Tournament.analyze_twiceEnrolled
  refine ⟨p, parsed, wrong, intact, ?_, ?_⟩
  · rw [kept, teams]
    decide
  · rw [kept, players]
    decide

end Knockout
