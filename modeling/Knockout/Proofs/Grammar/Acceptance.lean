import Knockout.Proofs.Grammar.Rounds
import Knockout.Proofs.Grammar.Sections
import Knockout.Syntax.Parsed

/-!
# What is accepted

A definition is read without structural errors exactly when the grammar spells it, and then the
tournament is the one its syntax tree stands for. `Tournament.run_reader` says in full what reading
a spelled definition gives, faults included; the main statement is `parse_accepts_iff`.
-/

namespace Knockout

namespace Definition

/-- The faults of teams whose names are taken. -/
def nameFaults (d : Definition) : List SyntaxFault := Team.allNameFaults d.teams

/-- The faults of the sides of matches. -/
def sideFaults (strictness : Strictness) (d : Definition) : List SyntaxFault :=
  d.sides.flatMap (Fixture.sideFaults strictness d.tournament.teams)

/-- All that can be wrong with a side is that no team has its name. -/
lemma kind_of_mem_sideFaults {strictness : Strictness} {d : Definition} :
    ∀ f ∈ d.sideFaults strictness, f.kind = .unknownTeamReference := by
  intro f mem
  obtain ⟨t, -, mem⟩ := List.mem_flatMap.1 mem
  exact Fixture.kind_of_mem_sideFaults f mem

/-- Neither names that are taken nor unknown sides make a definition incomplete. -/
lemma not_structural (strictness : Strictness) (d : Definition) :
    ∀ f ∈ d.nameFaults ++ d.sideFaults strictness, f.kind.isStructural = false := by
  intro f mem
  cases List.mem_append.1 mem with
  | inl name => rw [Team.kind_of_mem_allNameFaults d.teams f name]; rfl
  | inr side => rw [kind_of_mem_sideFaults f side]; rfl

/-- The token that declares the number of teams. -/
def count (d : Definition) : Option Token := (Header.ofItems d.header).count.map (·.2)

end Definition

namespace Tournament

variable {strictness : Strictness} {tokens : List Token}

/-- A spelled definition is read as the tournament that is meant, with the faults of its names and
of its sides. -/
theorem run_reader {d : Definition} (spelled : Definition.Spelled tokens d) :
    (reader strictness).run tokens =
      ⟨(d.tournament, d.count), d.nameFaults ++ d.sideFaults strictness, []⟩ := by
  obtain ⟨header, teams, rounds⟩ := spelled
  rw [reader, Reader.run_bind_of_run (Header.run_reader header)]
  simp only [Reader.run_bind, Reader.run_pure, Team.run_reader teams, Bracket.run_reader rounds,
    Reader.ending, Definition.sideFaults, Definition.sides, List.flatMap_assoc, List.append_nil]
  rfl

/-- A spelled definition is read without structural faults. -/
lemma intact_of_spelled {d : Definition} (spelled : Definition.Spelled tokens d) :
    ((reader strictness).run tokens).Intact := by
  rw [run_reader spelled]
  exact d.not_structural strictness

/-- A definition that is read without structural faults is spelled. -/
theorem spelled_of_intact (intact : ((reader strictness).run tokens).Intact) :
    ∃ d, Definition.Spelled tokens d := by
  rw [reader] at intact
  obtain ⟨items, header⟩ := Header.spelled_of_intact (Reader.intact_of_bind intact)
  rw [Reader.run_bind_of_run (Header.run_reader header)] at intact
  obtain ⟨teamTrees, teams⟩ := Team.spelled_of_intact (Reader.intact_of_bind intact)
  have intact := (Reader.intact_bind.1 intact).2
  obtain ⟨roundTrees, rounds⟩ := Bracket.spelled_of_intact (Reader.intact_of_bind intact)
  have ending := Reader.intact_of_bind (Reader.intact_bind.1 intact).2
  rw [Reader.ending_of_intact ending] at rounds
  exact ⟨⟨items, teamTrees, roundTrees⟩, .intro header teams rounds⟩

end Tournament

/-- What does not depend on the numbers of errors can be read off their faults. -/
lemma SyntaxError.map_ofFaults {g : SyntaxError → β} (g' : SyntaxFault → β) {ending : Span}
    (same : ∀ n f, g ⟨n, f.kind, f.message, f.span ending⟩ = g' f) (faults : List SyntaxFault) :
    (ofFaults ending faults).map g = faults.map g' := by
  conv => rhs; rw [← List.zipIdx_map_fst 1 faults, List.map_map]
  rw [ofFaults, List.map_map]
  exact List.map_congr_left fun f _ => same f.2 f.1

/-- A property of the kinds of faults holds of errors exactly when it holds of their faults. -/
lemma SyntaxError.forall_kind_ofFaults {P : SyntaxFaultKind → Prop} {ending : Span}
    {faults : List SyntaxFault} :
    (∀ e ∈ ofFaults ending faults, P e.kind) ↔ ∀ f ∈ faults, P f.kind := by
  rw [← List.forall_mem_map (f := SyntaxError.kind),
    map_ofFaults SyntaxFault.kind (fun _ _ => rfl), List.forall_mem_map]

/-- Ends of the tokens that are left out as repetitions leave a structural fault behind. -/
lemma SyntaxFault.structural_dropRepeatedEnds {faults : List SyntaxFault} :
    (∀ f ∈ dropRepeatedEnds faults, f.kind.isStructural = false) ↔
      ∀ f ∈ faults, f.kind.isStructural = false := by
  induction faults with
  | nil => simp [dropRepeatedEnds]
  | cons f fs ih =>
    cases f with
    -- the first end is structural and stays, so neither side holds
    | endOfInput wanted =>
      have structural : (endOfInput wanted).kind.isStructural = true := rfl
      simp [dropRepeatedEnds, isEndOfInput, structural]
    | _ => simp [dropRepeatedEnds, isEndOfInput, ih]

/-- The only fault that counting can bring is that of the two numbers. -/
lemma Tournament.eq_of_mem_countFaults {t : Tournament} {count : Option Token} {f : SyntaxFault}
    (mem : f ∈ t.countFaults count) : f = .teamCount t.declaredTeams t.teams.length count := by
  rw [countFaults] at mem
  split at mem
  · cases mem
  · exact List.mem_singleton.1 mem

/-- The errors of tokens are structural exactly when the faults met in reading them are: the number
of teams is checked apart. -/
lemma parse_intact_iff {strictness : Strictness} {tokens : List Token} :
    (∀ e ∈ (parse strictness tokens).errors, e.kind.isStructural = false) ↔
      ((Tournament.reader strictness).run tokens).Intact := by
  rw [parse]
  rw [SyntaxError.forall_kind_ofFaults (P := fun k => k.isStructural = false),
    SyntaxFault.structural_dropRepeatedEnds, Outcome.Intact]
  simp only [List.mem_append, or_imp, forall_and, and_iff_left_iff_imp]
  intro _ f mem
  rw [Tournament.eq_of_mem_countFaults mem]
  rfl

/-- Nothing is wrong with tokens exactly when reading them meets no fault and the number of teams is
the declared one. -/
lemma parse_errors_eq_nil_iff {strictness : Strictness} {tokens : List Token} :
    (parse strictness tokens).errors = [] ↔
      ((Tournament.reader strictness).run tokens).faults = [] ∧
        ((Tournament.reader strictness).run tokens).value.1.countFaults
          ((Tournament.reader strictness).run tokens).value.2 = [] := by
  have kept : ∀ faults, SyntaxFault.dropRepeatedEnds faults = [] ↔ faults = [] := by
    intro faults
    cases faults with
    | nil => simp [SyntaxFault.dropRepeatedEnds]
    | cons f fs =>
      rw [SyntaxFault.dropRepeatedEnds]
      split <;> simp
  rw [parse]
  simp only [SyntaxError.ofFaults, List.map_eq_nil_iff, List.zipIdx_eq_nil_iff, kept,
    List.append_eq_nil_iff]

/-- A spelled definition is parsed as its tournament, with the errors of its names, sides and number
of teams. -/
lemma parse_of_spelled {strictness : Strictness} {tokens : List Token} {d : Definition}
    (spelled : Definition.Spelled tokens d) :
    parse strictness tokens =
      { document := d.tournament
        errors := SyntaxError.ofFaults (endSpan tokens) (SyntaxFault.dropRepeatedEnds
          (d.nameFaults ++ d.sideFaults strictness ++ d.tournament.countFaults d.count)) } := by
  rw [parse]
  rw [Tournament.run_reader spelled]

/-- Tokens are parsed without structural errors exactly when the grammar spells them, and then the
document is the tournament that their syntax tree stands for. -/
theorem parse_accepts_iff (strictness : Strictness) (tokens : List Token) :
    ((∀ e ∈ (parse strictness tokens).errors, e.kind.isStructural = false) ↔
      ∃ d, Definition.Spelled tokens d) ∧
    ∀ d, Definition.Spelled tokens d → (parse strictness tokens).document = d.tournament := by
  refine ⟨parse_intact_iff.trans ⟨Tournament.spelled_of_intact, ?_⟩, ?_⟩
  · intro ⟨d, spelled⟩
    exact Tournament.intact_of_spelled spelled
  · intro d spelled
    rw [parse_of_spelled spelled]

/-- A token of ASCII characters on the first line of a text, from an offset on. That of a string has
a quote at either end. -/
def Token.onLine (offset : Nat) (kind : Kind) (lexeme : String) : Token :=
  let stop := offset + lexeme.length + if kind = .string then 2 else 0
  ⟨kind, lexeme, ⟨⟨offset, 1, offset + 1⟩, ⟨stop, 1, stop + 1⟩⟩⟩

namespace Definition

/-- The tokens of a small definition in which the tournament and a team are named twice. -/
def renamedTokens : List Token :=
  [.onLine 0 (.keyword .tournament) "TORNEO", .onLine 6 (.symbol .lbrace) "\x7b",
    .onLine 7 (.attribute .name) "nombre", .onLine 13 (.symbol .colon) ":",
    .onLine 14 .string "Cup", .onLine 19 (.symbol .comma) ",", .onLine 20 (.attribute .name) "name",
    .onLine 24 (.symbol .colon) ":", .onLine 25 .string "Copa",
    .onLine 31 (.attribute .teamCount) "teams", .onLine 36 (.symbol .colon) ":",
    .onLine 37 .number "1", .onLine 38 (.symbol .rbrace) "\x7d",
    .onLine 39 (.keyword .teams) "TEAMS", .onLine 44 (.symbol .lbrace) "\x7b",
    .onLine 45 (.keyword .team) "team", .onLine 49 (.symbol .colon) ":", .onLine 50 .string "A",
    .onLine 53 (.symbol .lbracket) "[", .onLine 54 (.symbol .rbracket) "]",
    .onLine 55 (.symbol .comma) ",", .onLine 56 (.keyword .team) "equipo",
    .onLine 62 (.symbol .colon) ":", .onLine 63 .string "A", .onLine 66 (.symbol .lbracket) "[",
    .onLine 67 (.symbol .rbracket) "]", .onLine 68 (.symbol .rbrace) "\x7d",
    .onLine 69 (.keyword .elimination) "ELIMINATION", .onLine 80 (.symbol .lbrace) "\x7b",
    .onLine 81 (.symbol .rbrace) "\x7d"]

/-- The syntax tree of the small definition. -/
def renamed : Definition where
  header := [.name (.onLine 14 .string "Cup"), .name (.onLine 25 .string "Copa"),
    .teamCount 1 (.onLine 37 .number "1")]
  teams := [⟨.onLine 50 .string "A", []⟩, ⟨.onLine 63 .string "A", []⟩]
  rounds := []

/-- The small definition is spelled by its tokens. -/
lemma renamed_spelled : Spelled renamedTokens renamed :=
  .intro
    (.intro rfl rfl (.intro
      (.cons (.name rfl rfl rfl) (.present rfl) (.cons (.name rfl rfl rfl) .absent
        (.cons (.teamCount rfl rfl ⟨rfl, rfl⟩) .absent .nil))) rfl))
    (.intro rfl rfl (.intro
      (.cons (.intro rfl rfl rfl rfl (.intro .nil rfl)) (.present rfl)
        (.cons (.intro rfl rfl rfl rfl (.intro .nil rfl)) .absent .nil)) rfl))
    (.intro rfl rfl (.intro .nil rfl))

end Definition

/-- The second name of the tournament and the first team of a name are kept, and nothing structural
is wrong with that. -/
theorem parse_accepts_renamed :
    (∀ e ∈ (parse {} Definition.renamedTokens).errors, e.kind.isStructural = false) ∧
      (parse {} Definition.renamedTokens).document =
        { name := "Copa", declaredTeams := 1, teams := [⟨"A", []⟩] } :=
  ⟨(parse_accepts_iff {} Definition.renamedTokens).1.2 ⟨_, Definition.renamed_spelled⟩,
    (parse_accepts_iff {} Definition.renamedTokens).2 _ Definition.renamed_spelled⟩

end Knockout
