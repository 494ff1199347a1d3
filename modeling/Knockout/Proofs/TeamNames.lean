import Knockout.Proofs.Blame.Errors
import Knockout.Proofs.Ensures

/-!
# Names of teams

A team is added to the teams before it only if its name is new, or if it has no name of its own
(`Team.Enrolled`). So names are distinct as long as every team has one; teams without a name all
bear the placeholder, which is not looked up among the names before it. The main statement is
`parse_names_distinct`; `parse_unnamed_twice` shows that two teams without a name share one.
-/

namespace Knockout

/-- The fault says that a team has no name. -/
def SyntaxFault.MissesTeamName (f : SyntaxFault) : Prop :=
  (∃ t, f = .unexpected .teamName t) ∨ f = .endOfInput .teamName

namespace Team

/-- What one definition of a team makes of the teams before it: they are followed by a team without
a name, which is a fault; they stay, since the name is taken, which is another; or they are followed
by a team whose name is new. -/
inductive Enrolled (teams : List Team) (fs : List SyntaxFault) : List Team → Prop where
  | unnamed {players : List Player} (missing : ∃ f ∈ fs, f.MissesTeamName) :
      Enrolled teams fs (teams ++ [⟨placeholder, players⟩])
  | again {name : Token} (taken : name.lexeme ∈ teams.map Team.name)
      (reported : .duplicateTeam name ∈ fs) : Enrolled teams fs teams
  | fresh {name : String} {players : List Player} (new : name ∉ teams.map Team.name) :
      Enrolled teams fs (teams ++ [⟨name, players⟩])

/-- The names are distinct apart from the placeholder, and altogether unless a fault says that a
team has no name. -/
structure NamesDistinct (teams : List Team) (fs : List SyntaxFault) : Prop where
  genuine : ((teams.map Team.name).filter (· ≠ placeholder)).Nodup
  whole : (∀ f ∈ fs, ¬ f.MissesTeamName) → (teams.map Team.name).Nodup

variable {teams after : List Team} {fs fs' : List SyntaxFault}

/-- Distinct names stay distinct with a new one. -/
lemma nodup_concat {name : String} {names : List String} (distinct : names.Nodup)
    (new : name ∉ names) : (names ++ [name]).Nodup := by
  rw [← List.concat_eq_append]
  exact distinct.concat new

/-- Further faults do not make names any less distinct. -/
lemma NamesDistinct.more (distinct : NamesDistinct teams fs) (fs' : List SyntaxFault) :
    NamesDistinct teams (fs ++ fs') where
  genuine := distinct.genuine
  whole named := distinct.whole fun f mem => named f (List.mem_append_left fs' mem)

/-- One more definition keeps the names distinct. -/
lemma NamesDistinct.enrolled (distinct : NamesDistinct teams fs)
    (enrolled : Enrolled teams fs' after) : NamesDistinct after (fs ++ fs') := by
  cases enrolled with
  | unnamed missing =>
    obtain ⟨f, mem, missing⟩ := missing
    -- the placeholder is no genuine name, and the fault leaves nothing to show of all names
    refine ⟨?_, fun named => absurd missing (named f (List.mem_append_right fs mem))⟩
    simpa [List.filter_append] using distinct.genuine
  | again => exact distinct.more fs'
  | @fresh name players new =>
    refine ⟨?_, fun named => ?_⟩
    · by_cases unnamed : name = placeholder
      · simpa [List.filter_append, unnamed] using distinct.genuine
      · have kept := nodup_concat distinct.genuine fun mem => new (List.mem_of_mem_filter mem)
        simpa [List.filter_append, unnamed] using kept
    · rw [List.map_append]
      exact nodup_concat ((distinct.more fs').whole named) new

/-- A definition of a team is enrolled, whatever is wrong with it. -/
lemma ensures_entry (teams : List Team) :
    (entry teams ()).Ensures fun after fs _ => Enrolled teams fs after := by
  refine Reader.ensures_bind fun _ fs _ =>
    (Reader.ensures_expect .string .teamName).bind fun name fs' _ named =>
      Reader.ensures_bind fun _ fs'' _ => Reader.ensures_bind fun players fs''' _ => ?_
  intro tokens
  refine ⟨[], ?_⟩
  obtain ⟨t, rfl, -⟩ | ⟨rfl, missing⟩ := named
  · by_cases taken : t.lexeme ∈ teams.map Team.name
    · have found : teams.any (·.name == t.lexeme) = true := by simpa using taken
      rw [enrol, found]
      exact ⟨rfl, .again taken (by simp [Reader.run_report])⟩
    · have missed : teams.any (·.name == t.lexeme) = false := by simpa using taken
      rw [enrol, missed]
      exact ⟨rfl, .fresh taken⟩
  · refine ⟨rfl, .unnamed ?_⟩
    obtain ⟨u, mem⟩ | mem := missing
    · exact ⟨_, by simp [mem], .inl ⟨u, rfl⟩⟩
    · exact ⟨_, by simp [mem], .inr rfl⟩

/-- The teams that are read have distinct names. -/
lemma ensures_reader : reader.Ensures fun teams fs _ => NamesDistinct teams fs := by
  refine Reader.ensures_bind fun _ fs _ => Reader.ensures_bind fun _ fs' _ => ?_
  have empty : NamesDistinct [] (fs ++ fs') := ⟨List.nodup_nil, fun _ => List.nodup_nil⟩
  refine (Block.ensures_read (I := fun teams fs _ => NamesDistinct teams fs) _ []
    (fun _ _ _ fs' _ distinct => distinct.more fs') ?_ empty).mono ?_
  · intro teams fs _ _ _ _ distinct
    exact (ensures_entry teams).mono fun _ _ _ enrolled => distinct.enrolled enrolled
  · intro teams fs'' _ distinct
    rwa [← List.append_assoc]

end Team

/-- The teams of a definition have distinct names. -/
lemma Tournament.ensures_names (strictness : Strictness) :
    (reader strictness).Ensures fun t fs _ => Team.NamesDistinct t.1.teams fs := by
  refine Reader.ensures_bind fun header fs _ => Team.ensures_reader.bind fun teams fs' _ distinct =>
    Reader.ensures_bind fun bracket fs'' _ => Reader.ensures_bind fun _ fs''' _ =>
      Reader.ensures_pure ?_
  refine ⟨distinct.genuine, fun named => distinct.whole fun f mem => named f ?_⟩
  simp [mem]

/-- Of ends of the tokens one is reported, and of other faults all are. -/
lemma SyntaxFault.mem_dropRepeatedEnds {faults : List SyntaxFault} {f : SyntaxFault}
    (mem : f ∈ faults) :
    f ∈ dropRepeatedEnds faults ∨
      f.isEndOfInput = true ∧ ∃ g ∈ dropRepeatedEnds faults, g.isEndOfInput = true := by
  induction faults with
  | nil => cases mem
  | cons g gs ih =>
    rw [dropRepeatedEnds]
    cases ends : g.isEndOfInput with
    | true =>
      cases ends' : f.isEndOfInput with
      | true => exact .inr ⟨rfl, g, List.mem_cons_self, ends⟩
      | false =>
        refine .inl ?_
        obtain rfl | later := List.mem_cons.1 mem
        · exact List.mem_cons_self
        · exact List.mem_cons_of_mem g (List.mem_filter.2 ⟨later, by simp [ends']⟩)
    | false =>
      obtain rfl | later := List.mem_cons.1 mem
      · exact .inl List.mem_cons_self
      · obtain kept | ⟨ends', h, kept, last⟩ := ih later
        · exact .inl (List.mem_cons_of_mem g kept)
        · exact .inr ⟨ends', h, List.mem_cons_of_mem g kept, last⟩

/-- Every fault is reported as an error. -/
lemma SyntaxError.exists_of_mem_faults {ending : Span} {faults : List SyntaxFault} {f : SyntaxFault}
    (mem : f ∈ faults) :
    ∃ e ∈ ofFaults ending faults, e.kind = f.kind ∧ e.message = f.message := by
  have told : (ofFaults ending faults).map (fun e => (e.kind, e.message)) =
      faults.map fun f => (f.kind, f.message) :=
    map_ofFaults _ (fun _ _ => rfl) faults
  have mem := List.mem_map_of_mem (f := fun f : SyntaxFault => (f.kind, f.message)) mem
  rw [← told] at mem
  obtain ⟨e, mem, same⟩ := List.mem_map.1 mem
  exact ⟨e, mem, congrArg Prod.fst same, congrArg Prod.snd same⟩

/-- The error says that something else stands where the name of a team is looked for. -/
def SyntaxError.MissesTeamName (e : SyntaxError) : Prop :=
  e.kind = .unexpectedToken ∧
    ∃ found : Token, e.message = s!"expected a team name, found {found.quoted}"

/-- A team without a name shows in the errors, unless the tokens end before its name is missed. -/
lemma exists_error_of_missesTeamName {strictness : Strictness} {tokens : List Token}
    {f : SyntaxFault} (mem : f ∈ ((Tournament.reader strictness).run tokens).faults)
    (missing : f.MissesTeamName) :
    ∃ e ∈ (parse strictness tokens).errors, e.MissesTeamName ∨ e.ReportsEnd := by
  have told : ∀ g ∈ SyntaxFault.dropRepeatedEnds ((Tournament.reader strictness).run tokens).faults,
      ∃ e ∈ (parse strictness tokens).errors, e.kind = g.kind ∧ e.message = g.message := by
    intro g kept
    rw [errors_parse]
    exact SyntaxError.exists_of_mem_faults (List.mem_append_left _ kept)
  have ends : ∀ g ∈ SyntaxFault.dropRepeatedEnds ((Tournament.reader strictness).run tokens).faults,
      g.isEndOfInput = true → ∃ e ∈ (parse strictness tokens).errors, e.ReportsEnd := by
    intro g kept last
    obtain ⟨e, mem, kind, message⟩ := told g kept
    cases g with
    | endOfInput wanted => exact ⟨e, mem, kind, wanted, message⟩
    | _ => cases last
  obtain kept | ⟨-, g, kept, last⟩ := SyntaxFault.mem_dropRepeatedEnds mem
  · obtain ⟨t, rfl⟩ | rfl := missing
    · obtain ⟨e, mem, kind, message⟩ := told _ kept
      exact ⟨e, mem, .inl ⟨kind, t, message⟩⟩
    · obtain ⟨e, mem, ended⟩ := ends _ kept rfl
      exact ⟨e, mem, .inr ended⟩
  · obtain ⟨e, mem, ended⟩ := ends g kept last
    exact ⟨e, mem, .inr ended⟩

/-- **Names of teams.** Whatever the tokens, no two teams share a name other than the placeholder,
and no two share a name at all where no error says that the name of a team is missing or that the
tokens end too soon. -/
theorem parse_names_distinct (strictness : Strictness) (tokens : List Token) :
    let parsed := parse strictness tokens
    let names := parsed.document.teams.map Team.name
    (names.filter (· ≠ Team.placeholder)).Nodup ∧
      ((∀ e ∈ parsed.errors, ¬ e.MissesTeamName ∧ ¬ e.ReportsEnd) → names.Nodup) := by
  intro parsed names
  obtain ⟨-, -, distinct⟩ := Tournament.ensures_names strictness tokens
  refine ⟨distinct.genuine, fun named => distinct.whole fun f mem missing => ?_⟩
  obtain ⟨e, reported, missed | ended⟩ := exists_error_of_missesTeamName mem missing
  · exact (named e reported).1 missed
  · exact (named e reported).2 ended

/-- Where a team is defined twice under one name, it is named once. -/
theorem parse_names_distinct_renamed :
    (∀ e ∈ (parse {} Definition.renamedTokens).errors, ¬ e.MissesTeamName ∧ ¬ e.ReportsEnd) ∧
      ((parse {} Definition.renamedTokens).document.teams.map Team.name).Nodup := by
  have named : ∀ e ∈ (parse {} Definition.renamedTokens).errors,
      ¬ e.MissesTeamName ∧ ¬ e.ReportsEnd := by
    intro e mem
    have harmless :=
      parse_intact_iff.2 (Tournament.intact_of_spelled Definition.renamed_spelled) e mem
    constructor
    · rintro ⟨kind, -⟩
      rw [kind] at harmless
      cases harmless
    · rintro ⟨kind, -⟩
      rw [kind] at harmless
      cases harmless
  exact ⟨named, (parse_names_distinct {} Definition.renamedTokens).2 named⟩

/-- The tokens of a definition of two teams that have numbers where their names should be. -/
def Definition.unnamedTokens : List Token :=
  [.onLine 0 (.keyword .tournament) "TOURNEY", .onLine 7 (.symbol .lbrace) "\x7b",
    .onLine 8 (.attribute .teamCount) "teams", .onLine 13 (.symbol .colon) ":",
    .onLine 14 .number "1", .onLine 15 (.symbol .rbrace) "\x7d",
    .onLine 16 (.keyword .teams) "TEAMS", .onLine 21 (.symbol .lbrace) "\x7b",
    .onLine 22 (.keyword .team) "team", .onLine 26 (.symbol .colon) ":", .onLine 27 .number "1",
    .onLine 28 (.symbol .lbracket) "[", .onLine 29 (.symbol .rbracket) "]",
    .onLine 30 (.keyword .team) "team", .onLine 34 (.symbol .colon) ":", .onLine 35 .number "2",
    .onLine 36 (.symbol .lbracket) "[", .onLine 37 (.symbol .rbracket) "]",
    .onLine 38 (.symbol .rbrace) "\x7d", .onLine 39 (.keyword .elimination) "ELIMINATION",
    .onLine 50 (.symbol .lbrace) "\x7b", .onLine 51 (.symbol .rbrace) "\x7d"]

/-- Two teams without a name share one. -/
theorem parse_unnamed_twice :
    ¬ ((parse {} Definition.unnamedTokens).document.teams.map Team.name).Nodup := by
  have names : (parse {} Definition.unnamedTokens).document.teams.map Team.name =
      ["Unknown team", "Unknown team"] := by
    have one : Text.ofLiteral? "1" = some 1 := rfl
    simp [one, parse, Definition.unnamedTokens, Tournament.reader, Header.reader, Header.block,
      Header.entry, Team.reader, Team.block, Team.entry, Player.roster, Team.enrol,
      Team.placeholder, Reader.keyword, Reader.symbol, Reader.string, Reader.number,
      Reader.expect, Reader.comma, Block.read, Block.turn, Block.run_entries_of_ne,
      Block.run_entries_of_closer, Token.onLine]
  rw [names]
  decide

end Knockout
