import Knockout.Proofs.Grammar.Acceptance

/-!
# Strict and lenient reading

Judging team references strictly adds errors and changes nothing else. The two runs of a reader are
compared step by step: `Reader.Relaxes p q` says that `q` gives on all tokens what `p` gives, less
the faults about unknown teams. The relation is kept by sequencing and by the loop of a block, and
it holds between the strict and the lenient reader of a side; from there it is carried up to whole
definitions (`Tournament.relaxes_reader`). The main statement is `parse_strict_conservative`.
-/

namespace Knockout

namespace Strictness

/-- Team references count. -/
def strict : Strictness := { teamReferences := true }

/-- Team references do not count. -/
def lenient : Strictness := { teamReferences := false }

end Strictness

namespace SyntaxFault

/-- Whether a fault counts for every strictness. -/
def alwaysCounts (f : SyntaxFault) : Bool := f.kind != .unknownTeamReference

end SyntaxFault

/-- An outcome without the faults about unknown teams. -/
def Outcome.relaxed (o : Outcome α) : Outcome α :=
  ⟨o.value, o.faults.filter SyntaxFault.alwaysCounts, o.rest⟩

namespace Reader

variable {p q : Reader α}

/-- The second reader gives what the first one gives, less the faults about unknown teams. -/
def Relaxes (p q : Reader α) : Prop := ∀ tokens, q.run tokens = (p.run tokens).relaxed

/-- A reader that never speaks of unknown teams is the same either way. -/
lemma relaxes_self (silent : ∀ tokens, ∀ f ∈ (p.run tokens).faults, f.alwaysCounts = true) :
    Relaxes p p := by
  intro tokens
  have kept := List.filter_eq_self.2 (silent tokens)
  rw [Outcome.relaxed, kept]

/-- A value is given with no faults. -/
lemma relaxes_pure (a : α) : Relaxes (pure a) (pure a) := fun _ => rfl

/-- Readers that are relaxed one after the other are relaxed. -/
lemma Relaxes.bind {f g : α → Reader β} (first : Relaxes p q) (next : ∀ a, Relaxes (f a) (g a)) :
    Relaxes (p >>= f) (q >>= g) := by
  intro tokens
  simp only [run_bind, first tokens, Outcome.relaxed, next _ _, List.filter_append]

/-- A fault that counts for every strictness stays. -/
lemma relaxes_report {fault : SyntaxFault} (counts : fault.alwaysCounts = true) :
    Relaxes (report fault) (report fault) := by
  apply relaxes_self
  intro tokens f mem
  rw [List.mem_singleton.1 mem]
  exact counts

/-- Reading one token is the same for every strictness. -/
lemma relaxes_expect (k : Kind) (wanted : Expected) :
    Relaxes (expect k wanted) (expect k wanted) := by
  apply relaxes_self
  intro tokens f mem
  cases tokens with
  | nil => rw [List.mem_singleton.1 mem]; rfl
  | cons t rest =>
    by_cases h : t.kind = k
    · simp [expect, h] at mem
    · simp only [expect, h, if_false, List.mem_singleton] at mem
      rw [mem]
      rfl

/-- Reading a keyword is the same for every strictness. -/
lemma relaxes_keyword (k : Keyword) : Relaxes (keyword k) (keyword k) :=
  (relaxes_expect _ _).bind fun _ => relaxes_pure _

/-- Reading a symbol is the same for every strictness. -/
lemma relaxes_symbol (s : Symbol) : Relaxes (symbol s) (symbol s) :=
  (relaxes_expect _ _).bind fun _ => relaxes_pure _

/-- Reading what stands between two sides is the same for every strictness. -/
lemma relaxes_versus : Relaxes versus versus :=
  (relaxes_expect _ _).bind fun _ => relaxes_pure _

/-- Reading a text is the same for every strictness. -/
lemma relaxes_string (wanted : Expected) : Relaxes (string wanted) (string wanted) :=
  relaxes_expect _ _

/-- Reading a number is the same for every strictness. -/
lemma relaxes_number (wanted : Expected) : Relaxes (number wanted) (number wanted) := by
  refine (relaxes_expect _ _).bind fun t => ?_
  cases t with
  | none => exact relaxes_pure _
  | some t =>
    dsimp only
    split
    · exact relaxes_pure _
    · exact (relaxes_report rfl).bind fun _ => relaxes_pure _

/-- Reading a position is the same for every strictness. -/
lemma relaxes_position : Relaxes position position := by
  apply relaxes_self
  intro tokens f mem
  cases tokens with
  | nil => rw [List.mem_singleton.1 mem]; rfl
  | cons t rest =>
    cases kind : t.kind with
    | position p =>
      simp only [position, kind, List.not_mem_nil] at mem
    | string =>
      cases value : Position.ofWord? t.lexeme with
      | some p => simp only [position, kind, value, List.not_mem_nil] at mem
      | none =>
        simp only [position, kind, value, List.mem_singleton] at mem
        rw [mem]
        rfl
    | _ =>
      simp only [position, kind, List.mem_singleton] at mem
      rw [mem]
      rfl

/-- Reading a comma is the same for every strictness. -/
lemma relaxes_comma : Relaxes comma comma := by
  apply relaxes_self
  intro tokens f mem
  rw [faults_comma] at mem
  cases mem

/-- Skipping is the same for every strictness. -/
lemma relaxes_skipTo (stop : Kind → Bool) : Relaxes (skipTo stop) (skipTo stop) := fun _ => rfl

/-- Reading the end is the same for every strictness. -/
lemma relaxes_ending : Relaxes ending ending := by
  apply relaxes_self
  intro tokens f mem
  cases tokens with
  | nil => cases mem
  | cons t rest => rw [List.mem_singleton.1 mem]; rfl

end Reader

namespace Block

variable {ε σ : Type} {b : Block ε} {entry entry' : σ → ε → Reader σ}

/-- One turn of a block is relaxed if its entries are. -/
lemma relaxes_turn (each : ∀ s e, Reader.Relaxes (entry s e) (entry' s e)) (s : σ) (t : Token) :
    Reader.Relaxes (b.turn entry s t) (b.turn entry' s t) := by
  unfold turn
  split
  · exact (each s _).bind fun _ => Reader.relaxes_comma.bind fun _ => Reader.relaxes_pure _
  · refine (Reader.relaxes_report ?_).bind fun _ => (Reader.relaxes_skipTo _).bind fun _ =>
      Reader.relaxes_comma.bind fun _ => Reader.relaxes_pure _
    simp only [SyntaxFault.alwaysCounts, SyntaxFault.kind]
    cases b.name <;> rfl

/-- Turn after turn, two loops whose entries are related go the same way. -/
lemma relaxes_entriesFrom (each : ∀ s e, Reader.Relaxes (entry s e) (entry' s e)) (s : σ)
    (tokens : List Token) :
    b.entriesFrom entry' s tokens = (b.entriesFrom entry s tokens).relaxed := by
  fun_induction entriesFrom b entry s tokens with
  | case1 => rw [entriesFrom]; rfl
  | case2 s t rest closed => rw [entriesFrom, if_pos closed]; rfl
  | case3 s t rest ne first later ih =>
    -- the turns leave the same tokens, so both loops go on alike
    have turned : (b.turn entry' s t).run rest = first.relaxed := relaxes_turn each s t rest
    rw [entriesFrom, if_neg ne]
    simp only [turned, Outcome.relaxed] at ih ⊢
    rw [ih, List.filter_append]

/-- A block is relaxed if its entries are. -/
lemma relaxes_read (each : ∀ s e, Reader.Relaxes (entry s e) (entry' s e)) (s : σ) :
    Reader.Relaxes (b.read entry s) (b.read entry' s) := by
  refine Reader.Relaxes.bind (p := b.entries entry s) (relaxes_entriesFrom each s) fun s => ?_
  exact (Reader.relaxes_symbol _).bind fun _ => Reader.relaxes_pure s

end Block

/-! ## The readers of a definition -/

section Readers

open Reader

/-- Reading the header is the same for every strictness. -/
lemma Header.relaxes_reader : Relaxes Header.reader Header.reader := by
  refine (relaxes_keyword _).bind fun _ => (relaxes_symbol _).bind fun _ =>
    Block.relaxes_read (fun h field => ?_) _
  refine (relaxes_symbol _).bind fun _ => ?_
  cases field with
  | name => refine (relaxes_string _).bind fun t => ?_; cases t <;> exact relaxes_pure _
  | teamCount => refine (relaxes_number _).bind fun n => ?_; cases n <;> exact relaxes_pure _
  | venue => refine (relaxes_string _).bind fun t => ?_; cases t <;> exact relaxes_pure _

/-- Reading a player is the same for every strictness. -/
lemma Player.relaxes_reader : Relaxes Player.reader Player.reader := by
  refine (relaxes_symbol _).bind fun _ => (relaxes_string _).bind fun _ =>
    (relaxes_symbol _).bind fun _ => Block.relaxes_read (fun p field => ?_) _
  refine (relaxes_symbol _).bind fun _ => ?_
  cases field with
  | position => refine relaxes_position.bind fun t => ?_; cases t <;> exact relaxes_pure _
  | number => refine (relaxes_number _).bind fun n => ?_; cases n <;> exact relaxes_pure _
  | age => refine (relaxes_number _).bind fun n => ?_; cases n <;> exact relaxes_pure _

/-- Reading the teams is the same for every strictness. -/
lemma Team.relaxes_reader : Relaxes Team.reader Team.reader := by
  refine (relaxes_keyword _).bind fun _ => (relaxes_symbol _).bind fun _ =>
    Block.relaxes_read (fun teams _ => ?_) _
  refine (relaxes_symbol _).bind fun _ => (relaxes_string _).bind fun name =>
    (relaxes_symbol _).bind fun _ => Relaxes.bind (Block.relaxes_read (fun players _ => ?_) _) ?_
  · exact Player.relaxes_reader.bind fun _ => relaxes_pure _
  · intro players
    unfold Team.enrol
    cases name with
    | none => exact relaxes_pure _
    | some t =>
      dsimp only
      split
      · exact (relaxes_report rfl).bind fun _ => relaxes_pure _
      · exact relaxes_pure _

/-- Reading a scorer is the same for every strictness. -/
lemma Scorer.relaxes_reader : Relaxes Scorer.reader Scorer.reader := by
  refine (relaxes_symbol _).bind fun _ => (relaxes_string _).bind fun _ =>
    (relaxes_symbol _).bind fun _ => Block.relaxes_read (fun s _ => ?_) _
  refine (relaxes_symbol _).bind fun _ => (relaxes_number _).bind fun n => ?_
  cases n <;> exact relaxes_pure _

/-- Reading the scorers is the same for every strictness. -/
lemma Scorer.relaxes_listReader : Relaxes Scorer.listReader Scorer.listReader := by
  refine (relaxes_symbol _).bind fun opened => ?_
  cases opened with
  | true =>
    exact Block.relaxes_read (fun _ _ => Scorer.relaxes_reader.bind fun _ => relaxes_pure _) _
  | false => exact relaxes_pure _

/-- The two readers of a side differ in the fault of an unknown name, if there is one. -/
lemma Fixture.relaxes_side (teams : List Team) (wanted : Expected) :
    Relaxes (Fixture.side .strict teams wanted) (Fixture.side .lenient teams wanted) := by
  refine (relaxes_string _).bind fun name => ?_
  cases name with
  | none => exact relaxes_pure _
  | some t =>
    -- the only place where the two judgements are looked at
    intro tokens
    simp only [Strictness.strict, Strictness.lenient, Bool.true_and, Bool.false_and,
      Bool.false_eq_true, if_false]
    split <;> rfl

/-- Reading a match is relaxed with its sides. -/
lemma Fixture.relaxes_reader (teams : List Team) :
    Relaxes (Fixture.reader .strict teams) (Fixture.reader .lenient teams) := by
  refine (relaxes_symbol _).bind fun _ => (Fixture.relaxes_side teams _).bind fun _ =>
    relaxes_versus.bind fun _ => (Fixture.relaxes_side teams _).bind fun _ =>
      (relaxes_symbol _).bind fun _ => Block.relaxes_read (fun f field => ?_) _
  refine (relaxes_symbol _).bind fun _ => ?_
  cases field with
  | result => refine (relaxes_string _).bind fun t => ?_; cases t <;> exact relaxes_pure _
  | scorers => exact Scorer.relaxes_listReader.bind fun _ => relaxes_pure _

/-- Reading the phases is relaxed with their matches. -/
lemma Bracket.relaxes_reader (teams : List Team) :
    Relaxes (Bracket.reader .strict teams) (Bracket.reader .lenient teams) := by
  refine (relaxes_keyword _).bind fun _ => (relaxes_symbol _).bind fun _ =>
    Block.relaxes_read (fun b phase => ?_) _
  refine (relaxes_symbol _).bind fun _ => (relaxes_symbol _).bind fun _ =>
    Block.relaxes_read (fun b _ => ?_) _
  exact (Fixture.relaxes_reader teams).bind fun _ => relaxes_pure _

/-- On all tokens the lenient reader gives what the strict one gives, less the faults about unknown
teams. -/
theorem Tournament.relaxes_reader :
    Relaxes (Tournament.reader .strict) (Tournament.reader .lenient) :=
  Header.relaxes_reader.bind fun _ => Team.relaxes_reader.bind fun teams =>
    (Bracket.relaxes_reader teams).bind fun _ => relaxes_ending.bind fun _ => relaxes_pure _

end Readers

/-! ## Errors -/

namespace SyntaxFault

/-- Leaving out faults that are no ends commutes with leaving out repeated ends. -/
lemma dropRepeatedEnds_filter {keep : SyntaxFault → Bool}
    (ends : ∀ f, f.isEndOfInput = true → keep f = true) (faults : List SyntaxFault) :
    dropRepeatedEnds (faults.filter keep) = (dropRepeatedEnds faults).filter keep := by
  induction faults with
  | nil => rfl
  | cons f fs ih =>
    by_cases ending : f.isEndOfInput = true
    · simp [dropRepeatedEnds, ending, ends f ending, List.filter_filter, Bool.and_comm]
    · by_cases kept : keep f = true <;> simp [dropRepeatedEnds, ending, kept, ih]

/-- Among faults that are no ends none is dropped. -/
lemma filter_dropRepeatedEnds {keep : SyntaxFault → Bool}
    (ends : ∀ f, f.isEndOfInput = true → keep f = false) (faults : List SyntaxFault) :
    (dropRepeatedEnds faults).filter keep = faults.filter keep := by
  induction faults with
  | nil => rfl
  | cons f fs ih =>
    by_cases ending : f.isEndOfInput = true
    · have others : (fs.filter fun f => !f.isEndOfInput).filter keep = fs.filter keep := by
        rw [List.filter_filter]
        refine List.filter_congr fun g _ => ?_
        cases h : g.isEndOfInput with
        | true => simp [ends g h]
        | false => simp
      simp [dropRepeatedEnds, ending, ends f ending, others]
    · simp [dropRepeatedEnds, ending, List.filter_cons, ih]

end SyntaxFault

namespace SyntaxError

/-- The error without its place in a list. -/
def unnumbered (e : SyntaxError) : SyntaxError := { e with number := 0 }

/-- Errors numbered from 1 again. -/
def renumber (errors : List SyntaxError) : List SyntaxError :=
  (errors.zipIdx 1).map fun e => { e.1 with number := e.2 }

/-- Errors are numbered again whatever their numbers were. -/
lemma renumber_map_unnumbered (errors : List SyntaxError) :
    renumber (errors.map unnumbered) = renumber errors := by
  rw [renumber, renumber, List.zipIdx_map, List.map_map]
  rfl

/-- Errors are their faults, one by one, apart from the numbers. -/
lemma map_unnumbered_ofFaults (ending : Span) (faults : List SyntaxFault) :
    (ofFaults ending faults).map unnumbered =
      faults.map fun f => ⟨0, f.kind, f.message, f.span ending⟩ :=
  map_ofFaults _ (fun _ _ => rfl) faults

/-- The errors of some faults have the numbers they get again. -/
lemma renumber_ofFaults (ending : Span) (faults : List SyntaxFault) :
    renumber (ofFaults ending faults) = ofFaults ending faults := by
  rw [← renumber_map_unnumbered, map_unnumbered_ofFaults, renumber, List.zipIdx_map, List.map_map]
  rfl

/-- Without numbers, the errors of some kinds are those of the faults of these kinds. -/
lemma filter_map_unnumbered_ofFaults (keep : SyntaxFaultKind → Bool) (ending : Span)
    (faults : List SyntaxFault) :
    ((ofFaults ending faults).filter fun e => keep e.kind).map unnumbered =
      (ofFaults ending (faults.filter fun f => keep f.kind)).map unnumbered := by
  have kept := congrArg (List.filter fun e : SyntaxError => keep e.kind)
    (map_unnumbered_ofFaults ending faults)
  rw [List.filter_map, List.filter_map] at kept
  rw [map_unnumbered_ofFaults]
  exact kept

/-- Leaving out errors and numbering the others again is leaving out their faults. -/
lemma renumber_filter_ofFaults (keep : SyntaxFaultKind → Bool) (ending : Span)
    (faults : List SyntaxFault) :
    renumber ((ofFaults ending faults).filter fun e => keep e.kind) =
      ofFaults ending (faults.filter fun f => keep f.kind) := by
  rw [← renumber_map_unnumbered, filter_map_unnumbered_ofFaults, renumber_map_unnumbered,
    renumber_ofFaults]

end SyntaxError

/-! ## Parsing -/

/-- A fault about the number of teams counts for every strictness. -/
lemma Tournament.filter_countFaults (t : Tournament) (count : Option Token) :
    (t.countFaults count).filter SyntaxFault.alwaysCounts = t.countFaults count := by
  rw [countFaults]
  split <;> rfl

/-- The two parsers give one tournament, and the faults of the lenient one are those of the strict
one that always count. -/
lemma parse_lenient (tokens : List Token) :
    ∃ document faults,
      parse .strict tokens = ⟨document, SyntaxError.ofFaults (endSpan tokens) faults⟩ ∧
      parse .lenient tokens =
        ⟨document,
          SyntaxError.ofFaults (endSpan tokens) (faults.filter SyntaxFault.alwaysCounts)⟩ := by
  have ends : ∀ f : SyntaxFault, f.isEndOfInput = true → f.alwaysCounts = true := by
    intro f ending
    cases f with
    | endOfInput wanted => rfl
    | _ => cases ending
  refine ⟨_, _, rfl, ?_⟩
  rw [parse]
  rw [Tournament.relaxes_reader tokens, ← SyntaxFault.dropRepeatedEnds_filter ends,
    List.filter_append, Tournament.filter_countFaults]
  rfl

/-- A side is known if it stands for an opponent still to be found or names a team. -/
lemma Tournament.isKnownSide_teams (t : Tournament) (name : String) :
    Fixture.isKnownSide t.teams name = (name == "TBD" || t.hasTeam name) := by
  rw [Fixture.isKnownSide, hasTeam, team?, List.isSome_find?]
  rfl

namespace Definition

/-- The sides that neither stand for an opponent still to be found nor name a team. -/
def unknownSides (d : Definition) : List Token :=
  d.sides.filter fun t => !(t.lexeme == "TBD" || d.tournament.hasTeam t.lexeme)

/-- When team references count, every unknown side is a fault. -/
lemma sideFaults_strict (d : Definition) :
    d.sideFaults .strict = d.unknownSides.map .unknownTeam := by
  rw [sideFaults, unknownSides]
  induction d.sides with
  | nil => rfl
  | cons t sides ih =>
    rw [List.flatMap_cons, ih, Fixture.sideFaults, Tournament.isKnownSide_teams, List.filter_cons]
    split
    · next unknown => rw [if_pos (by simpa [Strictness.strict] using unknown)]; rfl
    · next known => rw [if_neg (by simpa [Strictness.strict] using known)]; rfl

/-- The errors about unknown teams in the strict reading of a spelled definition. -/
lemma unknownTeam_errors {tokens : List Token} {d : Definition} (spelled : Spelled tokens d) :
    ((parse .strict tokens).errors.filter fun e => e.kind == .unknownTeamReference).map
        SyntaxError.unnumbered =
      d.unknownSides.map fun t =>
        ⟨0, .unknownTeamReference, (SyntaxFault.unknownTeam t).message, t.span⟩ := by
  have ends : ∀ f : SyntaxFault, f.isEndOfInput = true →
      (f.kind == .unknownTeamReference) = false := by
    intro f ending
    cases f with
    | endOfInput wanted => rfl
    | _ => cases ending
  have names : d.nameFaults.filter (fun f => f.kind == .unknownTeamReference) = [] := by
    rw [List.filter_eq_nil_iff]
    intro f mem
    rw [Team.kind_of_mem_allNameFaults d.teams f mem]
    decide
  have sides : (d.sideFaults .strict).filter (fun f => f.kind == .unknownTeamReference) =
      d.sideFaults .strict := by
    rw [List.filter_eq_self]
    intro f mem
    rw [kind_of_mem_sideFaults f mem]
    rfl
  have count : (d.tournament.countFaults d.count).filter
      (fun f => f.kind == .unknownTeamReference) = [] := by
    rw [Tournament.countFaults]
    split <;> rfl
  rw [parse_of_spelled spelled]
  dsimp only
  rw [SyntaxError.filter_map_unnumbered_ofFaults (· == .unknownTeamReference),
    SyntaxError.map_unnumbered_ofFaults, SyntaxFault.filter_dropRepeatedEnds ends,
    List.filter_append, List.filter_append, names, sides, count, List.append_nil, List.nil_append,
    sideFaults_strict, List.map_map]
  rfl

end Definition

/-- Judging team references strictly only adds errors. The tournament is the same; without the
errors about unknown teams the errors are those of the lenient reading, which has none of that kind;
and where nothing structural is wrong, those errors are one for each side that names no team. -/
theorem parse_strict_conservative (tokens : List Token) :
    (parse .strict tokens).document = (parse .lenient tokens).document ∧
    SyntaxError.renumber
        ((parse .strict tokens).errors.filter fun e => e.kind != .unknownTeamReference) =
      (parse .lenient tokens).errors ∧
    (∀ e ∈ (parse .lenient tokens).errors, e.kind ≠ .unknownTeamReference) ∧
    ((∀ e ∈ (parse .strict tokens).errors, e.kind.isStructural = false) →
      (∃ d, Definition.Spelled tokens d) ∧
      ∀ d, Definition.Spelled tokens d →
        ((parse .strict tokens).errors.filter fun e => e.kind == .unknownTeamReference).map
            (fun e => (e.message, e.span)) =
          (d.sides.filter fun t => t.lexeme != "TBD" &&
              !(parse .strict tokens).document.hasTeam t.lexeme).map
            fun t => (s!"team '{t.lexeme}' is not defined in TEAMS", t.span)) := by
  obtain ⟨document, faults, strict, lenient⟩ := parse_lenient tokens
  refine ⟨?_, ?_, ?_, ?_⟩
  · rw [strict, lenient]
  · rw [strict, lenient]
    exact SyntaxError.renumber_filter_ofFaults (· != .unknownTeamReference) _ faults
  · rw [lenient]
    have counts : ∀ f ∈ faults.filter SyntaxFault.alwaysCounts, f.kind ≠ .unknownTeamReference := by
      intro f mem
      simpa [SyntaxFault.alwaysCounts] using (List.mem_filter.1 mem).2
    exact (SyntaxError.forall_kind_ofFaults (P := (· ≠ .unknownTeamReference))).2 counts
  · intro clean
    refine ⟨Tournament.spelled_of_intact (parse_intact_iff.1 clean), fun d spelled => ?_⟩
    have document : (parse .strict tokens).document = d.tournament := by
      rw [parse_of_spelled spelled]
    have errors := congrArg (List.map fun e => (e.message, e.span)) (d.unknownTeam_errors spelled)
    rw [List.map_map, List.map_map] at errors
    rw [document]
    simp only [← Bool.not_or, bne]
    exact errors

namespace Definition

/-- The tokens of a definition with one team and a final between this team and a stranger. -/
def strangerTokens : List Token :=
  [.onLine 0 (.keyword .tournament) "TOURNEY", .onLine 7 (.symbol .lbrace) "\x7b",
    .onLine 8 (.attribute .teamCount) "teams", .onLine 13 (.symbol .colon) ":",
    .onLine 14 .number "1", .onLine 15 (.symbol .rbrace) "\x7d",
    .onLine 16 (.keyword .teams) "TEAMS", .onLine 21 (.symbol .lbrace) "\x7b",
    .onLine 22 (.keyword .team) "team", .onLine 26 (.symbol .colon) ":", .onLine 27 .string "A",
    .onLine 30 (.symbol .lbracket) "[", .onLine 31 (.symbol .rbracket) "]",
    .onLine 32 (.symbol .rbrace) "\x7d", .onLine 33 (.keyword .elimination) "ELIMINATION",
    .onLine 44 (.symbol .lbrace) "\x7b", .onLine 45 (.keyword (.phase .final)) "final",
    .onLine 50 (.symbol .colon) ":", .onLine 51 (.symbol .lbracket) "[",
    .onLine 52 (.keyword .fixture) "match", .onLine 57 (.symbol .colon) ":", .onLine 58 .string "A",
    .onLine 61 .versus "vs", .onLine 63 .string "B", .onLine 66 (.symbol .lbracket) "[",
    .onLine 67 (.symbol .rbracket) "]", .onLine 68 (.symbol .rbracket) "]",
    .onLine 69 (.symbol .rbrace) "\x7d"]

/-- The syntax tree of the definition with the stranger. -/
def stranger : Definition where
  header := [.teamCount 1 (.onLine 14 .number "1")]
  teams := [⟨.onLine 27 .string "A", []⟩]
  rounds := [⟨.final, [⟨.onLine 58 .string "A", .onLine 63 .string "B", []⟩]⟩]

/-- The definition with the stranger is spelled as definitions are. -/
lemma stranger_spelled : Spelled strangerTokens stranger :=
  .intro
    (.intro rfl rfl (.intro (.cons (.teamCount rfl rfl ⟨rfl, rfl⟩) .absent .nil) rfl))
    (.intro rfl rfl (.intro
      (.cons (.intro rfl rfl rfl rfl (.intro .nil rfl)) .absent .nil) rfl))
    (.intro rfl rfl (.intro
      (.cons (.intro rfl rfl rfl (.intro
        (.cons (.intro rfl rfl rfl rfl rfl rfl (.intro .nil rfl)) .absent .nil) rfl))
        .absent .nil) rfl))

end Definition

/-- The stranger is the one side that a strict reading complains of. -/
theorem parse_strict_stranger :
    (∀ e ∈ (parse .strict Definition.strangerTokens).errors, e.kind.isStructural = false) ∧
    ((parse .strict Definition.strangerTokens).errors.filter
        fun e => e.kind == .unknownTeamReference).map (fun e => (e.message, e.span)) =
      [("team 'B' is not defined in TEAMS", ⟨⟨63, 1, 64⟩, ⟨66, 1, 67⟩⟩)] := by
  have clean : ∀ e ∈ (parse .strict Definition.strangerTokens).errors,
      e.kind.isStructural = false :=
    parse_intact_iff.2 (Tournament.intact_of_spelled Definition.stranger_spelled)
  have sides := ((parse_strict_conservative Definition.strangerTokens).2.2.2 clean).2
    Definition.stranger Definition.stranger_spelled
  refine ⟨clean, sides.trans ?_⟩
  rw [parse_of_spelled Definition.stranger_spelled]
  decide

end Knockout
