import Knockout.Proofs.Blame.Errors
import Knockout.Proofs.Invariant
import Knockout.Proofs.Recovery

/-!
# Definitions that end too soon

The front of a definition with nothing wrong is read as the whole is, until the tokens run out; from
there on every reader that looks for a token finds their end. `Reader.Truncates` says this of a
reader, and one reader after another keeps it (`Reader.Truncates.bind`). A front that is not the
whole definition cannot end well: it would be a definition itself, and the tokens behind it would
trail (`Definition.Spelled.eq_nil_of_clean`). The main statement is `parse_truncated`.
-/

namespace Knockout

/-- The tokens ran out on a reader: it has taken all of them, and what it says is that they end. -/
def Outcome.RanOut (o : Outcome α) : Prop := o.rest = [] ∧ ∀ f ∈ o.faults, f.isEndOfInput = true

/-- Tokens that are gone without a fault have run out. -/
lemma Outcome.ranOut_nil (a : α) : (⟨a, [], []⟩ : Outcome α).RanOut :=
  ⟨rfl, fun _ mem => absurd mem List.not_mem_nil⟩

/-- Tokens that are gone with a fault about their end have run out. -/
lemma Outcome.ranOut_endOfInput (a : α) (wanted : Expected) :
    (⟨a, [.endOfInput wanted], []⟩ : Outcome α).RanOut :=
  ⟨rfl, fun _ mem => by rw [List.mem_singleton.1 mem]; rfl⟩

/-- What is read from a front of some tokens, beside what is read from all of them: the same, unless
the tokens ran out. -/
def Outcome.Cut (short full : Outcome α) : Prop :=
  (∃ rest, rest <+: full.rest ∧ short = ⟨full.value, [], rest⟩) ∨ short.RanOut

/-- Where the reader finds nothing wrong, it reads a front of the tokens in the same way until that
runs out. -/
structure Reader.Truncates (p : Reader α) : Prop where
  atEnd : (p.run []).RanOut
  front : ∀ {tokens front}, (p.run tokens).faults = [] → front <+: tokens →
    (p.run front).Cut (p.run tokens)

namespace Reader

variable {p : Reader α} {f : α → Reader β} {tokens front : List Token}

/-- When the tokens run out on the first of two readers, they run out on both. -/
lemma ranOut_bind (first : (p.run front).RanOut) (second : ∀ a, ((f a).run []).RanOut) :
    ((p >>= f).run front).RanOut := by
  obtain ⟨rest, ends⟩ := first
  obtain ⟨rest', ends'⟩ := second (p.run front).value
  rw [run_bind, rest]
  refine ⟨rest', fun g mem => ?_⟩
  obtain early | late := List.mem_append.1 mem
  · exact ends g early
  · exact ends' g late

/-- The second of two readers goes on where the first stopped, or both run out. -/
lemma cut_bind (first : (p.run front).Cut (p.run tokens))
    (second : ∀ rest, rest <+: (p.run tokens).rest →
      ((f (p.run tokens).value).run rest).Cut
        ((f (p.run tokens).value).run (p.run tokens).rest))
    (atEnd : ∀ a, ((f a).run []).RanOut) :
    ((p >>= f).run front).Cut ((p >>= f).run tokens) := by
  obtain ⟨rest, shorter, same⟩ | ranOut := first
  · rw [run_bind_of_run same]
    obtain ⟨rest', shorter', same'⟩ | ranOut := second rest shorter
    · exact .inl ⟨rest', shorter', same'⟩
    · exact .inr ranOut
  · exact .inr (ranOut_bind ranOut atEnd)

namespace Truncates

/-- Two readers that truncate do so one after the other. -/
lemma bind (first : p.Truncates) (second : ∀ a, (f a).Truncates) : (p >>= f).Truncates where
  atEnd := ranOut_bind first.atEnd fun a => (second a).atEnd
  front := by
    intro tokens front clean shorter
    obtain ⟨clean, clean'⟩ := List.append_eq_nil_iff.1 clean
    exact cut_bind (first.front clean shorter) (fun _ => (second _).front clean')
      fun a => (second a).atEnd

/-- A reader that takes one token. -/
lemma single (atEnd : (p.run []).faults ≠ [] ∧ (p.run []).RanOut)
    (one : ∀ t, ∃ a faults, ∀ rest, p.run (t :: rest) = ⟨a, faults, rest⟩) : p.Truncates where
  atEnd := atEnd.2
  front := by
    intro tokens front clean shorter
    cases tokens with
    | nil => exact absurd clean atEnd.1
    | cons t tokens =>
      obtain ⟨a, faults, run⟩ := one t
      cases front with
      | nil => exact .inr atEnd.2
      | cons u front =>
        obtain ⟨rfl, behind⟩ := List.cons_prefix_cons.1 shorter
        rw [run] at clean ⊢
        rw [run]
        cases clean
        exact .inl ⟨front, behind, rfl⟩

end Truncates

/-- A value is given whether there are tokens or not. -/
lemma truncates_pure (a : α) : (pure a : Reader α).Truncates where
  atEnd := Outcome.ranOut_nil a
  front := fun _ shorter => .inl ⟨_, shorter, rfl⟩

/-- Reading one token truncates. -/
lemma truncates_expect (k : Kind) (wanted : Expected) : (expect k wanted).Truncates := by
  refine .single ⟨List.cons_ne_nil _ _, Outcome.ranOut_endOfInput _ _⟩ fun t => ?_
  by_cases fits : t.kind = k
  · exact ⟨_, _, fun _ => run_expect fits⟩
  · exact ⟨_, _, fun _ => run_expect_of_ne fits⟩

/-- Reading a number truncates. -/
lemma truncates_number (wanted : Expected) : (number wanted).Truncates := by
  refine .single ⟨List.cons_ne_nil _ _, Outcome.ranOut_endOfInput _ _⟩ fun t => ?_
  by_cases fits : t.kind = .number
  · cases value : Text.ofLiteral? t.lexeme with
    | some n => exact ⟨_, _, fun _ => run_number ⟨fits, value⟩⟩
    | none => exact ⟨_, _, fun _ => run_number_of_none fits value⟩
  · exact ⟨_, _, fun _ => run_number_of_ne fits⟩

/-- Reading a position truncates. -/
lemma truncates_position : position.Truncates := by
  refine .single ⟨List.cons_ne_nil _ _, Outcome.ranOut_endOfInput _ _⟩ fun t => ?_
  unfold position
  dsimp only
  split
  · exact ⟨_, _, fun _ => rfl⟩
  · split <;> exact ⟨_, _, fun _ => rfl⟩
  · exact ⟨_, _, fun _ => rfl⟩

/-- Reading a comma truncates. -/
lemma truncates_comma : comma.Truncates where
  atEnd := Outcome.ranOut_nil ()
  front := by
    intro tokens front _ shorter
    cases front with
    | nil => exact .inl ⟨[], List.nil_prefix, rfl⟩
    | cons t front =>
      obtain ⟨more, rfl⟩ := shorter
      by_cases separates : t.kind = .symbol .comma
      · rw [List.cons_append, run_comma separates, run_comma separates]
        exact .inl ⟨front, List.prefix_append _ _, rfl⟩
      · rw [List.cons_append, run_comma_of_ne separates, run_comma_of_ne separates]
        exact .inl ⟨t :: front, List.prefix_append (t :: front) _, rfl⟩

/-- Reading the end truncates. -/
lemma truncates_ending : ending.Truncates where
  atEnd := Outcome.ranOut_nil ()
  front := by
    intro tokens front clean shorter
    cases tokens with
    | nil =>
      rw [List.prefix_nil.1 shorter]
      exact .inl ⟨[], List.nil_prefix, rfl⟩
    | cons t tokens => cases clean

end Reader

/-! ## Blocks -/

namespace Block

variable {ε σ : Type} {b : Block ε} {entry : σ → ε → Reader σ}

/-- A turn of a block at an entry truncates if the entries do. -/
lemma truncates_turn (each : ∀ s e, (entry s e).Truncates) (s : σ) {t : Token} {e : ε}
    (start : b.entry? t.kind = some e) : (b.turn entry s t).Truncates := by
  unfold turn
  rw [start]
  exact (each s e).bind fun _ => Reader.truncates_comma.bind fun _ => Reader.truncates_pure _

/-- A turn with nothing wrong is one on an entry. -/
lemma exists_entry_of_clean {s : σ} {t : Token} {rest : List Token}
    (clean : ((b.turn entry s t).run rest).faults = []) : ∃ e, b.entry? t.kind = some e := by
  cases start : b.entry? t.kind with
  | some e => exact ⟨e, rfl⟩
  | none =>
    rw [turn, start] at clean
    cases clean

/-- Turn by turn: as long as no turn runs out, the next ones start at the same entry. -/
lemma truncates_entries (each : ∀ s e, (entry s e).Truncates) (s : σ) :
    (b.entries entry s).Truncates where
  atEnd := by
    rw [run_entries_nil]
    exact Outcome.ranOut_nil s
  front := by
    intro tokens front clean shorter
    -- a turn may take any number of tokens, so the induction is on how many are left
    induction h : tokens.length using Nat.strong_induction_on generalizing s tokens front with
    | _ n ih =>
      cases front with
      | nil =>
        rw [run_entries_nil]
        exact .inr (Outcome.ranOut_nil s)
      | cons t front =>
        obtain ⟨more, rfl⟩ := shorter
        rw [List.cons_append] at clean h ⊢
        by_cases closed : t.kind = .symbol b.closer
        · rw [run_entries_of_closer closed, run_entries_of_closer closed]
          exact .inl ⟨t :: front, List.prefix_append (t :: front) _, rfl⟩
        · rw [run_entries_of_ne closed] at clean ⊢
          rw [run_entries_of_ne closed]
          simp only [Reader.run_bind, List.append_eq_nil_iff] at clean
          obtain ⟨clean, clean'⟩ := clean
          obtain ⟨e, start⟩ := exists_entry_of_clean clean
          have turns := truncates_turn (b := b) each s start
          have shorter := b.length_rest_turn_lt entry s t (front ++ more)
          rw [h] at shorter
          refine Reader.cut_bind (turns.front clean (List.prefix_append _ _)) ?_ fun a => ?_
          · exact fun rest prefix' => ih _ shorter _ clean' prefix' rfl
          · rw [run_entries_nil]
            exact Outcome.ranOut_nil a

/-- A block truncates if its entries do. -/
lemma truncates_read (each : ∀ s e, (entry s e).Truncates) (s : σ) :
    (b.read entry s).Truncates :=
  (truncates_entries each s).bind fun _ => ((Reader.truncates_expect _ _).bind fun _ =>
    Reader.truncates_pure _).bind fun _ => Reader.truncates_pure _

end Block

/-! ## The readers of a definition -/

/-- Reading a side truncates. -/
lemma Fixture.truncates_side (strictness : Strictness) (teams : List Team) (wanted : Expected) :
    (side strictness teams wanted).Truncates := by
  refine .single ⟨List.cons_ne_nil _ _, Outcome.ranOut_endOfInput _ _⟩ fun t => ?_
  by_cases name : t.kind = .string
  · exact ⟨_, _, fun _ => run_side name⟩
  · exact ⟨_, _, fun _ => run_side_of_ne name⟩

/-- To truncate is a property of all readers. -/
lemma Reader.truncates_invariant : Invariant @Truncates where
  pure := truncates_pure
  bind := Truncates.bind
  expect := truncates_expect
  number := truncates_number
  position := truncates_position
  side := Fixture.truncates_side
  ending := truncates_ending
  read := Block.truncates_read

/-- What follows a string has to go on in the same way only after strings that leave nothing
wrong. -/
lemma Reader.Truncates.string_bind {wanted : Expected} {f : Option Token → Reader β}
    (absent : (f .none).Truncates)
    (present : ∀ t tokens, ((f (some t)).run tokens).faults = [] → (f (some t)).Truncates) :
    (string wanted >>= f).Truncates := by
  have atEnd : ((string wanted >>= f).run []).RanOut := by
    refine ⟨absent.atEnd.1, fun g mem => ?_⟩
    obtain rfl | later := List.mem_cons.1 mem
    · rfl
    · exact absent.atEnd.2 g later
  refine ⟨atEnd, fun {tokens front} clean shorter => ?_⟩
  obtain ⟨t, rest, rfl, kind⟩ := string_of_intact (.of_clean (List.append_eq_nil_iff.1 clean).1)
  cases front with
  | nil => exact .inr atEnd
  | cons u front =>
    obtain ⟨rfl, behind⟩ := List.cons_prefix_cons.1 shorter
    rw [run_bind_of_run (run_string kind)] at clean ⊢
    rw [run_bind_of_run (run_string kind)]
    exact (present u rest clean).front clean behind

/-- A name that is taken is a fault however the tokens end, but where nothing is wrong it is
free. -/
lemma Team.truncates_entry (teams : List Team) : (entry teams ()).Truncates := by
  have keeps := Reader.truncates_invariant
  have body : ∀ name, (∀ players, (enrol teams name players).Truncates) →
      (do
        let _ ← Reader.symbol .lbracket
        let players ← Player.roster.read Player.rosterEntry []
        enrol teams name players).Truncates :=
    fun name enrols => (keeps.symbol _).bind fun _ => keeps.roster.bind enrols
  -- a name that is there is the same in the front, so it is free there as well
  refine (keeps.symbol _).bind fun _ => .string_bind ?absent ?present
  case absent => exact body none fun _ => Reader.truncates_pure _
  case present =>
    intro t tokens clean
    refine body (some t) fun players => ?_
    simp only [Reader.run_bind, List.append_eq_nil_iff, enrol] at clean ⊢
    split
    · rename_i taken
      rw [if_pos taken] at clean
      cases clean.2.2
    · exact Reader.truncates_pure _

/-- A front of a definition with nothing wrong is read like the definition until it runs out. -/
theorem Tournament.truncates_reader (strictness : Strictness) : (reader strictness).Truncates :=
  Reader.truncates_invariant.definition strictness Team.truncates_entry

/-! ## Fronts of definitions -/

/-- Nothing may stand behind a definition with nothing wrong. -/
lemma Definition.Spelled.eq_nil_of_clean {strictness : Strictness} {tokens more : List Token}
    {d : Definition} (spelled : Spelled tokens d)
    (clean : ((Tournament.reader strictness).run (tokens ++ more)).faults = []) : more = [] := by
  obtain ⟨header, teams, rounds⟩ := spelled
  obtain ⟨first, rfl, anyFirst⟩ := (Header.Item.local.sectioned _).splits header
  obtain ⟨second, rfl, anySecond⟩ := (Team.Tree.local.sectioned _).splits teams
  have last := (Round.local.sectioned _).append rounds more
  rw [List.append_assoc, List.append_assoc, Tournament.reader,
    Reader.run_bind_of_run (Header.run_reader (anyFirst _))] at clean
  simp only [Reader.run_bind, List.append_eq_nil_iff, Team.run_reader (anySecond _),
    Bracket.run_reader last] at clean
  obtain ⟨-, -, trailing⟩ := clean
  exact Reader.ending_of_intact (.of_clean trailing.1)

/-- Of faults that all say that the tokens end one is left. -/
lemma SyntaxFault.dropRepeatedEnds_of_ends {faults : List SyntaxFault} (nonempty : faults ≠ [])
    (ends : ∀ f ∈ faults, f.isEndOfInput = true) :
    ∃ wanted, dropRepeatedEnds faults = [.endOfInput wanted] := by
  cases faults with
  | nil => exact absurd rfl nonempty
  | cons f fs =>
    obtain ⟨here, later⟩ := List.forall_mem_cons.1 ends
    have noOther : fs.filter (fun f => !f.isEndOfInput) = [] :=
      List.filter_eq_nil_iff.2 fun f mem => by simp [later f mem]
    rw [dropRepeatedEnds, if_pos here, noOther]
    cases f with
    | endOfInput wanted => exact ⟨wanted, rfl⟩
    | _ => cases here

/-- A cut definition is reported as such, once, and beyond that only a number of teams that is not
the declared one. -/
theorem parse_truncated {strictness : Strictness} {tokens front : List Token}
    (clean : (parse strictness tokens).errors = []) (cut : front <+: tokens)
    (proper : front ≠ tokens) :
    let document := (parse strictness front).document
    ∃ (wanted : Expected) (place : Span), (parse strictness front).errors =
      { number := 1
        kind := .unexpectedToken
        message := s!"expected {wanted.text}, found end of input"
        span := endSpan front } ::
      if document.declaredTeams.toNat = document.teams.length then []
      else [{ number := 2
              kind := .cardinalityMismatch
              message := SyntaxFault.teamCountMessage document.declaredTeams.toNat
                document.teams.length
              span := place }] := by
  obtain ⟨faultless, -⟩ := parse_errors_eq_nil_iff.1 clean
  have ends : ∀ f ∈ ((Tournament.reader strictness).run front).faults, f.isEndOfInput = true := by
    obtain ⟨rest, -, same⟩ | ranOut := (Tournament.truncates_reader strictness).front faultless cut
    · rw [same]
      exact fun f mem => absurd mem List.not_mem_nil
    · exact ranOut.2
  have nonempty : ((Tournament.reader strictness).run front).faults ≠ [] := by
    intro silent
    obtain ⟨more, rfl⟩ := cut
    obtain ⟨d, spelled⟩ := Tournament.spelled_of_intact (.of_clean silent)
    have last := spelled.eq_nil_of_clean faultless
    rw [last, List.append_nil] at proper
    exact proper rfl
  obtain ⟨wanted, single⟩ := SyntaxFault.dropRepeatedEnds_of_ends nonempty ends
  intro document
  have read : ((Tournament.reader strictness).run front).value.1 = document := rfl
  rw [errors_parse, single, Tournament.countFaults, read]
  by_cases matching : document.declaredTeams.toNat = document.teams.length
  · refine ⟨wanted, .unknown, ?_⟩
    rw [if_pos matching, if_pos matching]
    rfl
  · let counted := SyntaxFault.teamCount document.declaredTeams document.teams.length
      ((Tournament.reader strictness).run front).value.2
    refine ⟨wanted, counted.span (endSpan front), ?_⟩
    rw [if_neg matching, if_neg matching]
    rfl

/-- The small definition cut before its match. -/
theorem parse_truncated_before_match :
    (parse {} (Definition.finalFront ++ Definition.finalBack)).errors = [] ∧
      Definition.finalFront <+: Definition.finalFront ++ Definition.finalBack ∧
      Definition.finalFront ≠ Definition.finalFront ++ Definition.finalBack ∧
      let document := (parse {} Definition.finalFront).document
      ∃ (wanted : Expected) (place : Span), (parse {} Definition.finalFront).errors =
        ⟨1, .unexpectedToken, s!"expected {wanted.text}, found end of input",
          ⟨⟨54, 1, 55⟩, ⟨54, 1, 55⟩⟩⟩ ::
        if document.declaredTeams.toNat = document.teams.length then []
        else [⟨2, .cardinalityMismatch, SyntaxFault.teamCountMessage
          document.declaredTeams.toNat document.teams.length, place⟩] :=
  have proper : Definition.finalFront ≠ Definition.finalFront ++ Definition.finalBack := by decide
  ⟨Definition.final_clean, List.prefix_append _ _, proper,
    parse_truncated Definition.final_clean (List.prefix_append _ _) proper⟩

end Knockout
