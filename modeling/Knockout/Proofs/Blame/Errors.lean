import Knockout.Proofs.Blame.Accounts
import Knockout.Proofs.Grammar.Acceptance
import Knockout.Proofs.Lexing.Tiling

/-!
# No token is blamed twice

The errors of a text point at tokens that are all different, apart from one error at the end of the
tokens and one about a number of teams that nothing declares. It takes the books of the readers
(`Tournament.accounts_reader`), the step from faults to errors, and the places of the tokens of a
text (`InPlace`). The main statement is `parse_blames_once`.
-/

namespace Knockout

/-! ## The places of tokens -/

/-- Tokens behind one another from a byte offset on, none of them empty. -/
inductive InPlace : Nat → List Token → Prop where
  | nil : InPlace n []
  | cons {t : Token} {ts : List Token} (start : n ≤ t.span.first.offset)
    (text : t.span.first.offset < t.span.stop.offset) (more : InPlace t.span.stop.offset ts) :
    InPlace n (t :: ts)

/-- Tokens from an offset on are also tokens from an earlier one on. -/
lemma InPlace.mono {m n : Nat} {ts : List Token} (places : InPlace n ts) (le : m ≤ n) :
    InPlace m ts := by
  cases places with
  | nil => exact .nil
  | cons start text more => exact .cons (le.trans start) text more

/-- A stretch of characters does not end where it starts. -/
lemma Span.Covers.nonempty {s : Span} {n : Nat} {c : Char} {cs : List Char}
    (covers : s.Covers n (c :: cs)) : s.first.offset < s.stop.offset := by
  have size := c.utf8Size_pos
  rw [covers.first, covers.stop, String.utf8Len_cons]
  omega

/-- The tokens of a text that is tiled are in place. -/
lemma Tiles.inPlace {n stop : Nat} {cs : List Char} {ts : List Token}
    {fs : List (LexicalFault × Span)} (tiles : Tiles n cs ts fs stop) : InPlace n ts := by
  induction tiles with
  | done => exact .nil
  | blank first more ih => exact ih.mono (Nat.le_add_right _ _)
  | word first run longest noDigit kind lexeme span more ih
  | number first run longest kind lexeme span more ih
  | string body kind lexeme span more ih
  | symbol kind lexeme span more ih => exact .cons span.first.ge span.nonempty ih
  | digitInWord first run longest digit kind lexeme span more ih
  | openString body ends kind lexeme trimmed span more ih
  | foreign notBlank notLetter notDigit notQuote notSymbol kind lexeme span more ih =>
    refine ih.mono ?_
    rw [← span.first]
    exact span.nonempty.le

/-- The tokens of a text stand behind one another from its start on. -/
lemma inPlace_tokenize (source : String) : InPlace 0 (tokenize source).tokens :=
  (tiles_of_parts (Piece.parts_split source.toList) .start).inPlace

namespace InPlace

variable {n : Nat} {ts : List Token}

/-- The end of tokens lies behind the start of each. -/
lemma start_lt_end (places : InPlace n ts) :
    ∀ t ∈ ts, n ≤ t.span.first.offset ∧ t.span.first.offset < (endSpan ts).first.offset := by
  induction places with
  | nil => exact fun _ mem => absurd mem List.not_mem_nil
  | @cons _ t ts start text more ih =>
    cases ts with
    | nil =>
      intro u mem
      rw [List.mem_singleton.1 mem]
      exact ⟨start, text⟩
    | cons u us =>
      -- both lists of tokens have the same last one
      have same : endSpan (t :: u :: us) = endSpan (u :: us) := rfl
      rw [same]
      have next := ih u List.mem_cons_self
      refine List.forall_mem_cons.2 ⟨⟨start, by omega⟩, fun v mem => ?_⟩
      have later := ih v mem
      exact ⟨by omega, later.2⟩

/-- Each token starts behind the one before it, and the end comes last. -/
lemma starts_increasing (places : InPlace n ts) :
    (ts.map (·.span.first.offset) ++ [(endSpan ts).first.offset]).Pairwise (· < ·) := by
  refine List.pairwise_append.2 ⟨?_, List.pairwise_singleton _ _, ?_⟩
  · induction places with
    | nil => exact .nil
    | cons start text more ih =>
      refine .cons ?_ ih
      rw [List.forall_mem_map]
      intro u mem
      exact text.trans_le (more.start_lt_end u mem).1
  · simp only [List.forall_mem_map, List.mem_singleton, forall_eq]
    exact fun t mem => (places.start_lt_end t mem).2

/-- No token in its place is empty. -/
lemma text (places : InPlace n ts) : ∀ t ∈ ts, t.span.first.offset < t.span.stop.offset := by
  induction places with
  | nil => exact fun _ mem => absurd mem List.not_mem_nil
  | cons start text more ih => exact List.forall_mem_cons.2 ⟨text, ih⟩

/-- The places of some tokens, their end and no place at all are different. -/
lemma nodup_spans (places : InPlace n ts) (nonempty : ts ≠ []) :
    (ts.map Token.span ++ [endSpan ts, .unknown]).Nodup := by
  have distinct : (ts.map Token.span ++ [endSpan ts]).Nodup := by
    have starts := places.starts_increasing.imp Nat.ne_of_lt
    refine List.Nodup.of_map (fun s => s.first.offset) ?_
    rwa [List.map_append, List.map_map]
  have nowhere : Span.unknown ∉ ts.map Token.span ++ [endSpan ts] := by
    rw [List.mem_append, List.mem_map, List.mem_singleton]
    rintro (⟨t, mem, same⟩ | same)
    · have text := places.text t mem
      rw [same] at text
      exact absurd text (lt_irrefl _)
    · obtain ⟨t, mem⟩ := List.exists_mem_of_ne_nil ts nonempty
      have behind := (places.start_lt_end t mem).2
      rw [← same] at behind
      exact absurd behind (Nat.not_lt_zero _)
  rw [← List.singleton_append, ← List.append_assoc]
  exact List.nodup_append'.2 ⟨distinct, List.nodup_singleton _, by simpa using nowhere⟩

end InPlace

/-! ## From faults to errors -/

/-- What is put in front of a text does not change its last character. -/
lemma getLast?_toList_append (s : String) {t : String} {c : Char}
    (ends : t.toList.getLast? = some c) : (s ++ t).toList.getLast? = some c := by
  rw [String.toList_append, List.getLast?_append, ends, Option.some_or]

/-- What is put behind a text does not change its first character. -/
lemma head?_toList_append {s : String} {c : Char} (starts : s.toList.head? = some c) (t : String) :
    (s ++ t).toList.head? = some c := by
  rw [String.toList_append, List.head?_append, starts, Option.some_or]

namespace SyntaxFault

variable {f : SyntaxFault} {ending : Span}

/-- A fault about a token is at this token. -/
lemma span_of_subject {t : Token} (subject : f.subject? = some t) : f.span ending = t.span := by
  cases f with
  | endOfInput => cases subject
  | _ =>
    cases subject
    rfl

/-- A fault about the end of the tokens is at their end. -/
lemma span_of_isEndOfInput (ends : f.isEndOfInput = true) : f.span ending = ending := by
  cases f with
  | endOfInput => rfl
  | _ => cases ends

/-- A fault about the end of the tokens is about none of them. -/
lemma subject?_of_isEndOfInput (ends : f.isEndOfInput = true) : f.subject? = none := by
  cases f with
  | endOfInput => rfl
  | _ => cases ends

/-- A fault that is not about the number of teams is about a token or about their end. -/
lemma subject?_of_uncounted (uncounted : f.kind ≠ .cardinalityMismatch)
    (ends : f.isEndOfInput = false) : ∃ t, f.subject? = some t := by
  cases f with
  | endOfInput => cases ends
  | teamCount => exact absurd rfl uncounted
  | _ => exact ⟨_, rfl⟩

/-- Faults of which none is about the end are kept as they are. -/
lemma dropRepeatedEnds_eq_self {faults : List SyntaxFault}
    (others : ∀ f ∈ faults, f.isEndOfInput = false) : dropRepeatedEnds faults = faults := by
  induction faults with
  | nil => rfl
  | cons f fs ih =>
    obtain ⟨here, later⟩ := List.forall_mem_cons.1 others
    rw [dropRepeatedEnds, if_neg (by simp [here]), ih later]

/-- Faults are dropped but not moved. -/
lemma dropRepeatedEnds_sublist (faults : List SyntaxFault) :
    (dropRepeatedEnds faults).Sublist faults := by
  induction faults with
  | nil => exact .slnil
  | cons f fs ih =>
    rw [dropRepeatedEnds]
    split
    · exact List.filter_sublist.cons_cons f
    · exact ih.cons_cons f

/-- Faults that are not about the end are all kept behind others. -/
lemma dropRepeatedEnds_append {faults more : List SyntaxFault}
    (others : ∀ f ∈ more, f.isEndOfInput = false) :
    dropRepeatedEnds (faults ++ more) = dropRepeatedEnds faults ++ more := by
  have keepsAll : more.filter (fun f => !f.isEndOfInput) = more :=
    List.filter_eq_self.2 fun f mem => by rw [others f mem, Bool.not_false]
  induction faults with
  | nil => exact dropRepeatedEnds_eq_self others
  | cons f fs ih =>
    rw [List.cons_append, dropRepeatedEnds, dropRepeatedEnds, List.filter_append, keepsAll, ih]
    split <;> rfl

/-- Apart from the ends, faults have the places of the tokens they are about. -/
lemma spans_filter {faults : List SyntaxFault} (ending : Span)
    (uncounted : ∀ f ∈ faults, f.kind ≠ .cardinalityMismatch) :
    (faults.filter fun f => !f.isEndOfInput).map (span ending) =
      (faults.filterMap subject?).map Token.span := by
  induction faults with
  | nil => rfl
  | cons f fs ih =>
    obtain ⟨here, later⟩ := List.forall_mem_cons.1 uncounted
    cases ends : f.isEndOfInput with
    | true => simp [ends, subject?_of_isEndOfInput ends, ih later]
    | false =>
      obtain ⟨t, subject⟩ := subject?_of_uncounted here ends
      simp [ends, subject, ih later, span_of_subject subject]

/-- The places of faults are those of the tokens they are about, and the end at most once. -/
lemma spans_dropRepeatedEnds {faults : List SyntaxFault} (ending : Span)
    (uncounted : ∀ f ∈ faults, f.kind ≠ .cardinalityMismatch) :
    ((dropRepeatedEnds faults).map (span ending) : Multiset Span) ≤
      ((faults.filterMap subject?).map Token.span : Multiset Span) + {ending} := by
  induction faults with
  | nil => exact Multiset.zero_le _
  | cons f fs ih =>
    obtain ⟨here, later⟩ := List.forall_mem_cons.1 uncounted
    cases ends : f.isEndOfInput with
    | true =>
      rw [dropRepeatedEnds, if_pos ends, List.map_cons, spans_filter ending later,
        span_of_isEndOfInput ends, List.filterMap_cons_none (subject?_of_isEndOfInput ends),
        ← Multiset.cons_coe, ← Multiset.singleton_add, add_comm]
    | false =>
      obtain ⟨t, subject⟩ := subject?_of_uncounted here ends
      rw [dropRepeatedEnds, if_neg (by simp [ends]), List.filterMap_cons_some subject,
        List.map_cons, List.map_cons, span_of_subject subject, ← Multiset.cons_coe,
        ← Multiset.cons_coe, Multiset.cons_add]
      exact Multiset.cons_le_cons _ (ih later)

/-- Faults that come to light at once start where their tokens do, in order, and the end of the
tokens comes last. -/
lemma starts_dropRepeatedEnds {faults : List SyntaxFault} (ending : Span)
    (uncounted : ∀ f ∈ faults, f.kind ≠ .cardinalityMismatch)
    (last : faults.Pairwise fun f g => f.isEndOfInput = true → g.mark? = none) :
    (((dropRepeatedEnds faults).filter fun f => !f.isLate).map
        fun f => (f.span ending).first.offset).Sublist
      ((faults.filterMap mark?).map (·.span.first.offset) ++ [ending.first.offset]) := by
  induction faults with
  | nil => exact List.nil_sublist _
  | cons f fs ih =>
    obtain ⟨here, later⟩ := List.forall_mem_cons.1 uncounted
    obtain ⟨after, last⟩ := List.pairwise_cons.1 last
    cases ends : f.isEndOfInput with
    | true =>
      -- what is left after the end comes to light late
      have noneLate : (fs.filter fun g => !g.isEndOfInput).filter (fun g => !g.isLate) = [] := by
        rw [List.filter_filter, List.filter_eq_nil_iff]
        intro g mem prompt
        rw [Bool.and_eq_true, Bool.not_eq_true', Bool.not_eq_true'] at prompt
        obtain ⟨t, subject⟩ := subject?_of_uncounted (later g mem) prompt.2
        have mark := after g mem ends
        rw [mark?, if_neg (by simp [prompt.1]), subject] at mark
        cases mark
      have prompt : f.isLate = false := by cases f <;> cases ends; rfl
      rw [dropRepeatedEnds, if_pos ends, List.filter_cons_of_pos (by simp [prompt]), noneLate,
        List.map_cons, span_of_isEndOfInput ends]
      exact List.sublist_append_right _ _
    | false =>
      rw [dropRepeatedEnds, if_neg (by simp [ends])]
      cases late : f.isLate with
      | true =>
        have unmarked : f.mark? = none := by rw [mark?, if_pos late]
        rw [List.filter_cons_of_neg (by simp [late]), List.filterMap_cons_none unmarked]
        exact ih later last
      | false =>
        obtain ⟨t, subject⟩ := subject?_of_uncounted here ends
        have mark : f.mark? = some t := by rw [mark?, if_neg (by simp [late]), subject]
        rw [List.filter_cons_of_pos (by simp [late]), List.filterMap_cons_some mark, List.map_cons,
          List.map_cons, span_of_subject subject]
        exact (ih later last).cons_cons _

/-- The message about the end of the tokens is like no other. -/
lemma isEndOfInput_of_message {wanted : Expected}
    (same : f.message = (endOfInput wanted).message) : f.isEndOfInput = true := by
  have last : f.message.toList.getLast? = some 't' := by
    rw [same]
    exact getLast?_toList_append _ rfl
  -- no other message ends in this letter, unless it quotes a numeral
  have differs : ∀ {s t : String} {c : Char}, f.message = s ++ t → t.toList.getLast? = some c →
      c ≠ 't' → f.isEndOfInput = true := by
    intro s t c message ends other
    rw [message, getLast?_toList_append s ends] at last
    exact absurd (Option.some.inj last) other
  have quotes : ∀ {s : String} {t : Token}, f.message = s ++ t.quoted → f.isEndOfInput = true := by
    intro s t message
    rw [Token.quoted] at message
    split at message
    · exact differs (message.trans (String.append_assoc ..).symm) rfl (by decide)
    · exact differs (message.trans (String.append_assoc ..).symm) rfl (by decide)
  cases f with
  | endOfInput => rfl
  | numberOutOfRange literal =>
    have expected : "expected ".toList.head? = some 'e' := rfl
    have number : "number out of range: ".toList.head? = some 'n' := rfl
    have first : (endOfInput wanted).message.toList.head? = some 'e' :=
      head?_toList_append (head?_toList_append expected _) _
    rw [← same] at first
    exact absurd (first.symm.trans (head?_toList_append number _)) (by decide)
  | stray block found =>
    cases block with
    | roster | fixtures | scorers => exact quotes rfl
    | _ => exact differs rfl rfl (by decide)
  | unexpected wanted found => exact quotes rfl
  | _ => exact differs rfl rfl (by decide)

end SyntaxFault

namespace SyntaxError

variable {ending : Span}

/-- A selection of errors that does not go by their numbers is the same selection of faults. -/
lemma filter_map_ofFaults {keep : SyntaxError → Bool} (keep' : SyntaxFault → Bool)
    {g : SyntaxError → β} (g' : SyntaxFault → β)
    (kept : ∀ n f, keep ⟨n, f.kind, f.message, f.span ending⟩ = keep' f)
    (same : ∀ n f, g ⟨n, f.kind, f.message, f.span ending⟩ = g' f) (faults : List SyntaxFault) :
    ((ofFaults ending faults).filter keep).map g = (faults.filter keep').map g' := by
  have pairs : (ofFaults ending faults).map (fun e => (keep e, g e)) =
      faults.map fun f => (keep' f, g' f) :=
    map_ofFaults _ (fun n f => by rw [kept, same]) faults
  have chosen := congrArg (fun l => (l.filter Prod.fst).map Prod.snd) pairs
  rw [List.filter_map, List.filter_map, List.map_map, List.map_map] at chosen
  exact chosen

/-- Every error has its fault. -/
lemma exists_of_mem_ofFaults {faults : List SyntaxFault} {e : SyntaxError}
    (mem : e ∈ ofFaults ending faults) :
    ∃ f ∈ faults, e.kind = f.kind ∧ e.message = f.message ∧ e.span = f.span ending := by
  obtain ⟨⟨f, n⟩, numbered, rfl⟩ := List.mem_map.1 mem
  have kept := List.fst_mem_of_mem_zipIdx numbered
  exact ⟨f, kept, rfl, rfl, rfl⟩

/-- Errors are numbered from 1. -/
lemma numbers_ofFaults (faults : List SyntaxFault) :
    (ofFaults ending faults).map number = List.range' 1 (ofFaults ending faults).length := by
  simp [ofFaults, Function.comp_def, List.zipIdx_map_snd]

/-- A last fault has the last number. -/
lemma ofFaults_concat (faults : List SyntaxFault) (f : SyntaxFault) :
    ofFaults ending (faults ++ [f]) =
      ofFaults ending faults ++ [⟨faults.length + 1, f.kind, f.message, f.span ending⟩] := by
  simp [ofFaults, List.zipIdx_append, Nat.add_comm]

end SyntaxError

/-! ## The errors of a text -/

/-- The error says that the tokens end too soon. -/
def SyntaxError.ReportsEnd (e : SyntaxError) : Prop :=
  e.kind = .unexpectedToken ∧
    ∃ wanted : Expected, e.message = s!"expected {wanted.text}, found end of input"

section Parse

variable (strictness : Strictness) (tokens : List Token)

/-- The number of teams is about the token that declares it, or it has no place. -/
lemma Tournament.spans_countFaults {ending : Span} (t : Tournament) (count : Option Token) :
    ((t.countFaults count).map (SyntaxFault.span ending) : Multiset Span) ≤
      (count.toList.map Token.span : Multiset Span) + {.unknown} := by
  rw [countFaults]
  split
  · exact Multiset.zero_le _
  · cases count with
    | none => exact Multiset.le_add_left _ _
    | some count => exact Multiset.le_add_right _ _

/-- The errors of a parse are those of the reader, and last the one about the number of teams. -/
lemma errors_parse :
    (parse strictness tokens).errors = SyntaxError.ofFaults (endSpan tokens)
      (SyntaxFault.dropRepeatedEnds ((Tournament.reader strictness).run tokens).faults ++
        ((Tournament.reader strictness).run tokens).value.1.countFaults
          ((Tournament.reader strictness).run tokens).value.2) := by
  rw [← SyntaxFault.dropRepeatedEnds_append]
  · rfl
  · intro f mem
    rw [Tournament.eq_of_mem_countFaults mem]
    rfl

/-- No tokens give an empty tournament without a number of teams. -/
lemma Tournament.value_reader_nil : ((reader strictness).run []).value = ({}, none) := by
  simp [reader, Header.reader, Header.declared, Team.reader, Bracket.reader, Block.read,
    Block.run_entries_nil, Reader.keyword, Reader.symbol, Reader.expect]

/-- The books of a whole definition. -/
lemma Tournament.books_reader :
    ((reader strictness).run tokens).Accounts 0
      (((reader strictness).run tokens).value.2.toList : Multiset Token) tokens := by
  obtain ⟨taken, split, books⟩ := accounts_reader strictness tokens
  rw [rest_reader, List.append_nil] at split
  rwa [← split] at books

/-- The faults of a reader and the token that declares the number of teams have places of their
own. -/
lemma Tournament.spans_reader :
    ((SyntaxFault.dropRepeatedEnds ((reader strictness).run tokens).faults).map
          (SyntaxFault.span (endSpan tokens)) : Multiset Span) +
        (((reader strictness).run tokens).value.2.toList.map Token.span : Multiset Span) ≤
      (tokens.map Token.span : Multiset Span) + {endSpan tokens} := by
  have books := books_reader strictness tokens
  have balance := Multiset.map_le_map (f := Token.span) books.balance
  rw [zero_add, Multiset.map_add, Multiset.map_coe, Multiset.map_coe, Multiset.map_coe] at balance
  have faults := SyntaxFault.spans_dropRepeatedEnds (endSpan tokens) books.uncounted
  calc _ ≤ ((((reader strictness).run tokens).faults.filterMap SyntaxFault.subject?).map
          Token.span : Multiset Span) + {endSpan tokens} +
          (((reader strictness).run tokens).value.2.toList.map Token.span : Multiset Span) :=
        add_le_add faults le_rfl
    _ = _ := add_right_comm _ _ _
    _ ≤ _ := add_le_add balance le_rfl

/-- The places of errors are those of tokens, the end of the tokens, and no place at all. -/
lemma spans_parse : ((parse strictness tokens).errors.map SyntaxError.span : Multiset Span) ≤
    (tokens.map Token.span ++ [endSpan tokens, .unknown] : List Span) := by
  rw [errors_parse, SyntaxError.map_ofFaults _ (fun _ _ => rfl), List.map_append,
    ← Multiset.coe_add]
  calc _ ≤ _ := add_le_add le_rfl (Tournament.spans_countFaults _ _)
    _ = _ := (add_assoc _ _ _).symm
    _ ≤ _ := add_le_add (Tournament.spans_reader strictness tokens) le_rfl
    _ ≤ _ := (add_assoc _ _ _).le

variable {strictness tokens}

/-- An error about the number of teams is at the token that declares it, or nowhere when none has
been read. -/
lemma count_of_cardinalityMismatch {e : SyntaxError}
    (mem : e ∈ (parse strictness tokens).errors) (counts : e.kind = .cardinalityMismatch) :
    (Header.reader.run tokens).value.count = none ∧ e.span = .unknown ∨
      ∃ t ∈ tokens, (Header.reader.run tokens).value.count.map (·.2) = some t ∧
        e.span = t.span := by
  have books := Tournament.books_reader strictness tokens
  have declares : ((Tournament.reader strictness).run tokens).value.2 =
      (Header.reader.run tokens).value.count.map (·.2) := rfl
  rw [errors_parse] at mem
  obtain ⟨f, mem, kind, -, span⟩ := SyntaxError.exists_of_mem_ofFaults mem
  obtain met | judged := List.mem_append.1 mem
  · have mem := (SyntaxFault.dropRepeatedEnds_sublist _).subset met
    exact absurd (kind.symm.trans counts) (books.uncounted f mem)
  · have balance := books.balance
    rw [zero_add] at balance
    rw [Tournament.eq_of_mem_countFaults judged, declares] at span
    rw [declares] at balance
    cases count : (Header.reader.run tokens).value.count.map (·.2) with
    | none =>
      rw [count] at span
      exact .inl ⟨Option.map_eq_none_iff.1 count, span⟩
    | some t =>
      rw [count] at span balance
      have handed : t ∈ (tokens : Multiset Token) :=
        Multiset.mem_of_le balance (Multiset.mem_add.2 (.inr List.mem_cons_self))
      exact .inr ⟨t, handed, rfl, span⟩

/-- An error is about a token, about the end of the tokens, or about a number of teams that no token
declares. -/
lemma cause_of_mem_errors {e : SyntaxError} (mem : e ∈ (parse strictness tokens).errors) :
    (∃ t ∈ tokens, e.span = t.span) ∨ (e.ReportsEnd ∧ e.span = endSpan tokens) ∨
      (e.kind = .cardinalityMismatch ∧ e.span = .unknown) := by
  have books := Tournament.books_reader strictness tokens
  have balance := books.balance
  rw [zero_add] at balance
  have reported := mem
  rw [errors_parse] at mem
  obtain ⟨f, mem, kind, message, span⟩ := SyntaxError.exists_of_mem_ofFaults mem
  obtain met | judged := List.mem_append.1 mem
  · rw [SyntaxError.ReportsEnd, kind, message, span]
    have mem := (SyntaxFault.dropRepeatedEnds_sublist _).subset met
    cases ends : f.isEndOfInput with
    | true =>
      refine .inr (.inl ⟨?_, SyntaxFault.span_of_isEndOfInput ends⟩)
      cases f with
      | endOfInput wanted => exact ⟨rfl, wanted, rfl⟩
      | _ => cases ends
    | false =>
      obtain ⟨t, subject⟩ := SyntaxFault.subject?_of_uncounted (books.uncounted f mem) ends
      refine .inl ⟨t, ?_, SyntaxFault.span_of_subject subject⟩
      exact Multiset.mem_of_le balance
        (Multiset.mem_add.2 (.inl (List.mem_filterMap.2 ⟨f, mem, subject⟩)))
  · have counts : e.kind = .cardinalityMismatch := by
      rw [kind, Tournament.eq_of_mem_countFaults judged]
      rfl
    obtain ⟨-, nowhere⟩ | ⟨t, found, -, here⟩ := count_of_cardinalityMismatch reported counts
    · exact .inr (.inr ⟨counts, nowhere⟩)
    · exact .inl ⟨t, found, here⟩

/-- What says that the tokens end is at their end. -/
lemma span_of_reportsEnd {e : SyntaxError} (mem : e ∈ (parse strictness tokens).errors)
    (ends : e.ReportsEnd) : e.span = endSpan tokens := by
  obtain ⟨-, wanted, text⟩ := ends
  rw [errors_parse] at mem
  obtain ⟨f, -, -, message, span⟩ := SyntaxError.exists_of_mem_ofFaults mem
  rw [span]
  exact SyntaxFault.span_of_isEndOfInput
    (SyntaxFault.isEndOfInput_of_message (message.symm.trans text))

/-- Errors have different places where the tokens have. -/
lemma nodup_spans_parse {n : Nat} (places : InPlace n tokens) :
    ((parse strictness tokens).errors.map SyntaxError.span).Nodup := by
  cases tokens with
  | cons t ts =>
    have distinct := places.nodup_spans (List.cons_ne_nil t ts)
    exact Multiset.coe_nodup.1
      (Multiset.nodup_of_le (spans_parse strictness _) (Multiset.coe_nodup.2 distinct))
  | nil =>
    -- the end of no tokens is no place, but then no number of teams is declared
    have single := (Multiset.le_add_right _ _).trans (Tournament.spans_reader strictness [])
    have uncounted : ({} : Tournament).countFaults none = [] := rfl
    rw [errors_parse, Tournament.value_reader_nil, SyntaxError.map_ofFaults _ (fun _ _ => rfl),
      uncounted, List.append_nil]
    exact Multiset.coe_nodup.1 (Multiset.nodup_of_le single (Multiset.nodup_singleton _))

/-- Errors that come to light at once are in the order of their places. -/
lemma starts_parse {n : Nat} (places : InPlace n tokens) :
    (((parse strictness tokens).errors.filter fun e =>
        e.kind ≠ .duplicateTeam ∧ e.kind ≠ .cardinalityMismatch).map
          (·.span.first.offset)).Pairwise (· < ·) := by
  have books := Tournament.books_reader strictness tokens
  have starts := SyntaxFault.starts_dropRepeatedEnds (endSpan tokens) books.uncounted
    books.last
  have marked :=
    (books.inOrder.map (·.span.first.offset)).append_right [(endSpan tokens).first.offset]
  have late : ∀ (t : Tournament) count, (t.countFaults count).filter (fun f => !f.isLate) = [] := by
    intro t count
    rw [Tournament.countFaults]
    split <;> rfl
  have prompt : ∀ k : SyntaxFaultKind,
      decide (k ≠ .duplicateTeam ∧ k ≠ .cardinalityMismatch) =
        !(k == .duplicateTeam || k == .cardinalityMismatch) := by
    intro k
    cases k <;> rfl
  rw [errors_parse, SyntaxError.filter_map_ofFaults (fun f => !f.isLate)
    (fun f => (f.span (endSpan tokens)).first.offset) (fun _ f => prompt f.kind)
    (fun _ _ => rfl), List.filter_append, late, List.append_nil]
  exact places.starts_increasing.sublist (starts.trans marked)

/-- A number of teams that does not fit is the last error. -/
lemma getLast?_errors_parse {e : SyntaxError} (mem : e ∈ (parse strictness tokens).errors)
    (counts : e.kind = .cardinalityMismatch) :
    (parse strictness tokens).errors.getLast? = some e := by
  have uncounted := (Tournament.books_reader strictness tokens).uncounted
  have met : ∀ {ending : Span}, e ∉ SyntaxError.ofFaults ending
      (SyntaxFault.dropRepeatedEnds ((Tournament.reader strictness).run tokens).faults) := by
    intro ending mem
    obtain ⟨f, mem, kind, -, -⟩ := SyntaxError.exists_of_mem_ofFaults mem
    exact uncounted f ((SyntaxFault.dropRepeatedEnds_sublist _).subset mem) (kind.symm.trans counts)
  rw [errors_parse, Tournament.countFaults] at mem ⊢
  split at mem
  · rw [List.append_nil] at mem
    exact absurd mem met
  · rename_i differs
    rw [if_neg differs]
    rw [SyntaxError.ofFaults_concat] at mem ⊢
    obtain early | last := List.mem_append.1 mem
    · exact absurd early met
    · rw [List.getLast?_concat, List.mem_singleton.1 last]

end Parse

/-- **No token is blamed twice.** The errors of a text are numbered from 1 and have different
places. Each is at the place of a token, apart from one that says that the tokens end, which is
behind the last of them, and one about the number of teams, which may have no place. Those that come
to light at once are in the order of the text, and the number of teams is judged last. -/
theorem parse_blames_once (strictness : Strictness) (source : String) :
    let tokens := (tokenize source).tokens
    let errors := (parse strictness tokens).errors
    errors.map SyntaxError.number = List.range' 1 errors.length ∧
      (errors.map SyntaxError.span).Nodup ∧
      (∀ e ∈ errors, (∃ t ∈ tokens, e.span = t.span) ∨
        (e.ReportsEnd ∧ e.span = endSpan tokens) ∨
        (e.kind = .cardinalityMismatch ∧ e.span = .unknown)) ∧
      (∀ e ∈ errors, e.ReportsEnd →
        e.span = endSpan tokens ∧ ∀ e' ∈ errors, e'.ReportsEnd → e' = e) ∧
      errors.length ≤ tokens.length + 2 ∧
      ((errors.filter fun e => e.kind ≠ .duplicateTeam ∧ e.kind ≠ .cardinalityMismatch).map
        (·.span.first.offset)).Pairwise (· < ·) ∧
      ∀ e ∈ errors, e.kind = .cardinalityMismatch → errors.getLast? = some e := by
  intro tokens errors
  have places : InPlace 0 tokens := inPlace_tokenize source
  have distinct : (errors.map SyntaxError.span).Nodup := nodup_spans_parse places
  refine ⟨?numbers, distinct, fun e => cause_of_mem_errors, ?ends, ?few, starts_parse places,
    fun e => getLast?_errors_parse⟩
  case numbers => exact SyntaxError.numbers_ofFaults _
  case ends =>
    intro e mem ends
    refine ⟨span_of_reportsEnd mem ends, fun e' mem' ends' => ?_⟩
    exact List.inj_on_of_nodup_map distinct mem' mem
      ((span_of_reportsEnd mem' ends').trans (span_of_reportsEnd mem ends).symm)
  case few =>
    have fewer := Multiset.card_le_card (spans_parse strictness tokens)
    simpa using fewer

end Knockout
