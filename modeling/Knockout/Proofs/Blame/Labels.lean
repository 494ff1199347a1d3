import Knockout.Diagnostic
import Knockout.Proofs.Blame.Errors
import Knockout.Proofs.Lexing.Places

/-!
# Labels of diagnostics

A diagnostic carries the place of its error as a byte offset and a length. Lexical errors enclose a
piece of the text, syntax errors a token of it, or they stand at the end of the tokens or nowhere
(`cause_of_mem_errors`), where the label is empty. In each case both ends of the label are between
two characters of the text. The main statement is `analyze_labelled`.
-/

namespace Knockout

namespace Diagnostic

/-- The label of the diagnostic is a stretch of whole characters of the text. -/
structure PointsInto (d : Diagnostic) (source : String) : Prop where
  inside : d.offset + d.length ≤ source.utf8ByteSize
  start : String.Pos.Raw.IsValid source ⟨d.offset⟩
  stop : String.Pos.Raw.IsValid source ⟨d.offset + d.length⟩

/-- The text under the label. -/
def labelled (d : Diagnostic) (source : String) : String :=
  String.Pos.Raw.extract source ⟨d.offset⟩ ⟨d.offset + d.length⟩

end Diagnostic

section Labels

variable {s : Span} {source : String} {d : Diagnostic} {text : List Char}

/-- A diagnostic at a span that encloses a text is labelled with it. -/
lemma Span.Encloses.label (encloses : s.Encloses source text) (offset : d.offset = s.first.offset)
    (length : d.length = s.length) : d.PointsInto source ∧ d.labelled source = .ofList text := by
  have covers := encloses.covers
  have stop : d.offset + d.length = s.stop.offset := by
    rw [offset, length, Span.length, covers.stop]
    omega
  refine ⟨⟨?_, ?_, ?_⟩, ?_⟩
  · rw [stop]
    exact encloses.stop.offset_le
  · rw [offset]
    exact encloses.first.isValid
  · rw [stop]
    exact encloses.stop.isValid
  · rw [Diagnostic.labelled, stop, offset]
    exact encloses.slice

/-- An empty label at a place of the text points into it and labels nothing. -/
lemma Location.PlacedIn.label {l : Location} (placed : l.PlacedIn source)
    (offset : d.offset = l.offset) (length : d.length = 0) :
    d.PointsInto source ∧ d.labelled source = "" := by
  obtain ⟨front, rest, whole, place⟩ := placed
  have encloses : Span.Encloses ⟨l, l⟩ source [] :=
    ⟨front, rest, whole, by rw [List.append_nil, place]⟩
  refine encloses.label offset ?_
  rw [length, Span.length, Nat.sub_self]

/-- The end of the tokens of a text is behind the last of them, or at the start of the text. -/
lemma placed_endSpan (source : String) :
    ∃ l : Location, l.PlacedIn source ∧ (endSpan (tokenize source).tokens).first.offset = l.offset ∧
      (endSpan (tokenize source).tokens).length = 0 := by
  rw [endSpan]
  cases last : (tokenize source).tokens.getLast? with
  | none => exact ⟨.start, .atStart source, rfl, rfl⟩
  | some t =>
    obtain ⟨p, encloses⟩ := encloses_of_mem_tokens (List.mem_of_getLast? last)
    exact ⟨t.span.stop, encloses.stop, rfl, Nat.sub_self _⟩

end Labels

/-- The label of a lexical error is what it quotes, with the returns behind an open string. -/
lemma LexicalError.label {source : String} {e : LexicalError}
    (mem : e ∈ (tokenize source).errors) :
    e.diagnostic.PointsInto source ∧ ∃ returns,
      e.diagnostic.labelled source = e.fault.lexeme ++ .ofList (.replicate returns '\r') ∧
        (e.fault.kind ≠ .unterminatedString → returns = 0) := by
  obtain ⟨p, encloses, blames⟩ := blames_of_mem_errors mem
  obtain ⟨points, label⟩ := encloses.label (d := e.diagnostic) rfl rfl
  obtain ⟨returns, quoted, helpless⟩ := blames.text
  refine ⟨points, returns, ?_, helpless⟩
  rw [label, quoted, String.ofList_append, String.ofList_toList]

/-- The label of a syntax error is a token, or it is empty. -/
lemma SyntaxError.label {strictness : Strictness} {source : String} {e : SyntaxError}
    (mem : e ∈ (parse strictness (tokenize source).tokens).errors) :
    e.diagnostic.PointsInto source ∧
      ((∃ t ∈ (tokenize source).tokens, e.span = t.span ∧
          e.diagnostic.labelled source = t.written) ∨
        e.diagnostic.length = 0 ∧ e.diagnostic.labelled source = "" ∧
          (e.ReportsEnd ∨ e.kind = .cardinalityMismatch ∧
            (Header.reader.run (tokenize source).tokens).value.count = none)) := by
  have offset : e.diagnostic.offset = e.span.first.offset := rfl
  have length : e.diagnostic.length = e.span.length := rfl
  obtain ⟨t, found, span⟩ | ⟨ends, span⟩ | ⟨counts, span⟩ := cause_of_mem_errors mem
  · obtain ⟨p, encloses⟩ := encloses_of_mem_tokens found
    rw [span] at offset length
    obtain ⟨points, label⟩ := encloses.label offset length
    refine ⟨points, .inl ⟨t, found, span, ?_⟩⟩
    rw [label, ← encloses.slice, slice_of_mem_tokens found]
  · obtain ⟨l, placed, there, empty⟩ := placed_endSpan source
    rw [span] at offset length
    obtain ⟨points, label⟩ := placed.label (offset.trans there) (length.trans empty)
    exact ⟨points, .inr ⟨length.trans empty, label, .inl ends⟩⟩
  · rw [span] at offset length
    obtain ⟨points, label⟩ := (Location.PlacedIn.atStart source).label offset length
    refine ⟨points, .inr ⟨length, label, .inr ⟨counts, ?_⟩⟩⟩
    obtain ⟨absent, -⟩ | ⟨t, found, -, here⟩ := count_of_cardinalityMismatch mem counts
    · exact absent
    · -- a token that has been read is not nowhere
      have text := (inPlace_tokenize source).text t found
      rw [← here, span] at text
      exact absurd text (lt_irrefl _)

/-- **Diagnostics point into their text.** The label of every diagnostic is a stretch of whole
characters. What a lexical error labels is what it quotes, with the carriage returns behind an open
string; what a syntax error labels is a token as it is written, and where it labels nothing the
tokens end too soon or no number of teams has been read. -/
theorem analyze_labelled (strictness : Strictness) (source : String) :
    (∀ d ∈ (analyze strictness source).diagnostics, d.PointsInto source) ∧
      (∀ e ∈ (analyze strictness source).lexicalErrors, ∃ returns,
        e.diagnostic.labelled source = e.fault.lexeme ++ .ofList (.replicate returns '\r') ∧
          (e.fault.kind ≠ .unterminatedString → returns = 0)) ∧
      ∀ e ∈ (analyze strictness source).syntaxErrors,
        (∃ t ∈ (tokenize source).tokens, e.span = t.span ∧
          e.diagnostic.labelled source = t.written) ∨
        e.diagnostic.length = 0 ∧ e.diagnostic.labelled source = "" ∧
          (e.ReportsEnd ∨ e.kind = .cardinalityMismatch ∧
            (Header.reader.run (tokenize source).tokens).value.count = none) := by
  have syntaxErrors : ∀ e ∈ (analyze strictness source).syntaxErrors,
      e ∈ (parse strictness (tokenize source).tokens).errors := by
    intro e mem
    rw [analyze, Analysis.syntaxErrors] at mem
    split at mem
    · exact mem
    · cases mem
  refine ⟨fun d mem => ?_, fun e mem => (LexicalError.label mem).2,
    fun e mem => (SyntaxError.label (syntaxErrors e mem)).2⟩
  obtain lexical | syntactic := List.mem_append.1 mem
  · obtain ⟨e, found, rfl⟩ := List.mem_map.1 lexical
    exact (LexicalError.label found).1
  · obtain ⟨e, found, rfl⟩ := List.mem_map.1 syntactic
    exact (SyntaxError.label (syntaxErrors e found)).1

end Knockout
