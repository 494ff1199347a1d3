import Knockout.Proofs.Lexing.Tiling
import Mathlib.Data.List.DropRight

/-!
# Places in a text

`Location.behind` counts a place from scratch: the bytes of the text before it, its line feeds, and
the characters behind the last of them. A span encloses a stretch of a text (`Span.Encloses`) when
both its ends are counted that way. Pieces enclose their own text, every token comes from a piece,
and every lexical fault is about one (`LexicalFault.Blames`), also that of an opener whose closer is
missed only at the end of the text. So all that is said about a text points at the right place: the
main statement is `tokenize_placed`.
-/

namespace Knockout

open Text

/-! ## Locations -/

/-- The characters behind the last line feed. -/
def Text.lastLine (cs : List Char) : List Char := cs.rtakeWhile (· != '\n')

namespace Location

/-- The place behind the front part of a text. Carriage returns take no column. -/
def behind (front : List Char) : Location where
  offset := String.utf8Len front
  line := 1 + front.count '\n'
  column := 1 + (lastLine front).countP (· != '\r')

/-- A further character moves the place by that character. -/
lemma behind_concat (front : List Char) (c : Char) :
    behind (front ++ [c]) = (behind front).advance c := by
  have offset : String.utf8Len (front ++ [c]) = String.utf8Len front + c.utf8Size := by simp
  have line : (front ++ [c]).count '\n' = front.count '\n' + [c].count '\n' := List.count_append
  unfold behind advance lastLine
  rw [offset, line, List.rtakeWhile_concat]
  by_cases feed : c = '\n'
  · subst feed
    simp [Nat.add_assoc]
  · by_cases back : c = '\r'
    · subst back
      simp
    · simp [feed, back, Nat.add_assoc]

/-- From the start, a place is behind what has been read. -/
lemma after_start (front : List Char) : start.after front = behind front := by
  induction front using List.reverseRecOn with
  | nil => rfl
  | append_singleton cs c ih => rw [after_append, ih, behind_concat, after_cons, after_nil]

/-- The location is right about the place at its offset. -/
def PlacedIn (l : Location) (source : String) : Prop :=
  ∃ front rest, source.toList = front ++ rest ∧ l = behind front

namespace PlacedIn

/-- The start is a place in every text. -/
lemma atStart (source : String) : start.PlacedIn source := ⟨[], source.toList, rfl, rfl⟩

variable {l : Location} {source : String}

/-- A place is at the boundary of a character. -/
lemma isValid (placed : l.PlacedIn source) : String.Pos.Raw.IsValid source ⟨l.offset⟩ := by
  obtain ⟨front, rest, whole, rfl⟩ := placed
  refine String.Pos.Raw.isValid_iff_exists_append.2 ⟨.ofList front, .ofList rest, ?_, ?_⟩
  · rw [← String.ofList_append, ← whole, String.ofList_toList]
  · ext
    simp [behind]

/-- A place is inside its text. -/
lemma offset_le (placed : l.PlacedIn source) : l.offset ≤ source.utf8ByteSize := by
  obtain ⟨front, rest, whole, rfl⟩ := placed
  rw [← String.utf8Len_toList, whole, String.utf8Len_append]
  exact Nat.le_add_right _ _

/-- A line number is at most one more than the number of characters. -/
lemma line_le (placed : l.PlacedIn source) : l.line ≤ source.length + 1 := by
  obtain ⟨front, rest, whole, rfl⟩ := placed
  have feeds : front.count '\n' ≤ front.length := List.count_le_length
  rw [← String.length_toList, whole, List.length_append]
  dsimp only [behind]
  omega

/-- A column number is at most one more than the number of characters. -/
lemma column_le (placed : l.PlacedIn source) : l.column ≤ source.length + 1 := by
  obtain ⟨front, rest, whole, rfl⟩ := placed
  have last : (lastLine front).length ≤ front.length := (List.rtakeWhile_suffix _ _).length_le
  have columns : (lastLine front).countP (· != '\r') ≤ (lastLine front).length :=
    List.countP_le_length
  rw [← String.length_toList, whole, List.length_append]
  dsimp only [behind]
  omega

end PlacedIn

end Location

/-! ## Spans -/

namespace Span

/-- The span is that of a stretch of a text. -/
def Encloses (s : Span) (source : String) (text : List Char) : Prop :=
  ∃ front rest, source.toList = front ++ (text ++ rest) ∧
    s = ⟨.behind front, .behind (front ++ text)⟩

namespace Encloses

variable {s : Span} {source : String} {text : List Char}

/-- A stretch of a text starts at a place in it. -/
lemma first (encloses : s.Encloses source text) : s.first.PlacedIn source := by
  obtain ⟨front, rest, whole, rfl⟩ := encloses
  exact ⟨front, text ++ rest, whole, rfl⟩

/-- A stretch of a text stops at a place in it. -/
lemma stop (encloses : s.Encloses source text) : s.stop.PlacedIn source := by
  obtain ⟨front, rest, whole, rfl⟩ := encloses
  exact ⟨front ++ text, rest, by rw [whole, List.append_assoc], rfl⟩

/-- The span of a stretch has as many bytes as the stretch. -/
lemma covers (encloses : s.Encloses source text) : s.Covers s.first.offset text := by
  obtain ⟨front, rest, whole, rfl⟩ := encloses
  exact ⟨rfl, String.utf8Len_append ..⟩

/-- The span of a stretch cuts it out. -/
lemma slice (encloses : s.Encloses source text) : s.slice source = .ofList text := by
  obtain ⟨front, rest, whole, rfl⟩ := encloses
  rw [← String.ofList_toList (s := source), whole]
  exact Covers.slice_eq ⟨rfl, String.utf8Len_append ..⟩ rest

end Encloses

end Span

/-! ## Pieces -/

namespace Piece

variable {p : Piece} {s : Span} {source : String}

/-- A piece is placed where it stands among the others. -/
lemma exists_of_mem_place {l : Location} {ps : List Piece} (mem : (p, s) ∈ place l ps) :
    ∃ front rest, ps.flatMap text = front ++ (p.text ++ rest) ∧
      s = ⟨l.after front, l.after (front ++ p.text)⟩ := by
  induction ps generalizing l with
  | nil => cases mem
  | cons q ps ih =>
    obtain here | later := List.mem_cons.1 mem
    · cases here
      exact ⟨[], ps.flatMap text, List.flatMap_cons, rfl⟩
    · obtain ⟨front, rest, whole, rfl⟩ := ih later
      refine ⟨q.text ++ front, rest, ?_, ?_⟩
      · rw [List.flatMap_cons, whole, List.append_assoc]
      · rw [List.append_assoc, Location.after_append l q.text, Location.after_append l q.text]

/-- The pieces of a text enclose their own. -/
lemma encloses_of_mem (mem : (p, s) ∈ place .start (split source.toList)) :
    s.Encloses source p.text := by
  obtain ⟨front, rest, whole, rfl⟩ := exists_of_mem_place mem
  rw [flatMap_text_split] at whole
  refine ⟨front, rest, whole, ?_⟩
  rw [Location.after_start, Location.after_start]

/-- A token has the span of its piece. -/
lemma span_of_token? {t : Token} (token : p.token? s = some t) : t.span = s := by
  cases p with
  | word run =>
    rw [token?] at token
    split at token
    · cases token
    · cases token
      rfl
  | digits | string | symbol =>
    cases token
    rfl
  | _ => cases token

end Piece

/-- The fault is about the piece: about what it is by itself, or about a partner it has not got. -/
inductive LexicalFault.Blames : LexicalFault → Piece → Prop where
  | own (fault : p.fault? = some f) : Blames f p
  | closer (d : Delimiter) : Blames (.unmatchedCloser d) (.symbol d.closer)
  | opener (d : Delimiter) : Blames (.unclosedOpener d) (.symbol d.opener)

/-- A fault quotes its piece, an open string without the returns at its end. -/
lemma LexicalFault.Blames.text {f : LexicalFault} {p : Piece} (blames : f.Blames p) :
    ∃ returns, p.text = f.lexeme.toList ++ .replicate returns '\r' ∧
      (f.kind ≠ .unterminatedString → returns = 0) := by
  cases blames with
  | closer d | opener d => exact ⟨0, by cases d <;> rfl, fun _ => rfl⟩
  | own fault =>
    cases p with
    | word run =>
      rw [Piece.fault?] at fault
      split at fault
      · cases fault
        exact ⟨0, by simp [Piece.text, lexeme], fun _ => rfl⟩
      · cases fault
    | openString body =>
      cases fault
      obtain ⟨returns, whole⟩ := Piece.eq_dropReturns_append ('"' :: body)
      refine ⟨returns, ?_, fun other => absurd rfl other⟩
      rw [lexeme, String.toList_ofList]
      exact whole
    | foreign c =>
      cases fault
      exact ⟨0, by simp [Piece.text, lexeme], fun _ => rfl⟩
    | _ => cases fault

namespace Openers

variable {o o' : Openers} {s : Symbol} {span opening : Span} {d d' : Delimiter}

/-- A delimiter is opened among those of its sort. -/
lemma of_push : (o.push d span).of d' = if d' = d then span :: o.of d' else o.of d' := by
  cases d <;> cases d' <;> rfl

/-- A delimiter is closed among those of its sort. -/
lemma of_pop : (o.pop d).of d' = if d' = d then (o.of d').tail else o.of d' := by
  cases d <;> cases d' <;> rfl

/-- A symbol that has no partner is to blame for the error that says so. -/
lemma blames_of_next {f : LexicalFault} (next : o.next s span = (o', some f)) :
    f.Blames (.symbol s) := by
  cases s with
  | rbrace | rbracket =>
    simp only [Openers.next, Openers.next.close] at next
    split at next
    · cases next
      exact .closer _
    · cases next
  | _ => cases next

/-- What is open after a symbol was open before it, or is opened by it. -/
lemma mem_of_next {fault : Option LexicalFault} (next : o.next s span = (o', fault))
    (mem : opening ∈ o'.of d) : opening ∈ o.of d ∨ s = d.opener ∧ opening = span := by
  cases s with
  | lbrace | lbracket =>
    cases next
    rw [of_push] at mem
    split at mem
    · next same =>
      obtain here | before := List.mem_cons.1 mem
      · exact .inr ⟨by rw [same]; rfl, here⟩
      · exact .inl before
    · exact .inl mem
  | rbrace | rbracket =>
    simp only [Openers.next, Openers.next.close] at next
    split at next
    · cases next
      exact .inl mem
    · cases next
      rw [of_pop] at mem
      split at mem
      · exact .inl (List.mem_of_mem_tail mem)
      · exact .inl mem
  | colon | comma | dash =>
    cases next
    exact .inl mem

/-- At the end, errors are about delimiters that are open. -/
lemma exists_of_mem_faults {f : LexicalFault × Span} (mem : f ∈ o.faults) :
    ∃ d, f.1 = .unclosedOpener d ∧ f.2 ∈ o.of d := by
  obtain brace | bracket := List.mem_append.1 mem
  · obtain ⟨s, here, rfl⟩ := List.mem_map.1 brace
    exact ⟨.brace, rfl, here⟩
  · obtain ⟨s, here, rfl⟩ := List.mem_map.1 bracket
    exact ⟨.bracket, rfl, here⟩

end Openers

/-- The fault is about one of the pieces, or about a delimiter that was opened before them. -/
def Openers.Explains (o : Openers) (placed : List (Piece × Span)) (f : LexicalFault × Span) :
    Prop :=
  (∃ p, (p, f.2) ∈ placed ∧ f.1.Blames p) ∨ ∃ d, f.1 = .unclosedOpener d ∧ f.2 ∈ o.of d

namespace Openers.Explains

variable {o o' : Openers} {first : Piece × Span} {placed : List (Piece × Span)}
  {f : LexicalFault × Span}

/-- An error about later pieces is one about all. -/
lemma cons (explained : o.Explains placed f) : o.Explains (first :: placed) f := by
  obtain ⟨p, here, blames⟩ | before := explained
  · exact .inl ⟨p, List.mem_cons_of_mem _ here, blames⟩
  · exact .inr before

/-- What is open behind a symbol may have been opened by it. -/
lemma symbol {s : Symbol} {span : Span} {fault : Option LexicalFault}
    (next : o.next s span = (o', fault)) (explained : o'.Explains placed f) :
    o.Explains ((.symbol s, span) :: placed) f := by
  obtain ⟨p, here, blames⟩ | ⟨d, unclosed, opened⟩ := explained
  · exact .inl ⟨p, List.mem_cons_of_mem _ here, blames⟩
  · obtain before | ⟨rfl, rfl⟩ := mem_of_next next opened
    · exact .inr ⟨d, unclosed, before⟩
    · exact .inl ⟨_, List.mem_cons_self, unclosed ▸ .opener d⟩

end Openers.Explains

/-- Each lexical error is about a piece or about what was open before. -/
lemma explains_of_mem_lexicalFaults {o : Openers} {placed : List (Piece × Span)}
    {f : LexicalFault × Span} (mem : f ∈ lexicalFaults o placed) : o.Explains placed f := by
  fun_induction lexicalFaults o placed with
  | case1 o => exact .inr (Openers.exists_of_mem_faults mem)
  | case2 o s span rest o' fault next ih =>
    obtain rfl | later := List.mem_cons.1 mem
    · exact .inl ⟨_, List.mem_cons_self, Openers.blames_of_next next⟩
    · exact .symbol next (ih later)
  | case3 o s span rest o' next ih => exact .symbol next (ih mem)
  | case4 o p span rest notSymbol fault found ih =>
    obtain rfl | later := List.mem_cons.1 mem
    · exact .inl ⟨p, List.mem_cons_self, .own found⟩
    · exact (ih later).cons
  | case5 o p span rest notSymbol found ih => exact (ih mem).cons

/-! ## Tokens and errors -/

section Lexed

variable {source : String}

/-- A token stands where its piece does. -/
lemma encloses_of_mem_tokens {t : Token} (mem : t ∈ (tokenize source).tokens) :
    ∃ p : Piece, t.span.Encloses source p.text := by
  obtain ⟨⟨p, s⟩, placed, token⟩ := List.mem_filterMap.1 mem
  rw [Piece.span_of_token? token]
  exact ⟨p, Piece.encloses_of_mem placed⟩

/-- Every lexical error is about the piece that its span encloses. -/
lemma blames_of_mem_errors {e : LexicalError} (mem : e ∈ (tokenize source).errors) :
    ∃ p, e.span.Encloses source p.text ∧ e.fault.Blames p := by
  obtain ⟨⟨f, n⟩, numbered, rfl⟩ := List.mem_map.1 mem
  have found := List.fst_mem_of_mem_zipIdx numbered
  obtain ⟨p, placed, blames⟩ | ⟨d, -, opened⟩ := explains_of_mem_lexicalFaults found
  · exact ⟨p, Piece.encloses_of_mem placed, blames⟩
  · cases d <;> cases opened

/-- The spans of all tokens and of all errors. -/
def Lexed.spans (l : Lexed) : List Span := l.tokens.map (·.span) ++ l.errors.map (·.span)

/-- Tokens and errors have the spans of stretches of the text. -/
lemma encloses_of_mem_spans {s : Span} (mem : s ∈ (tokenize source).spans) :
    ∃ text, s.Encloses source text := by
  obtain token | misread := List.mem_append.1 mem
  · obtain ⟨t, found, rfl⟩ := List.mem_map.1 token
    obtain ⟨p, encloses⟩ := encloses_of_mem_tokens found
    exact ⟨_, encloses⟩
  · obtain ⟨e, found, rfl⟩ := List.mem_map.1 misread
    obtain ⟨p, encloses, -⟩ := blames_of_mem_errors found
    exact ⟨_, encloses⟩

end Lexed

/-- **Every reported place is right.** Both ends of every token and of every lexical error of a text
are between two of its characters and are the places at their offsets. Their lines and columns are
no larger than the number of characters allows, and the span of an opener that is never closed is
that of one character. -/
theorem tokenize_placed (source : String) :
    (∀ s ∈ (tokenize source).spans, ∀ l ∈ [s.first, s.stop],
      l.PlacedIn source ∧ String.Pos.Raw.IsValid source ⟨l.offset⟩ ∧
        l.offset ≤ source.utf8ByteSize ∧ l.line ≤ source.length + 1 ∧
        l.column ≤ source.length + 1) ∧
    ∀ e ∈ (tokenize source).errors, ∀ d, e.fault = .unclosedOpener d →
      e.span.stop = ⟨e.span.first.offset + 1, e.span.first.line, e.span.first.column + 1⟩ := by
  refine ⟨fun s mem l isEnd => ?places, fun e mem d unclosed => ?opener⟩
  case places =>
    obtain ⟨text, encloses⟩ := encloses_of_mem_spans mem
    have placed : l.PlacedIn source := by
      simp only [List.mem_cons, List.not_mem_nil, or_false] at isEnd
      obtain rfl | rfl := isEnd
      · exact encloses.first
      · exact encloses.stop
    exact ⟨placed, placed.isValid, placed.offset_le, placed.line_le, placed.column_le⟩
  case opener =>
    obtain ⟨p, ⟨front, rest, whole, span⟩, blames⟩ := blames_of_mem_errors mem
    rw [unclosed] at blames
    cases blames with
    | own fault => cases p <;> simp [Piece.fault?] at fault
    | opener d =>
      rw [span, Piece.text, Location.behind_concat]
      cases d <;> rfl

end Knockout
