import Knockout.Proofs.Lexing.Pieces
import Knockout.Token.Lexed
import Mathlib.Data.String.Basic

/-!
# Tokens tile the text

`Tiles` says, without speaking of pieces, what reading a text from left to right has to find: every
character belongs to one blank, one token or one error, each starts at the byte where the one before
it has stopped, its first character says what it is, and it takes all the characters that may belong
to it. The main statement is `tokenize_tiles`: the tokens of a text and the errors that are not
about delimiters tile it, and every token is written in the text where its span says.
-/

namespace Knockout

open Text

/-- A span of a stretch of text that starts after so many bytes. -/
structure Span.Covers (s : Span) (offset : Nat) (text : List Char) : Prop where
  first : s.first.offset = offset
  stop : s.stop.offset = offset + String.utf8Len text

/-- Reading from left to right, from one byte offset to another: the text, its tokens, and its
errors with their spans. -/
inductive Tiles : Nat → List Char → List Token → List (LexicalFault × Span) → Nat → Prop where
  | done : Tiles n [] [] [] n
  | blank (first : isBlank c = true) (more : Tiles (n + c.utf8Size) rest ts fs stop) :
    Tiles n (c :: rest) ts fs stop
  | word (first : isLetter c = true) (run : ∀ d ∈ cs, isWordChar d = true)
    (longest : Ends isWordChar rest) (noDigit : ∀ d ∈ c :: cs, d.isDigit = false)
    (kind : t.kind = .ofWord (.ofList (c :: cs))) (lexeme : t.lexeme = .ofList (c :: cs))
    (span : t.span.Covers n (c :: cs)) (more : Tiles t.span.stop.offset rest ts fs stop) :
    Tiles n (c :: cs ++ rest) (t :: ts) fs stop
  | digitInWord (first : isLetter c = true) (run : ∀ d ∈ cs, isWordChar d = true)
    (longest : Ends isWordChar rest) (digit : ∃ d ∈ c :: cs, d.isDigit = true)
    (kind : f.kind = .invalidToken) (lexeme : f.lexeme = .ofList (c :: cs))
    (span : s.Covers n (c :: cs)) (more : Tiles s.stop.offset rest ts fs stop) :
    Tiles n (c :: cs ++ rest) ts ((f, s) :: fs) stop
  | number (first : c.isDigit = true) (run : ∀ d ∈ cs, d.isDigit = true)
    (longest : Ends Char.isDigit rest) (kind : t.kind = .number)
    (lexeme : t.lexeme = .ofList (c :: cs)) (span : t.span.Covers n (c :: cs))
    (more : Tiles t.span.stop.offset rest ts fs stop) : Tiles n (c :: cs ++ rest) (t :: ts) fs stop
  | string (body : ∀ d ∈ cs, d ≠ '"' ∧ d ≠ '\n') (kind : t.kind = .string)
    (lexeme : t.lexeme = .ofList cs) (span : t.span.Covers n ('"' :: cs ++ ['"']))
    (more : Tiles t.span.stop.offset rest ts fs stop) :
    Tiles n ('"' :: cs ++ ['"'] ++ rest) (t :: ts) fs stop
  | openString (body : ∀ d ∈ cs, d ≠ '"' ∧ d ≠ '\n') (ends : rest = [] ∨ rest.head? = some '\n')
    (kind : f.kind = .unterminatedString)
    (lexeme : '"' :: cs = f.lexeme.toList ++ .replicate returns '\r')
    (trimmed : f.lexeme.toList.getLast? ≠ some '\r') (span : s.Covers n ('"' :: cs))
    (more : Tiles s.stop.offset rest ts fs stop) :
    Tiles n ('"' :: cs ++ rest) ts ((f, s) :: fs) stop
  | symbol (kind : t.kind = .symbol y) (lexeme : t.lexeme = y.char.toString)
    (span : t.span.Covers n [y.char]) (more : Tiles t.span.stop.offset rest ts fs stop) :
    Tiles n (y.char :: rest) (t :: ts) fs stop
  | foreign (notBlank : isBlank c = false) (notLetter : isLetter c = false)
    (notDigit : c.isDigit = false) (notQuote : c ≠ '"') (notSymbol : ∀ y : Symbol, c ≠ y.char)
    (kind : f.kind = .invalidToken) (lexeme : f.lexeme = c.toString) (span : s.Covers n [c])
    (more : Tiles s.stop.offset rest ts fs stop) : Tiles n (c :: rest) ts ((f, s) :: fs) stop

/-- A token as it is written in a text: strings have their quotes. -/
def Token.written (t : Token) : String :=
  if t.kind = .string then "\"" ++ t.lexeme ++ "\"" else t.lexeme

/-- A token that is no string is written as its lexeme. -/
lemma Token.written_of_ne {t : Token} (notString : t.kind ≠ .string) : t.written = t.lexeme :=
  if_neg notString

/-- The part of a text between two byte offsets. -/
def Span.slice (s : Span) (source : String) : String :=
  String.Pos.Raw.extract source ⟨s.first.offset⟩ ⟨s.stop.offset⟩

/-! ## Pieces tile -/

/-- Characters move the offset by their bytes. -/
lemma Location.after_offset (l : Location) (cs : List Char) :
    (l.after cs).offset = l.offset + String.utf8Len cs := by
  induction cs generalizing l with
  | nil => rfl
  | cons c cs ih =>
    rw [after_cons, ih, advance_offset, String.utf8Len_cons]
    omega

/-- From before some characters to behind them is their span. -/
lemma Span.covers_after (l : Location) (cs : List Char) :
    Span.Covers ⟨l, l.after cs⟩ l.offset cs :=
  ⟨rfl, l.after_offset cs⟩

/-- A text is its part without returns at the end, and the returns. -/
lemma Piece.eq_dropReturns_append (cs : List Char) :
    ∃ returns, cs = dropReturns cs ++ .replicate returns '\r' := by
  have ends := List.takeWhile_append_dropWhile (p := (· == '\r')) (l := cs.reverse)
  have returns : cs.reverse.takeWhile (· == '\r') =
      .replicate (cs.reverse.takeWhile (· == '\r')).length '\r' := by
    refine List.eq_replicate_iff.2 ⟨rfl, fun c mem => ?_⟩
    simpa using List.mem_takeWhile_imp mem
  have whole := congrArg List.reverse ends
  rw [List.reverse_append, List.reverse_reverse, returns, List.reverse_replicate] at whole
  exact ⟨_, whole.symm⟩

/-- No carriage return is left at the end. -/
lemma Piece.getLast?_dropReturns (cs : List Char) : (dropReturns cs).getLast? ≠ some '\r' := by
  rw [dropReturns, List.getLast?_reverse]
  intro last
  have stop := ends_dropWhile (· == '\r') cs.reverse '\r' last
  cases stop

/-- An error about a symbol is one about balance. -/
lemma Openers.kind_of_next {o o' : Openers} {s : Symbol} {span : Span} {f : LexicalFault}
    (next : o.next s span = (o', some f)) : f.kind = .unbalancedDelimiter := by
  cases s with
  | rbrace | rbracket =>
    simp only [Openers.next, Openers.next.close] at next
    split at next
    · cases next; rfl
    · cases next
  | _ => cases next

/-- An error about what is open at the end is one about balance. -/
lemma Openers.kind_of_mem_faults {o : Openers} :
    ∀ f ∈ o.faults, f.1.kind = .unbalancedDelimiter := by
  intro f mem
  obtain brace | bracket := List.mem_append.1 mem
  · obtain ⟨s, -, rfl⟩ := List.mem_map.1 brace
    rfl
  · obtain ⟨s, -, rfl⟩ := List.mem_map.1 bracket
    rfl

/-- An error about a piece by itself is not about balance. -/
lemma Piece.kind_of_fault? {p : Piece} {f : LexicalFault} (fault : p.fault? = some f) :
    f.kind ≠ .unbalancedDelimiter := by
  cases p with
  | word run =>
    simp only [fault?] at fault
    split at fault
    · cases fault
      exact nofun
    · cases fault
  | openString body =>
    cases fault
    exact nofun
  | foreign c =>
    cases fault
    exact nofun
  | _ => cases fault

/-- Delimiters apart, a text has the faults of its pieces. -/
lemma filter_lexicalFaults (o : Openers) (placed : List (Piece × Span)) :
    (lexicalFaults o placed).filter (fun f => f.1.kind != .unbalancedDelimiter) =
      placed.filterMap fun p => p.1.fault?.map (·, p.2) := by
  fun_induction lexicalFaults o placed with
  | case1 o =>
    refine List.filter_eq_nil_iff.2 fun f mem => ?_
    simp [o.kind_of_mem_faults f mem]
  | case2 o s span rest o' fault next ih =>
    simpa [Openers.kind_of_next next, Piece.fault?] using ih
  | case3 o s span rest o' next ih => simpa [Piece.fault?] using ih
  | case4 o p span rest _ fault found ih => simpa [Piece.kind_of_fault? found, found] using ih
  | case5 o p span rest _ found ih => simpa [found] using ih

/-- Whole pieces that follow one another tile their text. -/
lemma tiles_of_parts {cs : List Char} {ps : List Piece} (parts : Piece.Parts cs ps)
    (l : Location) :
    Tiles l.offset cs ((Piece.place l ps).filterMap fun p => p.1.token? p.2)
      ((Piece.place l ps).filterMap fun p => p.1.fault?.map (·, p.2))
      (l.offset + String.utf8Len cs) := by
  induction parts generalizing l with
  | nil => exact .done
  | @cons rest ps p leads more ih =>
    -- the tile of the first piece ends where the other pieces are placed
    have next := ih (l.after p.text)
    rw [String.utf8Len_append, ← Nat.add_assoc, ← Location.after_offset]
    have span := Span.covers_after l p.text
    cases leads with
    | @blank c _ first =>
      refine .blank first ?_
      rw [← Location.advance_offset]
      exact next
    | @word c cs _ first run ends =>
      by_cases digit : (c :: cs).any Char.isDigit = true
      · simp only [Piece.place, List.filterMap_cons, Piece.token?, Piece.fault?, digit, if_true]
        exact .digitInWord first run ends (List.any_eq_true.1 digit) rfl rfl span next
      · simp only [Piece.place, List.filterMap_cons, Piece.token?, Piece.fault?, digit]
        have noDigit : ∀ d ∈ c :: cs, d.isDigit = false := by simpa using digit
        exact .word first run ends noDigit rfl rfl span next
    | digits first run ends => exact .number first run ends rfl rfl span next
    | @string cs _ body =>
      have body : ∀ d ∈ cs, d ≠ '"' ∧ d ≠ '\n' := by simpa [Piece.isStringChar] using body
      exact .string body rfl rfl span next
    | @openString cs _ body ends =>
      have body : ∀ d ∈ cs, d ≠ '"' ∧ d ≠ '\n' := by simpa [Piece.isStringChar] using body
      obtain ⟨returns, whole⟩ := Piece.eq_dropReturns_append ('"' :: cs)
      have trimmed := Piece.getLast?_dropReturns ('"' :: cs)
      rw [← String.toList_ofList (l := Piece.dropReturns _)] at whole trimmed
      exact .openString body ends rfl whole trimmed span next
    | symbol => exact .symbol rfl rfl span next
    | foreign notBlank notLetter notDigit notQuote notSymbol =>
      refine .foreign notBlank notLetter notDigit notQuote (fun y same => ?_) rfl rfl span next
      rw [Symbol.ofChar?_eq_some_iff.2 same] at notSymbol
      cases notSymbol

/-! ## Tokens in their text -/

/-- Words have the kinds of identifiers and of reserved words. -/
lemma Kind.ofWord_of_listed {P : Kind → Prop} (identifier : P .identifier)
    (listed : ∀ w ∈ vocabulary, P w.2) (word : String) : P (ofWord word) := by
  rw [ofWord]
  cases found : vocabulary.lookup word with
  | none => exact identifier
  | some k =>
    obtain ⟨before, after, split, -⟩ := List.lookup_eq_some_iff.1 found
    exact listed (word, k) (by simp [split])

/-- A word is no string. -/
lemma Kind.ofWord_ne_string (word : String) : ofWord word ≠ .string := by
  have listed : ∀ w ∈ vocabulary, w.2 ≠ .string := by decide
  exact ofWord_of_listed (P := (· ≠ .string)) nofun listed word

namespace Span.Covers

variable {s : Span} {pre text : List Char}

/-- A span of a stretch of a text cuts this stretch out. -/
lemma slice_eq (covers : s.Covers (String.utf8Len pre) text) (post : List Char) :
    s.slice (.ofList (pre ++ (text ++ post))) = .ofList text := by
  rw [slice, covers.first, covers.stop, ← List.append_assoc]
  exact String.extract_of_valid pre text post

/-- A span stops as many bytes in as the text in front of it and its own have. -/
lemma stop_eq (covers : s.Covers (String.utf8Len pre) text) :
    s.stop.offset = String.utf8Len (pre ++ text) := by
  rw [covers.stop, String.utf8Len_append]

end Span.Covers

/-- Tokens are written where their spans say, and the text they come from starts after others. -/
def WrittenAfter (ts : List Token) (pre cs : List Char) : Prop :=
  ∀ t ∈ ts, t.span.slice (.ofList (pre ++ cs)) = t.written

/-- A token is written before the others where its span says so. -/
lemma WrittenAfter.cons {t : Token} {ts : List Token} {pre text rest : List Char}
    (span : t.span.Covers (String.utf8Len pre) text) (writes : t.written = .ofList text)
    (more : WrittenAfter ts (pre ++ text) rest) : WrittenAfter (t :: ts) pre (text ++ rest) := by
  refine List.forall_mem_cons.2 ⟨?_, ?_⟩
  · rw [span.slice_eq, writes]
  · rwa [WrittenAfter, List.append_assoc] at more

/-- In a text that is tiled, every token is written where its span says. -/
lemma Tiles.writtenAfter {n stop : Nat} {cs : List Char} {ts : List Token}
    {fs : List (LexicalFault × Span)} (tiles : Tiles n cs ts fs stop) (pre : List Char)
    (start : n = String.utf8Len pre) : WrittenAfter ts pre cs := by
  -- the text read so far grows by the stretch of each tile
  induction tiles generalizing pre with
  | done => exact nofun
  | @blank c n rest ts fs stop first more ih =>
    subst start
    have behind := ih (pre ++ [c]) (by simp)
    rwa [WrittenAfter, List.append_assoc] at behind
  | word first run longest noDigit kind lexeme span more ih =>
    subst start
    have written := Token.written_of_ne (by rw [kind]; exact Kind.ofWord_ne_string _)
    exact .cons span (written.trans lexeme) (ih _ span.stop_eq)
  | number first run longest kind lexeme span more ih =>
    subst start
    have written := Token.written_of_ne (by rw [kind]; exact nofun)
    exact .cons span (written.trans lexeme) (ih _ span.stop_eq)
  | string body kind lexeme span more ih =>
    subst start
    refine .cons span ?_ (ih _ span.stop_eq)
    rw [Token.written, if_pos kind, lexeme, String.ofList_append, String.ofList_cons]
    rfl
  | @symbol rest ts fs stop n t y kind lexeme span more ih =>
    subst start
    have written := Token.written_of_ne (by rw [kind]; exact nofun)
    rw [lexeme, Char.toString_eq_singleton, String.singleton_eq_ofList] at written
    show WrittenAfter (t :: ts) pre ([y.char] ++ rest)
    exact .cons span written (ih _ span.stop_eq)
  | digitInWord first run longest digit kind lexeme span more ih
  | openString body ends kind lexeme trimmed span more ih
  | foreign notBlank notLetter notDigit notQuote notSymbol kind lexeme span more ih =>
    subst start
    have behind := ih _ span.stop_eq
    rwa [WrittenAfter, List.append_assoc] at behind

/-- The errors of a text that are not about delimiters, with their places. -/
def Lexed.misreadings (l : Lexed) : List (LexicalFault × Span) :=
  (l.errors.filter fun e => e.fault.kind != .unbalancedDelimiter).map fun e => (e.fault, e.span)

/-- Delimiters apart, a text has the errors of its pieces. -/
lemma misreadings_tokenize (source : String) :
    (tokenize source).misreadings = (Piece.place .start (Piece.split source.toList)).filterMap
      fun p => p.1.fault?.map (·, p.2) := by
  rw [← filter_lexicalFaults {}, ← List.zipIdx_map_fst 1 (lexicalFaults {} _), List.filter_map,
    Lexed.misreadings, tokenize, List.filter_map, List.map_map]
  rfl

/-- Every token of a text is written where its span says. -/
lemma slice_of_mem_tokens {source : String} {t : Token} (mem : t ∈ (tokenize source).tokens) :
    t.span.slice source = t.written := by
  have tiles := tiles_of_parts (Piece.parts_split source.toList) .start
  have written := tiles.writtenAfter [] rfl
  rw [WrittenAfter, List.nil_append, String.ofList_toList] at written
  exact written t mem

/-- The tokens of a text and its errors, those about delimiters apart, tile the text from its first
byte to its end, and every token is written where its span says. -/
theorem tokenize_tiles (source : String) :
    Tiles 0 source.toList (tokenize source).tokens
      (((tokenize source).errors.filter fun e => e.fault.kind != .unbalancedDelimiter).map
        fun e => (e.fault, e.span)) source.utf8ByteSize ∧
    ∀ t ∈ (tokenize source).tokens, t.span.slice source = t.written := by
  have tiles := tiles_of_parts (Piece.parts_split source.toList) .start
  rw [Location.start, Nat.zero_add, String.utf8Len_toList, ← Location.start,
    ← misreadings_tokenize] at tiles
  exact ⟨tiles, fun _ => slice_of_mem_tokens⟩

end Knockout
