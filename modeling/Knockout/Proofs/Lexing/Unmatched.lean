import Knockout.Proofs.Lexing.Essence
import Knockout.Proofs.Lexing.Matching
import Knockout.Proofs.Lexing.Places

/-!
# Unmatched delimiters

What is wrong with a text comes to light in two steps: while its pieces are read (`Openers.found`),
and at the end, where some openers are left. Each sort of delimiters is tracked by itself on the way
(`Openers.of_foldl_read`), so the errors about delimiters are those of the unmatched ones, one for
each. Pieces start one behind the other, which settles the order of the errors. The main statement
is `tokenize_unmatched`.
-/

namespace Knockout

/-! ## Reading pieces -/

/-- A piece adds its token, if it gives one. -/
lemma Lexed.tokens_ofPieces_cons (p : Piece) (s : Span) (placed : List (Piece × Span)) :
    (ofPieces ((p, s) :: placed)).tokens = (p.token? s).toList ++ (ofPieces placed).tokens := by
  simp only [ofPieces, List.filterMap_cons]
  cases p.token? s <;> rfl

namespace Openers

variable {o : Openers} {d : Delimiter}

/-- At the start nothing is open. -/
lemma of_empty (d : Delimiter) : of {} d = [] := by
  cases d <;> rfl

/-- What is open after one more piece. -/
def read (o : Openers) (p : Piece × Span) : Openers :=
  match p.1.symbol? with
  | some y => (o.next y p.2).1
  | none => o

/-- What comes to light with one more piece. -/
def fault? (o : Openers) (p : Piece × Span) : Option LexicalFault :=
  match p.1.symbol? with
  | some y => (o.next y p.2).2
  | none => p.1.fault?

/-- What comes to light while pieces are read. -/
def found (o : Openers) : List (Piece × Span) → List (LexicalFault × Span)
  | [] => []
  | p :: placed => ((o.fault? p).map (·, p.2)).toList ++ (o.read p).found placed

/-- Lexical errors are those found on the way and then those about what is left open. -/
lemma lexicalFaults_eq (o : Openers) (placed : List (Piece × Span)) :
    lexicalFaults o placed = o.found placed ++ (placed.foldl read o).faults := by
  induction placed generalizing o with
  | nil => rfl
  | cons first placed ih =>
    obtain ⟨p, s⟩ := first
    rw [found, List.foldl_cons, List.append_assoc, ← ih]
    cases symbol : p.symbol? with
    | some y =>
      obtain rfl := Piece.eq_of_symbol? symbol
      exact lexicalFaults_symbol y
    | none =>
      rw [lexicalFaults_of_ne symbol, fault?, read, symbol]

/-- Closing takes away the latest opener of its sort. -/
lemma of_close (o : Openers) (d d' : Delimiter) :
    (next.close o d').1.of d = if d = d' then (o.of d).tail else o.of d := by
  unfold next.close
  split
  · next empty =>
    split
    · next same => rw [same, List.isEmpty_iff.1 empty, List.tail_nil]
    · rfl
  · exact of_pop

/-- Each sort of delimiters is tracked by itself. -/
lemma of_next {y : Symbol} {t : Token} (kind : t.kind = .symbol y) (o : Openers) (d : Delimiter) :
    (o.next y t.span).1.of d = d.track (o.of d) t := by
  cases y with
  | lbrace | lbracket => exact of_push.trans (Delimiter.track_opener_of kind).symm
  | rbrace | rbracket => exact (of_close o d _).trans (Delimiter.track_closer_of kind).symm
  | colon | comma | dash =>
    refine (Delimiter.track_other ?_ ?_).symm <;> rw [kind] <;> cases d <;> exact nofun

/-- A piece opens and closes what its token does. -/
lemma of_read (o : Openers) (p : Piece) (s : Span) (d : Delimiter) :
    (o.read (p, s)).of d = (p.token? s).toList.foldl d.track (o.of d) := by
  have symbol := p.symbol?_token? s
  rw [read, ← symbol]
  cases token : p.token? s with
  | none => rfl
  | some t =>
    rw [Option.bind_some, ← Piece.span_of_token? token]
    cases kind : t.kind with
    | symbol y => exact of_next kind o d
    | _ => refine (Delimiter.track_other ?_ ?_).symm <;> rw [kind] <;> exact nofun

/-- Pieces open and close what their tokens do. -/
lemma of_foldl_read (o : Openers) (placed : List (Piece × Span)) (d : Delimiter) :
    (placed.foldl read o).of d =
      (Lexed.ofPieces placed).tokens.foldl d.track (o.of d) := by
  induction placed generalizing o with
  | nil => rfl
  | cons first placed ih =>
    rw [List.foldl_cons, ih, of_read, ← List.foldl_append, Lexed.tokens_ofPieces_cons]

/-- The error about a symbol is that it closes nothing. -/
lemma exists_of_next {y : Symbol} {s : Span} {f : LexicalFault} (fault : (o.next y s).2 = some f) :
    ∃ d, f = .unmatchedCloser d := by
  cases y with
  | rbrace | rbracket =>
    simp only [next, next.close] at fault
    split at fault
    · cases fault
      exact ⟨_, rfl⟩
    · cases fault
  | _ => cases fault

/-- A symbol is an unmatched closer exactly when it closes and nothing of its sort is open. -/
lemma next_eq_unmatchedCloser_iff {y : Symbol} {s : Span} :
    (o.next y s).2 = some (.unmatchedCloser d) ↔ y = d.closer ∧ o.of d = [] := by
  cases y <;> cases d <;>
    simp [next, next.close, Delimiter.closer, of, apply_ite Prod.snd]

/-- What comes to light with a piece is a closer of a sort exactly when the piece is that closer and
nothing of the sort is open. -/
lemma fault?_eq_unmatchedCloser_iff {p : Piece} {s : Span} :
    o.fault? (p, s) = some (.unmatchedCloser d) ↔
      (∃ t ∈ p.token? s, t.kind = .symbol d.closer) ∧ o.of d = [] := by
  have own : p.fault? ≠ some (.unmatchedCloser d) := fun fault => Piece.kind_of_fault? fault rfl
  have symbol := p.symbol?_token? s
  rw [fault?, ← symbol]
  cases token : p.token? s with
  | none => simp [own]
  | some t =>
    cases kind : t.kind with
    | symbol y => simp [kind, Kind.symbol?, next_eq_unmatchedCloser_iff]
    | _ => simp [kind, Kind.symbol?, own]

/-- An error is found at the first piece or later. -/
lemma mem_found_cons {f : LexicalFault × Span} {p : Piece × Span} {placed : List (Piece × Span)} :
    f ∈ o.found (p :: placed) ↔
      (o.fault? p = some f.1 ∧ p.2 = f.2) ∨ f ∈ (o.read p).found placed := by
  obtain ⟨f, s⟩ := f
  simp [found]

/-- While pieces are read, a closer comes to light when nothing of its sort is open. -/
lemma unmatchedCloser_mem_found_iff {s : Span} {placed : List (Piece × Span)} :
    (.unmatchedCloser d, s) ∈ o.found placed ↔
      d.Strays (o.of d) (Lexed.ofPieces placed).tokens s := by
  induction placed generalizing o with
  | nil => exact iff_of_false List.not_mem_nil Delimiter.not_strays_nil
  | cons first placed ih =>
    obtain ⟨p, s'⟩ := first
    rw [mem_found_cons, ih, fault?_eq_unmatchedCloser_iff, of_read, Lexed.tokens_ofPieces_cons]
    cases token : p.token? s' with
    | none => simp
    | some t =>
      obtain rfl := Piece.span_of_token? token
      rw [Option.toList_some, List.singleton_append, Delimiter.strays_cons]
      simp [and_assoc, and_comm (a := o.of d = [])]

/-- Nothing else about delimiters comes to light while pieces are read. -/
lemma kind_of_mem_found {f : LexicalFault × Span} {placed : List (Piece × Span)}
    (mem : f ∈ o.found placed) (delimiter : f.1.kind = .unbalancedDelimiter) :
    ∃ d, f.1 = .unmatchedCloser d := by
  induction placed generalizing o with
  | nil => cases mem
  | cons first placed ih =>
    obtain ⟨here, -⟩ | later := mem_found_cons.1 mem
    · rw [fault?] at here
      split at here
      · exact exists_of_next here
      · exact absurd delimiter (Piece.kind_of_fault? here)
    · exact ih later

/-- Errors are found in the order of the pieces, at most one at each. -/
lemma map_snd_found (o : Openers) (placed : List (Piece × Span)) :
    ((o.found placed).map (·.2)).Sublist (placed.map (·.2)) := by
  induction placed generalizing o with
  | nil => exact .slnil
  | cons p placed ih =>
    rw [found, List.map_append, List.map_cons]
    cases o.fault? p with
    | none => exact (ih _).cons _
    | some f => exact (ih _).cons_cons _

end Openers

/-! ## The order of the text -/

namespace Piece

/-- No piece is empty. -/
lemma length_text_pos (cs : List Char) : ∀ p ∈ split cs, 0 < p.text.length := by
  fun_induction split cs with
  | case1 => exact fun _ mem => absurd mem List.not_mem_nil
  | case2 c cs ih => exact List.forall_mem_cons.2 ⟨length_text_first_pos c cs, ih⟩

/-- A piece that is not empty stops behind its start. -/
lemma offset_lt_after (l : Location) (p : Piece) (text : 0 < p.text.length) :
    l.offset < (l.after p.text).offset := by
  obtain ⟨c, cs, text⟩ := List.exists_cons_of_length_pos text
  rw [text, Location.after_cons]
  refine Nat.lt_of_lt_of_le ?_ (Location.offset_le_after _ cs)
  rw [Location.advance_offset]
  exact Nat.lt_add_of_pos_right c.utf8Size_pos

/-- No piece starts in front of the place from which they are placed. -/
lemma le_of_mem_place {l : Location} {ps : List Piece} :
    ∀ p ∈ place l ps, l.offset ≤ p.2.first.offset := by
  intro p mem
  obtain ⟨front, rest, -, span⟩ := exists_of_mem_place mem
  rw [span]
  exact l.offset_le_after front

/-- Each piece starts behind the one before it. -/
lemma starts_place (l : Location) {ps : List Piece} (text : ∀ p ∈ ps, 0 < p.text.length) :
    ((place l ps).map (·.2.first.offset)).Pairwise (· < ·) := by
  induction ps generalizing l with
  | nil => exact .nil
  | cons p ps ih =>
    rw [List.forall_mem_cons] at text
    refine .cons ?_ (ih (l.after p.text) text.2)
    rw [List.forall_mem_map]
    intro q mem
    exact Nat.lt_of_lt_of_le (offset_lt_after l p text.1) (le_of_mem_place q mem)

end Piece

namespace Delimiter

variable {d : Delimiter}

/-- What is open was opened by one of the tokens, or before them. -/
lemma foldl_track_sublist (ts : List Token) (opened : List Span) :
    (ts.foldl d.track opened).Sublist ((ts.map (·.span)).reverse ++ opened) := by
  induction ts generalizing opened with
  | nil => exact .refl _
  | cons t ts ih =>
    have one : (d.track opened t).Sublist (t.span :: opened) := by
      unfold track
      split
      · exact .refl _
      · split
        · exact (List.tail_sublist _).cons _
        · exact .cons _ (.refl _)
    rw [List.foldl_cons, List.map_cons, List.reverse_cons, List.append_assoc]
    exact (ih _).trans (one.append_left _)

end Delimiter

/-- Tokens stand in the order of the pieces, at most one at each. -/
lemma Lexed.map_span_tokens (placed : List (Piece × Span)) :
    ((ofPieces placed).tokens.map (·.span)).Sublist (placed.map (·.2)) := by
  induction placed with
  | nil => exact .slnil
  | cons first placed ih =>
    obtain ⟨p, s⟩ := first
    rw [tokens_ofPieces_cons, List.map_append, List.map_cons]
    cases token : p.token? s with
    | none => exact ih.cons _
    | some t =>
      obtain rfl := Piece.span_of_token? token
      exact ih.cons_cons _

section Starts

variable {placed : List (Piece × Span)} {d : Delimiter}
  (starts : (placed.map (·.2.first.offset)).Pairwise (· < ·))

include starts

/-- No two tokens stand at one place. -/
lemma Lexed.nodup_span_tokens : ((ofPieces placed).tokens.map (·.span)).Nodup := by
  have spans : (placed.map (·.2)).Nodup := by
    refine List.Nodup.of_map (·.first.offset) ?_
    rw [List.map_map]
    exact starts.imp Nat.ne_of_lt
  exact spans.sublist (map_span_tokens placed)

namespace Openers

/-- What comes to light while pieces are read is in the order of the text. -/
lemma starts_found : ((found {} placed).map (·.2.first.offset)).Pairwise (· < ·) := by
  refine starts.sublist ?_
  have sub := (map_snd_found {} placed).map (·.first.offset)
  rwa [List.map_map, List.map_map] at sub

/-- What is open in the end is in the opposite order. -/
lemma starts_open : (((placed.foldl read {}).of d).map (·.first.offset)).Pairwise (· > ·) := by
  have sub := Delimiter.foldl_track_sublist (d := d) (Lexed.ofPieces placed).tokens []
  rw [List.append_nil] at sub
  have sub := (sub.trans (Lexed.map_span_tokens placed).reverse).map (·.first.offset)
  rw [List.map_reverse, List.map_map] at sub
  rw [of_foldl_read, of_empty]
  exact (List.pairwise_reverse.2 starts).sublist sub

end Openers

/-- No lexical error is reported twice. -/
lemma nodup_lexicalFaults : (lexicalFaults {} placed).Nodup := by
  have left (d : Delimiter) : ((placed.foldl Openers.read {}).of d).Nodup :=
    .of_map (fun s : Span => s.first.offset) ((Openers.starts_open starts).imp Nat.ne_of_gt)
  have ahead : (Openers.found {} placed).Nodup :=
    .of_map (fun f : LexicalFault × Span => f.2.first.offset)
      ((Openers.starts_found starts).imp Nat.ne_of_lt)
  have apart : (Openers.found {} placed).Disjoint (placed.foldl Openers.read {}).faults := by
    intro f before after
    obtain ⟨d, unclosed, -⟩ := Openers.exists_of_mem_faults after
    obtain ⟨d', unmatched⟩ := Openers.kind_of_mem_found before (by rw [unclosed]; rfl)
    cases unclosed.symm.trans unmatched
  have braces := (left .brace).map (f := (LexicalFault.unclosedOpener .brace, ·))
    (Prod.mk_right_injective _)
  have brackets := (left .bracket).map (f := (LexicalFault.unclosedOpener .bracket, ·))
    (Prod.mk_right_injective _)
  rw [Openers.lexicalFaults_eq]
  refine List.nodup_append'.2 ⟨ahead, List.nodup_append'.2 ⟨braces, brackets, ?_⟩, apart⟩
  intro f brace bracket
  obtain ⟨s, -, rfl⟩ := List.mem_map.1 brace
  obtain ⟨s', -, same⟩ := List.mem_map.1 bracket
  cases same

end Starts

/-! ## One error for each -/

/-- Each of these errors stands where one of these tokens does, and each of the tokens has one of
the errors in its place. -/
structure OneToOne (errors : LexicalError → Prop) (tokens : Token → Prop) : Prop where
  token : ∀ e, errors e → ∃! t, tokens t ∧ t.span = e.span
  error : ∀ t, tokens t → ∃! e, errors e ∧ e.span = t.span

namespace Lexed

variable {l : Lexed} {f : LexicalFault} {blamed : Token → Prop}

/-- Errors and tokens that stand at the same places, none of them twice, are one to one. -/
lemma oneToOne (errors : (l.errors.map fun e => (e.fault, e.span)).Nodup)
    (tokens : (l.tokens.map (·.span)).Nodup) (among : ∀ t, blamed t → t ∈ l.tokens)
    (same : ∀ s, (f, s) ∈ l.errors.map (fun e => (e.fault, e.span)) ↔ ∃ t, blamed t ∧ t.span = s) :
    OneToOne (fun e => e ∈ l.errors ∧ e.fault = f) blamed where
  token := by
    rintro e ⟨mem, rfl⟩
    obtain ⟨t, here, span⟩ := (same e.span).1 (List.mem_map_of_mem mem)
    refine ⟨t, ⟨here, span⟩, fun u ⟨there, span'⟩ => ?_⟩
    exact List.inj_on_of_nodup_map tokens (among u there) (among t here) (span'.trans span.symm)
  error := by
    intro t here
    obtain ⟨e, mem, place⟩ := List.mem_map.1 ((same t.span).2 ⟨t, here, rfl⟩)
    obtain ⟨fault, span⟩ := Prod.ext_iff.1 place
    refine ⟨e, ⟨⟨mem, fault⟩, span⟩, fun e' ⟨⟨mem', fault'⟩, span'⟩ => ?_⟩
    refine List.inj_on_of_nodup_map errors mem' mem (Prod.ext ?_ ?_)
    · exact fault'.trans fault.symm
    · exact span'.trans span.symm

end Lexed

section Faults

variable {placed : List (Piece × Span)} {d : Delimiter} {s : Span}

/-- The closers that are blamed are those without an opener. -/
lemma unmatchedCloser_mem_iff :
    (.unmatchedCloser d, s) ∈ lexicalFaults {} placed ↔
      ∃ t, d.UnmatchedCloser (Lexed.ofPieces placed).tokens t ∧ t.span = s := by
  have ahead : (.unmatchedCloser d, s) ∉ (placed.foldl Openers.read {}).faults := by
    intro mem
    obtain ⟨d', unclosed, -⟩ := Openers.exists_of_mem_faults mem
    cases unclosed
  rw [Openers.lexicalFaults_eq, List.mem_append, or_iff_left ahead,
    Openers.unmatchedCloser_mem_found_iff, Openers.of_empty, Delimiter.strays_iff]

/-- The openers that are blamed are those without a closer. -/
lemma unclosedOpener_mem_iff :
    (.unclosedOpener d, s) ∈ lexicalFaults {} placed ↔
      ∃ t, d.UnmatchedOpener (Lexed.ofPieces placed).tokens t ∧ t.span = s := by
  have behind : (.unclosedOpener d, s) ∉ Openers.found {} placed := by
    intro mem
    obtain ⟨d', unmatched⟩ := Openers.kind_of_mem_found mem rfl
    cases unmatched
  rw [Openers.lexicalFaults_eq, List.mem_append, or_iff_right behind,
    ← Delimiter.mem_foldl_track_iff, ← Openers.of_empty d, ← Openers.of_foldl_read]
  cases d <;> simp [Openers.faults, Openers.of]

/-- Errors about open delimiters are of that sort and start where the delimiters do. -/
lemma fault_and_starts_of_unclosed {errors : List LexicalError} {opened : List Span}
    (unclosed : errors.map (fun e => (e.fault, e.span)) = opened.map (.unclosedOpener d, ·)) :
    (∀ e ∈ errors, e.fault = .unclosedOpener d) ∧
      errors.map (·.span.first.offset) = opened.map (·.first.offset) := by
  constructor
  · intro e mem
    have here := List.mem_map_of_mem (f := fun e : LexicalError => (e.fault, e.span)) mem
    rw [unclosed] at here
    obtain ⟨s, -, same⟩ := List.mem_map.1 here
    exact (Prod.ext_iff.1 same).1.symm
  · have spans := congrArg (List.map fun f => f.2.first.offset) unclosed
    rwa [List.map_map, List.map_map] at spans

end Faults

/-- **The errors about delimiters are those of the unmatched ones.** With braces and brackets each
looked at by themselves, every closer without an opener and every opener without a closer has one
error, at its place, and there are no others. The errors are numbered from 1. First come those of
words, characters, strings and closers, in the order of the text, then those of braces that are
never closed and then those of brackets, each the latest first. -/
theorem tokenize_unmatched (source : String) :
    (∀ d : Delimiter,
      OneToOne (fun e => e ∈ (tokenize source).errors ∧ e.fault = .unmatchedCloser d)
        (d.UnmatchedCloser (tokenize source).tokens) ∧
      OneToOne (fun e => e ∈ (tokenize source).errors ∧ e.fault = .unclosedOpener d)
        (d.UnmatchedOpener (tokenize source).tokens)) ∧
    (tokenize source).errors.map (·.number) =
      List.range' 1 (tokenize source).errors.length ∧
    ∃ ahead braces brackets, (tokenize source).errors = ahead ++ (braces ++ brackets) ∧
      (∀ e ∈ ahead, e.fault.kind = .unbalancedDelimiter → ∃ d, e.fault = .unmatchedCloser d) ∧
      (∀ e ∈ braces, e.fault = .unclosedOpener .brace) ∧
      (∀ e ∈ brackets, e.fault = .unclosedOpener .bracket) ∧
      (ahead.map (·.span.first.offset)).Pairwise (· < ·) ∧
      (braces.map (·.span.first.offset)).Pairwise (· > ·) ∧
      (brackets.map (·.span.first.offset)).Pairwise (· > ·) := by
  refine ⟨?one, numbers_tokenize source, ?order⟩
  all_goals
    have starts := Piece.starts_place .start (Piece.length_text_pos source.toList)
    rw [Lexed.tokenize_eq]
    generalize Piece.place .start (Piece.split source.toList) = placed at starts
    have faults := Lexed.faults_ofPieces placed
  case one =>
    intro d
    have errors := nodup_lexicalFaults starts
    have tokens := Lexed.nodup_span_tokens starts
    rw [← faults] at errors
    constructor
    · refine Lexed.oneToOne errors tokens (fun t closer => closer.mem) fun s => ?_
      rw [faults, unmatchedCloser_mem_iff]
    · refine Lexed.oneToOne errors tokens (fun t opener => opener.mem) fun s => ?_
      rw [faults, unclosedOpener_mem_iff]
  case order =>
    rw [Openers.lexicalFaults_eq, Openers.faults, List.map_eq_append_iff] at faults
    obtain ⟨ahead, left, whole, found, faults⟩ := faults
    obtain ⟨braces, brackets, rfl, unclosed, unclosed'⟩ := List.map_eq_append_iff.1 faults
    obtain ⟨brace, braceStarts⟩ := fault_and_starts_of_unclosed unclosed
    obtain ⟨bracket, bracketStarts⟩ := fault_and_starts_of_unclosed unclosed'
    refine ⟨ahead, braces, brackets, whole, fun e mem delimiter => ?_, brace, bracket, ?_, ?_, ?_⟩
    · have here := List.mem_map_of_mem (f := fun e : LexicalError => (e.fault, e.span)) mem
      rw [found] at here
      exact Openers.kind_of_mem_found here delimiter
    · have order := Openers.starts_found starts
      rw [← found, List.map_map] at order
      exact order
    · rw [braceStarts]
      exact Openers.starts_open (d := .brace) starts
    · rw [bracketStarts]
      exact Openers.starts_open (d := .bracket) starts

end Knockout
