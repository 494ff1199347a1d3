import Knockout.Proofs.Lexing.Essence

/-!
# Tokens written out again

The tokens of a text can be written out again in one line, with a space between any two of them
(`Token.rendered`), and what was wrong with the words, characters and strings around them is left
behind. A space ends every token, so each is cut off whole again (`Piece.parts_rendered`), and
delimiters are matched as they were, since nothing else takes part in it (`lexicalFaults_tokens`).
The main statement is `tokenize_rendered`.
-/

namespace Knockout

open Text

/-- Tokens in one line, with a space between any two. -/
def Token.rendered (tokens : List Token) : String := " ".intercalate (tokens.map written)

/-! ## Pieces that are tokens -/

namespace Piece

/-- Whether a token is read from the piece. -/
def isToken (p : Piece) : Bool := (p.token? .unknown).isSome

variable {p : Piece}

/-- Where a piece stands says nothing about whether it is a token. -/
lemma isToken_eq (p : Piece) (s : Span) : p.isToken = (p.token? s).isSome := by
  cases p with
  | word run =>
    rw [isToken, token?, token?]
    split <;> rfl
  | _ => rfl

/-- A token is written with the text of its piece. -/
lemma written_token? (p : Piece) (s : Span) :
    (p.token? s).map (fun t => t.written.toList) = if p.isToken then some p.text else none := by
  cases p with
  | word run =>
    rw [isToken, token?, token?]
    split
    · rfl
    · rw [Option.map_some, Token.written_of_ne (Kind.ofWord_ne_string _), String.toList_ofList]
      rfl
  | _ => simp [isToken, token?, Token.written, text]

/-- A token is whole before anything that starts with a blank. -/
lemma Leads.before_blank {rest : List Char} (leads : p.Leads rest) (token : p.isToken = true)
    {more : List Char} (apart : ∀ c ∈ more.head?, isBlank c = true) : p.Leads more := by
  cases leads with
  | word first run longest =>
    exact .word first run fun c mem => isWordChar_eq_false_of_isBlank (apart c mem)
  | digits first run longest =>
    refine .digits first run fun c mem => Bool.eq_false_iff.2 fun digit => ?_
    exact absurd (apart c mem) (Bool.eq_false_iff.1 (isBlank_eq_false_of_isDigit digit))
  | string body => exact .string body
  | symbol => exact .symbol
  | blank | openString | foreign => cases token

/-- Each of the pieces of a text is whole before what follows it. -/
lemma Parts.leads_of_mem {cs : List Char} {ps : List Piece} (parts : Parts cs ps) :
    ∀ p ∈ ps, ∃ rest, p.Leads rest := by
  induction parts with
  | nil => exact nofun
  | cons leads more ih => exact List.forall_mem_cons.2 ⟨⟨_, leads⟩, ih⟩

/-- Tokens with spaces between them are cut where the spaces are. -/
lemma parts_rendered (ps : List Piece)
    (tokens : ∀ p ∈ ps, p.isToken = true ∧ ∃ rest, p.Leads rest) :
    Parts ([' '].intercalate (ps.map text)) (ps.intersperse (.blank ' ')) := by
  induction ps with
  | nil => exact .nil
  | cons p ps ih =>
    rw [List.forall_mem_cons] at tokens
    obtain ⟨⟨token, _, leads⟩, tokens⟩ := tokens
    cases ps with
    | nil =>
      have last : p.Leads [] := leads.before_blank token nofun
      simpa [List.intercalate] using Parts.cons last .nil
    | cons q ps =>
      have space : (blank ' ').Leads ([' '].intercalate ((q :: ps).map text)) := .blank rfl
      have whole := Parts.cons (leads.before_blank token (by rintro c ⟨⟩; rfl))
        (.cons space (ih tokens))
      simpa [List.intercalate, text] using whole

end Piece

/-! ## Pieces that are no tokens -/

namespace Piece

variable {p : Piece}

/-- A piece that gives a token gives no error. -/
lemma fault?_of_isToken (token : p.isToken = true) : p.fault? = none := by
  cases p with
  | word run =>
    rw [fault?]
    split
    · next digit => simp [isToken, token?, digit] at token
    · rfl
  | blank | openString | foreign => cases token
  | _ => rfl

/-- Without their places, pieces between which there are spaces look like the pieces alone. -/
lemma view_rendered {kept : List (Piece × Span)} (tokens : ∀ p ∈ kept, p.1.isToken = true)
    (l : Location) :
    view (fun _ => .unknown) (place l ((kept.map (·.1)).intersperse (.blank ' '))) =
      view (fun _ => .unknown) kept := by
  induction kept generalizing l with
  | nil => rfl
  | cons first kept ih =>
    obtain ⟨p, s⟩ := first
    rw [List.forall_mem_cons] at tokens
    cases kept with
    | nil => rfl
    | cons second kept =>
      have more := ih tokens.2
      rw [List.map_cons] at more
      rw [List.map_cons, List.map_cons, List.intersperse_cons_cons, place, place, view_cons,
        view_cons, more, view_cons _ p s]
      rfl

end Piece

/-- Of all pieces, the tokens alone have the faults of delimiters. -/
lemma lexicalFaults_tokens (o : Openers) (placed : List (Piece × Span)) :
    lexicalFaults o (placed.filter fun p => p.1.isToken) =
      (lexicalFaults o placed).filter fun f => f.1.kind == .unbalancedDelimiter := by
  fun_induction lexicalFaults o placed with
  | case1 o =>
    refine (List.filter_eq_self.2 fun f mem => ?_).symm
    rw [o.kind_of_mem_faults f mem]
    rfl
  | case2 o s span rest o' fault next ih =>
    have symbol : (Piece.symbol s).isToken = true := rfl
    have kept : (fault.kind == .unbalancedDelimiter) = true := beq_iff_eq.2 (o.kind_of_next next)
    rw [List.filter_cons, if_pos symbol, lexicalFaults_symbol, next, List.filter_cons, if_pos kept,
      ih]
    rfl
  | case3 o s span rest o' next ih =>
    have symbol : (Piece.symbol s).isToken = true := rfl
    rw [List.filter_cons, if_pos symbol, lexicalFaults_symbol, next, ih]
    rfl
  | case4 o p span rest notSymbol fault found ih =>
    have dropped : ¬p.isToken = true := fun token => by
      rw [Piece.fault?_of_isToken token] at found
      cases found
    rw [List.filter_cons, if_neg dropped, List.filter_cons, if_neg, ih]
    simpa using Piece.kind_of_fault? found
  | case5 o p span rest notSymbol found ih =>
    rw [List.filter_cons]
    split
    · have other : p.symbol? = none := by
        cases p with
        | symbol s => exact absurd rfl (notSymbol s)
        | _ => rfl
      rw [lexicalFaults_of_ne other, found, ih]
      rfl
    · exact ih

/-! ## Reading what was written out -/

/-- The pieces of what was written out, without their places, are the tokens among the pieces that
they were read from. -/
lemma relocate_rendered (placed : List (Piece × Span))
    (leads : ∀ p ∈ placed, ∃ rest, p.1.Leads rest) :
    (tokenize (Token.rendered (Lexed.ofPieces placed).tokens)).relocate (fun _ => .unknown) =
      (Lexed.ofPieces (placed.filter fun p => p.1.isToken)).relocate (fun _ => .unknown) := by
  have tokens : ∀ p ∈ placed.filter (fun p => p.1.isToken),
      p.1.isToken = true ∧ ∃ rest, p.1.Leads rest := by
    intro p mem
    obtain ⟨mem, token⟩ := List.mem_filter.1 mem
    exact ⟨token, leads p mem⟩
  have texts : (Lexed.ofPieces placed).tokens.map (fun t => t.written.toList) =
      ((placed.filter fun p => p.1.isToken).map (·.1)).map Piece.text := by
    rw [Lexed.ofPieces, List.map_filterMap, List.map_map, ← List.filterMap_eq_map,
      List.filterMap_filter]
    refine List.filterMap_congr fun p _ => ?_
    rw [Piece.written_token?]
    rfl
  have whole : (Token.rendered (Lexed.ofPieces placed).tokens).toList =
      [' '].intercalate (((placed.filter fun p => p.1.isToken).map (·.1)).map Piece.text) := by
    rw [← texts, Token.rendered, String.toList_intercalate, List.map_map]
    rfl
  generalize placed.filter (fun p => p.1.isToken) = kept at tokens whole
  have parts := Piece.parts_rendered (kept.map (·.1)) (by simpa using tokens)
  rw [← whole] at parts
  rw [Lexed.tokenize_eq, Piece.split_eq_iff.2 parts, Lexed.relocate_ofPieces,
    Lexed.relocate_ofPieces, Piece.view_rendered fun p mem => (tokens p mem).1]

/-- **Tokens survive being written out again.** Whatever is wrong with a text, its tokens in one
line, with a space between any two, are read with the same kinds and lexemes in the same order, and
the only errors are those about delimiters, the same and in the same order. -/
theorem tokenize_rendered (source : String) :
    (tokenize (Token.rendered (tokenize source).tokens)).tokens.map (fun t => (t.kind, t.lexeme)) =
        (tokenize source).tokens.map (fun t => (t.kind, t.lexeme)) ∧
      (tokenize (Token.rendered (tokenize source).tokens)).errors.map (·.fault) =
        ((tokenize source).errors.filter fun e => e.fault.kind == .unbalancedDelimiter).map
          (·.fault) := by
  have parts := Piece.parts_split source.toList
  have leads : ∀ p ∈ Piece.place .start (Piece.split source.toList), ∃ rest, p.1.Leads rest := by
    rw [← Piece.map_fst_place .start (Piece.split source.toList)] at parts
    simpa using parts.leads_of_mem
  have same := relocate_rendered _ leads
  rw [← Lexed.tokenize_eq] at same
  generalize tokenize (Token.rendered (tokenize source).tokens) = again at same ⊢
  rw [Lexed.tokenize_eq]
  generalize Piece.place .start (Piece.split source.toList) = placed at same
  refine ⟨?tokens, ?faults⟩
  case tokens =>
    have tokens := congrArg (fun l => l.tokens.map fun t => (t.kind, t.lexeme)) same
    simp only [Lexed.relocate, List.map_map] at tokens
    refine tokens.trans (congrArg _ ?_)
    rw [Lexed.ofPieces, Lexed.ofPieces, List.filterMap_filter]
    refine List.filterMap_congr fun p _ => ?_
    rw [Piece.isToken_eq p.1 p.2]
    cases p.1.token? p.2 <;> rfl
  case faults =>
    have faults := congrArg (fun l => l.errors.map (·.fault)) same
    simp only [Lexed.relocate, List.map_map] at faults
    refine faults.trans ?_
    have own (placed : List (Piece × Span)) :
        (Lexed.ofPieces placed).errors.map (·.fault) = (lexicalFaults {} placed).map (·.1) := by
      rw [← Lexed.faults_ofPieces, List.map_map]
      rfl
    calc (Lexed.ofPieces (placed.filter fun p => p.1.isToken)).errors.map (·.fault)
        = ((lexicalFaults {} placed).filter fun f => f.1.kind == .unbalancedDelimiter).map
            (·.1) := by rw [own, lexicalFaults_tokens]
      _ = ((lexicalFaults {} placed).map (·.1)).filter (·.kind == .unbalancedDelimiter) := by
          rw [List.filter_map]
          rfl
      _ = ((Lexed.ofPieces placed).errors.map (·.fault)).filter
            (·.kind == .unbalancedDelimiter) := by rw [own]
      _ = ((Lexed.ofPieces placed).errors.filter fun e =>
            e.fault.kind == .unbalancedDelimiter).map (·.fault) := by
          rw [List.filter_map]
          rfl

end Knockout
