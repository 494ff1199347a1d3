import Knockout.Proofs.Lexing.Tiling

/-!
# Balanced delimiters

`Symbol.closes` follows how many braces and brackets are open along some symbols. A text has no
lexical errors exactly when each of its pieces is in order by itself and its symbols close what they
open: `errors_tokenize_eq_nil_iff`.
-/

namespace Knockout

/-- Whether, with so many braces and brackets open, no symbol closes one that is not open and at the
end none is open. -/
def Symbol.closes : Nat → Nat → List Symbol → Bool
  | braces, brackets, [] => braces = 0 && brackets = 0
  | braces, brackets, .lbrace :: ss => closes (braces + 1) brackets ss
  | braces, brackets, .lbracket :: ss => closes braces (brackets + 1) ss
  | braces, brackets, .rbrace :: ss => braces ≠ 0 && closes (braces - 1) brackets ss
  | braces, brackets, .rbracket :: ss => brackets ≠ 0 && closes braces (brackets - 1) ss
  | braces, brackets, .colon :: ss | braces, brackets, .comma :: ss
  | braces, brackets, .dash :: ss => closes braces brackets ss

/-- The symbol that a kind is, if it is one. -/
def Kind.symbol? : Kind → Option Symbol
  | .symbol s => some s
  | _ => none

/-- The symbols among some tokens. -/
def Token.symbols (tokens : List Token) : List Symbol := tokens.filterMap (·.kind.symbol?)

/-- A token adds its symbol, if it is one. -/
@[simp] lemma Token.symbols_cons (t : Token) (tokens : List Token) :
    symbols (t :: tokens) = t.kind.symbol?.toList ++ symbols tokens := by
  unfold symbols
  cases h : t.kind.symbol? with
  | none => simp [h]
  | some s => simp [h]

/-- A word is no symbol. -/
lemma Kind.symbol?_ofWord (word : String) : (ofWord word).symbol? = none := by
  have listed : ∀ w ∈ vocabulary, w.2.symbol? = none := by decide
  exact ofWord_of_listed (P := (·.symbol? = none)) rfl listed word

namespace Piece

/-- The symbol that a piece is, if it is one. -/
def symbol? : Piece → Option Symbol
  | .symbol s => some s
  | _ => none

/-- A token is the symbol that its piece is. -/
lemma symbol?_token? (p : Piece) (span : Span) :
    (p.token? span).bind (·.kind.symbol?) = p.symbol? := by
  cases p with
  | word run =>
    rw [token?]
    split
    · rfl
    · exact Kind.symbol?_ofWord _
  | _ => rfl

/-- Pieces stay as they are when they are given places. -/
lemma map_fst_place (l : Location) (ps : List Piece) : (place l ps).map (·.1) = ps := by
  induction ps generalizing l with
  | nil => rfl
  | cons p ps ih => simp [place, ih]

/-- The symbols among the tokens of pieces are those among the pieces. -/
lemma symbols_token? (placed : List (Piece × Span)) :
    Token.symbols (placed.filterMap fun p => p.1.token? p.2) =
      placed.filterMap fun p => p.1.symbol? := by
  rw [Token.symbols, List.filterMap_filterMap]
  exact congrArg (placed.filterMap ·) (funext fun p => symbol?_token? p.1 p.2)

end Piece

namespace Openers

variable {o o' : Openers} {s : Symbol} {span : Span}

/-- A symbol that closes nothing is the end of all balance. -/
lemma closes_of_fault {f : LexicalFault} (next : o.next s span = (o', some f)) (ss : List Symbol) :
    Symbol.closes o.braces.length o.brackets.length (s :: ss) = false := by
  cases s with
  | rbrace | rbracket =>
    simp only [Openers.next, Openers.next.close, of, List.isEmpty_iff] at next
    split at next
    · next none_open => simp [Symbol.closes, none_open]
    · cases next
  | _ => cases next

/-- A symbol without a fault opens or closes what the openers say. -/
lemma closes_next (next : o.next s span = (o', none)) (ss : List Symbol) :
    Symbol.closes o.braces.length o.brackets.length (s :: ss) =
      Symbol.closes o'.braces.length o'.brackets.length ss := by
  cases s with
  | rbrace | rbracket =>
    simp only [Openers.next, Openers.next.close, of, List.isEmpty_iff] at next
    split at next
    · cases next
    · next some_open =>
      cases next
      simp [Symbol.closes, pop, some_open]
  | _ => cases next; rfl

end Openers

/-- Pieces have no faults exactly when none has one of its own and their symbols close what they and
those before them open. -/
lemma lexicalFaults_eq_nil_iff (o : Openers) (placed : List (Piece × Span)) :
    lexicalFaults o placed = [] ↔
      (∀ p ∈ placed, p.1.fault? = none) ∧
        Symbol.closes o.braces.length o.brackets.length
          (placed.filterMap fun p => p.1.symbol?) = true := by
  fun_induction lexicalFaults o placed with
  | case1 o => simp [Openers.faults, Symbol.closes]
  | case2 o s span rest o' fault next ih =>
    simp [Piece.symbol?, Openers.closes_of_fault next]
  | case3 o s span rest o' next ih =>
    simp [ih, Piece.symbol?, Piece.fault?, Openers.closes_next next]
  | case4 o p span rest _ fault found ih => simp [found]
  | case5 o p span rest notSymbol found ih =>
    -- only symbols open and close
    have silent : p.symbol? = none := by
      cases p with
      | symbol s => exact absurd rfl (notSymbol s)
      | _ => rfl
    simp [ih, found, silent]

/-- A text has no lexical errors exactly when its pieces are in order and its symbols close what
they open. -/
theorem errors_tokenize_eq_nil_iff (source : String) :
    (tokenize source).errors = [] ↔
      (∀ p ∈ Piece.split source.toList, p.fault? = none) ∧
        Symbol.closes 0 0 (Token.symbols (tokenize source).tokens) = true := by
  have pieces := congrArg (∀ p ∈ ·, Piece.fault? p = none)
    (Piece.map_fst_place .start (Piece.split source.toList))
  rw [List.forall_mem_map] at pieces
  rw [← pieces, tokenize, List.map_eq_nil_iff, List.zipIdx_eq_nil_iff, lexicalFaults_eq_nil_iff]
  simp only [Piece.symbols_token?]
  rfl

end Knockout
