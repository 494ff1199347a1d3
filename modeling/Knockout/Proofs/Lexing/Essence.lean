import Knockout.Proofs.Lexing.Delimiters
import Knockout.Proofs.Relocation

/-!
# What is read from pieces

Tokens and errors take nothing from blanks, and of a string that is cut off they drop the returns at
its end: `Piece.essence?` is what they take from a piece. So two texts whose pieces agree in that
and, as far as they are looked at, in their places (`Piece.view`) have the same tokens and errors
there: `Lexed.relocate_ofPieces`.
-/

namespace Knockout

/-! ## Moved openers -/

/-- The delimiters that are open, at other places. -/
def Openers.relocate (g : Location → Location) (o : Openers) : Openers :=
  ⟨o.braces.map (.relocate g), o.brackets.map (.relocate g)⟩

namespace Openers

variable {g : Location → Location}

/-- A symbol opens and closes the same when everything is moved. -/
lemma next_relocate (o : Openers) (s : Symbol) (span : Span) :
    (o.relocate g).next s (span.relocate g) =
      ((o.next s span).1.relocate g, (o.next s span).2) := by
  have empty : ∀ d, ((o.relocate g).of d).isEmpty = (o.of d).isEmpty := by
    intro d
    cases d <;> exact List.isEmpty_map
  cases s with
  | rbrace | rbracket =>
    simp only [next, next.close, empty]
    split
    · rfl
    · simp [pop, relocate]
  | _ => rfl

/-- What is left open is moved with everything else. -/
lemma faults_relocate (o : Openers) :
    (o.relocate g).faults = o.faults.map fun f => (f.1, f.2.relocate g) := by
  simp [faults, relocate, Function.comp_def]

end Openers

/-! ## What tokens and errors take from pieces -/

namespace Piece

/-- A carriage return at the end is dropped, and any other character keeps what is before it. -/
lemma dropReturns_concat (cs : List Char) (c : Char) :
    dropReturns (cs ++ [c]) = if c = '\r' then dropReturns cs else cs ++ [c] := by
  split
  · next back => simp [dropReturns, back]
  · next other => simp [dropReturns, other]

/-- Whether the quote stands in front of it or not, a string loses the same returns. -/
lemma dropReturns_quote (body : List Char) :
    dropReturns ('"' :: dropReturns body) = dropReturns ('"' :: body) := by
  induction body using List.reverseRecOn with
  | nil => rfl
  | append_singleton body c ih =>
    rw [← List.cons_append, dropReturns_concat, dropReturns_concat]
    split
    · exact ih
    · next other => rw [← List.cons_append, dropReturns_concat, if_neg other]

/-- What tokens and errors take from a piece: nothing from a blank, and from an open string its text
without the returns at its end. -/
def essence? : Piece → Option Piece
  | .blank _ => none
  | .openString body => some (.openString (dropReturns body))
  | .word run => some (.word run)
  | .digits run => some (.digits run)
  | .string body => some (.string body)
  | .symbol s => some (.symbol s)
  | .foreign c => some (.foreign c)

/-- A token is read from what is taken from its piece. -/
lemma token?_essence (p : Piece) (s : Span) : (p.essence?.bind (·.token? s)) = p.token? s := by
  cases p <;> rfl

/-- An error is read from what is taken from its piece. -/
lemma fault?_essence (p : Piece) : p.essence?.bind fault? = p.fault? := by
  cases p with
  | openString body =>
    rw [essence?, Option.bind_some, fault?, fault?, dropReturns_quote]
  | _ => rfl

/-- A symbol is all there is to take from its piece. -/
lemma symbol?_essence (p : Piece) : p.essence?.bind symbol? = p.symbol? := by
  cases p <;> rfl

/-- Only a symbol is a symbol. -/
lemma eq_of_symbol? {p : Piece} {y : Symbol} (symbol : p.symbol? = some y) : p = .symbol y := by
  cases p with
  | symbol z => rw [Option.some.inj symbol]
  | _ => cases symbol

/-- The pieces that tokens and errors come from, with moved places. -/
def view (g : Location → Location) (placed : List (Piece × Span)) : List (Piece × Span) :=
  placed.filterMap fun p => p.1.essence?.map (·, p.2.relocate g)

/-- A piece adds what is taken from it, at its moved place. -/
lemma view_cons (g : Location → Location) (p : Piece) (s : Span) (placed : List (Piece × Span)) :
    view g ((p, s) :: placed) = (p.essence?.map (·, s.relocate g)).toList ++ view g placed := by
  unfold view
  cases taken : p.essence? with
  | none => rw [List.filterMap_cons_none (by rw [taken]; rfl)]; rfl
  | some q => rw [List.filterMap_cons_some (by rw [taken]; rfl)]; rfl

/-- Pieces are looked at one after the other. -/
lemma view_append (g : Location → Location) (placed more : List (Piece × Span)) :
    view g (placed ++ more) = view g placed ++ view g more := List.filterMap_append

end Piece

section View

variable {o : Openers} {p : Piece} {s : Span} {placed : List (Piece × Span)}

/-- A symbol is weighed against what is open, and changes it. -/
lemma lexicalFaults_symbol (y : Symbol) :
    lexicalFaults o ((.symbol y, s) :: placed) =
      ((o.next y s).2.map (·, s)).toList ++ lexicalFaults (o.next y s).1 placed := by
  rw [lexicalFaults]
  cases o.next y s with
  | mk o' fault => cases fault <;> rfl

/-- A piece that is no symbol leaves open what is open. -/
lemma lexicalFaults_of_ne (other : p.symbol? = none) :
    lexicalFaults o ((p, s) :: placed) =
      (p.fault?.map (·, s)).toList ++ lexicalFaults o placed := by
  cases p with
  | symbol y => cases other
  | _ =>
    rw [lexicalFaults]
    · split
      · next found => simp [found]
      · next found => simp [found]
    · exact nofun

/-- The faults of pieces are those of what is taken from them. -/
lemma lexicalFaults_view (g : Location → Location) (o : Openers) (placed : List (Piece × Span)) :
    lexicalFaults (o.relocate g) (Piece.view g placed) =
      (lexicalFaults o placed).map fun f => (f.1, f.2.relocate g) := by
  induction placed generalizing o with
  | nil =>
    rw [lexicalFaults]
    exact o.faults_relocate
  | cons first placed ih =>
    obtain ⟨p, s⟩ := first
    rw [Piece.view_cons]
    cases symbol : p.symbol? with
    | some y =>
      obtain rfl := Piece.eq_of_symbol? symbol
      rw [lexicalFaults_symbol, List.map_append, ← ih]
      refine (lexicalFaults_symbol y).trans ?_
      rw [Openers.next_relocate]
      cases (o.next y s).2 <;> rfl
    | none =>
      have fault := p.fault?_essence
      have same := p.symbol?_essence
      rw [lexicalFaults_of_ne symbol, List.map_append, ← ih]
      cases taken : p.essence? with
      | none =>
        rw [taken] at fault
        rw [← fault]
        rfl
      | some q =>
        rw [taken, Option.bind_some] at fault same
        refine (lexicalFaults_of_ne (same.trans symbol)).trans ?_
        rw [fault]
        cases p.fault? <;> rfl

end View

namespace Lexed

/-- The tokens and the errors of pieces. -/
def ofPieces (placed : List (Piece × Span)) : Lexed where
  tokens := placed.filterMap fun p => p.1.token? p.2
  errors := (lexicalFaults {} placed).zipIdx 1 |>.map fun f => ⟨f.2, f.1.1, f.1.2⟩

/-- The errors of pieces are their faults with numbers. -/
lemma faults_ofPieces (placed : List (Piece × Span)) :
    (ofPieces placed).errors.map (fun e => (e.fault, e.span)) = lexicalFaults {} placed := by
  rw [ofPieces, List.map_map]
  exact List.zipIdx_map_fst 1 (lexicalFaults {} placed)

/-- What comes of moved pieces is what comes of them, moved. -/
lemma relocate_ofPieces (g : Location → Location) (placed : List (Piece × Span)) :
    (ofPieces placed).relocate g = ofPieces (Piece.view g placed) := by
  have tokens : (Piece.view g placed).filterMap (fun p => p.1.token? p.2) =
      (placed.filterMap fun p => p.1.token? p.2).map (.relocate g) := by
    rw [Piece.view, List.filterMap_filterMap, List.map_filterMap]
    refine List.filterMap_congr fun p _ => ?_
    rw [Option.bind_map, ← Piece.token?_relocate, ← Piece.token?_essence]
    rfl
  have faults := lexicalFaults_view g {} placed
  have opened : Openers.relocate g {} = {} := rfl
  rw [opened] at faults
  rw [ofPieces, ofPieces, tokens, faults, List.zipIdx_map, relocate, List.map_map, List.map_map]
  rfl

/-- A text is lexed from its pieces at their places. -/
lemma tokenize_eq (source : String) :
    tokenize source = ofPieces (Piece.place .start (Piece.split source.toList)) := rfl

end Lexed

end Knockout
