import Knockout.Proofs.Lexing.Places

/-!
# Lines

No piece reaches over the end of a line: a piece that is whole before a text is whole before that
text with a line feed behind it. So the pieces of two texts with a line feed between them are those
of the first and those of the second (`Piece.split_append_newline`), and since a line starts at
column 1 wherever it stands, the places in the second are only moved down (`Location.below`). The
main statement is `tokenize_append_newline`: apart from the balance of delimiters, what is read in
one line does not depend on any other.
-/

namespace Knockout

open Text

/-! ## Moved places -/

/-- The span with both ends moved. -/
def Span.relocate (g : Location → Location) (s : Span) : Span := ⟨g s.first, g s.stop⟩

/-- The token at another place. -/
def Token.relocate (g : Location → Location) (t : Token) : Token :=
  { t with span := t.span.relocate g }

namespace Piece

variable {g : Location → Location}

/-- A token is moved with its piece. -/
lemma token?_relocate (p : Piece) (s : Span) :
    p.token? (s.relocate g) = (p.token? s).map (.relocate g) := by
  cases p with
  | word run =>
    rw [token?, token?]
    split <;> rfl
  | _ => rfl

/-- Pieces are placed behind those in front of them. -/
lemma place_append (l : Location) (ps qs : List Piece) :
    place l (ps ++ qs) = place l ps ++ place (l.after (ps.flatMap text)) qs := by
  induction ps generalizing l with
  | nil => rfl
  | cons p ps ih =>
    rw [List.flatMap_cons, Location.after_append, List.cons_append, place, place, ih]
    rfl

/-- Pieces that start elsewhere are moved as their start is. -/
lemma place_relocate (keeps : ∀ l c, (g l).advance c = g (l.advance c)) (l : Location)
    (ps : List Piece) :
    place (g l) ps = (place l ps).map fun p => (p.1, p.2.relocate g) := by
  have moved : ∀ (cs : List Char) (l : Location), (g l).after cs = g (l.after cs) := by
    intro cs
    induction cs with
    | nil => exact fun _ => rfl
    | cons c cs ih =>
      intro l
      rw [Location.after_cons, keeps, ih, Location.after_cons]
  induction ps generalizing l with
  | nil => rfl
  | cons p ps ih =>
    rw [place, place, List.map_cons, moved, ih]
    rfl

/-! ## The end of a line -/

/-- More text that starts with a blank makes no piece longer, unless it is a string cut off by the
end of the text. -/
lemma Leads.append_blank {p : Piece} {rest more : List Char} {c : Char} (leads : p.Leads rest)
    (blank : isBlank c = true) (ends : c = '\n' ∨ ∀ body, p ≠ .openString body) :
    p.Leads (rest ++ c :: more) := by
  have apart : ∀ {q : Char → Bool}, q c = false → Ends q rest → Ends q (rest ++ c :: more) := by
    intro q outside ends
    cases rest with
    | nil =>
      rintro d ⟨⟩
      exact outside
    | cons d rest => exact ends
  cases leads with
  | blank first => exact .blank first
  | word first run longest =>
    exact .word first run (apart (isWordChar_eq_false_of_isBlank blank) longest)
  | digits first run longest =>
    have notDigit : c.isDigit = false := by
      refine Bool.eq_false_iff.2 fun digit => ?_
      rw [isBlank_eq_false_of_isDigit digit] at blank
      cases blank
    exact .digits first run (apart notDigit longest)
  | string body => exact .string body
  | openString body stops =>
    obtain rfl | closed := ends
    · obtain rfl | feed := stops
      · exact .openString body (.inr rfl)
      · refine .openString body (.inr ?_)
        rw [List.head?_append, feed, Option.some_or]
    · exact absurd rfl (closed _)
  | symbol => exact .symbol
  | foreign notBlank notLetter notDigit notQuote notSymbol =>
    exact .foreign notBlank notLetter notDigit notQuote notSymbol

/-- No piece reaches over the end of a line. -/
theorem split_append_newline (above below : List Char) :
    split (above ++ '\n' :: below) = split above ++ .blank '\n' :: split below := by
  have feed : (blank '\n').Leads below := .blank rfl
  have parts := parts_split above
  generalize split above = ps at parts
  induction parts with
  | nil => exact split_of_leads feed
  | cons leads more ih =>
    rw [List.append_assoc, split_of_leads (leads.append_blank rfl (.inl rfl)), ih, List.cons_append]

end Piece

/-! ## Two texts, one below the other -/

/-- A place in a text that is put below another one. -/
def Location.below (above : String) (l : Location) : Location where
  offset := above.utf8ByteSize + 1 + l.offset
  line := above.toList.count '\n' + 1 + l.line
  column := l.column

namespace Location

/-- A character moves a place below another text as it does without that text. -/
lemma advance_below (above : String) (l : Location) (c : Char) :
    (l.below above).advance c = (l.advance c).below above := by
  unfold advance below
  split
  · simp [Nat.add_assoc]
  · split <;> simp [Nat.add_assoc]

/-- Behind a line feed, a text starts below the one in front of it. -/
lemma behind_newline (above : String) :
    behind (above.toList ++ ['\n']) = start.below above := by
  have size : '\n'.utf8Size = 1 := rfl
  rw [behind_concat]
  simp [behind, advance, below, start, size, Nat.add_comm]

end Location

/-- Two texts with a line feed between them fall into the pieces of both, those of the second below
the first. -/
lemma Piece.place_append_newline (above below : String) :
    ∃ feed, place .start (split (above ++ "\n" ++ below).toList) =
      place .start (split above.toList) ++ (.blank '\n', feed) ::
        (place .start (split below.toList)).map fun p => (p.1, p.2.relocate (.below above)) := by
  have texts : (above ++ "\n" ++ below).toList = above.toList ++ '\n' :: below.toList := by
    simp
  rw [texts, split_append_newline, place_append, flatMap_text_split, place]
  have behind : (Location.start.after above.toList).after (text (.blank '\n')) =
      Location.start.below above := by
    rw [← Location.after_append, Location.after_start]
    exact Location.behind_newline above
  rw [behind, place_relocate (Location.advance_below above)]
  exact ⟨_, rfl⟩

/-- The errors of moved pieces are theirs, moved. -/
lemma Piece.faults_relocate (g : Location → Location) (placed : List (Piece × Span)) :
    ((placed.map fun p => (p.1, p.2.relocate g)).filterMap fun p => p.1.fault?.map (·, p.2)) =
      (placed.filterMap fun p => p.1.fault?.map (·, p.2)).map fun f => (f.1, f.2.relocate g) := by
  rw [List.filterMap_map, List.map_filterMap]
  refine List.filterMap_congr fun p _ => ?_
  rw [Function.comp_apply, Option.map_map]
  rfl

/-- **Reading is local to lines.** Of two texts with a line feed between them, the tokens are those
of the first and those of the second, moved down, and so are the errors about words, characters and
strings. -/
theorem tokenize_append_newline (above below : String) :
    (tokenize (above ++ "\n" ++ below)).tokens =
        (tokenize above).tokens ++ (tokenize below).tokens.map (.relocate (.below above)) ∧
      (tokenize (above ++ "\n" ++ below)).misreadings =
        (tokenize above).misreadings ++
          (tokenize below).misreadings.map fun f => (f.1, f.2.relocate (.below above)) := by
  obtain ⟨feed, pieces⟩ := Piece.place_append_newline above below
  refine ⟨?tokens, ?misreadings⟩
  case tokens =>
    simp only [tokenize, pieces]
    rw [List.filterMap_append, List.filterMap_cons_none rfl, List.filterMap_map,
      List.map_filterMap]
    refine congrArg _ (List.filterMap_congr fun p _ => ?_)
    exact p.1.token?_relocate p.2
  case misreadings =>
    rw [misreadings_tokenize, misreadings_tokenize, misreadings_tokenize, pieces,
      List.filterMap_append, List.filterMap_cons_none rfl, Piece.faults_relocate]

end Knockout
