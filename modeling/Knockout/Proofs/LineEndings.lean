import Knockout.Proofs.Lexing.Essence

/-!
# Line endings

A text may end its lines with a line feed or with a carriage return and a line feed. Tokens and
errors take nothing from blanks, and of a string that is cut off they drop the returns at its end
(`Piece.essence?`); a return takes no column either. So within a line a return in front of its end
is not seen (`seen_return`), and line by line the whole text is read alike (`seen_returned`).
The main statement is `analyze_withReturns`: apart from byte offsets the analysis of a text does not
depend on how its lines end.
-/

namespace Knockout

open Text

/-! ## Places without offsets -/

namespace Location

/-- Line and column alone. -/
def withoutOffset (l : Location) : Location := { l with offset := 0 }

variable {l l' : Location}

/-- Without offsets, a character moves places that look the same to such places. -/
lemma withoutOffset_advance (same : l.withoutOffset = l'.withoutOffset) (c : Char) :
    (l.advance c).withoutOffset = (l'.advance c).withoutOffset := by
  obtain ⟨line, column⟩ : l.line = l'.line ∧ l.column = l'.column := by
    simpa [withoutOffset] using same
  unfold advance
  split
  · simp [withoutOffset, line]
  · split <;> simp [withoutOffset, line, column]

/-- Without offsets, characters move places that look the same to such places. -/
lemma withoutOffset_after (same : l.withoutOffset = l'.withoutOffset) (cs : List Char) :
    (l.after cs).withoutOffset = (l'.after cs).withoutOffset := by
  induction cs generalizing l l' with
  | nil => exact same
  | cons c cs ih => exact ih (withoutOffset_advance same c)

/-- Without offsets, a carriage return moves nothing. -/
lemma withoutOffset_return (l : Location) (cs : List Char) :
    (l.after (cs ++ ['\r'])).withoutOffset = (l.after cs).withoutOffset := by
  rw [after_append]
  rfl

end Location

/-- What is read in a text from a given place on, without offsets. -/
def Piece.seen (l : Location) (cs : List Char) : List (Piece × Span) :=
  view .withoutOffset (place l (split cs))

namespace Piece

variable {l l' : Location}

/-- Nothing is read in an empty text. -/
lemma seen_nil : seen l [] = [] := by
  rw [seen, split]
  rfl

/-- A piece is read, and then the rest from behind it. -/
lemma seen_of_leads {p : Piece} {rest : List Char} (leads : p.Leads rest) :
    seen l (p.text ++ rest) =
      (p.essence?.map (·, Span.relocate .withoutOffset ⟨l, l.after p.text⟩)).toList ++
        seen (l.after p.text) rest := by
  rw [seen, split_of_leads leads, place, view_cons]
  rfl

/-- A line is read by itself, and then the lines below it. -/
lemma seen_append_newline (l : Location) (line below : List Char) :
    seen l (line ++ '\n' :: below) = seen l line ++ seen (l.after (line ++ ['\n'])) below := by
  rw [seen, split_append_newline, place_append, view_append, flatMap_text_split, place, view_cons,
    Location.after_append]
  rfl

/-- What is read depends on line and column alone. -/
lemma seen_congr (same : l.withoutOffset = l'.withoutOffset) (cs : List Char) :
    seen l cs = seen l' cs := by
  unfold seen
  generalize split cs = ps
  induction ps generalizing l l' with
  | nil => rfl
  | cons p ps ih =>
    have next := Location.withoutOffset_after same p.text
    rw [place, place, view_cons, view_cons, ih next, Span.relocate, Span.relocate, same, next]

/-- Nobody sees a return at the end of a line. -/
lemma seen_return {line : List Char} (single : '\n' ∉ line) (l : Location) :
    seen l (line ++ ['\r']) = seen l line := by
  have parts := parts_split line
  generalize split line = ps at parts
  induction parts generalizing l with
  | nil =>
    have back : (blank '\r').Leads [] := .blank rfl
    refine (seen_of_leads back).trans ?_
    rw [seen_nil, seen_nil]
    rfl
  | @cons rest ps p leads more ih =>
    have single' : '\n' ∉ rest := fun mem => single (List.mem_append_right _ mem)
    by_cases cut : ∃ body, p = .openString body
    · -- an open string takes the return in
      obtain ⟨body, rfl⟩ := cut
      cases leads with
      | openString inside ends =>
        obtain rfl | feed := ends
        · have longer : (openString (body ++ ['\r'])).Leads [] := by
            refine .openString (fun c mem => ?_) (.inl rfl)
            obtain within | last := List.mem_append.1 mem
            · exact inside c within
            · rw [List.mem_singleton.1 last]
              rfl
          have whole : (openString body).text ++ [] ++ ['\r'] =
              (openString (body ++ ['\r'])).text ++ [] := by simp [text]
          have stop : (l.after (openString (body ++ ['\r'])).text).withoutOffset =
              (l.after (openString body).text).withoutOffset := l.withoutOffset_return ('"' :: body)
          rw [whole, seen_of_leads longer, seen_of_leads (.openString inside (.inl rfl)), seen_nil,
            seen_nil, essence?, essence?, dropReturns_concat, if_pos rfl, Span.relocate,
            Span.relocate, stop]
        · exact absurd (List.mem_of_head? feed) single'
    · rw [List.append_assoc, seen_of_leads leads, ← ih single']
      exact seen_of_leads (leads.append_blank rfl (.inr fun body here => cut ⟨body, here⟩))

end Piece

/-! ## Both line endings -/

/-- The characters of a text whose line feeds get a carriage return in front. -/
def Text.returned (cs : List Char) : List Char :=
  cs.flatMap fun c => if c = '\n' then ['\r', '\n'] else [c]

/-- A text with a carriage return in front of every line feed. -/
def Text.withReturns (source : String) : String := .ofList (returned source.toList)

/-- A single line has no line feed to put a carriage return in front of. -/
lemma Text.returned_of_single {line : List Char} (single : '\n' ∉ line) : returned line = line := by
  have each : ∀ c ∈ line, (if c = '\n' then ['\r', '\n'] else [c]) = [c] := by
    intro c mem
    have other : c ≠ '\n' := fun feed => single (feed ▸ mem)
    rw [if_neg other]
  rw [returned, List.flatMap_congr each, List.flatMap_singleton']

/-- Read from places with the same line and column, a text gives the same with both line endings. -/
lemma Piece.seen_returned {l l' : Location} (same : l.withoutOffset = l'.withoutOffset)
    (cs : List Char) : seen l (returned cs) = seen l' cs := by
  -- line by line
  induction h : cs.length using Nat.strong_induction_on generalizing l l' cs with
  | _ n ih =>
    by_cases feed : '\n' ∈ cs
    · obtain ⟨line, below, rfl, single⟩ := List.eq_append_cons_of_mem feed
      have lines : returned (line ++ '\n' :: below) =
          (line ++ ['\r']) ++ '\n' :: returned below := by
        have front := returned_of_single single
        rw [returned] at front ⊢
        rw [List.flatMap_append, front]
        simp [returned]
      have next : (l.after (line ++ ['\r'] ++ ['\n'])).withoutOffset =
          (l'.after (line ++ ['\n'])).withoutOffset := by
        rw [Location.after_append, Location.after_append l']
        refine Location.withoutOffset_advance ?_ '\n'
        rw [Location.withoutOffset_return]
        exact Location.withoutOffset_after same line
      have fewer : below.length < n := by simp [← h]; omega
      rw [lines, seen_append_newline, seen_append_newline, seen_return single,
        seen_congr same line, ih _ fewer next below rfl]
    · rw [returned_of_single feed]
      exact seen_congr same cs

/-- **Both line endings are read alike.** A text and the same text with a carriage return in front
of every line feed have the same tokens and lexical errors, and the same tournament and syntax
errors, apart from byte offsets. -/
theorem analyze_withReturns (strictness : Strictness) (source : String) :
    (tokenize (Text.withReturns source)).relocate .withoutOffset =
        (tokenize source).relocate .withoutOffset ∧
      (analyze strictness (Text.withReturns source)).relocate .withoutOffset =
        (analyze strictness source).relocate .withoutOffset := by
  have lexed : (tokenize (Text.withReturns source)).relocate .withoutOffset =
      (tokenize source).relocate .withoutOffset := by
    rw [Lexed.tokenize_eq, Lexed.tokenize_eq, Lexed.relocate_ofPieces, Lexed.relocate_ofPieces,
      Text.withReturns, String.toList_ofList]
    exact congrArg Lexed.ofPieces (Piece.seen_returned rfl source.toList)
  refine ⟨lexed, ?_⟩
  -- either both texts are read on or neither is
  have tokens := congrArg Lexed.tokens lexed
  have errors := congrArg (List.isEmpty ∘ Lexed.errors) lexed
  simp only [Function.comp_apply, Lexed.relocate, List.isEmpty_map] at tokens errors
  rw [analyze, analyze, Analysis.relocate, Analysis.relocate, lexed, Lexed.isClean, Lexed.isClean,
    errors]
  cases (tokenize source).errors.isEmpty with
  | false => simp only [Bool.false_eq_true, if_false, Option.map_none]
  | true =>
    simp only [if_true, Option.map_some]
    rw [parse_relocate rfl strictness tokens]

end Knockout
