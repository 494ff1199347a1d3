import Knockout.Text.Blank
import Knockout.Text.Letter
import Knockout.Token.Kind

/-!
# Pieces of a text

A text falls into pieces: runs of word characters, runs of digits, strings, symbols, blanks and
characters that belong nowhere. The first character of a piece decides what it is, and the piece
extends as far as its kind allows. Main statement: `Piece.flatMap_text_split`, the pieces of a text
put together are the text.
-/

namespace Knockout

/-- A stretch of source text of one kind. -/
inductive Piece where
  /-- One character of white space. -/
  | blank (c : Char)
  /-- A run of letters, digits and underscores that starts with a letter. -/
  | word (run : List Char)
  /-- A run of digits. -/
  | digits (run : List Char)
  /-- A string with both its quotes; the text is what stands between them. -/
  | string (body : List Char)
  /-- A string cut off by the end of its line or of the text. -/
  | openString (body : List Char)
  /-- One symbol. -/
  | symbol (s : Symbol)
  /-- One character that has no place in the language. -/
  | foreign (c : Char)
  deriving DecidableEq, Repr

namespace Piece

/-- The source text of a piece. -/
def text : Piece → List Char
  | .blank c | .foreign c => [c]
  | .word run | .digits run => run
  | .string body => '"' :: body ++ ['"']
  | .openString body => '"' :: body
  | .symbol s => [s.char]

/-- Whether a character may stand inside a string. -/
def isStringChar (c : Char) : Bool := c != '"' && c != '\n'

/-- The piece that a quote opens, given the characters after the quote. -/
def ofQuote (cs : List Char) : Piece :=
  match cs.dropWhile isStringChar with
  | '"' :: _ => .string (cs.takeWhile isStringChar)
  | _ => .openString (cs.takeWhile isStringChar)

/-- The first piece of a text that starts with `c` and goes on with `cs`. -/
def first (c : Char) (cs : List Char) : Piece :=
  if Text.isBlank c then .blank c
  else if Text.isLetter c then .word (c :: cs.takeWhile Text.isWordChar)
  else if c.isDigit then .digits (c :: cs.takeWhile Char.isDigit)
  else if c = '"' then ofQuote cs
  else
    match Symbol.ofChar? c with
    | some s => .symbol s
    | none => .foreign c

/-- The string that a quote opens is a front part of the text. -/
theorem text_ofQuote_prefix (cs : List Char) : (ofQuote cs).text <+: '"' :: cs := by
  have split := List.takeWhile_append_dropWhile (p := isStringChar) (l := cs)
  unfold ofQuote
  split
  · next rest h =>
    rw [h] at split
    exact ⟨rest, by simp only [text, List.cons_append, List.append_assoc, List.nil_append, split]⟩
  · exact ⟨cs.dropWhile isStringChar, by simp [text, split]⟩

/-- The first piece is a front part of the text. -/
theorem text_first_prefix (c : Char) (cs : List Char) : (first c cs).text <+: c :: cs := by
  unfold first
  split
  · exact ⟨cs, rfl⟩
  · split
    · exact ⟨cs.dropWhile Text.isWordChar, by simp [text]⟩
    · split
      · exact ⟨cs.dropWhile Char.isDigit, by simp [text]⟩
      · split
        · next h => exact h ▸ text_ofQuote_prefix cs
        · split
          · next s h => exact ⟨cs, by simp [text, Symbol.ofChar?_eq_some_iff.1 h]⟩
          · exact ⟨cs, rfl⟩

/-- The first piece holds the first character at least. -/
theorem length_text_first_pos (c : Char) (cs : List Char) : 0 < (first c cs).text.length := by
  unfold first ofQuote
  repeat' split
  all_goals simp [text]

/-- The pieces of a text. -/
def split : List Char → List Piece
  | [] => []
  | c :: cs => first c cs :: split ((c :: cs).drop (first c cs).text.length)
termination_by cs => cs.length
decreasing_by
  have := length_text_first_pos c cs
  simp only [List.length_drop, List.length_cons]
  omega

/-- The pieces of a text put together are the text. -/
theorem flatMap_text_split (cs : List Char) : (split cs).flatMap text = cs := by
  fun_induction split cs with
  | case1 => rfl
  | case2 c cs ih =>
    obtain ⟨rest, h⟩ := text_first_prefix c cs
    rw [List.flatMap_cons, ih]
    conv => lhs; rhs; rw [← h, List.drop_left]
    exact h

end Piece

end Knockout
