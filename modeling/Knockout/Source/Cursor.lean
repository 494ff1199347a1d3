import Knockout.Source.Location

/-!
# Cursors

A cursor stands between two characters of a text. It knows the characters read so far, the ones to
come and its location, and it can hand back the text read since any earlier location.
-/

namespace Knockout

/-- A reading position in a text. -/
structure Cursor where
  /-- Characters read, the latest first. -/
  seen : List Char
  /-- Characters to come. -/
  rest : List Char
  /-- The place between the two. -/
  location : Location
  deriving DecidableEq, Repr

namespace Cursor

/-- A cursor before the first character of a text. -/
def ofString (text : String) : Cursor := ⟨[], text.toList, .start⟩

/-- The character under the cursor, if the text goes on. -/
def current (c : Cursor) : Option Char := c.rest.head?

/-- Whether the whole text has been read. -/
def isAtEnd (c : Cursor) : Bool := c.rest.isEmpty

/-- Reads one character; at the end of the text it stays where it is. -/
def advance (c : Cursor) : Cursor :=
  match c.rest with
  | [] => c
  | ch :: rest => ⟨ch :: c.seen, rest, c.location.advance ch⟩

/-- Reads the longest run of characters that satisfy `p`. -/
def advanceWhile (p : Char → Bool) (c : Cursor) : Cursor :=
  (c.rest.takeWhile p).foldl (fun k _ => k.advance) c

/-- The front of a list of characters, long enough to hold `n` bytes of UTF-8. -/
def takeBytes : Nat → List Char → List Char
  | 0, _ => []
  | _, [] => []
  | n + 1, c :: cs => c :: takeBytes (n + 1 - c.utf8Size) cs

/-- The text read since an earlier location. -/
def textSince (c : Cursor) (mark : Location) : String :=
  String.ofList (takeBytes (c.location.offset - mark.offset) c.seen).reverse

/-- A cursor is at the end if no character comes next. -/
@[simp] theorem isAtEnd_iff (c : Cursor) : c.isAtEnd = true ↔ c.current = none := by
  simp [isAtEnd, current]

end Cursor

end Knockout
