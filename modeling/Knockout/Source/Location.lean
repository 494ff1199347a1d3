/-!
# Locations

A location is a place between two characters of a source text; a span is the text between two
locations. `Location.advance` is the one rule by which reading a character moves a location, and
`Location.after` applies it to a run of characters. Main statement: `Location.after_append`, a
location may be moved over a text piece by piece.
-/

namespace Knockout

/-- A place in a source text. Line and column are counted without a bound, but in a text of `n`
characters neither goes past `n + 1` (`tokenize_placed`), so that 32 bits hold both of them as long
as `n < 2 ^ 32 - 1` (`Cursor.run_faithful`). -/
structure Location where
  /-- Bytes of UTF-8 before the place. -/
  offset : Nat
  /-- Line, counted from 1; 0 where no place is known. -/
  line : Nat
  /-- Column in characters, counted from 1; 0 where no place is known. -/
  column : Nat
  deriving DecidableEq, Repr, Inhabited

namespace Location

/-- The place of the first character of a text. -/
def start : Location := ⟨0, 1, 1⟩

/-- The location that stands for no place at all. -/
def unknown : Location := ⟨0, 0, 0⟩

/-- The place after one more character: a line feed opens column 1 of the next line, a carriage
return moves nothing but the offset, and any other character takes one column. -/
def advance (l : Location) (c : Char) : Location :=
  if c = '\n' then ⟨l.offset + c.utf8Size, l.line + 1, 1⟩
  else if c = '\r' then ⟨l.offset + c.utf8Size, l.line, l.column⟩
  else ⟨l.offset + c.utf8Size, l.line, l.column + 1⟩

/-- The place after a run of characters. -/
def after (l : Location) (cs : List Char) : Location := cs.foldl advance l

/-- A location as people read it, `line:column`. -/
def text (l : Location) : String := s!"{l.line}:{l.column}"

/-- Nothing moves no place. -/
@[simp] theorem after_nil (l : Location) : l.after [] = l := rfl

/-- The first character moves a place first. -/
@[simp] theorem after_cons (l : Location) (c : Char) (cs : List Char) :
    l.after (c :: cs) = (l.advance c).after cs := rfl

/-- A location may be moved over a text piece by piece. -/
theorem after_append (l : Location) (cs ds : List Char) :
    l.after (cs ++ ds) = (l.after cs).after ds := List.foldl_append

/-- Every character moves the offset by its size in UTF-8. -/
theorem advance_offset (l : Location) (c : Char) :
    (l.advance c).offset = l.offset + c.utf8Size := by
  unfold advance
  split
  · rfl
  · split <;> rfl

/-- Reading on never moves the offset back. -/
theorem offset_le_after (l : Location) (cs : List Char) : l.offset ≤ (l.after cs).offset := by
  induction cs generalizing l with
  | nil => exact Nat.le_refl _
  | cons c cs ih =>
    refine Nat.le_trans ?_ (ih (l.advance c))
    rw [advance_offset]
    exact Nat.le_add_right _ _

end Location

/-- The text between two locations. -/
structure Span where
  /-- Where the text starts. -/
  first : Location
  /-- Where the text has ended. -/
  stop : Location
  deriving DecidableEq, Repr, Inhabited

namespace Span

/-- The empty span that sits at one place. -/
def point (l : Location) : Span := ⟨l, l⟩

/-- The span that stands for no place at all. -/
def unknown : Span := point .unknown

/-- Length in bytes; a span that ends before it starts has none. -/
def length (s : Span) : Nat := s.stop.offset - s.first.offset

/-- Whether the span holds no text. -/
def isEmpty (s : Span) : Bool := s.length == 0

/-- A span as people read it: the line is said once when both ends share it. -/
def text (s : Span) : String :=
  if s.first.line = s.stop.line then s!"{s.first.line}:{s.first.column}-{s.stop.column}"
  else s!"{s.first.text}-{s.stop.text}"

end Span

end Knockout
