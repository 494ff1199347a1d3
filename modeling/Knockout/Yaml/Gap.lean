/-!
# White space of YAML

Places in a text, spaces and line breaks, and the gaps of white space inside a scalar. Line breaks
inside a scalar are folded: one that only wraps a line counts as a space, and of several line feeds
in a row all but the first are kept (`Gap.folded`).
-/

namespace Knockout.Yaml

/-- Whether a character is a space or a tab. -/
def isSpace (c : Char) : Bool := c == ' ' || c == '\t'

/-- Whether a character breaks a line. A line separator and a paragraph separator do, and unlike
the other breaks they are kept apart from a line feed. -/
def isBreak (c : Char) : Bool := c == '\n' || c == '\u2028' || c == '\u2029'

/-- A text with a line feed for each carriage return, next line, or carriage return with a line
feed after it. -/
def unifyBreaks : List Char → List Char
  | [] => []
  | '\r' :: '\n' :: cs => '\n' :: unifyBreaks cs
  | c :: cs => (if c = '\r' ∨ c = '\u0085' then '\n' else c) :: unifyBreaks cs

/-- Whether a text ends here or goes on with a space, a tab or a line break. -/
def endsWord : List Char → Bool
  | [] => true
  | c :: _ => isSpace c || isBreak c

/-- A place in a text, all counted from 0. -/
structure Mark where
  /-- Bytes in front of the place. -/
  index : Nat := 0
  line : Nat := 0
  /-- Characters in front of the place on its line. -/
  column : Nat := 0
  deriving DecidableEq, Repr

/-- The place after one more character. -/
def Mark.advance (m : Mark) (c : Char) : Mark :=
  if isBreak c then ⟨m.index + c.utf8Size, m.line + 1, 0⟩
  else ⟨m.index + c.utf8Size, m.line, m.column + 1⟩

/-- Whether a line starts with a marker that ends a document. -/
def atDocumentMarker (m : Mark) (cs : List Char) : Bool :=
  m.column == 0 && (['-', '-', '-'].isPrefixOf cs || ['.', '.', '.'].isPrefixOf cs) &&
    endsWord (cs.drop 3)

/-- The white space that a scalar has gone over and not taken in yet. -/
inductive Gap where
  | none
  /-- Spaces and tabs, the latest first. -/
  | spaces (reversed : List Char)
  /-- A line break and those after it, the latest first. -/
  | breaks (first : Char) (reversed : List Char)
  /-- An escaped line break and the breaks after it, the latest first. -/
  | escaped (reversed : List Char)
  deriving DecidableEq, Repr

namespace Gap

/-- Whether the gap has gone over a line break. -/
def hasBreak : Gap → Bool
  | .none | .spaces _ => false
  | .breaks _ _ | .escaped _ => true

/-- The gap with a space or a tab after it; spaces at the start of a line do not count. -/
def space (c : Char) : Gap → Gap
  | .none => .spaces [c]
  | .spaces cs => .spaces (c :: cs)
  | g => g

/-- The gap with a line break after it; spaces at the end of a line do not count. -/
def newline (c : Char) : Gap → Gap
  | .none | .spaces _ => .breaks c []
  | .breaks first cs => .breaks first (c :: cs)
  | .escaped cs => .escaped (c :: cs)

/-- What a gap stands for, the latest character first. A line feed that comes first is a space
where it is alone and nothing where other breaks follow; an escaped break is nothing. -/
def folded : Gap → List Char
  | .none => []
  | .spaces cs => cs
  | .breaks first cs =>
    if first ≠ '\n' then cs ++ [first] else if cs.isEmpty then [' '] else cs
  | .escaped cs => cs

end Gap

end Knockout.Yaml
