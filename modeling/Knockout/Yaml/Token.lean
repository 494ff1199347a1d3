import Knockout.Yaml.Scalar

/-!
# Tokens of YAML

A YAML text as tokens. Indentation becomes tokens of its own: a deeper column opens a sequence or a
mapping, and a column further out closes it. A scalar turns out to be a key only when the colon
after it is met, so the tokens that make it one are put in before it then.

Covered are block and flow collections, plain and quoted scalars, comments and the markers between
documents. Anchors, tags, block scalars and explicit keys are refused.
-/

namespace Knockout.Yaml

/-- A token of a YAML text. -/
inductive Token where
  | documentStart
  | documentEnd
  /-- Opens a sequence by its indentation. -/
  | sequenceStart
  /-- Opens a mapping by its indentation. -/
  | mappingStart
  /-- Closes what was opened by indentation. -/
  | blockEnd
  /-- The dash before an item. -/
  | entry
  /-- Comes before a key. -/
  | key
  /-- Comes before a value. -/
  | value
  | flowSequenceStart
  | flowSequenceEnd
  | flowMappingStart
  | flowMappingEnd
  | flowEntry
  /-- A scalar, and whether it was written without quotes. -/
  | scalar (text : String) (plain : Bool)
  deriving DecidableEq, Repr

/-- A token that a colon may turn into a key. -/
structure KeyCandidate where
  /-- How many tokens there are before it. -/
  place : Nat
  /-- Whether nothing but a key may stand there. -/
  required : Bool
  mark : Mark
  deriving DecidableEq, Repr

/-- How far the tokens of a text have been found. -/
structure Scan where
  rest : List Char
  mark : Mark := {}
  found : Array Token := #[]
  /-- Columns of the open block collections, the innermost first. -/
  indents : List Nat := []
  /-- The candidate outside flow collections and one for each flow collection that is open, the
  innermost first. -/
  candidates : List (Option KeyCandidate) := [none]
  /-- Whether a key may start here. -/
  keyAllowed : Bool := true
  deriving DecidableEq, Repr

namespace Scan

/-- Whether this is inside a flow collection. -/
def inFlow (s : Scan) : Bool := 1 < s.candidates.length

/-- Column of the innermost block collection, −1 outside all. -/
def indent (s : Scan) : Int :=
  match s.indents with
  | [] => -1
  | column :: _ => column

/-- One more token. -/
def emit (s : Scan) (t : Token) : Scan := { s with found := s.found.push t }

/-- A token put in at a place. -/
def insertAt (s : Scan) (place : Nat) (t : Token) : Scan :=
  { s with found := s.found.insertIdxIfInBounds place t }

/-- One character more. -/
def consume (s : Scan) : Scan :=
  match s.rest with
  | [] => s
  | c :: cs => { s with rest := cs, mark := s.mark.advance c }

/-- Skips spaces, comments and line breaks. A tab counts as a space where no key may start; a new
line is where one may. A byte order mark may start a line. -/
def skipFrom (flow : Bool) (comment allowed : Bool) (m : Mark) :
    List Char → Bool × Mark × List Char
  | [] => (allowed, m, [])
  | c :: cs =>
    if isBreak c then skipFrom flow false (allowed || !flow) (m.advance c) cs
    else if comment || c == ' ' || (c == '\t' && (flow || !allowed)) ||
        (c == '\ufeff' && m.column == 0) then
      skipFrom flow comment allowed (m.advance c) cs
    else if c = '#' then skipFrom flow true allowed (m.advance c) cs
    else (allowed, m, c :: cs)

/-- The text from its next token on. -/
def skip (s : Scan) : Scan :=
  let (keyAllowed, mark, rest) := skipFrom s.inFlow false s.keyAllowed s.mark s.rest
  { s with keyAllowed, mark, rest }

/-- A candidate is given up when the line has ended or too much text has followed; a required one
may not be. -/
def age (m : Mark) : Option KeyCandidate → Option (Option KeyCandidate)
  | none => some none
  | some k =>
    if k.mark.line < m.line ∨ k.mark.index + 1024 < m.index then
      if k.required then none else some none
    else some (some k)

/-- Gives up the candidates that are too old. -/
def ageCandidates (s : Scan) : Option Scan := do
  let candidates ← s.candidates.mapM (age s.mark)
  return { s with candidates }

/-- Closes the block collections that start further in than a column. -/
def closeTo (s : Scan) (column : Int) : Scan :=
  if s.inFlow then s
  else
    let inner := s.indents.takeWhile fun (i : Nat) => column < i
    { s with
      indents := s.indents.drop inner.length
      found := s.found ++ List.replicate inner.length Token.blockEnd }

/-- Opens a block collection at a column, unless one is open there. -/
def openAt (s : Scan) (column place : Nat) (t : Token) : Scan :=
  if !s.inFlow && s.indent < column then
    { s.insertAt place t with indents := column :: s.indents }
  else s

/-- Replaces the innermost candidate. -/
def setCandidate (s : Scan) (k : Option KeyCandidate) : Scan :=
  { s with candidates := k :: s.candidates.tail }

/-- Gives up the innermost candidate, which may not be required. -/
def dropCandidate (s : Scan) : Option Scan :=
  match s.candidates.head? with
  | some (some k) => if k.required then none else some (s.setCandidate none)
  | _ => some s

/-- Makes the token that follows a candidate, where a key may start. -/
def saveCandidate (s : Scan) : Option Scan :=
  if s.keyAllowed then do
    let s ← s.dropCandidate
    let required := !s.inFlow && s.indent == s.mark.column
    return s.setCandidate (some ⟨s.found.size, required, s.mark⟩)
  else some s

/-- A marker between documents. -/
def marker (s : Scan) (t : Token) : Option Scan := do
  let s ← (s.closeTo (-1)).dropCandidate
  return { s.consume.consume.consume with keyAllowed := false }.emit t

/-- A bracket that opens a flow collection. -/
def openFlow (s : Scan) (t : Token) : Option Scan := do
  let s ← s.saveCandidate
  return { s.consume with candidates := none :: s.candidates, keyAllowed := true }.emit t

/-- A bracket that closes a flow collection. -/
def closeFlow (s : Scan) (t : Token) : Option Scan := do
  let s ← s.dropCandidate
  let candidates := if s.inFlow then s.candidates.tail else s.candidates
  return { s.consume with candidates, keyAllowed := false }.emit t

/-- A comma between the items of a flow collection. -/
def comma (s : Scan) : Option Scan := do
  let s ← s.dropCandidate
  return { s.consume with keyAllowed := true }.emit .flowEntry

/-- A dash before an item. -/
def dash (s : Scan) : Option Scan := do
  if !s.inFlow && !s.keyAllowed then none
  let s ← (s.openAt s.mark.column s.found.size .sequenceStart).dropCandidate
  return { s.consume with keyAllowed := true }.emit .entry

/-- A colon: it makes the candidate a key, if there is one. -/
def colon (s : Scan) : Option Scan :=
  match s.candidates.head? with
  | some (some k) =>
    let s := (s.insertAt k.place .key).openAt k.mark.column k.place .mappingStart
    some ({ (s.setCandidate none).consume with keyAllowed := false }.emit .value)
  | _ =>
    if s.inFlow then some ({ s.consume with keyAllowed := false }.emit .value)
    else if s.keyAllowed then
      let s := s.openAt s.mark.column s.found.size .mappingStart
      some ({ s.consume with keyAllowed := true }.emit .value)
    else none

/-- A scalar: what a reader of scalars finds. -/
def scalar (s : Scan) (isPlain : Bool) (read : Scan → Option Scanned) : Option Scan := do
  let s ← s.saveCandidate
  let r ← read s
  return { s with rest := r.rest, mark := r.mark, keyAllowed := r.brokeLine }.emit
    (.scalar r.text isPlain)

/-- Whether a plain scalar may start with a character that others follow. -/
def startsPlain (flow : Bool) (c : Char) (cs : List Char) : Bool :=
  if isSpace c then false
  else if c = '-' then !cs.head?.any isSpace
  else if c = '?' ∨ c = ':' then !flow && !endsWord cs
  else !"-?:,[]\x7b\x7d#&*!|>'\"%@\x60".toList.contains c

/-- The next token of a text that has one; none where the text is malformed. -/
def next (s : Scan) (c : Char) (cs : List Char) : Option Scan :=
  if atDocumentMarker s.mark (c :: cs) then
    s.marker (if c = '-' then .documentStart else .documentEnd)
  else if s.mark.column = 0 ∧ c = '%' then none
  else if c = '[' then s.openFlow .flowSequenceStart
  else if c = '\x7b' then s.openFlow .flowMappingStart
  else if c = ']' then s.closeFlow .flowSequenceEnd
  else if c = '\x7d' then s.closeFlow .flowMappingEnd
  else if c = ',' then s.comma
  else if c = '-' ∧ endsWord cs then s.dash
  else if c = ':' ∧ (s.inFlow ∨ endsWord cs) then s.colon
  else if c = '\'' then s.scalar false fun s => singleQuoted [] .none false (s.mark.advance c) cs
  else if c = '"' then s.scalar false fun s => doubleQuoted [] .none .none (s.mark.advance c) cs
  else if startsPlain s.inFlow c cs then
    s.scalar true fun s => plain s.inFlow (s.indent + 1) [] .none s.mark (c :: cs)
  else none

/-- The tokens of the rest of a text. Each takes a character at least, so `fuel` has to be as much
as there are characters. -/
def run : Nat → Scan → Option (List Token)
  | 0, s => some s.found.toList
  | fuel + 1, s => do
    let s ← s.skip.ageCandidates
    let s := s.closeTo s.mark.column
    match s.rest with
    | [] =>
      let s ← (s.closeTo (-1)).dropCandidate
      return s.found.toList
    | c :: cs => run fuel (← s.next c cs)

end Scan

/-- Whether a YAML text may hold a character. -/
def isAllowed (c : Char) : Bool :=
  let n := c.toNat
  n == 0x09 || n == 0x0A || n == 0x0D || (0x20 ≤ n && n ≤ 0x7E) || n == 0x85 ||
    (0xA0 ≤ n && n ≤ 0xFFFD) || 0x10000 ≤ n

/-- The tokens of a YAML text; none where it is malformed. -/
def tokens? (text : String) : Option (List Token) :=
  if text.toList.all isAllowed then
    let cs := unifyBreaks text.toList
    Scan.run (cs.length + 1) { rest := cs }
  else none

end Knockout.Yaml
