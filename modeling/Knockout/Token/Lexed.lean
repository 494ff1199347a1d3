import Knockout.Token.Basic
import Knockout.Token.Fault
import Knockout.Token.Piece

/-!
# Tokens of a text

`tokenize` cuts a text into pieces, gives each piece its place and sorts the pieces into tokens and
faults. It never stops early: whatever is wrong with a text, all its tokens are there. Delimiters
are matched on the way, braces apart from brackets, so that an opener without a closer is blamed
itself.
-/

namespace Knockout

namespace Piece

/-- Pieces that follow one another, each with the text it spans, from a given place on. -/
def place (start : Location) : List Piece → List (Piece × Span)
  | [] => []
  | p :: ps =>
    let stop := start.after p.text
    (p, ⟨start, stop⟩) :: place stop ps

/-- The token of a piece, if it gives one. -/
def token? (p : Piece) (span : Span) : Option Token :=
  match p with
  | .word run =>
    if run.any Char.isDigit then none
    else some ⟨.ofWord (String.ofList run), String.ofList run, span⟩
  | .digits run => some ⟨.number, String.ofList run, span⟩
  | .string body => some ⟨.string, String.ofList body, span⟩
  | .symbol s => some ⟨.symbol s, s.char.toString, span⟩
  | .blank _ | .openString _ | .foreign _ => none

/-- A text without the carriage returns at its end. -/
def dropReturns (cs : List Char) : List Char := (cs.reverse.dropWhile (· == '\r')).reverse

/-- What is wrong with a piece by itself, if it is no token. -/
def fault? : Piece → Option LexicalFault
  | .word run => if run.any Char.isDigit then some (.digitInWord (String.ofList run)) else none
  | .openString body => some (.openString (String.ofList (dropReturns ('"' :: body))))
  | .foreign c => some (.foreignChar c)
  | .blank _ | .digits _ | .string _ | .symbol _ => none

end Piece

/-- The delimiters that are open at some place of a text, the latest first. -/
structure Openers where
  braces : List Span := []
  brackets : List Span := []
  deriving DecidableEq, Repr

namespace Openers

/-- The open delimiters of one sort. -/
def of (o : Openers) : Delimiter → List Span
  | .brace => o.braces
  | .bracket => o.brackets

/-- Opens a delimiter. -/
def push (o : Openers) (d : Delimiter) (span : Span) : Openers :=
  match d with
  | .brace => { o with braces := span :: o.braces }
  | .bracket => { o with brackets := span :: o.brackets }

/-- Closes the latest open delimiter of a sort. -/
def pop (o : Openers) : Delimiter → Openers
  | .brace => { o with braces := o.braces.tail }
  | .bracket => { o with brackets := o.brackets.tail }

/-- The faults that are left at the end of a text: its open braces, then its open brackets, the
latest of each first. -/
def faults (o : Openers) : List (LexicalFault × Span) :=
  o.braces.map (.unclosedOpener .brace, ·) ++ o.brackets.map (.unclosedOpener .bracket, ·)

/-- The openers after a symbol, and the fault of a closer that has none to close. -/
def next (o : Openers) (s : Symbol) (span : Span) : Openers × Option LexicalFault :=
  match s with
  | .lbrace => (o.push .brace span, none)
  | .lbracket => (o.push .bracket span, none)
  | .rbrace => close .brace
  | .rbracket => close .bracket
  | .colon | .comma | .dash => (o, none)
where
  close (d : Delimiter) : Openers × Option LexicalFault :=
    if (o.of d).isEmpty then (o, some (.unmatchedCloser d)) else (o.pop d, none)

end Openers

/-- The faults of pieces that follow one another, in the order in which they come to light. -/
def lexicalFaults (o : Openers) : List (Piece × Span) → List (LexicalFault × Span)
  | [] => o.faults
  | (.symbol s, span) :: rest =>
    match o.next s span with
    | (o, some fault) => (fault, span) :: lexicalFaults o rest
    | (o, none) => lexicalFaults o rest
  | (p, span) :: rest =>
    match p.fault? with
    | some fault => (fault, span) :: lexicalFaults o rest
    | none => lexicalFaults o rest

/-- The tokens of a text and everything that is wrong with it. -/
structure Lexed where
  tokens : List Token
  errors : List LexicalError
  deriving DecidableEq, Repr

namespace Lexed

/-- Whether nothing is wrong. -/
def isClean (l : Lexed) : Bool := l.errors.isEmpty

end Lexed

/-- Reads a text into tokens. -/
def tokenize (source : String) : Lexed :=
  let pieces := Piece.place .start (Piece.split source.toList)
  { tokens := pieces.filterMap fun p => p.1.token? p.2
    errors := (lexicalFaults {} pieces).zipIdx 1 |>.map fun f => ⟨f.2, f.1.1, f.1.2⟩ }

/-- Errors are numbered from 1 in the order in which they come to light. -/
theorem numbers_tokenize (source : String) :
    (tokenize source).errors.map (·.number) =
      List.range' 1 (tokenize source).errors.length := by
  simp [tokenize, Function.comp_def, List.zipIdx_map_snd]

end Knockout
