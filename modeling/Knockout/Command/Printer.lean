/-!
# Status lines

What a command tells its user beside its output: lines that start with a right-aligned verb, in
colour on a terminal.
-/

namespace Knockout

/-- The colour of a verb, by what the line means. -/
inductive Tone where
  /-- Something has been done. -/
  | status
  /-- Something to know. -/
  | info
  /-- Something to look at. -/
  | warning
  /-- Something that failed. -/
  | error
  deriving DecidableEq, Repr

/-- How status lines are written. -/
structure Printer where
  /-- Whether the lines go to a terminal. -/
  coloured : Bool := false
  deriving DecidableEq, Repr

namespace Printer

/-- A control sequence of the terminal. -/
def sequence (code : String) : String := s!"\x1b[{code}m"

/-- Starts bold text. -/
def bold : String := sequence "1"

/-- Ends bold and coloured text. -/
def reset : String := sequence "0"

/-- The control sequence of a tone. -/
def toneSequence : Tone → String
  | .status => sequence "32"
  | .info => sequence "36"
  | .warning => sequence "33"
  | .error => sequence "31"

/-- Columns that verbs fill. -/
def verbWidth : Nat := 12

/-- A verb moved to the right end of its columns; one that is too long for them is not cut. -/
def alignVerb (verb : String) : String :=
  String.ofList (List.replicate (verbWidth - verb.length) ' ') ++ verb

/-- A status line. -/
def line (p : Printer) (tone : Tone) (verb message : String) : String :=
  if p.coloured then s!"{bold}{toneSequence tone}{alignVerb verb}{reset} {message}\n"
  else s!"{alignVerb verb} {message}\n"

/-- A text set off from the rest of its line. -/
def highlight (p : Printer) (text : String) : String :=
  if p.coloured then toneSequence .info ++ text ++ reset else text

end Printer

end Knockout
