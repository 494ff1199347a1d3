import Knockout.Command.Failure
import Knockout.Command.Printer
import Knockout.Diagnostic
import Knockout.Project.Sources

/-!
# Sessions

Where a command runs: the files around it and the terminal it writes to. An `Execution` is all that
a command does: what it prints, the file it writes, and why it failed if it did.
-/

namespace Knockout

/-- The surroundings of a command. -/
structure Session where
  place : Place
  /-- Whether status lines go to a terminal. -/
  terminal : Bool := false

/-- What a command has done. -/
structure Execution where
  stdout : String := ""
  stderr : String := ""
  /-- The file that was written with its text, if one was. -/
  written : Option (Path × String) := none
  failure : Option Failure := none

/-- The tree that a command leaves behind. -/
def Execution.treeAfter (e : Execution) (w : Place) : Tree :=
  match e.written with
  | none => w.tree
  | some (p, text) =>
    match w.writeText p text with
    | .ok tree => tree
    | .error _ => w.tree

def Diagnostic.line (d : Diagnostic) : String :=
  let help :=
    match d.help with
    | some text => s!" | {text}"
    | none => ""
  s!"!! {d.message} | {d.code} | {d.label} @{d.offset}+{d.length}{help}\n"

namespace Session

/-- How the status lines of a session are written. -/
def printer (s : Session) : Printer := { coloured := s.terminal }

/-- A path as it is shown in a session. -/
def display (s : Session) (p : Path) : String := Path.display s.place.path p

/-- Reads a definition file. -/
def readSource (s : Session) (p : Path) : Except Failure String :=
  (s.place.readText p).mapError (.unreadableSource p)

/-- The configuration: that of a given file, or else of the nearest one. -/
def loadConfig (s : Session) (explicit : Option Path) : Except Failure Config :=
  match explicit.or (s.place.findConfig? s.place.path) with
  | none => .ok {}
  | some p =>
    match s.place.readText p with
    | .error fault => .error (.unreadableConfig p fault)
    | .ok text =>
      match Config.ofText? text with
      | none => .error .invalidConfig
      | some config => .ok config

/-- What is printed about everything wrong with a file. -/
def diagnosticLines (a : Analysis) : String := String.join (a.diagnostics.map Diagnostic.line)

/-- What is said about a file with syntax errors only. -/
def syntaxWarning (s : Session) (p : Path) (errors : List SyntaxError) : String :=
  if errors.isEmpty then ""
  else
    let consequence :=
      if errors.any (·.kind.isStructural) then "output may be incomplete"
      else "the document itself is complete"
    let counted := Text.counted errors.length "syntax error" "syntax errors"
    s.printer.line .warning "Warning" s!"{s.display p} has {counted}; {consequence}"

/-- The tournament of a file, with what is printed on the way. Lexical errors leave none. -/
def loadTournament (s : Session) (strictness : Strictness) (p : Path) :
    String × Except Failure Tournament :=
  match s.readSource p with
  | .error f => ("", .error f)
  | .ok source =>
    let a := analyze strictness source
    match a.document? with
    | none => (diagnosticLines a, .error (.lexicalErrors (s.display p) a.lexicalErrors.length))
    | some t => (diagnosticLines a ++ s.syntaxWarning p a.syntaxErrors, .ok t)

end Session

end Knockout
