import Knockout.Command.Session
import Knockout.Records

/-!
# Checking files

The command that looks for errors in definition files. The verdict does not depend on the format:
it fails when a file has errors, and before that when a file cannot be read.
-/

namespace Knockout.Check

/-- A file with all that was found out about it. -/
structure Checked where
  path : Path
  analysis : Analysis

/-- Reads and analyses files up to the first that cannot be read. -/
def checkFiles (s : Session) (strictness : Strictness) :
    List Path → List Checked × Option Failure
  | [] => ([], none)
  | p :: paths =>
    match s.readSource p with
    | .error f => ([], some f)
    | .ok source =>
      let (checked, failure) := checkFiles s strictness paths
      (⟨p, analyze strictness source⟩ :: checked, failure)

/-- What is printed about a file while files are checked. -/
def progress (s : Session) (c : Checked) : String :=
  s.printer.line .status "Checking" (s.printer.highlight (s.display c.path)) ++
    Session.diagnosticLines c.analysis

/-- The record of a file. -/
def record (s : Session) (c : Checked) : Json :=
  .object [("path", .string (s.display c.path)), ("ok", .bool c.analysis.isClean),
    ("parsed", .bool c.analysis.parsed.isSome),
    ("lex_errors", .list LexicalError.record c.analysis.lexicalErrors),
    ("syntax_errors", .list SyntaxError.record c.analysis.syntaxErrors)]

/-- The failure of files that have errors. -/
def verdict (checked : List Checked) : Option Failure :=
  let failed := checked.countP fun c => !c.analysis.isClean
  if failed = 0 then none
  else
    let errors := checked.foldl (fun n c => n + c.analysis.errorCount) 0
    some (.errorsFound errors failed checked.length)

/-- What is said in the end when no file has errors. -/
def closing (s : Session) (checked : List Checked) : String :=
  if (verdict checked).isSome then ""
  else
    let counted := Text.counted checked.length "file" "files"
    s.printer.line .status "Finished" s!"{counted} checked, no errors"

/-- Checks files that have been collected. -/
def runFiles (s : Session) (strictness : Strictness) (format : OutputFormat)
    (paths : List Path) : Execution :=
  let (checked, unreadable) := checkFiles s strictness paths
  let shown :=
    match format with
    | .text => String.join (checked.map (progress s))
    | .json => ""
  match unreadable with
  | some f => { stderr := shown, failure := some f }
  | none =>
    { stdout :=
        match format with
        | .text => ""
        | .json => (Json.list (record s) checked).pretty ++ "\n"
      stderr := shown ++ closing s checked
      failure := verdict checked }

/-- Checks the files that some paths stand for, or those of the project where none are given. -/
def run (s : Session) (config : Config) (strict : Bool) (format : Option OutputFormat)
    (paths : List Path) : Execution :=
  match s.place.collect config s.place.path paths with
  | .error p => { failure := some (.missingSource p) }
  | .ok [] => { stderr := s.printer.line .warning "Warning" "no .tourney files found" }
  | .ok files => runFiles s (config.strictness strict) (format.getD config.format) files

end Knockout.Check
