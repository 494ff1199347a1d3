import Knockout.Project.Tree
import Knockout.Text.Counted

/-!
# Failures of commands

Why a command did not succeed. Each cause has its message, and some say what to do about it.
-/

namespace Knockout

/-- A cause for a command to fail. -/
inductive Failure where
  /-- A path to check leads nowhere. -/
  | missingSource (p : Path)
  | unreadableSource (p : Path) (fault : FileFault)
  | unreadableConfig (p : Path) (fault : FileFault)
  | unwritableGraph (p : Path) (fault : FileFault)
  | invalidConfig
  /-- A file, as it is shown, has so many lexical errors that its tokens cannot be read. -/
  | lexicalErrors (file : String) (count : Nat)
  /-- So many errors, in so many of the files that were checked. -/
  | errorsFound (errors failed files : Nat)
  deriving DecidableEq, Repr

/-- Category of a failure. -/
inductive FailureKind where
  | io
  | config
  | analysis
  deriving DecidableEq, Repr

namespace Failure

/-- The category of a failure. -/
def kind : Failure → FailureKind
  | .missingSource _ | .unreadableSource .. | .unreadableConfig .. | .unwritableGraph .. => .io
  | .invalidConfig => .config
  | .lexicalErrors .. | .errorsFound .. => .analysis

/-- The failure as people read it. -/
def message : Failure → String
  | .missingSource p => s!"IO error with {p.text}: No such file or directory"
  | .unreadableSource p fault =>
    s!"IO error with {p.text}: Failed to read source: {fault.message}"
  | .unreadableConfig p fault =>
    s!"IO error with {p.text}: Failed to read config: {fault.message}"
  | .unwritableGraph p fault =>
    s!"IO error with {p.text}: Failed to write DOT file: {fault.message}"
  | .invalidConfig => "Config error: Invalid config"
  | .lexicalErrors file count =>
    let counted := Text.counted count "lexical error" "lexical errors"
    s!"Analysis failed: {file} has {counted}"
  | .errorsFound errors failed files =>
    let found := Text.counted errors "error" "errors"
    let checked := Text.counted files "file" "files"
    s!"Analysis failed: {found} in {failed} of {checked}"

/-- What to do about the failure. -/
def help : Failure → Option String
  | .invalidConfig => some "Check tourney.yaml syntax"
  | .lexicalErrors .. =>
    some "Fix the lexical errors first; parsing needs a clean token stream"
  | _ => none

end Failure

namespace FailureKind

/-- The code of a category, for tools. -/
def code : FailureKind → String
  | .io => "tourney::io"
  | .config => "tourney::config"
  | .analysis => "tourney::analysis"

end FailureKind

end Knockout
