import Knockout.Analysis

/-!
# Diagnostics

Errors as they are shown to people: a message with a code, a help text where there is one, and a
label on a stretch of the source.
-/

namespace Knockout

/-- A problem with a stretch of source text. -/
structure Diagnostic where
  message : String
  /-- What kind of problem it is, for tools. -/
  code : String
  /-- What to do about it. -/
  help : Option String
  /-- What to write at the stretch. -/
  label : String
  /-- Where the stretch starts, in bytes. -/
  offset : Nat
  /-- How long it is, in bytes. -/
  length : Nat
  deriving DecidableEq, Repr

namespace LexicalFaultKind

/-- The name of a category, as messages and records have it. -/
def name : LexicalFaultKind → String
  | .invalidToken => "INVALID_TOKEN"
  | .unbalancedDelimiter => "UNBALANCED_DELIMITER"
  | .unterminatedString => "UNTERMINATED_STRING"

/-- The code of a category, as diagnostics show it. -/
def code : LexicalFaultKind → String
  | .invalidToken => "tourney::lex::invalid-token"
  | .unbalancedDelimiter => "tourney::lex::unbalanced-delimiter"
  | .unterminatedString => "tourney::lex::unterminated-string"

/-- What to do about a fault of a category. -/
def help : LexicalFaultKind → String
  | .invalidToken =>
    "words may only contain letters and underscores; numbers stand on their own"
  | .unbalancedDelimiter => "every '\x7b' needs a '\x7d' and every '[' needs a ']'"
  | .unterminatedString => "close the string with '\"' on the same line"

end LexicalFaultKind

namespace SyntaxFaultKind

/-- The name of a category, as messages and records have it. -/
def name : SyntaxFaultKind → String
  | .unexpectedToken => "UNEXPECTED_TOKEN"
  | .unknownAttribute => "UNKNOWN_ATTRIBUTE"
  | .unknownSection => "UNKNOWN_SECTION"
  | .cardinalityMismatch => "CARDINALITY_MISMATCH"
  | .duplicateTeam => "DUPLICATE_TEAM"
  | .unknownTeamReference => "UNKNOWN_TEAM_REFERENCE"

/-- The code of a category, as diagnostics show it. -/
def code : SyntaxFaultKind → String
  | .unexpectedToken => "tourney::syntax::unexpected-token"
  | .unknownAttribute => "tourney::syntax::unknown-attribute"
  | .unknownSection => "tourney::syntax::unknown-section"
  | .cardinalityMismatch => "tourney::syntax::cardinality-mismatch"
  | .duplicateTeam => "tourney::syntax::duplicate-team"
  | .unknownTeamReference => "tourney::syntax::unknown-team"

end SyntaxFaultKind

namespace LexicalError

/-- The error on one line. -/
def text (e : LexicalError) : String :=
  s!"{e.span.first.text}: {e.fault.kind.name}: {e.fault.message}"

/-- The error as it is shown at its place. -/
def diagnostic (e : LexicalError) : Diagnostic :=
  { message := e.fault.message
    code := e.fault.kind.code
    help := some e.fault.kind.help
    label := e.fault.kind.name
    offset := e.span.first.offset
    length := e.span.length }

end LexicalError

namespace SyntaxError

/-- The error on one line. -/
def text (e : SyntaxError) : String := s!"{e.span.first.text}: {e.kind.name}: {e.message}"

/-- The error as it is shown at its place. -/
def diagnostic (e : SyntaxError) : Diagnostic :=
  { message := e.message
    code := e.kind.code
    help := none
    label := e.kind.name
    offset := e.span.first.offset
    length := e.span.length }

end SyntaxError

/-- All errors of an analysis as they are shown, the lexical ones first. -/
def Analysis.diagnostics (a : Analysis) : List Diagnostic :=
  a.lexicalErrors.map (·.diagnostic) ++ a.syntaxErrors.map (·.diagnostic)

end Knockout
