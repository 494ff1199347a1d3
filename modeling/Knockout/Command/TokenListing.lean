import Knockout.Command.Session
import Knockout.Records
import Knockout.Text.Table

/-!
# Listing tokens

The command that lists the tokens and the lexical errors of a file.
-/

namespace Knockout.TokenListing

def tokenRecord (t : Token × Nat) : Json :=
  .object [("number", .nat t.2), ("kind", .string t.1.kind.family),
    ("lexeme", .string t.1.lexeme), ("line", .nat t.1.span.first.line),
    ("column", .nat t.1.span.first.column)]

/-- The record of a listing. -/
def record (l : Lexed) : Json :=
  .object [("tokens", .list tokenRecord (l.tokens.zipIdx 1)),
    ("errors", .list LexicalError.record l.errors)]

def tokenRow (t : Token × Nat) : List String :=
  [toString t.2, t.1.kind.family, t.1.lexeme, toString t.1.span.first.line,
    toString t.1.span.first.column]

def errorRow (e : LexicalError) : List String :=
  [toString e.number, e.fault.lexeme, e.fault.kind.name, e.fault.message,
    toString e.span.first.line, toString e.span.first.column]

/-- A listing as tables; that of the errors is left out when there are none. -/
def text (l : Lexed) : String :=
  let tokens :=
    Text.tableText ["#", "Kind", "Lexeme", "Line", "Column"] ((l.tokens.zipIdx 1).map tokenRow)
  let errors :=
    if l.errors.isEmpty then ""
    else
      "\n" ++ Text.tableText ["#", "Lexeme", "Kind", "Message", "Line", "Column"]
        (l.errors.map errorRow)
  tokens ++ errors

/-- What is said about a listing in the end. -/
def closing (s : Session) (file : Path) (l : Lexed) : String :=
  let counted := Text.counted l.tokens.length "token" "tokens"
  let summary := s!"{counted} in {s.display file}"
  if l.isClean then s.printer.line .status "Tokenized" summary
  else
    let errors := Text.counted l.errors.length "error" "errors"
    s.printer.line .warning "Tokenized" s!"{summary}, {errors}"

/-- Lists the tokens of a file. -/
def run (s : Session) (config : Config) (format : Option OutputFormat) (file : Path) :
    Execution :=
  match s.readSource file with
  | .error f => { failure := some f }
  | .ok source =>
    let lexed := tokenize source
    { stdout :=
        match format.getD config.format with
        | .text => text lexed
        | .json => (record lexed).pretty ++ "\n"
      stderr := closing s file lexed }

end Knockout.TokenListing
