import Knockout.Source.Location
import Knockout.Token.Kind

/-!
# Lexical faults

What can be wrong with a text before its tokens are read: a piece that is no token, a string that
is never closed, and delimiters without a partner. A `LexicalError` is a fault with its place and
its number in the list of errors of a text.
-/

namespace Knockout

/-- A pair of symbols that enclose something. -/
inductive Delimiter where
  | brace
  | bracket
  deriving DecidableEq, Repr

namespace Delimiter

/-- The symbol that opens. -/
def opener : Delimiter → Symbol
  | .brace => .lbrace
  | .bracket => .lbracket

/-- The symbol that closes. -/
def closer : Delimiter → Symbol
  | .brace => .rbrace
  | .bracket => .rbracket

end Delimiter

/-- Category of a lexical fault. -/
inductive LexicalFaultKind where
  /-- A character outside the language, or a word with a digit in it. -/
  | invalidToken
  /-- A closer without an opener, or an opener that is never closed. -/
  | unbalancedDelimiter
  /-- A string cut off by the end of its line or of the text. -/
  | unterminatedString
  deriving DecidableEq, Repr

/-- A cause of a lexical error. -/
inductive LexicalFault where
  | digitInWord (word : String)
  | foreignChar (c : Char)
  /-- The text from the opening quote on, without the carriage returns at its end. -/
  | openString (text : String)
  | unmatchedCloser (d : Delimiter)
  | unclosedOpener (d : Delimiter)
  deriving DecidableEq, Repr

namespace LexicalFault

/-- The category of a fault. -/
def kind : LexicalFault → LexicalFaultKind
  | .digitInWord _ | .foreignChar _ => .invalidToken
  | .openString _ => .unterminatedString
  | .unmatchedCloser _ | .unclosedOpener _ => .unbalancedDelimiter

/-- The text that a fault is about. -/
def lexeme : LexicalFault → String
  | .digitInWord word => word
  | .foreignChar c => c.toString
  | .openString text => text
  | .unmatchedCloser d => d.closer.char.toString
  | .unclosedOpener d => d.opener.char.toString

/-- The fault as people read it. -/
def message : LexicalFault → String
  | .digitInWord word => s!"'{word}' contains a digit; words may only use letters and '_'"
  | .foreignChar c => s!"character '{c}' is not allowed"
  | .openString _ => "string is never closed"
  | .unmatchedCloser d => s!"'{d.closer.char}' has no matching '{d.opener.char}'"
  | .unclosedOpener d =>
    s!"'{d.opener.char}' is never closed; expected a matching '{d.closer.char}'"

end LexicalFault

/-- A lexical fault of a text. -/
structure LexicalError where
  /-- Place in the list of errors, from 1. -/
  number : Nat
  fault : LexicalFault
  span : Span
  deriving DecidableEq, Repr

end Knockout
