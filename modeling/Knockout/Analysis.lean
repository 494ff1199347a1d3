import Knockout.Syntax.Parsed
import Knockout.Token.Lexed

/-!
# Analysis

A text is read into tokens and the tokens into a tournament. Tokens are only read on when nothing
was wrong with the text; otherwise the analysis ends with the lexical errors.
-/

namespace Knockout

/-- All that is found out about a text. -/
structure Analysis where
  lexed : Lexed
  /-- Absent when lexical errors kept the tokens from being read. -/
  parsed : Option Parsed
  deriving DecidableEq, Repr

namespace Analysis

/-- The tournament, if the tokens were read. -/
def document? (a : Analysis) : Option Tournament := a.parsed.map (·.document)

/-- Everything wrong with the text. -/
def lexicalErrors (a : Analysis) : List LexicalError := a.lexed.errors

/-- Everything wrong with the tokens. -/
def syntaxErrors (a : Analysis) : List SyntaxError := (a.parsed.map (·.errors)).getD []

/-- Number of errors of both sorts. -/
def errorCount (a : Analysis) : Nat := a.lexicalErrors.length + a.syntaxErrors.length

/-- Whether nothing is wrong at all. -/
def isClean (a : Analysis) : Bool := a.lexicalErrors.isEmpty && a.syntaxErrors.isEmpty

/-- Nothing is wrong exactly when there are no errors to count. -/
theorem isClean_iff (a : Analysis) : a.isClean = true ↔ a.errorCount = 0 := by
  simp [isClean, errorCount]

end Analysis

/-- Reads a text as far as it goes. -/
def analyze (strictness : Strictness) (source : String) : Analysis :=
  let lexed := tokenize source
  { lexed, parsed := if lexed.isClean then some (parse strictness lexed.tokens) else none }

end Knockout
