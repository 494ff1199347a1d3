import Knockout.Source.Location
import Knockout.Token.Kind

/-!
# Tokens

A token is a kind, the text it was written with and the place it was found at.
-/

namespace Knockout

/-- A classified piece of source text. -/
structure Token where
  kind : Kind
  /-- The source text; for a string, the text between its quotes. -/
  lexeme : String
  span : Span
  deriving DecidableEq, Repr

namespace Token

/-- A token as messages about it name it. -/
def quoted (t : Token) : String :=
  match t.kind with
  | .string => s!"\"{t.lexeme}\""
  | _ => s!"'{t.lexeme}'"

end Token

end Knockout
