import Knockout.Decimal.Shortest

/-!
# JSON values

Values of the data format JSON and their text. An object keeps its fields in the order in which
they were given. `Json.pretty` lays a value out over lines, two spaces a level; `Json.compact`
writes it on one line.
-/

namespace Knockout

/-- A value of JSON. -/
inductive Json where
  | null
  | bool (b : Bool)
  | int (i : Int)
  /-- A number with a fraction. -/
  | real (x : Float)
  | string (s : String)
  | array (items : List Json)
  | object (fields : List (String × Json))

namespace Json

/-- A counted value. -/
def nat (n : Nat) : Json := .int n

/-- A value that may be absent. -/
def option (f : α → Json) : Option α → Json
  | none => .null
  | some a => f a

/-- A list of values. -/
def list (f : α → Json) (items : List α) : Json := .array (items.map f)

/-- A hexadecimal digit. -/
def hexDigit (n : Nat) : Char :=
  if n < 10 then Char.ofNat ('0'.toNat + n) else Char.ofNat ('a'.toNat + n - 10)

/-- A character as it stands in a quoted text: quotes, backslashes and control characters are
escaped, all else stands for itself. -/
def escape (c : Char) : List Char :=
  if c = '"' then ['\\', '"']
  else if c = '\\' then ['\\', '\\']
  else if c = '\n' then ['\\', 'n']
  else if c = '\r' then ['\\', 'r']
  else if c = '\t' then ['\\', 't']
  else if c.toNat = 0x08 then ['\\', 'b']
  else if c.toNat = 0x0C then ['\\', 'f']
  else if c.toNat < 0x20 then
    ['\\', 'u', '0', '0', hexDigit (c.toNat / 16), hexDigit (c.toNat % 16)]
  else [c]

/-- A quoted text. -/
def quote (s : String) : String := String.ofList ('"' :: s.toList.flatMap escape ++ ['"'])

/-- Text of a value that holds no other value. -/
def scalar : Json → String
  | .null => "null"
  | .bool b => if b then "true" else "false"
  | .int i => toString i
  | .real x => Decimal.shortestText x
  | .string s => quote s
  | .array _ => "[]"
  | .object _ => "\x7b\x7d"

/-- A new line, two spaces in for each level. -/
def newline (level : Nat) : String := String.ofList ('\n' :: List.replicate (2 * level) ' ')

mutual

/-- Text of a value over lines; `level` is how deep the value stands. -/
def prettyAt (level : Nat) : Json → String
  | .array (v :: vs) =>
    "[" ++ newline (level + 1) ++ prettyAt (level + 1) v ++ prettyItems (level + 1) vs ++
      newline level ++ "]"
  | .object ((k, v) :: fs) =>
    "\x7b" ++ newline (level + 1) ++ quote k ++ ": " ++ prettyAt (level + 1) v ++
      prettyFields (level + 1) fs ++ newline level ++ "\x7d"
  | v => v.scalar

/-- The items of an array after the first. -/
def prettyItems (level : Nat) : List Json → String
  | [] => ""
  | v :: vs => "," ++ newline level ++ prettyAt level v ++ prettyItems level vs

/-- The fields of an object after the first. -/
def prettyFields (level : Nat) : List (String × Json) → String
  | [] => ""
  | (k, v) :: fs =>
    "," ++ newline level ++ quote k ++ ": " ++ prettyAt level v ++ prettyFields level fs

end

/-- Text of a value over lines. -/
def pretty (v : Json) : String := v.prettyAt 0

mutual

/-- Text of a value on one line. -/
def compact : Json → String
  | .array (v :: vs) => "[" ++ compact v ++ compactItems vs ++ "]"
  | .object ((k, v) :: fs) =>
    "\x7b" ++ quote k ++ ":" ++ compact v ++ compactFields fs ++ "\x7d"
  | v => v.scalar

/-- The items of an array after the first, on one line. -/
def compactItems : List Json → String
  | [] => ""
  | v :: vs => "," ++ compact v ++ compactItems vs

/-- The fields of an object after the first, on one line. -/
def compactFields : List (String × Json) → String
  | [] => ""
  | (k, v) :: fs => "," ++ quote k ++ ":" ++ compact v ++ compactFields fs

end

end Json

end Knockout
