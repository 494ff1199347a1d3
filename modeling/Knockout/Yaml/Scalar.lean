import Knockout.Yaml.Gap

/-!
# Scalars of YAML

Reading the three ways to write a scalar in YAML: plain, in single quotes and in double quotes.
White space inside a scalar is held back as a `Gap` until something follows it. Every reader here
goes once over the characters; `Mark` says how far it has come.
-/

namespace Knockout.Yaml

/-- A scalar that has been read. -/
structure Scanned where
  text : String
  rest : List Char
  mark : Mark
  /-- Whether a line break was gone over after the scalar. -/
  brokeLine : Bool := false

/-- The characters that structure a flow collection. -/
def isFlowIndicator (c : Char) : Bool :=
  c == ',' || c == '[' || c == ']' || c == '\x7b' || c == '\x7d'

/-- Reads a plain scalar. Outside flow collections a line that is not indented by `indent` ends
it. `text` is what has been read, the latest character first. -/
def plain (flow : Bool) (indent : Int) (text : List Char) (gap : Gap) (m : Mark) :
    List Char → Option Scanned
  | [] => some ⟨String.ofList text.reverse, [], m, gap.hasBreak⟩
  | c :: cs =>
    let stopped : Scanned := ⟨String.ofList text.reverse, c :: cs, m, gap.hasBreak⟩
    if isSpace c then
      if c = '\t' ∧ gap.hasBreak ∧ (m.column : Int) < indent then none
      else plain flow indent text (gap.space c) (m.advance c) cs
    else if isBreak c then plain flow indent text (gap.newline c) (m.advance c) cs
    else if gap ≠ .none ∧
        ((!flow ∧ (m.column : Int) < indent) ∨ atDocumentMarker m (c :: cs) ∨ c = '#') then
      some stopped
    else if flow ∧ c = ':' ∧ cs.head?.any (fun d => isFlowIndicator d || d == '?') then none
    else if (c = ':' ∧ endsWord cs) ∨ (flow ∧ isFlowIndicator c) then some stopped
    else plain flow indent (c :: (gap.folded ++ text)) .none (m.advance c) cs

/-- What the escape of one character stands for. -/
def escapeValue? : Char → Option Char
  | '0' => some '\x00'
  | 'a' => some '\x07'
  | 'b' => some '\x08'
  | 't' | '\t' => some '\t'
  | 'n' => some '\n'
  | 'v' => some '\x0b'
  | 'f' => some '\x0c'
  | 'r' => some '\r'
  | 'e' => some '\x1b'
  | ' ' => some ' '
  | '"' => some '"'
  | '/' => some '/'
  | '\\' => some '\\'
  | 'N' => some '\u0085'
  | '_' => some '\u00a0'
  | 'L' => some '\u2028'
  | 'P' => some '\u2029'
  | _ => none

/-- Value of a hexadecimal digit. -/
def hexValue? (c : Char) : Option Nat :=
  if c.isDigit then some (c.toNat - '0'.toNat)
  else if 'a' ≤ c ∧ c ≤ 'f' then some (c.toNat - 'a'.toNat + 10)
  else if 'A' ≤ c ∧ c ≤ 'F' then some (c.toNat - 'A'.toNat + 10)
  else none

/-- How far an escape has been read. -/
inductive Escape where
  | none
  | backslash
  /-- So many hexadecimal digits are to come, after those with this value. -/
  | hex (left value : Nat)
  deriving DecidableEq, Repr

/-- The number of hexadecimal digits that an escape announces. -/
def hexDigits? : Char → Option Nat
  | 'x' => some 2
  | 'u' => some 4
  | 'U' => some 8
  | _ => none

/-- Reads a scalar in double quotes, after the opening quote. -/
def doubleQuoted (text : List Char) (gap : Gap) (escape : Escape) (m : Mark) :
    List Char → Option Scanned
  | [] => none
  | c :: cs =>
    let next := m.advance c
    match escape with
    | .hex left value =>
      match hexValue? c with
      | none => none
      | some digit =>
        let value := 16 * value + digit
        if left ≤ 1 then
          if value.isValidChar then doubleQuoted (Char.ofNat value :: text) .none .none next cs
          else none
        else doubleQuoted text .none (.hex (left - 1) value) next cs
    | .backslash =>
      if isBreak c then doubleQuoted text (.escaped []) .none next cs
      else
        match hexDigits? c, escapeValue? c with
        | some digits, _ => doubleQuoted text .none (.hex digits 0) next cs
        | none, some d => doubleQuoted (d :: text) .none .none next cs
        | none, none => none
    | .none =>
      if atDocumentMarker m (c :: cs) then none
      else if isSpace c then doubleQuoted text (gap.space c) .none next cs
      else if isBreak c then doubleQuoted text (gap.newline c) .none next cs
      else if c = '"' then
        some ⟨String.ofList (gap.folded ++ text).reverse, cs, next, false⟩
      else if c = '\\' then doubleQuoted (gap.folded ++ text) .none .backslash next cs
      else doubleQuoted (c :: (gap.folded ++ text)) .none .none next cs

/-- Reads a scalar in single quotes, after the opening quote. Two quotes stand for one; `quote`
says that the character before was the first of them, or the end of the scalar. -/
def singleQuoted (text : List Char) (gap : Gap) (quote : Bool) (m : Mark) :
    List Char → Option Scanned
  | [] => if quote then some ⟨String.ofList text.reverse, [], m, false⟩ else none
  | c :: cs =>
    let next := m.advance c
    if quote then
      if c = '\'' then singleQuoted ('\'' :: text) .none false next cs
      else some ⟨String.ofList text.reverse, c :: cs, m, false⟩
    else if atDocumentMarker m (c :: cs) then none
    else if isSpace c then singleQuoted text (gap.space c) false next cs
    else if isBreak c then singleQuoted text (gap.newline c) false next cs
    else if c = '\'' then singleQuoted (gap.folded ++ text) .none true next cs
    else singleQuoted (c :: (gap.folded ++ text)) .none false next cs

end Knockout.Yaml
