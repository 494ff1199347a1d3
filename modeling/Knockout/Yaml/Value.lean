import Knockout.Yaml.Token

/-!
# Values of YAML

The value that a YAML text stands for: scalars, sequences and mappings. A text holds one document
at most; an empty one has no value.
-/

namespace Knockout

/-- A value of YAML. -/
inductive Yaml where
  /-- A scalar, and whether it was written without quotes. -/
  | scalar (text : String) (plain : Bool)
  | sequence (items : List Yaml)
  | mapping (entries : List (Yaml × Yaml))

namespace Yaml

/-- The value that is there where nothing is written. -/
def empty : Yaml := .scalar "" true

/-- Whether a value is empty: an empty scalar without quotes. -/
def isEmpty : Yaml → Bool
  | .scalar text plain => plain && text.isEmpty
  | _ => false

/-- Whether no node starts at a token after a dash. -/
def endsItem : Option Token → Bool
  | some .entry | some .blockEnd | none => true
  | _ => false

/-- Whether no node starts at a token after the mark of a key or a colon. -/
def endsPart : Option Token → Bool
  | some .key | some .value | some .blockEnd | none => true
  | _ => false

/-- Whether no node starts at a token in a flow collection that `closer` ends. -/
def endsFlow (closer : Token) : Option Token → Bool
  | some t => t == closer || t == .flowEntry || t == .value
  | none => true

mutual

/-- A node. Sequences without indentation are allowed where `inLine` holds, and block collections
where `block` does. `fuel` bounds the steps. -/
def node (block inLine : Bool) : Nat → List Token → Option (Yaml × List Token)
  | 0, _ => none
  | fuel + 1, tokens =>
    match tokens with
    | .scalar text plain :: rest => some (.scalar text plain, rest)
    | .flowSequenceStart :: rest => flowItems true [] fuel rest
    | .flowMappingStart :: rest => flowPairs true [] fuel rest
    | .sequenceStart :: rest => if block then blockItems [] fuel rest else none
    | .mappingStart :: rest => if block then blockPairs [] fuel rest else none
    | .entry :: rest => if inLine then inLineItems [] fuel (.entry :: rest) else none
    | _ => none

/-- A node, or the empty value where none can start. -/
def part (ends : Option Token → Bool) (block inLine : Bool) :
    Nat → List Token → Option (Yaml × List Token)
  | 0, _ => none
  | fuel + 1, tokens =>
    if ends tokens.head? then some (empty, tokens) else node block inLine fuel tokens

/-- The items of an indented sequence. -/
def blockItems (items : List Yaml) : Nat → List Token → Option (Yaml × List Token)
  | 0, _ => none
  | fuel + 1, tokens =>
    match tokens with
    | .entry :: rest => do
      let (item, rest) ← part endsItem true false fuel rest
      blockItems (items ++ [item]) fuel rest
    | .blockEnd :: rest => some (.sequence items, rest)
    | _ => none

/-- The items of a sequence that is in line with the key before it. -/
def inLineItems (items : List Yaml) : Nat → List Token → Option (Yaml × List Token)
  | 0, _ => none
  | fuel + 1, tokens =>
    match tokens with
    | .entry :: rest => do
      let ends (t : Option Token) : Bool := endsPart t || t == some .entry
      let (item, rest) ← part ends true false fuel rest
      inLineItems (items ++ [item]) fuel rest
    | _ => some (.sequence items, tokens)

/-- The entries of an indented mapping. -/
def blockPairs (entries : List (Yaml × Yaml)) : Nat → List Token → Option (Yaml × List Token)
  | 0, _ => none
  | fuel + 1, tokens =>
    match tokens with
    | .key :: rest => do
      let (key, rest) ← part endsPart true true fuel rest
      match rest with
      | .value :: rest =>
        let (value, rest) ← part endsPart true true fuel rest
        blockPairs (entries ++ [(key, value)]) fuel rest
      | _ => blockPairs (entries ++ [(key, empty)]) fuel rest
    | .blockEnd :: rest => some (.mapping entries, rest)
    | _ => none

/-- The items of a sequence in brackets. An item with a colon is a mapping of one entry. -/
def flowItems (first : Bool) (items : List Yaml) : Nat → List Token → Option (Yaml × List Token)
  | 0, _ => none
  | fuel + 1, tokens =>
    match tokens with
    | .flowSequenceEnd :: rest => some (.sequence items, rest)
    | .flowEntry :: rest => if first then none else flowItem items fuel rest
    | _ => if first then flowItem items fuel tokens else none

/-- One item of a sequence in brackets, or its end. -/
def flowItem (items : List Yaml) : Nat → List Token → Option (Yaml × List Token)
  | 0, _ => none
  | fuel + 1, tokens =>
    match tokens with
    | .flowSequenceEnd :: rest => some (.sequence items, rest)
    | .key :: rest => do
      let (key, rest) ← part (endsFlow .flowSequenceEnd) false false fuel rest
      let (value, rest) ← flowValue .flowSequenceEnd fuel rest
      flowItems false (items ++ [.mapping [(key, value)]]) fuel rest
    | _ => do
      let (item, rest) ← node false false fuel tokens
      flowItems false (items ++ [item]) fuel rest

/-- The value after a key in a flow collection; without a colon it is empty. -/
def flowValue (closer : Token) : Nat → List Token → Option (Yaml × List Token)
  | 0, _ => none
  | fuel + 1, tokens =>
    match tokens with
    | .value :: rest =>
      if rest.head? == some closer || rest.head? == some .flowEntry then some (empty, rest)
      else node false false fuel rest
    | _ => some (empty, tokens)

/-- The entries of a mapping in braces. -/
def flowPairs (first : Bool) (entries : List (Yaml × Yaml)) :
    Nat → List Token → Option (Yaml × List Token)
  | 0, _ => none
  | fuel + 1, tokens =>
    match tokens with
    | .flowMappingEnd :: rest => some (.mapping entries, rest)
    | .flowEntry :: rest => if first then none else flowPair entries fuel rest
    | _ => if first then flowPair entries fuel tokens else none

/-- One entry of a mapping in braces, or its end. -/
def flowPair (entries : List (Yaml × Yaml)) : Nat → List Token → Option (Yaml × List Token)
  | 0, _ => none
  | fuel + 1, tokens =>
    match tokens with
    | .flowMappingEnd :: rest => some (.mapping entries, rest)
    | .key :: rest => do
      let (key, rest) ← part (endsFlow .flowMappingEnd) false false fuel rest
      let (value, rest) ← flowValue .flowMappingEnd fuel rest
      flowPairs false (entries ++ [(key, value)]) fuel rest
    | _ => do
      let (key, rest) ← node false false fuel tokens
      flowPairs false (entries ++ [(key, empty)]) fuel rest

end

/-- The value of a text that holds one document at most: no value for none. -/
def ofTokens? (tokens : List Token) : Option (Option Yaml) := do
  let fuel := 8 * tokens.length + 8
  let isMarker (t : Token) : Bool := t == .documentStart || t == .documentEnd
  let (value, rest) ←
    match tokens with
    | [] => some (none, [])
    | .documentStart :: rest =>
      if rest.head?.all isMarker then some (some empty, rest)
      else (node true false fuel rest).map fun r => (some r.1, r.2)
    | tokens => (node true false fuel tokens).map fun r => (some r.1, r.2)
  if (rest.dropWhile (· == .documentEnd)).isEmpty then some value else none

/-- Reads a text: none where it is malformed, `some none` where it is empty. -/
def ofText? (text : String) : Option (Option Yaml) := (tokens? text).bind ofTokens?

end Yaml

end Knockout
