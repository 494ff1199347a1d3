import Knockout.Json
import Mathlib.Data.Char
import Mathlib.Tactic.Lemma

/-!
# Texts of JSON values

A text of JSON is cut into lexemes (`Json.lexemes`), and an automaton reads these with a stack of
the arrays and objects that are not complete yet (`Json.State.step`, `Json.ofText?`). It takes any
blanks between lexemes and any way to escape a character. Main statements: `Json.ofText?_pretty`,
what is laid out over lines is read back as the value it was made from, and with it
`Json.pretty_inj`, the text determines the value. Both are about values whose numbers are whole.
-/

namespace Knockout.Json

/-! ## Lexemes -/

/-- A smallest part of a text of JSON. -/
inductive Lexeme where
  | blank
  /-- A bracket, a brace, a comma or a colon. -/
  | mark (c : Char)
  /-- What a quoted text stands for. -/
  | text (s : List Char)
  /-- A number or a name. -/
  | word (cs : List Char)

/-- Whether a character may stand between lexemes. -/
def isBlank (c : Char) : Bool := c ∈ [' ', '\t', '\n', '\r']

/-- Whether a character is a lexeme by itself. -/
def isMark (c : Char) : Bool := c ∈ ['[', ']', '{', '}', ',', ':']

/-- Whether a character is part of a word. -/
def inWord (c : Char) : Bool := !isBlank c && !isMark c && c != '"'

/-- Puts a character of a word in front of lexemes. -/
def extendWord (c : Char) : List Lexeme → List Lexeme
  | .word cs :: ls => .word (c :: cs) :: ls
  | ls => .word [c] :: ls

/-- The value of a hexadecimal digit, in either case. -/
def hexValue? (c : Char) : Option Nat :=
  if '0' ≤ c ∧ c ≤ '9' then some (c.toNat - '0'.toNat)
  else if 'a' ≤ c ∧ c ≤ 'f' then some (c.toNat - 'a'.toNat + 10)
  else if 'A' ≤ c ∧ c ≤ 'F' then some (c.toNat - 'A'.toNat + 10)
  else none

/-- The character that hexadecimal digits stand for. Halves of a surrogate pair stand for none. -/
def ofHex? (digits : List Char) : Option Char := do
  let values ← digits.mapM hexValue?
  let n := values.foldl (fun n value => 16 * n + value) 0
  if n.isValidChar then some (Char.ofNat n) else none

/-- What a character stands for behind a backslash. -/
def unescape? : Char → Option Char
  | '"' => some '"'
  | '\\' => some '\\'
  | '/' => some '/'
  | 'b' => some '\x08'
  | 'f' => some '\x0C'
  | 'n' => some '\n'
  | 'r' => some '\r'
  | 't' => some '\t'
  | _ => none

mutual

/-- The lexemes of a text. -/
def lexemes : List Char → Option (List Lexeme)
  | [] => some []
  | c :: cs =>
    if c = '"' then (quoted cs).map fun (s, ls) => .text s :: ls
    else if isMark c then (lexemes cs).map (.mark c :: ·)
    else if isBlank c then (lexemes cs).map (.blank :: ·)
    else (lexemes cs).map (extendWord c)

/-- What a quoted text stands for, from behind its first quote, and the lexemes after it. -/
def quoted : List Char → Option (List Char × List Lexeme)
  | [] => none
  | '"' :: cs => (lexemes cs).map fun ls => ([], ls)
  | '\\' :: 'u' :: a :: b :: c :: d :: cs => do
    let character ← ofHex? [a, b, c, d]
    let (s, ls) ← quoted cs
    return (character :: s, ls)
  | '\\' :: c :: cs => do
    let character ← unescape? c
    let (s, ls) ← quoted cs
    return (character :: s, ls)
  | c :: cs => do
    if c.toNat < 0x20 then none
    let (s, ls) ← quoted cs
    return (c :: s, ls)

end

/-! ## Values -/

/-- A run of decimal digits. -/
def natural? (cs : List Char) : Option Nat :=
  if cs ≠ [] ∧ cs.all Char.isDigit then some (Nat.ofDigitChars 10 cs 0) else none

/-- The value that a word stands for: a name, or a whole number. -/
def ofWord? : List Char → Option Json
  | ['n', 'u', 'l', 'l'] => some .null
  | ['t', 'r', 'u', 'e'] => some (.bool true)
  | ['f', 'a', 'l', 's', 'e'] => some (.bool false)
  | '-' :: cs => (natural? cs).map fun n => .int (-n)
  | cs => (natural? cs).map fun n => .int n

/-- An array or an object that is being read: its parts that are complete, the last one first, and
the key of the field that is not. -/
inductive Frame where
  | items (before : List Json)
  | fields (before : List (String × Json)) (key : String)

/-- What may follow in a text, with the arrays and objects around, the innermost first. -/
inductive State where
  /-- A value has to follow. -/
  | value (outer : List Frame)
  /-- A key has to follow, in an object with fields before it. -/
  | key (before : List (String × Json)) (outer : List Frame)
  /-- A key has been read, and a colon has to follow. -/
  | colon (before : List (String × Json)) (key : String) (outer : List Frame)
  /-- A value is complete. -/
  | after (v : Json) (outer : List Frame)

namespace State

/-- Reads one lexeme. An array or object may be closed before its first part, and then behind
each. -/
def step : State → Lexeme → Option State
  | st, .blank => some st
  | .value outer, .word cs => (ofWord? cs).map fun v => .after v outer
  | .value outer, .text s => some (.after (.string (.ofList s)) outer)
  | .value outer, .mark '[' => some (.value (.items [] :: outer))
  | .value outer, .mark '{' => some (.key [] outer)
  | .value (.items [] :: outer), .mark ']' => some (.after (.array []) outer)
  | .key [] outer, .mark '}' => some (.after (.object []) outer)
  | .key before outer, .text s => some (.colon before (.ofList s) outer)
  | .colon before k outer, .mark ':' => some (.value (.fields before k :: outer))
  | .after v (.items before :: outer), .mark ',' => some (.value (.items (v :: before) :: outer))
  | .after v (.items before :: outer), .mark ']' =>
    some (.after (.array (v :: before).reverse) outer)
  | .after v (.fields before k :: outer), .mark ',' => some (.key ((k, v) :: before) outer)
  | .after v (.fields before k :: outer), .mark '}' =>
    some (.after (.object ((k, v) :: before).reverse) outer)
  | _, _ => none

/-- The value that has been read, when all is complete. -/
def value? : State → Option Json
  | .after v [] => some v
  | _ => none

/-- Reads the rest of a text. -/
def read (st : State) (cs : List Char) : Option Json := do
  let last ← (← lexemes cs).foldlM step st
  last.value?

end State

/-- Reads a text of JSON whose numbers are whole. -/
def ofText? (text : String) : Option Json := (State.value []).read text.toList

/-- A value has no number with a fraction in it. -/
inductive Whole : Json → Prop where
  | null : Whole .null
  | bool (b : Bool) : Whole (.bool b)
  | int (i : Int) : Whole (.int i)
  | string (s : String) : Whole (.string s)
  | array {items : List Json} (whole : ∀ v ∈ items, Whole v) : Whole (.array items)
  | object {fields : List (String × Json)} (whole : ∀ f ∈ fields, Whole f.2) :
    Whole (.object fields)

variable {st : State} {outer : List Frame} {v w : Json} {c : Char} {front cs : List Char}

/-! ## Reading lexemes -/

/-- A character of a word is no blank, no mark and no quote. -/
lemma inWord_iff : inWord c = true ↔ isBlank c = false ∧ isMark c = false ∧ c ≠ '"' := by
  simp [inWord, and_assoc]

/-- A text goes on after a word. -/
def Ends (cs : List Char) : Prop := ∀ c ∈ cs.head?, inWord c = false

/-- A character of a word goes in front of the lexemes after it. -/
lemma lexemes_cons (word : inWord c = true) (cs : List Char) :
    lexemes (c :: cs) = (lexemes cs).map (extendWord c) := by
  obtain ⟨blank, mark, apart⟩ := inWord_iff.1 word
  simp [lexemes, apart, mark, blank]

/-- Where no character of a word comes next, the next lexeme is no word. -/
lemma extendWord_of_ends (ends : Ends cs) {ls : List Lexeme} (rest : lexemes cs = some ls) :
    extendWord c ls = .word [c] :: ls := by
  cases cs with
  | nil =>
    cases rest
    rfl
  | cons d cs =>
    have outside : inWord d = false := ends d rfl
    rw [lexemes] at rest
    split_ifs at rest with quote mark blank
    · obtain ⟨_, -, rfl⟩ := Option.map_eq_some_iff.1 rest
      rfl
    · obtain ⟨_, -, rfl⟩ := Option.map_eq_some_iff.1 rest
      rfl
    · obtain ⟨_, -, rfl⟩ := Option.map_eq_some_iff.1 rest
      rfl
    · simp [inWord, quote, mark, blank] at outside

/-- A word is one lexeme. -/
lemma lexemes_word (word : ∀ d ∈ c :: front, inWord d = true) (ends : Ends cs) :
    lexemes (c :: front ++ cs) = (lexemes cs).map (.word (c :: front) :: ·) := by
  induction front generalizing c with
  | nil =>
    rw [List.singleton_append, lexemes_cons (word c List.mem_cons_self)]
    cases rest : lexemes cs with
    | none => rfl
    | some ls => rw [Option.map_some, Option.map_some, extendWord_of_ends ends rest]
  | cons d front ih =>
    rw [List.forall_mem_cons] at word
    rw [List.cons_append, lexemes_cons word.1, ih word.2, Option.map_map]
    rfl

/-- A hexadecimal digit has the value that it was written for. -/
lemma hexValue?_hexDigit : ∀ n < 16, hexValue? (hexDigit n) = some n := by decide

/-- The four digits of a control character stand for it. -/
lemma ofHex?_hexDigit (c : Char) (control : c.toNat < 0x20) :
    ofHex? ['0', '0', hexDigit (c.toNat / 16), hexDigit (c.toNat % 16)] = some c := by
  have high := hexValue?_hexDigit (c.toNat / 16) (by omega)
  have low := hexValue?_hexDigit (c.toNat % 16) (by omega)
  have zeros : hexValue? '0' = some 0 := rfl
  have valid : c.toNat.isValidChar := .inl (by omega)
  simp [ofHex?, high, low, zeros, Nat.div_add_mod, valid]

/-- An escaped character is read back. -/
lemma quoted_escaped {e : Char} (short : e ≠ 'u') (meant : unescape? e = some c) (cs : List Char) :
    quoted ('\\' :: e :: cs) = (quoted cs).map fun (s, ls) => (c :: s, ls) := by
  rw [quoted.eq_4 e cs (by simp [short]), meant, Option.map_eq_bind]
  rfl

/-- A character is read back from how it stands in a quoted text. -/
lemma quoted_escape (c : Char) (cs : List Char) :
    quoted (escape c ++ cs) = (quoted cs).map fun (s, ls) => (c :: s, ls) := by
  unfold escape
  split_ifs with quote backslash line carriage tab backspace feed control
  · obtain rfl := quote
    exact quoted_escaped (by decide) rfl cs
  · obtain rfl := backslash
    exact quoted_escaped (by decide) rfl cs
  · obtain rfl := line
    exact quoted_escaped (by decide) rfl cs
  · obtain rfl := carriage
    exact quoted_escaped (by decide) rfl cs
  · obtain rfl := tab
    exact quoted_escaped (by decide) rfl cs
  · obtain rfl : c = '\x08' := Char.toNat_inj.1 backspace
    exact quoted_escaped (by decide) rfl cs
  · obtain rfl : c = '\x0C' := Char.toNat_inj.1 feed
    exact quoted_escaped (by decide) rfl cs
  · simp only [List.cons_append, List.nil_append]
    rw [quoted, ofHex?_hexDigit c control, Option.map_eq_bind]
    rfl
  · rw [List.singleton_append, quoted.eq_5 c cs quote (by simp [backslash]) (by simp [backslash]),
      if_neg control, Option.map_eq_bind]
    rfl

/-- A quoted text is one lexeme, which stands for that text. -/
lemma lexemes_quote (s : String) (cs : List Char) :
    lexemes ((quote s).toList ++ cs) = (lexemes cs).map (.text s.toList :: ·) := by
  have inside (front : List Char) : quoted (front.flatMap escape ++ '"' :: cs) =
      (lexemes cs).map fun ls => (front, ls) := by
    induction front with
    | nil => rfl
    | cons c front ih =>
      rw [List.flatMap_cons, List.append_assoc, quoted_escape, ih, Option.map_map]
      rfl
  have spelled : (quote s).toList ++ cs = '"' :: (s.toList.flatMap escape ++ '"' :: cs) := by
    simp [quote]
  rw [spelled, lexemes, if_pos rfl, inside, Option.map_map]
  rfl

/-! ## Reading values -/

namespace State

/-- The first lexeme of a text leads to the next state. -/
lemma read_lexeme {l : Lexeme} (first : lexemes (front ++ cs) = (lexemes cs).map (l :: ·))
    (st : State) : st.read (front ++ cs) = (st.step l).bind (·.read cs) := by
  rw [read, first]
  cases rest : lexemes cs with
  | none => cases st.step l <;> simp [read, rest]
  | some ls => simp [read, rest, Option.bind_assoc]

/-- A quoted text is read as one lexeme. -/
lemma read_quote (st : State) (s : String) (cs : List Char) :
    st.read ((quote s).toList ++ cs) = (st.step (.text s.toList)).bind (·.read cs) :=
  read_lexeme (lexemes_quote s cs) st

/-- A mark is read as one lexeme. -/
lemma read_mark (mark : isMark c = true) (st : State) (cs : List Char) :
    st.read (c :: cs) = (st.step (.mark c)).bind (·.read cs) := by
  have apart : c ≠ '"' := by
    rintro rfl
    cases mark
  have listed : lexemes ([c] ++ cs) = (lexemes cs).map (.mark c :: ·) := by
    simp [lexemes, apart, mark]
  exact read_lexeme listed st

/-- A blank changes nothing. -/
lemma read_blank (blank : isBlank c = true) (st : State) (cs : List Char) :
    st.read (c :: cs) = st.read cs := by
  have listed : lexemes ([c] ++ cs) = (lexemes cs).map (.blank :: ·) := by
    simp only [isBlank, List.mem_cons, List.not_mem_nil, or_false, decide_eq_true_eq] at blank
    obtain rfl | rfl | rfl | rfl := blank <;> rfl
  have still : st.step .blank = some st := by cases st <;> rfl
  rw [← List.singleton_append, read_lexeme listed, still, Option.bind_some]

/-- Blanks change nothing. -/
lemma read_blanks (blank : ∀ c ∈ front, isBlank c = true) (st : State) (cs : List Char) :
    st.read (front ++ cs) = st.read cs := by
  induction front with
  | nil => rfl
  | cons c front ih =>
    rw [List.forall_mem_cons] at blank
    rw [List.cons_append, read_blank blank.1, ih blank.2]

/-- The end of a line and the room before the next one change nothing. -/
lemma read_newline (st : State) (level : Nat) (cs : List Char) :
    st.read ((newline level).toList ++ cs) = st.read cs := by
  refine read_blanks (fun c mem => ?_) st cs
  rw [newline, String.toList_ofList, List.mem_cons] at mem
  obtain rfl | mem := mem
  · rfl
  · rw [List.eq_of_mem_replicate mem]
    rfl

/-- A key is followed by its value. -/
lemma read_key (before : List (String × Json)) (outer : List Frame) (k : String)
    (cs : List Char) : (State.key before outer).read ((quote k).toList ++ ':' :: ' ' :: cs) =
      (State.value (.fields before k :: outer)).read cs := by
  have key : (State.key before outer).step (.text k.toList) = some (.colon before k outer) := by
    cases before <;> rw [step, String.ofList_toList]
  rw [read_quote, key, Option.bind_some, read_mark rfl, step, Option.bind_some, read_blank rfl]

end State

/-- Digits stand in words. -/
lemma inWord_of_isDigit (digit : c.isDigit = true) : inWord c = true := by
  have blank : ∀ d ∈ [' ', '\t', '\n', '\r'], d.isDigit = false := by simp
  have mark : ∀ d ∈ ['[', ']', '{', '}', ',', ':'], d.isDigit = false := by simp
  refine inWord_iff.2 ⟨?_, ?_, ?_⟩
  · exact decide_eq_false fun mem => absurd digit (Bool.eq_false_iff.1 (blank c mem))
  · exact decide_eq_false fun mem => absurd digit (Bool.eq_false_iff.1 (mark c mem))
  · rintro rfl
    cases digit

/-- The digits of a number are read as that number. -/
lemma natural?_toDigits (n : Nat) : natural? (Nat.toDigits 10 n) = some n := by
  have digits : (Nat.toDigits 10 n).all Char.isDigit = true :=
    List.all_eq_true.2 fun d mem => Nat.isDigit_of_mem_toDigits (by decide) (by decide) mem
  rw [natural?, if_pos ⟨Nat.toDigits_ne_nil, digits⟩, Nat.ofDigitChars_ten_toDigits]

/-- A whole number is a word that stands for it. -/
lemma ofWord?_toString (i : Int) : ofWord? (toString i).toList = some (.int i) ∧
    ∃ c front, (toString i).toList = c :: front ∧ ∀ d ∈ c :: front, inWord d = true := by
  have digit {n : Nat} {d : Char} (mem : d ∈ Nat.toDigits 10 n) : d.isDigit = true :=
    Nat.isDigit_of_mem_toDigits (by decide) (by decide) mem
  cases i with
  | ofNat n =>
    have chars : (toString (Int.ofNat n)).toList = Nat.toDigits 10 n := Nat.toList_repr
    obtain ⟨c, front, run⟩ := List.exists_cons_of_ne_nil (Nat.toDigits_ne_nil (n := n) (b := 10))
    have first : c.isDigit = true := digit (run ▸ List.mem_cons_self)
    rw [chars]
    refine ⟨?_, c, front, run, fun d mem => inWord_of_isDigit (digit (run ▸ mem))⟩
    have read := natural?_toDigits n
    rw [run] at read ⊢
    -- no name and no sign starts with a digit
    unfold ofWord?
    split
    case h_5 => rw [read]; rfl
    all_goals
      next same =>
        obtain ⟨rfl, -⟩ := List.cons.inj same
        cases first
  | negSucc n =>
    have chars : (toString (Int.negSucc n)).toList = '-' :: Nat.toDigits 10 (n + 1) := by
      rw [← Nat.toList_repr]
      exact String.toList_append
    rw [chars]
    refine ⟨?_, '-', _, rfl, List.forall_mem_cons.2 ⟨rfl, fun d mem => ?_⟩⟩
    · rw [ofWord?, natural?_toDigits]
      rfl
    · exact inWord_of_isDigit (digit mem)

/-- A word is read as the value it stands for. -/
lemma read_word (word : ∀ d ∈ c :: front, inWord d = true) (ends : Ends cs)
    (means : ofWord? (c :: front) = some v) :
    (State.value outer).read (c :: front ++ cs) = (State.after v outer).read cs := by
  rw [State.read_lexeme (lexemes_word word ends), State.step, means]
  rfl

/-- A word ends at a mark. -/
lemma ends_mark (mark : isMark c = true) (cs : List Char) : Ends (c :: cs) := by
  rintro _ ⟨⟩
  simp [inWord, mark]

/-- A word ends with its line. -/
lemma ends_newline (level : Nat) (cs : List Char) : Ends ((newline level).toList ++ cs) := by
  rw [newline, String.toList_ofList]
  rintro _ ⟨⟩
  rfl

/-- A value that holds no other value is read back. -/
lemma read_scalar (ends : Ends cs) (whole : Whole v) (outer : List Frame)
    (noItems : ∀ w ws, v ≠ .array (w :: ws)) (noFields : ∀ f fs, v ≠ .object (f :: fs)) :
    (State.value outer).read (v.scalar.toList ++ cs) = (State.after v outer).read cs := by
  cases whole with
  | null =>
    have word : ∀ d ∈ ['n', 'u', 'l', 'l'], inWord d = true := List.all_eq_true.1 rfl
    exact read_word word ends rfl
  | bool b =>
    cases b with
    | true =>
      have word : ∀ d ∈ ['t', 'r', 'u', 'e'], inWord d = true := List.all_eq_true.1 rfl
      exact read_word word ends rfl
    | false =>
      have word : ∀ d ∈ ['f', 'a', 'l', 's', 'e'], inWord d = true := List.all_eq_true.1 rfl
      exact read_word word ends rfl
  | int i =>
    obtain ⟨means, c, front, spelled, word⟩ := ofWord?_toString i
    rw [spelled] at means
    rw [scalar, spelled]
    exact read_word word ends means
  | string s =>
    rw [scalar, State.read_quote, State.step, String.ofList_toList]
    rfl
  | @array items =>
    cases items with
    | nil => simp [scalar, State.read_mark, isMark, State.step]
    | cons w ws => exact absurd rfl (noItems w ws)
  | @object fields =>
    cases fields with
    | nil => simp [scalar, State.read_mark, isMark, State.step]
    | cons f fs => exact absurd rfl (noFields f fs)

/-- A word ends where the further items of an array are written. -/
lemma ends_items (level around : Nat) (vs : List Json) (cs : List Char) :
    Ends ((prettyItems level vs).toList ++ ((newline around).toList ++ cs)) := by
  cases vs with
  | nil => simpa [prettyItems] using ends_newline around cs
  | cons w ws => simpa [prettyItems] using ends_mark (c := ',') rfl _

/-- A word ends where the further fields of an object are written. -/
lemma ends_fields (level around : Nat) (fs : List (String × Json)) (cs : List Char) :
    Ends ((prettyFields level fs).toList ++ ((newline around).toList ++ cs)) := by
  cases fs with
  | nil => simpa [prettyFields] using ends_newline around cs
  | cons f fs => simpa [prettyFields] using ends_mark (c := ',') rfl _

mutual

/-- A value is read back wherever one may stand. -/
theorem read_prettyAt (level : Nat) {cs : List Char} (ends : Ends cs) (outer : List Frame) :
    ∀ {v : Json}, Whole v →
      (State.value outer).read ((prettyAt level v).toList ++ cs) = (State.after v outer).read cs
  | .null, whole => read_scalar ends whole outer nofun nofun
  | .bool b, whole => read_scalar ends whole outer nofun nofun
  | .int i, whole => read_scalar ends whole outer nofun nofun
  | .string s, whole => read_scalar ends whole outer nofun nofun
  | .array [], whole => read_scalar ends whole outer nofun nofun
  | .object [], whole => read_scalar ends whole outer nofun nofun
  | .array (v :: vs), .array whole => by
    rw [List.forall_mem_cons] at whole
    have text : (prettyAt level (.array (v :: vs))).toList ++ cs =
        '[' :: ((newline (level + 1)).toList ++ ((prettyAt (level + 1) v).toList ++
          ((prettyItems (level + 1) vs).toList ++ ((newline level).toList ++ ']' :: cs)))) := by
      simp [prettyAt]
    rw [text, State.read_mark rfl, State.step, Option.bind_some, State.read_newline,
      read_prettyAt (level + 1) (ends_items _ _ _ _) _ whole.1,
      read_prettyItems (level + 1) level outer [] v whole.2]
    rfl
  | .object ((k, v) :: fs), .object whole => by
    rw [List.forall_mem_cons] at whole
    have text : (prettyAt level (.object ((k, v) :: fs))).toList ++ cs =
        '\x7b' :: ((newline (level + 1)).toList ++ ((quote k).toList ++ (':' :: ' ' ::
          ((prettyAt (level + 1) v).toList ++ ((prettyFields (level + 1) fs).toList ++
            ((newline level).toList ++ '\x7d' :: cs)))))) := by
      simp [prettyAt]
    rw [text, State.read_mark rfl, State.step, Option.bind_some, State.read_newline,
      State.read_key, read_prettyAt (level + 1) (ends_fields _ _ _ _) _ whole.1,
      read_prettyFields (level + 1) level outer [] k v whole.2]
    rfl

/-- The items of an array are read back up to its end. -/
theorem read_prettyItems (level around : Nat) {cs : List Char} (outer : List Frame)
    (before : List Json) (v : Json) : ∀ {vs : List Json}, (∀ v ∈ vs, Whole v) →
      (State.after v (.items before :: outer)).read
          ((prettyItems level vs).toList ++ ((newline around).toList ++ ']' :: cs)) =
        (State.after (.array (before.reverse ++ v :: vs)) outer).read cs
  | [], _ => by
    rw [prettyItems, String.toList_empty, List.nil_append, State.read_newline, State.read_mark rfl,
      State.step, List.reverse_cons]
    rfl
  | w :: ws, whole => by
    rw [List.forall_mem_cons] at whole
    have text : (prettyItems level (w :: ws)).toList ++ ((newline around).toList ++ ']' :: cs) =
        ',' :: ((newline level).toList ++ ((prettyAt level w).toList ++
          ((prettyItems level ws).toList ++ ((newline around).toList ++ ']' :: cs)))) := by
      simp [prettyItems]
    rw [text, State.read_mark rfl, State.step, Option.bind_some, State.read_newline,
      read_prettyAt level (ends_items _ _ _ _) _ whole.1,
      read_prettyItems level around outer (v :: before) w whole.2, List.reverse_cons,
      List.append_assoc]
    rfl

/-- The fields of an object are read back up to its end. -/
theorem read_prettyFields (level around : Nat) {cs : List Char} (outer : List Frame)
    (before : List (String × Json)) (k : String) (v : Json) :
    ∀ {fs : List (String × Json)}, (∀ f ∈ fs, Whole f.2) →
      (State.after v (.fields before k :: outer)).read
          ((prettyFields level fs).toList ++ ((newline around).toList ++ '\x7d' :: cs)) =
        (State.after (.object (before.reverse ++ (k, v) :: fs)) outer).read cs
  | [], _ => by
    rw [prettyFields, String.toList_empty, List.nil_append, State.read_newline, State.read_mark rfl,
      State.step, List.reverse_cons]
    rfl
  | (l, w) :: fs, whole => by
    rw [List.forall_mem_cons] at whole
    have text : (prettyFields level ((l, w) :: fs)).toList ++
          ((newline around).toList ++ '\x7d' :: cs) =
        ',' :: ((newline level).toList ++ ((quote l).toList ++ (':' :: ' ' ::
          ((prettyAt level w).toList ++ ((prettyFields level fs).toList ++
            ((newline around).toList ++ '\x7d' :: cs)))))) := by
      simp [prettyFields]
    rw [text, State.read_mark rfl, State.step, Option.bind_some, State.read_newline,
      State.read_key, read_prettyAt level (ends_fields _ _ _ _) _ whole.1,
      read_prettyFields level around outer ((k, v) :: before) l w whole.2, List.reverse_cons,
      List.append_assoc]
    rfl

end

/-- **A text over lines is read back as the value it was made from.** Blanks may follow it. -/
theorem ofText?_pretty (whole : Whole v) {rest : String}
    (blank : ∀ c ∈ rest.toList, isBlank c = true) : ofText? (v.pretty ++ rest) = some v := by
  have ends : Ends rest.toList := by
    intro c mem
    simp [inWord, blank c (List.mem_of_mem_head? mem)]
  rw [ofText?, pretty, String.toList_append, read_prettyAt 0 ends [] whole,
    ← List.append_nil rest.toList, State.read_blanks blank]
  rfl

example : ofText? "[ 1,\t\"\\u0041\" , [] ,-20]" =
    some (.array [.int 1, .string "A", .array [], .int (-20)]) := by rfl

/-- Where all numbers are whole, the text determines the value. -/
theorem pretty_inj (whole : Whole v) (whole' : Whole w) (same : v.pretty = w.pretty) : v = w := by
  have blank : ∀ c ∈ "".toList, isBlank c = true := by simp
  have read := ofText?_pretty whole blank
  rw [same, ofText?_pretty whole' blank] at read
  exact (Option.some.inj read).symm

end Knockout.Json
