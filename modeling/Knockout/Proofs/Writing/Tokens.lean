import Knockout.Proofs.Grammar.Spelling
import Knockout.Proofs.Lexing.Delimiters
import Knockout.Proofs.Writing.Script

/-!
# Written atoms as tokens

A text in which atoms are written has no faults of its own, delimiters apart, and its tokens show
these atoms one by one, whichever spellings and blanks were chosen: `Atom.Written.lexes`.
-/

namespace Knockout

namespace Text

/-- A number is written in digits. -/
lemma isDigit_toDigits (n : Nat) : ∀ c ∈ Nat.toDigits 10 n, c.isDigit = true :=
  fun _ mem => Nat.isDigit_of_mem_toDigits (by decide) (by decide) mem

/-- A number in decimal reads as the number. -/
lemma ofLiteral?_toString (n : UInt32) : ofLiteral? (toString n.toNat) = some n := by
  have digits := isDigit_toDigits n.toNat
  have value : digitsValue (Nat.toDigits 10 n.toNat) = n.toNat := Nat.ofDigitChars_ten_toDigits
  have small : smallNumber? (Nat.toDigits 10 n.toNat) = some n := by
    have fits := And.intro (List.all_eq_true.2 digits) n.toNat_lt_size
    rw [smallNumber?, value, if_pos ⟨Nat.toDigits_ne_nil, fits⟩, UInt32.ofNat_toNat]
  rw [ofLiteral?, Nat.toString_eq_repr, Nat.toList_repr]
  split
  · next plus => exact absurd (digits '+' (by simp [plus])) (by decide)
  · exact small

end Text

namespace Kind

/-- A word of the vocabulary has the kind that is listed for it. -/
lemma ofWord_of_mem {w : String} {k : Kind} (listed : (w, k) ∈ vocabulary) : ofWord w = k := by
  have known : ∀ p ∈ vocabulary, ofWord p.1 = p.2 := by decide +kernel
  exact known (w, k) listed

/-- The words of the vocabulary are made of letters. -/
lemma letters_of_mem {w : String} {k : Kind} (listed : (w, k) ∈ vocabulary) :
    ∃ c cs, w.toList = c :: cs ∧ ∀ d ∈ c :: cs, Text.isLetter d = true := by
  have words : (vocabulary.all fun p =>
      p.1.toList ≠ [] && p.1.toList.all Text.isLetter) = true := by decide +kernel
  have word := List.all_eq_true.1 words (w, k) listed
  simp only [Bool.and_eq_true, decide_eq_true_eq, List.all_eq_true] at word
  obtain ⟨c, cs, chars⟩ := List.exists_cons_of_ne_nil word.1
  exact ⟨c, cs, chars, chars ▸ word.2⟩

end Kind

namespace Atom

/-- The tokens that an atom is read as. -/
def Matches : Atom → Token → Prop
  | .word k, t => t.kind = k
  | .symbol s, t => t.kind = .symbol s
  | .string text, t => t.kind = .string ∧ t.lexeme = text
  | .number n, t => t.SpellsNumber n

/-- Tokens that show atoms, and the tokens after them. -/
inductive Shown : Grammar (List Atom) where
  | nil : Shown rest [] rest
  | cons (head : Matches a t) (more : Shown tokens as rest) : Shown (t :: tokens) (a :: as) rest

/-- Tokens that show atoms show those in front first. -/
lemma shown_append {as bs : List Atom} {tokens rest : List Token}
    (shown : Shown tokens (as ++ bs) rest) :
    ∃ mid, Shown tokens as mid ∧ Shown mid bs rest := by
  induction as generalizing tokens with
  | nil => exact ⟨tokens, .nil, shown⟩
  | cons a as ih =>
    obtain _ | ⟨head, more⟩ := shown
    obtain ⟨mid, front, back⟩ := ih more
    exact ⟨mid, .cons head front, back⟩

/-- A spelling is a piece of its own before a blank, and its token matches the atom. -/
lemma Spelled.leads {a : Atom} {cs rest : List Char} (spelled : Spelled a cs)
    (apart : ∀ c ∈ rest.head?, Text.isBlank c = true) :
    ∃ p : Piece, p.text = cs ∧ p.Leads rest ∧ p.fault? = none ∧
      ∀ span, ∃ t, p.token? span = some t ∧ a.Matches t := by
  -- a blank ends words and numbers, and nothing else needs an end
  cases spelled with
  | @word w k listed =>
    obtain ⟨c, cs, chars, letters⟩ := Kind.letters_of_mem listed
    have ends : Text.Ends Text.isWordChar rest :=
      fun c mem => Text.isWordChar_eq_false_of_isBlank (apart c mem)
    have run : ∀ d ∈ cs, Text.isWordChar d = true := by
      intro d mem
      simp [Text.isWordChar, letters d (List.mem_cons_of_mem c mem)]
    have noDigit : (c :: cs).any Char.isDigit = false := by
      rw [List.any_eq_false]
      intro d mem digit
      exact absurd (letters d mem) (Bool.eq_false_iff.1 (Text.isLetter_eq_false_of_isDigit digit))
    have same : String.ofList (c :: cs) = w := by rw [← chars, String.ofList_toList]
    refine ⟨.word (c :: cs), chars.symm, .word (letters c List.mem_cons_self) run ends, ?_, ?_⟩
    · rw [Piece.fault?, noDigit]
      rfl
    · intro span
      rw [Piece.token?, noDigit, same, Kind.ofWord_of_mem listed]
      exact ⟨_, rfl, rfl⟩
  | symbol => exact ⟨.symbol _, rfl, .symbol, rfl, fun span => ⟨_, rfl, rfl⟩⟩
  | @string text plain =>
    have body : ∀ d ∈ text.toList, Piece.isStringChar d = true := by
      simpa [Piece.isStringChar] using plain
    refine ⟨.string text.toList, rfl, .string body, rfl, fun span => ⟨_, rfl, rfl, ?_⟩⟩
    exact String.ofList_toList
  | @number n =>
    have digits := Text.isDigit_toDigits n.toNat
    have ends : Text.Ends Char.isDigit rest := by
      intro c mem
      refine Bool.eq_false_iff.2 fun digit => ?_
      exact absurd (apart c mem) (Bool.eq_false_iff.1 (Text.isBlank_eq_false_of_isDigit digit))
    have chars : (toString n.toNat).toList = Nat.toDigits 10 n.toNat := Nat.toList_repr
    obtain ⟨c, cs, run⟩ := List.exists_cons_of_ne_nil (Nat.toDigits_ne_nil (n := n.toNat) (b := 10))
    have leads : (Piece.digits (c :: cs)).Leads rest := by
      rw [run] at digits
      exact .digits (digits c List.mem_cons_self)
        (fun d mem => digits d (List.mem_cons_of_mem c mem)) ends
    refine ⟨.digits (c :: cs), (chars.trans run).symm, leads, rfl, fun span => ⟨_, rfl, rfl, ?_⟩⟩
    rw [← run, ← chars, String.ofList_toList]
    exact Text.ofLiteral?_toString n

/-- A text whose pieces are in order and whose tokens show atoms. -/
def Lexes (as : List Atom) (cs : List Char) : Prop :=
  ∃ ps, Piece.Parts cs ps ∧ (∀ p ∈ ps, p.fault? = none) ∧
    ∀ l, Shown ((Piece.place l ps).filterMap fun p => p.1.token? p.2) as []

/-- The empty text has no tokens. -/
lemma lexes_nil : Lexes [] [] := ⟨[], .nil, nofun, fun _ => .nil⟩

/-- Blanks in front of a text give no token. -/
lemma Lexes.blanks {as : List Atom} {blanks cs : List Char} (lexes : Lexes as cs)
    (gap : ∀ c ∈ blanks, Text.isBlank c = true) : Lexes as (blanks ++ cs) := by
  induction blanks with
  | nil => exact lexes
  | cons c blanks ih =>
    rw [List.forall_mem_cons] at gap
    obtain ⟨ps, parts, sound, shown⟩ := ih gap.2
    exact ⟨.blank c :: ps, .cons (.blank gap.1) parts, List.forall_mem_cons.2 ⟨rfl, sound⟩,
      fun l => shown _⟩

/-- The spelling of an atom gives its token, if a blank follows. -/
lemma Lexes.cons {a : Atom} {as : List Atom} {cs rest : List Char} (lexes : Lexes as rest)
    (spelled : Spelled a cs) (apart : ∀ c ∈ rest.head?, Text.isBlank c = true) :
    Lexes (a :: as) (cs ++ rest) := by
  obtain ⟨ps, parts, sound, shown⟩ := lexes
  obtain ⟨p, rfl, leads, fault, token⟩ := spelled.leads apart
  refine ⟨p :: ps, .cons leads parts, List.forall_mem_cons.2 ⟨fault, sound⟩, fun l => ?_⟩
  obtain ⟨t, found, head⟩ := token ⟨l, l.after p.text⟩
  rw [Piece.place, List.filterMap_cons, found]
  exact .cons head (shown _)

/-- Atoms written as text are read as tokens that show them. -/
lemma Written.lexes {as : List Atom} {cs : List Char} (written : Written as cs) :
    Lexes as cs := by
  induction written with
  | nil gap => simpa using lexes_nil.blanks gap
  | cons gap spelled apart _ ih => exact (ih.cons spelled apart).blanks gap

/-- What is written has no lexical errors as long as its symbols are balanced. -/
theorem Written.tokenize {as : List Atom} {text : String} (written : Written as text.toList) :
    Shown (tokenize text).tokens as [] ∧
      (Symbol.closes 0 0 (Token.symbols (tokenize text).tokens) = true →
        (tokenize text).errors = []) := by
  obtain ⟨ps, parts, sound, shown⟩ := written.lexes
  obtain rfl := Piece.split_eq_iff.2 parts
  exact ⟨shown _, fun closes => (errors_tokenize_eq_nil_iff text).2 ⟨sound, closes⟩⟩

end Atom

end Knockout
