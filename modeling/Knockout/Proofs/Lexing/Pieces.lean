import Knockout.Token.Piece
import Mathlib.Data.List.TakeWhile
import Mathlib.Tactic.Lemma

/-!
# Whole pieces

A piece is whole before a text (`Piece.Leads`) when its characters are of its class and the text
does not go on with more of them. The first character decides the class, since no character is in
two of them, and so a text falls into whole pieces in one way only (`Piece.split_eq_iff`).
-/

namespace Knockout

/-! ## Classes of characters -/

namespace Text

/-- The code points of the digits. -/
lemma toNat_of_isDigit {c : Char} (digit : c.isDigit = true) : 48 ≤ c.toNat ∧ c.toNat ≤ 57 := by
  simpa [Char.isDigit, UInt32.le_iff_toNat_le] using digit

/-- The code points of the capitals. -/
lemma toNat_of_isUpper {c : Char} (upper : c.isUpper = true) : 65 ≤ c.toNat ∧ c.toNat ≤ 90 := by
  have bounds : 'A'.val ≤ c.val ∧ c.val ≤ 'Z'.val := of_decide_eq_true upper
  exact ⟨UInt32.le_iff_toNat_le.1 bounds.1, UInt32.le_iff_toNat_le.1 bounds.2⟩

/-- The code points of the small letters. -/
lemma toNat_of_isLower {c : Char} (lower : c.isLower = true) : 97 ≤ c.toNat ∧ c.toNat ≤ 122 := by
  have bounds := (Bool.and_eq_true _ _).mp lower
  exact ⟨UInt32.le_iff_toNat_le.1 (of_decide_eq_true bounds.1),
    UInt32.le_iff_toNat_le.1 (of_decide_eq_true bounds.2)⟩

/-- The code points of the letters. -/
lemma toNat_of_isLetter {c : Char} (letter : isLetter c = true) :
    65 ≤ c.toNat ∧ c.toNat ≤ 90 ∨ 97 ≤ c.toNat ∧ c.toNat ≤ 122 ∨
      192 ≤ c.toNat ∧ c.toNat ≤ 383 := by
  simp only [isLetter, Bool.or_eq_true, Bool.and_eq_true, decide_eq_true_eq] at letter
  obtain ascii | ⟨⟨⟨first, last⟩, -⟩, -⟩ := letter
  · obtain upper | lower := (Bool.or_eq_true _ _).mp ascii
    · exact .inl (toNat_of_isUpper upper)
    · exact .inr (.inl (toNat_of_isLower lower))
  · exact .inr (.inr ⟨first, last⟩)

/-- The code points of the blanks are those of some ranges. -/
lemma isBlank_iff {c : Char} :
    isBlank c = true ↔ ∃ r ∈ blankRanges, r.1 ≤ c.toNat ∧ c.toNat ≤ r.2 := by
  simp [isBlank]

/-- A digit is no blank. -/
lemma isBlank_eq_false_of_isDigit {c : Char} (digit : c.isDigit = true) : isBlank c = false := by
  have bounds := toNat_of_isDigit digit
  refine Bool.eq_false_iff.2 fun blank => ?_
  obtain ⟨r, mem, low, high⟩ := isBlank_iff.1 blank
  have apart : ∀ r ∈ blankRanges, r.2 < 48 ∨ 57 < r.1 := by decide
  have := apart r mem
  omega

/-- A letter is no blank. -/
lemma isBlank_eq_false_of_isLetter {c : Char} (letter : isLetter c = true) :
    isBlank c = false := by
  have bounds := toNat_of_isLetter letter
  refine Bool.eq_false_iff.2 fun blank => ?_
  obtain ⟨r, mem, low, high⟩ := isBlank_iff.1 blank
  have apart : ∀ r ∈ blankRanges, (r.2 < 65 ∨ 122 < r.1) ∧ (r.2 < 192 ∨ 383 < r.1) := by decide
  have := apart r mem
  omega

/-- A digit is no letter. -/
lemma isLetter_eq_false_of_isDigit {c : Char} (digit : c.isDigit = true) :
    isLetter c = false := by
  have bounds := toNat_of_isDigit digit
  refine Bool.eq_false_iff.2 fun letter => ?_
  have := toNat_of_isLetter letter
  omega

/-- A blank is no part of a word. -/
lemma isWordChar_eq_false_of_isBlank {c : Char} (blank : isBlank c = true) :
    isWordChar c = false := by
  refine Bool.eq_false_iff.2 fun word => ?_
  simp only [isWordChar, Bool.or_eq_true, beq_iff_eq, or_assoc] at word
  obtain letter | digit | rfl := word
  · exact absurd blank (Bool.eq_false_iff.1 (isBlank_eq_false_of_isLetter letter))
  · exact absurd blank (Bool.eq_false_iff.1 (isBlank_eq_false_of_isDigit digit))
  · revert blank
    decide

/-- A text that does not go on with characters of a class. -/
def Ends (p : Char → Bool) (cs : List Char) : Prop := ∀ c ∈ cs.head?, p c = false

/-- Behind a run of characters of a class, none of them follows. -/
lemma ends_dropWhile (p : Char → Bool) (cs : List Char) : Ends p (cs.dropWhile p) := by
  intro c mem
  have stop := List.head?_dropWhile_not p cs
  rw [Option.mem_def.1 mem] at stop
  exact stop

/-- A run of characters of a class is taken whole. -/
lemma takeWhile_append_of_ends {p : Char → Bool} {run rest : List Char}
    (inRun : ∀ c ∈ run, p c = true) (ends : Ends p rest) : (run ++ rest).takeWhile p = run := by
  rw [List.takeWhile_append_of_pos inRun]
  cases rest with
  | nil => simp
  | cons c rest => rw [List.takeWhile_cons_of_neg (by simp [ends c rfl]), List.append_nil]

/-- A run of characters of a class is dropped whole. -/
lemma dropWhile_append_of_ends {p : Char → Bool} {run rest : List Char}
    (inRun : ∀ c ∈ run, p c = true) (ends : Ends p rest) : (run ++ rest).dropWhile p = rest := by
  rw [List.dropWhile_append_of_pos inRun]
  cases rest with
  | nil => rfl
  | cons c rest => exact List.dropWhile_cons_of_neg (by simp [ends c rfl])

end Text

namespace Piece

open Text

/-- A piece that is whole before the rest of a text: the first character is of the class of the
piece, and the rest starts with no character that would make the piece longer. -/
inductive Leads : Piece → List Char → Prop where
  | blank (first : isBlank c = true) : Leads (.blank c) rest
  | word (first : isLetter c = true) (run : ∀ d ∈ cs, isWordChar d = true)
    (ends : Ends isWordChar rest) : Leads (.word (c :: cs)) rest
  | digits (first : c.isDigit = true) (run : ∀ d ∈ cs, d.isDigit = true)
    (ends : Ends Char.isDigit rest) : Leads (.digits (c :: cs)) rest
  | string (body : ∀ d ∈ cs, isStringChar d = true) : Leads (.string cs) rest
  | openString (body : ∀ d ∈ cs, isStringChar d = true)
    (ends : rest = [] ∨ rest.head? = some '\n') : Leads (.openString cs) rest
  | symbol : Leads (.symbol s) rest
  | foreign (notBlank : isBlank c = false) (notLetter : isLetter c = false)
    (notDigit : c.isDigit = false) (notQuote : c ≠ '"') (notSymbol : Symbol.ofChar? c = none) :
    Leads (.foreign c) rest

/-- What a quote opens is whole before the text after it. -/
lemma leads_ofQuote (cs : List Char) :
    ∃ rest, '"' :: cs = (ofQuote cs).text ++ rest ∧ (ofQuote cs).Leads rest := by
  have whole := List.takeWhile_append_dropWhile (p := isStringChar) (l := cs)
  have body : ∀ d ∈ cs.takeWhile isStringChar, isStringChar d = true :=
    fun d mem => List.mem_takeWhile_imp mem
  have ends := ends_dropWhile isStringChar cs
  rw [ofQuote]
  cases found : cs.dropWhile isStringChar with
  | nil =>
    rw [found, List.append_nil] at whole
    exact ⟨[], by simp [text, whole], .openString body (.inl rfl)⟩
  | cons d rest =>
    rw [found] at whole ends
    -- only a quote and a line feed can stop a string
    have stop : isStringChar d = false := ends d rfl
    by_cases quote : d = '"'
    · subst quote
      exact ⟨rest, by simp [text, whole], .string body⟩
    · have feed : d = '\n' := by simpa [isStringChar, quote] using stop
      subst feed
      exact ⟨'\n' :: rest, by simp [text, whole], .openString body (.inr rfl)⟩

/-- The first piece of a text is whole before the text after it. -/
lemma leads_first (c : Char) (cs : List Char) :
    ∃ rest, c :: cs = (first c cs).text ++ rest ∧ (first c cs).Leads rest := by
  rw [first]
  split
  · next blank => exact ⟨cs, rfl, .blank blank⟩
  · next notBlank =>
    split
    · next letter =>
      exact ⟨cs.dropWhile isWordChar, by simp [text],
        .word letter (fun _ mem => List.mem_takeWhile_imp mem) (ends_dropWhile _ _)⟩
    · next notLetter =>
      split
      · next digit =>
        exact ⟨cs.dropWhile Char.isDigit, by simp [text],
          .digits digit (fun _ mem => List.mem_takeWhile_imp mem) (ends_dropWhile _ _)⟩
      · next notDigit =>
        split
        · next quote => exact quote ▸ leads_ofQuote cs
        · next notQuote =>
          split
          · next s found =>
            exact ⟨cs, by simp [text, Symbol.ofChar?_eq_some_iff.1 found], .symbol⟩
          · next notSymbol =>
            exact ⟨cs, rfl, .foreign (Bool.eq_false_iff.2 notBlank) (Bool.eq_false_iff.2 notLetter)
              (Bool.eq_false_iff.2 notDigit) notQuote notSymbol⟩

/-- A piece that is whole before a text is the first piece of both together. -/
lemma Leads.first_eq {p : Piece} {rest : List Char} (leads : p.Leads rest) :
    ∃ c cs, p.text ++ rest = c :: cs ∧ first c cs = p := by
  cases leads with
  | blank blank => exact ⟨_, _, rfl, by simp [first, blank]⟩
  | word letter run ends =>
    refine ⟨_, _, List.cons_append, ?_⟩
    rw [first, isBlank_eq_false_of_isLetter letter, if_neg Bool.false_ne_true, if_pos letter]
    rw [takeWhile_append_of_ends run ends]
  | digits digit run ends =>
    refine ⟨_, _, List.cons_append, ?_⟩
    rw [first, isBlank_eq_false_of_isDigit digit, if_neg Bool.false_ne_true,
      isLetter_eq_false_of_isDigit digit, if_neg Bool.false_ne_true, if_pos digit]
    rw [takeWhile_append_of_ends run ends]
  | @string cs _ body =>
    have ends : Ends isStringChar ('"' :: rest) := by simp [Ends, isStringChar]
    refine ⟨'"', cs ++ '"' :: rest, by simp [text], ?_⟩
    have quoted : first '"' (cs ++ '"' :: rest) = ofQuote (cs ++ '"' :: rest) := rfl
    rw [quoted, ofQuote, dropWhile_append_of_ends body ends, takeWhile_append_of_ends body ends]
    rfl
  | @openString cs _ body ends =>
    refine ⟨'"', cs ++ rest, rfl, ?_⟩
    have quoted : first '"' (cs ++ rest) = ofQuote (cs ++ rest) := rfl
    have stop : Ends isStringChar rest := by
      obtain rfl | feed := ends
      · intro c mem
        cases mem
      · intro c mem
        rw [feed] at mem
        cases mem
        rfl
    rw [quoted, ofQuote, dropWhile_append_of_ends body stop, takeWhile_append_of_ends body stop]
    -- what stops the string is not a quote
    obtain rfl | feed := ends
    · rfl
    · cases rest with
      | nil => cases feed
      | cons c rest => cases feed; rfl
  | @symbol s =>
    refine ⟨s.char, rest, rfl, ?_⟩
    cases s <;> rfl
  | foreign notBlank notLetter notDigit notQuote notSymbol =>
    exact ⟨_, _, rfl, by simp [first, notBlank, notLetter, notDigit, notQuote, notSymbol]⟩

/-- Cutting a text that starts with a whole piece cuts off that piece. -/
theorem split_of_leads {p : Piece} {rest : List Char} (leads : p.Leads rest) :
    split (p.text ++ rest) = p :: split rest := by
  obtain ⟨c, cs, start, piece⟩ := leads.first_eq
  rw [start, split, piece, ← start, List.drop_left]

/-- A text and the pieces it falls into, each of them whole before the others. -/
inductive Parts : List Char → List Piece → Prop where
  | nil : Parts [] []
  | cons {p : Piece} (leads : p.Leads rest) (more : Parts rest ps) :
    Parts (p.text ++ rest) (p :: ps)

/-- A text falls into the pieces it is split into. -/
lemma parts_split (cs : List Char) : Parts cs (split cs) := by
  fun_induction split cs with
  | case1 => exact .nil
  | case2 c cs ih =>
    obtain ⟨rest, whole, leads⟩ := leads_first c cs
    rw [whole, List.drop_left] at ih
    rw [whole, List.drop_left]
    exact .cons leads ih

/-- A text falls into whole pieces in one way only. -/
theorem split_eq_iff {cs : List Char} {ps : List Piece} : split cs = ps ↔ Parts cs ps := by
  constructor
  · rintro rfl
    exact parts_split cs
  · intro parts
    induction parts with
    | nil => rw [split]
    | cons leads _ ih => rw [split_of_leads leads, ih]

end Piece

end Knockout
