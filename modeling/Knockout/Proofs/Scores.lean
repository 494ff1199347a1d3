import Knockout.Proofs.Lexing.Pieces
import Knockout.Score
import Mathlib.Tactic.Lemma

/-!
# The language of scores

A score is two runs of digits with a dash between them and blanks around each (`Goals.Spells`).
Trimming takes the blanks at either end of a side and nothing else (`Text.padded_trim`,
`Text.Padded.trim_eq`), and no dash is in a side, so that what stands before and after the only dash
can be read apart (`Goals.spells_append_iff`). The main statement is `Goals.ofScore?_accepts`.
-/

namespace Knockout

namespace Text

/-- A text with blanks at its ends. -/
inductive Padded (cs : List Char) : List Char → Prop where
  | intro {before after : List Char} (left : ∀ c ∈ before, isBlank c = true)
    (right : ∀ c ∈ after, isBlank c = true) : Padded cs (before ++ cs ++ after)

variable {cs ds : List Char} {n : UInt32}

/-- Trimming takes nothing but blanks. -/
lemma padded_trim (cs : List Char) : Padded (trim cs) cs := by
  obtain ⟨after, split, right⟩ := exists_trimEnd (cs.dropWhile isBlank)
  have whole : cs = cs.takeWhile isBlank ++ trim cs ++ after := by
    rw [List.append_assoc, trim, ← split, List.takeWhile_append_dropWhile]
  have padded : Padded (trim cs) (cs.takeWhile isBlank ++ trim cs ++ after) :=
    .intro (fun c listed => List.mem_takeWhile_imp listed) right
  rwa [← whole] at padded

/-- No blanks are dropped where there are none. -/
lemma dropWhile_of_dark (dark : ∀ c ∈ cs, isBlank c = false) : cs.dropWhile isBlank = cs := by
  have nothing : ∀ c ∈ ([] : List Char), isBlank c = true := nofun
  exact dropWhile_append_of_ends nothing fun c head => dark c (List.mem_of_mem_head? head)

/-- Trimming leaves a text without blanks that stands between some. -/
lemma Padded.trim_eq (padded : Padded ds cs) (nonempty : ds ≠ [])
    (dark : ∀ c ∈ ds, isBlank c = false) : trim cs = ds := by
  cases padded with
  | @intro before after left right =>
    have ends : Ends isBlank (ds ++ after) := by
      intro c head
      obtain ⟨d, ds, rfl⟩ := List.exists_cons_of_ne_nil nonempty
      exact dark c (List.mem_of_mem_head? head)
    have dark : ∀ c ∈ ds.reverse, isBlank c = false := by simpa using dark
    rw [trim, List.append_assoc, dropWhile_append_of_ends left ends, trimEnd_append right, trimEnd,
      dropWhile_of_dark dark, List.reverse_reverse]

/-- A small number is read from digits alone, and has the value that they spell. -/
lemma smallNumber?_eq_some_iff :
    smallNumber? cs = some n ↔
      cs ≠ [] ∧ (∀ c ∈ cs, c.isDigit = true) ∧ Nat.ofDigitChars 10 cs 0 = n.toNat := by
  have value : digitsValue cs = Nat.ofDigitChars 10 cs 0 := rfl
  rw [smallNumber?, value]
  constructor
  · intro read
    split at read
    · next fits =>
      obtain ⟨nonempty, digits, small⟩ := fits
      refine ⟨nonempty, List.all_eq_true.1 digits, ?_⟩
      rw [← Option.some.inj read, UInt32.toNat_ofNat_of_lt' small]
    · cases read
  · rintro ⟨nonempty, digits, same⟩
    rw [same, if_pos ⟨nonempty, List.all_eq_true.2 digits, n.toNat_lt_size⟩, UInt32.ofNat_toNat]

end Text

namespace Goals

/-- A side of a score with a number of goals: digits of this value, zeros in front or not, with
blanks around them. -/
def SpellsSide (n : UInt32) (side : List Char) : Prop :=
  ∃ digits, Text.Padded digits side ∧ digits ≠ [] ∧ (∀ c ∈ digits, c.isDigit = true) ∧
    Nat.ofDigitChars 10 digits 0 = n.toNat

/-- A score with some goals: the two sides with a dash between them. -/
def Spells (g : Goals) (score : String) : Prop :=
  ∃ first second, score.toList = first ++ '-' :: second ∧ SpellsSide g.first first ∧
    SpellsSide g.second second

variable {g : Goals} {n : UInt32} {side first second : List Char} {l r score : String}

/-- A side of a score is read from what spells it and from nothing else. -/
lemma ofSide?_eq_some_iff : ofSide? side = some n ↔ SpellsSide n side := by
  rw [ofSide?, Text.smallNumber?_eq_some_iff]
  constructor
  · rintro ⟨nonempty, digits, value⟩
    exact ⟨_, Text.padded_trim side, nonempty, digits, value⟩
  · rintro ⟨ds, padded, nonempty, digits, value⟩
    have dark : ∀ c ∈ ds, Text.isBlank c = false := fun c listed =>
      Text.isBlank_eq_false_of_isDigit (digits c listed)
    rw [padded.trim_eq nonempty dark]
    exact ⟨nonempty, digits, value⟩

/-- No dash is in a side. -/
lemma SpellsSide.dash_notMem (spells : SpellsSide n side) : '-' ∉ side := by
  obtain ⟨ds, padded, -, digits, -⟩ := spells
  cases padded with
  | intro left right =>
    have blank : Text.isBlank '-' ≠ true := by decide
    rw [List.mem_append, List.mem_append, not_or, not_or]
    refine ⟨⟨?_, ?_⟩, ?_⟩
    · exact fun listed => blank (left '-' listed)
    · exact fun listed => absurd (digits '-' listed) (by decide)
    · exact fun listed => blank (right '-' listed)

/-- A score is read at its first dash. -/
lemma ofScore?_of_split (split : score.toList = first ++ '-' :: second) (clear : '-' ∉ first) :
    ofScore? score =
      if '-' ∈ second then none
      else (ofSide? first).bind fun a => (ofSide? second).bind fun b => some ⟨a, b⟩ := by
  have apart : ∀ c ∈ first, decide (c ≠ '-') = true := fun c listed =>
    decide_eq_true fun dash => clear (dash ▸ listed)
  rw [ofScore?, split, List.dropWhile_append_of_pos apart, List.takeWhile_append_of_pos apart]
  simp

/-- There is one way to split a text at its only dash. -/
lemma eq_of_split {as bs cs ds : List Char} (same : as ++ '-' :: bs = cs ++ '-' :: ds)
    (left : '-' ∉ as) (right : '-' ∉ bs) : as = cs ∧ bs = ds := by
  -- were one front longer than the other, the dash behind the shorter would be in `as` or in `bs`
  obtain ⟨more, rfl, ends⟩ | ⟨more, rfl, ends⟩ := List.append_eq_append_iff.1 same
  · cases more with
    | nil => exact ⟨(List.append_nil as).symm, (List.cons.inj ends).2⟩
    | cons c more =>
      obtain ⟨-, rfl⟩ := List.cons.inj ends
      exact absurd (List.mem_append_right more List.mem_cons_self) right
  · cases more with
    | nil => exact ⟨List.append_nil cs, (List.cons.inj ends).2.symm⟩
    | cons c more =>
      obtain ⟨rfl, -⟩ := List.cons.inj ends
      exact absurd (List.mem_append_right cs List.mem_cons_self) left

/-- A text with a dash spells a score where what stands before and after the dash does. -/
lemma spells_append_iff :
    g.Spells (l ++ "-" ++ r) ↔ SpellsSide g.first l.toList ∧ SpellsSide g.second r.toList := by
  have dash : "-".toList = ['-'] := rfl
  have text : (l ++ "-" ++ r).toList = l.toList ++ '-' :: r.toList := by
    rw [String.toList_append, String.toList_append, dash, List.append_assoc, List.singleton_append]
  constructor
  · rintro ⟨first, second, split, left, right⟩
    obtain ⟨rfl, rfl⟩ := eq_of_split (split.symm.trans text) left.dash_notMem right.dash_notMem
    exact ⟨left, right⟩
  · rintro ⟨left, right⟩
    exact ⟨_, _, text, left, right⟩

/-- Without a dash there is no score. -/
lemma ofScore?_of_notMem (clear : '-' ∉ score.toList) : ofScore? score = none := by
  have dashless : score.toList.dropWhile (· ≠ '-') = [] :=
    List.dropWhile_eq_nil_iff.2 fun c listed =>
      decide_eq_true fun dash => clear (dash ▸ listed)
  rw [ofScore?, dashless]

/-- A score is read from what spells it and from nothing else. -/
lemma ofScore?_eq_some_iff : ofScore? score = some g ↔ g.Spells score := by
  constructor
  · intro read
    by_cases dash : '-' ∈ score.toList
    · obtain ⟨first, second, split, clear⟩ := List.eq_append_cons_of_mem dash
      rw [ofScore?_of_split split clear] at read
      split at read
      · cases read
      · obtain ⟨a, left, read⟩ := Option.bind_eq_some_iff.1 read
        obtain ⟨b, right, read⟩ := Option.bind_eq_some_iff.1 read
        cases read
        exact ⟨first, second, split, ofSide?_eq_some_iff.1 left, ofSide?_eq_some_iff.1 right⟩
    · rw [ofScore?_of_notMem dash] at read
      cases read
  · rintro ⟨first, second, split, left, right⟩
    rw [ofScore?_of_split split left.dash_notMem, if_neg right.dash_notMem,
      ofSide?_eq_some_iff.2 left, ofSide?_eq_some_iff.2 right]
    rfl

/-- A number in decimal is a side. -/
lemma spellsSide_toString (n : UInt32) : SpellsSide n (toString n.toNat).toList := by
  have digits : (toString n.toNat).toList = Nat.toDigits 10 n.toNat := Nat.toList_repr
  have padded : Text.Padded (Nat.toDigits 10 n.toNat) ([] ++ Nat.toDigits 10 n.toNat ++ []) :=
    .intro nofun nofun
  rw [List.nil_append, List.append_nil] at padded
  rw [digits]
  exact ⟨_, padded, Nat.toDigits_ne_nil,
    fun _ listed => Nat.isDigit_of_mem_toDigits (by decide) (by decide) listed,
    Nat.ofDigitChars_ten_toDigits⟩

/-- **The language of scores.** A text is read as a score exactly where it spells one, with the
goals that it spells. So the goals in decimal are read back, and a text with its sides exchanged is
read with its goals exchanged. The winner is the first side where it has more goals and the second
side where that has more; it is a draw where they have as many, and where no goals are spelled the
winner is open. -/
theorem ofScore?_accepts :
    (∀ score (g : Goals), ofScore? score = some g ↔ g.Spells score) ∧
    (∀ a b : UInt32, ofScore? (toString a.toNat ++ "-" ++ toString b.toNat) = some ⟨a, b⟩) ∧
    (∀ l r : String, ofScore? (r ++ "-" ++ l) = (ofScore? (l ++ "-" ++ r)).map swap) ∧
    ∀ first second score,
      (∀ g : Goals, g.Spells score →
        (g.second < g.first → Winner.ofScore first second score = .team first) ∧
        (g.first < g.second → Winner.ofScore first second score = .team second) ∧
        (g.first = g.second → Winner.ofScore first second score = .draw)) ∧
      ((∀ g : Goals, ¬ g.Spells score) → Winner.ofScore first second score = .undecided) := by
  refine ⟨fun score g => ofScore?_eq_some_iff, fun a b => ?decimal, fun l r => ?exchanged,
    fun first second score => ⟨fun g spells => ?winner, fun unspelled => ?undecided⟩⟩
  case decimal =>
    exact ofScore?_eq_some_iff.2
      (spells_append_iff.2 ⟨spellsSide_toString a, spellsSide_toString b⟩)
  case exchanged =>
    ext g
    rw [ofScore?_eq_some_iff, spells_append_iff, Option.map_eq_some_iff]
    constructor
    · rintro ⟨left, right⟩
      exact ⟨g.swap, ofScore?_eq_some_iff.2 (spells_append_iff.2 ⟨right, left⟩), rfl⟩
    · rintro ⟨g, read, rfl⟩
      obtain ⟨left, right⟩ := spells_append_iff.1 (ofScore?_eq_some_iff.1 read)
      exact ⟨right, left⟩
  case winner =>
    rw [Winner.ofScore, ofScore?_eq_some_iff.2 spells]
    refine ⟨fun more => if_pos more, fun less => ?_, fun level => ?_⟩
    · exact (if_neg (UInt32.lt_asymm less)).trans (if_pos less)
    · dsimp only
      rw [level, if_neg (UInt32.lt_irrefl _), if_neg (UInt32.lt_irrefl _)]
  case undecided =>
    cases read : ofScore? score with
    | none => rw [Winner.ofScore, read]
    | some g => exact absurd (ofScore?_eq_some_iff.1 read) (unspelled g)

/-- Zeros in front and blanks around do not count, and 2 ^ 32 is no number of goals. -/
example :
    ofScore? "\u00a0007 -\n4294967295 " = some ⟨7, 4294967295⟩ ∧ ofScore? "1-4294967296" = none ∧
      ofScore? "1 0-0" = none ∧ ofScore? "1-+0" = none := by
  decide

end Goals

end Knockout
