import Knockout.Project.Config
import Mathlib.Data.List.Infix
import Mathlib.Tactic.Lemma

/-!
# What exclude patterns leave out

A path goes through a folder exactly where the components of the folder stand in a row among those
of the path with something behind them (`Exclude.goesThrough_iff`), so the pattern of a folder never
matches a part of a name; the main statement is `Config.excluded_folder`. With `**/` in front a
pattern is taken as it stands, whatever else it starts with: that is the same pattern where stars in
front of it mean nothing (`Exclude.matchesPattern_eq_matchesPlain`), and nowhere else
(`Config.excluded_anywhere`).
-/

namespace Knockout

namespace Exclude

variable {folder path pattern ending : List Char}

/-! ## Folders -/

/-- The components of a folder stand in a row among those of a path, in front of its last one. -/
def Enters (folder path : List Char) : Prop :=
  ∃ before after, path.splitOn '/' = before ++ folder.splitOn '/' ++ after ∧ after ≠ []

/-- Parts with slashes between them are written one after the other, with a slash. -/
lemma intercalate_append {parts more : List (List Char)} (nonempty : parts ≠ [])
    (others : more ≠ []) :
    ['/'].intercalate (parts ++ more) =
      ['/'].intercalate parts ++ '/' :: ['/'].intercalate more := by
  induction parts with
  | nil => exact absurd rfl nonempty
  | cons part parts ih =>
    cases parts with
    | nil =>
      obtain ⟨next, more, rfl⟩ := List.exists_cons_of_ne_nil others
      rw [List.singleton_append, List.intercalate_cons_cons, List.intercalate_singleton,
        List.append_assoc, List.singleton_append]
    | cons next parts =>
      rw [List.cons_append, List.cons_append, List.intercalate_cons_cons, ← List.cons_append,
        ih (List.cons_ne_nil _ _), List.intercalate_cons_cons, List.append_assoc (part ++ _)]

/-- What the components of a text are cut into, the text is cut into. -/
lemma eq_append_slash_of_splitOn {text : List Char} {front rest : List (List Char)}
    (split : text.splitOn '/' = front ++ rest) (nonempty : front ≠ []) (others : rest ≠ []) :
    text = ['/'].intercalate front ++ '/' :: ['/'].intercalate rest := by
  rw [← intercalate_append nonempty others, ← split, List.intercalate_splitOn]

/-- The search for a folder in a path finds it where its components stand in a row. -/
lemma goesThrough_iff : goesThrough folder path = true ↔ Enters folder path := by
  rw [goesThrough, Bool.or_eq_true, List.isPrefixOf_iff_prefix, occursIn_iff]
  constructor
  · rintro (⟨rest, rfl⟩ | ⟨front, rest, rfl⟩)
    · refine ⟨[], rest.splitOn '/', ?_, List.splitOn_ne_nil _ _⟩
      rw [List.append_assoc, List.singleton_append, List.splitOn_append_cons_self, List.nil_append]
    · refine ⟨front.splitOn '/', rest.splitOn '/', ?_, List.splitOn_ne_nil _ _⟩
      rw [List.append_assoc, List.cons_append, List.cons_append, List.splitOn_append_cons_self,
        List.append_assoc, List.singleton_append, List.splitOn_append_cons_self, List.append_assoc]
  · rintro ⟨before, after, split, nonempty⟩
    have folder' : folder.splitOn '/' ≠ [] := List.splitOn_ne_nil _ _
    have inner : ['/'].intercalate (folder.splitOn '/' ++ after) =
        folder ++ '/' :: ['/'].intercalate after := by
      rw [intercalate_append folder' nonempty, List.intercalate_splitOn]
    cases before with
    | nil =>
      left
      have whole := congrArg ['/'].intercalate split
      rw [List.intercalate_splitOn, List.nil_append, inner] at whole
      exact ⟨['/'].intercalate after, by rw [whole, List.append_assoc, List.singleton_append]⟩
    | cons part before =>
      right
      rw [List.append_assoc] at split
      have whole := eq_append_slash_of_splitOn split (List.cons_ne_nil part before)
        (List.append_ne_nil_of_left_ne_nil folder' after)
      rw [inner] at whole
      exact ⟨['/'].intercalate (part :: before), ['/'].intercalate after, by simp [whole]⟩

/-- The pattern for what is in a folder matches the paths that go through it. -/
lemma matchesPlain_folder : matchesPlain (folder ++ ['/', '*']) path = goesThrough folder path := by
  rw [matchesPlain, before?_eq_some_iff.2 rfl]

/-! ## Patterns that start with stars -/

/-- The pattern is one for the end of a path: a star in front and no slash. -/
def IsEnding (pattern : List Char) : Prop := pattern.head? = some '*' ∧ '/' ∉ pattern

/-- The pattern has `**/` in front. -/
def IsAnywhere (pattern : List Char) : Prop := ['*', '*', '/'] <+: pattern

/-- A pattern for the end of a path matches the paths that end so. -/
lemma matchesPattern_ending (isEnding : IsEnding ('*' :: ending)) :
    matchesPattern ('*' :: ending) path = true ↔ ending <:+ path := by
  have apart : after? ['*', '*', '/'] ('*' :: ending) = none := by
    refine Option.eq_none_iff_forall_ne_some.2 fun rest found => isEnding.2 ?_
    rw [after?_eq_some_iff.1 found]
    simp
  simp only [matchesPattern, apart, if_neg isEnding.2, List.isSuffixOf_iff_suffix]

/-- Behind two stars and a slash, a pattern is taken without the rules for those. -/
lemma matchesPattern_anywhere :
    matchesPattern ('*' :: '*' :: '/' :: pattern) path = matchesPlain pattern path := rfl

/-- A pattern of any other form is taken as it stands. -/
lemma matchesPattern_eq_matchesPlain (notEnding : ¬ IsEnding pattern)
    (notAnywhere : ¬ IsAnywhere pattern) :
    matchesPattern pattern path = matchesPlain pattern path := by
  have apart : after? ['*', '*', '/'] pattern = none := by
    refine Option.eq_none_iff_forall_ne_some.2 fun rest found => notAnywhere ?_
    exact ⟨rest, (after?_eq_some_iff.1 found).symm⟩
  unfold matchesPattern
  rw [apart]
  dsimp only
  split
  · next ending =>
    split
    · rfl
    · next clear => exact absurd ⟨rfl, clear⟩ notEnding
  · rfl

/-- The pattern for what is in a folder starts with two stars and a slash only if the folder
does. -/
lemma not_isAnywhere_folder (named : folder ≠ ['*', '*']) (plain : ¬ IsAnywhere folder) :
    ¬ IsAnywhere (folder ++ ['/', '*']) := by
  rintro ⟨rest, same⟩
  match folder with
  | [] | [_] => simp at same
  | [_, _] =>
    simp only [List.cons_append, List.nil_append, List.cons.injEq] at same
    exact named (by rw [← same.1, ← same.2.1])
  | _ :: _ :: _ :: more =>
    simp only [List.cons_append, List.nil_append, List.cons.injEq] at same
    exact plain ⟨more, by rw [← same.1, ← same.2.1, ← same.2.2.1]; rfl⟩

/-! ## Patterns taken as they stand -/

/-- A pattern without slashes matches where it occurs. -/
lemma matchesPlain_of_notMem (clear : '/' ∉ pattern) :
    matchesPlain pattern path = true ↔ pattern <:+: path := by
  have apart : before? ['/', '*'] pattern = none := by
    refine Option.eq_none_iff_forall_ne_some.2 fun folder found => clear ?_
    rw [before?_eq_some_iff.1 found]
    simp
  rw [matchesPlain, apart, occursIn_iff]

/-- All of a pattern stands in the paths that it matches, but for a star at its end. -/
lemma exists_infix_of_matchesPlain (matches' : matchesPlain pattern path = true) :
    ∃ part, part <:+: path ∧ (pattern = part ∨ pattern = part ++ ['*']) := by
  unfold matchesPlain at matches'
  split at matches'
  · next folder found =>
    refine ⟨folder ++ ['/'], ?_, .inr (by simp [before?_eq_some_iff.1 found])⟩
    rw [goesThrough, Bool.or_eq_true, List.isPrefixOf_iff_prefix, occursIn_iff] at matches'
    obtain front | inner := matches'
    · exact front.isInfix
    · exact (List.suffix_cons '/' (folder ++ ['/'])).isInfix.trans inner
  · exact ⟨pattern, occursIn_iff.1 matches', .inl rfl⟩

/-- A pattern matches itself, the star at the end of a folder left out. -/
lemma exists_prefix_matchesPlain (pattern : List Char) :
    ∃ path, path <+: pattern ∧ matchesPlain pattern path = true := by
  unfold matchesPlain
  split
  · next folder found =>
    refine ⟨folder ++ ['/'], ⟨['*'], by simp [before?_eq_some_iff.1 found]⟩, ?_⟩
    simp [goesThrough]
  · exact ⟨pattern, List.prefix_rfl, occursIn_iff.2 List.infix_rfl⟩

/-- Where the stars in front of a pattern mean something, it matches a path that it does not match
as it stands. -/
lemma exists_matchesPattern_not_matchesPlain (special : IsEnding pattern ∨ IsAnywhere pattern) :
    ∃ path, path ⊆ pattern ∧ matchesPattern pattern path = true ∧
      matchesPlain pattern path = false := by
  obtain isEnding | ⟨rest, rfl⟩ := special
  · obtain ⟨ending, rfl⟩ := List.head?_eq_some_iff.1 isEnding.1
    refine ⟨ending, List.subset_cons_self _ _, ?_, Bool.eq_false_iff.2 fun plain => ?_⟩
    · exact (matchesPattern_ending isEnding).2 List.suffix_rfl
    · have short := ((matchesPlain_of_notMem isEnding.2).1 plain).length_le
      rw [List.length_cons] at short
      omega
  · obtain ⟨path, front, plain⟩ := exists_prefix_matchesPlain rest
    refine ⟨path, fun c listed => List.mem_append_right _ (front.subset listed), plain, ?_⟩
    refine Bool.eq_false_iff.2 fun whole => ?_
    obtain ⟨part, inner, same⟩ := exists_infix_of_matchesPlain whole
    have short := inner.length_le.trans front.length_le
    have long : rest.length + 2 ≤ part.length := by
      obtain same | same := same <;>
        have length := congrArg List.length same <;>
        simp only [List.length_append, List.length_cons, List.length_nil] at length <;> omega
    omega

/-- No path has a backslash for a pattern to match. -/
lemma matchesPattern_of_backslash (backslash : '\\' ∈ pattern) (clear : '\\' ∉ path) :
    matchesPattern pattern path = false := by
  have plain : ∀ {pattern}, '\\' ∈ pattern → matchesPlain pattern path ≠ true := by
    intro pattern backslash matches'
    obtain ⟨part, inner, rfl | rfl⟩ := exists_infix_of_matchesPlain matches'
    · exact clear (inner.subset backslash)
    · exact clear (inner.subset (by simpa using backslash))
  refine Bool.eq_false_iff.2 fun matches' => ?_
  by_cases isEnding : IsEnding pattern
  · obtain ⟨ending, rfl⟩ := List.head?_eq_some_iff.1 isEnding.1
    have inner := ((matchesPattern_ending isEnding).1 matches').subset
    exact clear (inner (by simpa using backslash))
  · by_cases isAnywhere : IsAnywhere pattern
    · obtain ⟨rest, rfl⟩ := isAnywhere
      exact plain (by simpa using backslash) matches'
    · rw [matchesPattern_eq_matchesPlain isEnding isAnywhere] at matches'
      exact plain backslash matches'

/-- Patterns see a path without backslashes. -/
lemma backslash_notMem_seen (p : Path) : '\\' ∉ seen p := by
  intro listed
  obtain ⟨c, -, same⟩ := List.mem_map.1 listed
  split at same
  · exact absurd same (by decide)
  · next other => exact other same

/-- A path without backslashes is seen as it is. -/
lemma seen_ofList {text : List Char} (clear : '\\' ∉ text) : seen ⟨.ofList text⟩ = text := by
  have same : ∀ c ∈ text, (if c = '\\' then '/' else c) = c := by
    refine fun c listed => if_neg ?_
    rintro rfl
    exact clear listed
  rw [seen, String.toList_ofList, List.map_congr_left same, List.map_id']

end Exclude

/-! ## One pattern -/

namespace Config

open Exclude

/-- The configuration that leaves out what one pattern matches. -/
def leavingOut (pattern : String) : Config := { excludes := [pattern] }

/-- With one pattern, a path is left out if the pattern matches it. -/
lemma excluded_leavingOut (pattern : String) (p : Path) :
    (leavingOut pattern).excluded p = matchesPattern pattern.toList (seen p) := by
  simp [excluded, leavingOut, anyMatches]

/-- With two stars and a slash in front, what is left out is what the rest of the pattern
matches. -/
lemma excluded_leavingOut_anywhere (pattern : String) (p : Path) :
    (leavingOut ("**/" ++ pattern)).excluded p = matchesPlain pattern.toList (seen p) := by
  rw [excluded_leavingOut, String.toList_append]
  exact matchesPattern_anywhere

/-- **A folder is left out by whole components.** With `**/` in front or without, the pattern of a
folder excludes the paths that go through it: those among whose components the ones of the folder
stand in a row, in front of the last. -/
theorem excluded_folder (dir : String) (named : dir ≠ "**") (plain : ¬ IsAnywhere dir.toList)
    (p : Path) :
    (leavingOut (dir ++ "/*")).excluded p = (leavingOut ("**/" ++ dir ++ "/*")).excluded p ∧
      ((leavingOut (dir ++ "/*")).excluded p = true ↔ Enters dir.toList (seen p)) := by
  have text : (dir ++ "/*").toList = dir.toList ++ ['/', '*'] := String.toList_append
  have notEnding : ¬ IsEnding (dir.toList ++ ['/', '*']) := fun ending => ending.2 (by simp)
  have notAnywhere : ¬ IsAnywhere (dir.toList ++ ['/', '*']) :=
    not_isAnywhere_folder (fun same => named (String.toList_inj.1 same)) plain
  have short : (leavingOut (dir ++ "/*")).excluded p = goesThrough dir.toList (seen p) := by
    rw [excluded_leavingOut, text, matchesPattern_eq_matchesPlain notEnding notAnywhere,
      matchesPlain_folder]
  have long : (leavingOut ("**/" ++ dir ++ "/*")).excluded p = goesThrough dir.toList (seen p) := by
    rw [String.append_assoc, excluded_leavingOut_anywhere, text, matchesPlain_folder]
  exact ⟨short.trans long.symm, by rw [short, goesThrough_iff]⟩

/-- A folder inside another is left out where both names are whole, and not at the end. -/
theorem excluded_folder_nested :
    ("drafts/old" ≠ "**" ∧ ¬ IsAnywhere "drafts/old".toList) ∧
      (leavingOut "drafts/old/*").excluded ⟨"cups\\drafts/old/a.tourney"⟩ = true ∧
      (leavingOut "**/drafts/old/*").excluded ⟨"drafts/older/drafts/old"⟩ = false := by
  have named : "drafts/old" ≠ "**" := by decide
  have plain : ¬ IsAnywhere "drafts/old".toList := by
    unfold IsAnywhere
    decide
  have inside := excluded_folder "drafts/old" named plain ⟨"cups\\drafts/old/a.tourney"⟩
  have atEnd := excluded_folder "drafts/old" named plain ⟨"drafts/older/drafts/old"⟩
  refine ⟨⟨named, plain⟩, inside.2.2 ⟨[['c', 'u', 'p', 's']], ?_⟩, ?_⟩
  · exact ⟨["a.tourney".toList], by decide, by decide⟩
  · exact atEnd.1.symm.trans (by decide)

/-- **What `**/` in front of a pattern does.** It changes nothing where the pattern has no stars in
front that mean something. Where it has, some path is left out no longer, unless the pattern has a
backslash and never left out any: of a pattern for the end of a path, the star itself is looked
for. -/
theorem excluded_anywhere (pattern : String) :
    (¬ IsEnding pattern.toList → ¬ IsAnywhere pattern.toList → ∀ p,
      (leavingOut ("**/" ++ pattern)).excluded p = (leavingOut pattern).excluded p) ∧
    ((∀ p, (leavingOut pattern).excluded p = true →
        (leavingOut ("**/" ++ pattern)).excluded p = true) ↔
      '\\' ∈ pattern.toList ∨ ¬ IsEnding pattern.toList ∧ ¬ IsAnywhere pattern.toList) ∧
    (IsEnding pattern.toList → ∀ p,
      (leavingOut ("**/" ++ pattern)).excluded p = true ↔ pattern.toList <:+: seen p) := by
  refine ⟨fun notEnding notAnywhere p => ?same, ⟨fun widens => ?plain, fun plain p => ?widens⟩,
    fun ending p => ?ending⟩
  case same =>
    rw [excluded_leavingOut_anywhere, excluded_leavingOut,
      matchesPattern_eq_matchesPlain notEnding notAnywhere]
  case plain =>
    by_contra other
    rw [← not_or, not_or, not_not] at other
    obtain ⟨path, inner, front, plain⟩ := exists_matchesPattern_not_matchesPlain other.2
    have clear : '\\' ∉ path := fun listed => other.1 (inner listed)
    have wider := widens ⟨.ofList path⟩
    rw [excluded_leavingOut_anywhere, excluded_leavingOut, seen_ofList clear, plain] at wider
    exact absurd (wider front) Bool.false_ne_true
  case widens =>
    rw [excluded_leavingOut_anywhere, excluded_leavingOut]
    obtain backslash | ⟨notEnding, notAnywhere⟩ := plain
    · rw [matchesPattern_of_backslash backslash (backslash_notMem_seen p)]
      exact nofun
    · rw [matchesPattern_eq_matchesPlain notEnding notAnywhere]
      exact id
  case ending =>
    rw [excluded_leavingOut_anywhere, matchesPlain_of_notMem ending.2]

/-- With `**/` in front, the pattern of an end is not found where it was, and neither is one with
`**/` already. -/
theorem excluded_anywhere_narrows :
    (leavingOut "*.bak.tourney").excluded ⟨"old.bak.tourney"⟩ = true ∧
      (leavingOut ("**/" ++ "*.bak.tourney")).excluded ⟨"old.bak.tourney"⟩ = false ∧
    (leavingOut "**/drafts/*").excluded ⟨"drafts/copa.tourney"⟩ = true ∧
      (leavingOut ("**/" ++ "**/drafts/*")).excluded ⟨"drafts/copa.tourney"⟩ = false := by
  decide

end Config

end Knockout
