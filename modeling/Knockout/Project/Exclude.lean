import Knockout.Project.Path

/-!
# Exclude patterns

A pattern says which paths a project leaves out. `*end` without a slash matches by the end of the
text, `folder/*` by a folder on the way, and all else by occurring in the text; `**/` in front of a
folder or a text changes nothing. Main statement: `occursIn_iff`, occurring is being a contiguous
part.
-/

namespace Knockout.Exclude

/-- Whether a text occurs in another. -/
def occursIn (part : List Char) : List Char → Bool
  | [] => part.isEmpty
  | c :: cs => part.isPrefixOf (c :: cs) || occursIn part cs

/-- A text occurs in another when it is a contiguous part of it. -/
theorem occursIn_iff {part cs : List Char} : occursIn part cs = true ↔ part <:+: cs := by
  induction cs with
  | nil => simp [occursIn]
  | cons c cs ih => simp [occursIn, ih, List.infix_cons_iff]

/-- What follows a given front of a text, if the text starts with it. -/
def after? : List Char → List Char → Option (List Char)
  | [], cs => some cs
  | _ :: _, [] => none
  | f :: front, c :: cs => if f = c then after? front cs else none

/-- What precedes a given end of a text, if the text ends with it. -/
def before? (ending cs : List Char) : Option (List Char) :=
  (after? ending.reverse cs.reverse).map List.reverse

/-- What follows a front makes up the text together with it. -/
theorem after?_eq_some_iff {front cs rest : List Char} :
    after? front cs = some rest ↔ cs = front ++ rest := by
  induction front generalizing cs with
  | nil => simp [after?]
  | cons f front ih =>
    cases cs with
    | nil => simp [after?]
    | cons c cs =>
      by_cases h : f = c
      · simp [after?, h, ih]
      · simp [after?, h, Ne.symm h]

/-- What precedes an end makes up the text together with it. -/
theorem before?_eq_some_iff {ending cs rest : List Char} :
    before? ending cs = some rest ↔ cs = rest ++ ending := by
  simp only [before?, Option.map_eq_some_iff, after?_eq_some_iff]
  constructor
  · rintro ⟨r, h, rfl⟩
    have := congrArg List.reverse h
    simpa using this
  · rintro rfl
    exact ⟨rest.reverse, by simp⟩

/-- Whether a path goes through a folder: the text of the folder and a slash stand at its front or
after a slash. -/
def goesThrough (folder path : List Char) : Bool :=
  (folder ++ ['/']).isPrefixOf path || occursIn ('/' :: folder ++ ['/']) path

/-- Whether a pattern matches by a folder, or else by occurring in the text. -/
def matchesPlain (pattern path : List Char) : Bool :=
  match before? ['/', '*'] pattern with
  | some folder => goesThrough folder path
  | none => occursIn pattern path

/-- Whether a pattern matches a path: anywhere in it behind two stars and a slash, at its end behind
one star, and else as it stands. -/
def matchesPattern (pattern path : List Char) : Bool :=
  match after? ['*', '*', '/'] pattern with
  | some anywhere => matchesPlain anywhere path
  | none =>
    match pattern with
    | '*' :: ending =>
      if '/' ∈ pattern then matchesPlain pattern path else ending.isSuffixOf path
    | _ => matchesPlain pattern path

/-- The text of a path as patterns see it: backslashes are slashes. -/
def seen (p : Path) : List Char := p.text.toList.map fun c => if c = '\\' then '/' else c

/-- Whether one of some patterns matches a path. -/
def anyMatches (patterns : List String) (p : Path) : Bool :=
  patterns.any fun pattern => matchesPattern pattern.toList (seen p)

end Knockout.Exclude
