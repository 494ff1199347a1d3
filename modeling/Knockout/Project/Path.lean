/-!
# Paths

A path keeps the text it was built from, while order and equality are those of its components:
repeated slashes and inner dots do not count, a dot in front does. Main statement:
`Path.text_join_of_relative`, joining a relative path only ever adds to the text.
-/

namespace Knockout

/-- A component of a path. -/
inductive Component where
  /-- The slash that a path from the root starts with. -/
  | root
  /-- A dot in front of a relative path. -/
  | here
  /-- Two dots. -/
  | parent
  | name (s : String)
  deriving DecidableEq, Repr

namespace Component

/-- Place of a component among components of other sorts. -/
def rank : Component → Nat
  | .root => 0
  | .here => 1
  | .parent => 2
  | .name _ => 3

/-- The order of components: by sort, and names by their characters. -/
def lt : Component → Component → Bool
  | .name s, .name t => s < t
  | c, d => c.rank < d.rank

/-- Whether a list of components comes before another or is the same. -/
def listLe : List Component → List Component → Bool
  | [], _ => true
  | _ :: _, [] => false
  | c :: cs, d :: ds => if c = d then listLe cs ds else c.lt d

end Component

/-- The text of a path. -/
structure Path where
  text : String
  deriving DecidableEq, Repr

namespace Path

/-- The stretches of a text between its slashes. -/
def segmentsOf : List Char → List (List Char)
  | [] => [[]]
  | c :: cs =>
    if c = '/' then [] :: segmentsOf cs
    else
      match segmentsOf cs with
      | [] => [[c]]
      | s :: segments => (c :: s) :: segments

/-- Whether a path starts at the root. -/
def isAbsolute (p : Path) : Bool := p.text.toList.head? == some '/'

/-- The stretches between the slashes of a path; of one from the root, those after the first
slash. -/
def segments (p : Path) : List String :=
  let all := (segmentsOf p.text.toList).map String.ofList
  if p.isAbsolute then all.tail else all

/-- Whether a segment is a component. A dot is one only in front of a relative path. -/
def counts (leading : Bool) (segment : String) : Bool :=
  segment != "" && (segment != "." || leading)

/-- The component that a segment is. -/
def componentOf (segment : String) : Component :=
  if segment = "." then .here else if segment = ".." then .parent else .name segment

/-- The components of a path, with the root in front of an absolute one. -/
def components (p : Path) : List Component :=
  let own (leading : Bool) (segments : List String) : List Component :=
    (segments.filter (counts leading)).map componentOf
  if p.isAbsolute then .root :: own false p.segments
  else own true (p.segments.take 1) ++ own false (p.segments.drop 1)

/-- Whether two paths have the same components. -/
def same (p q : Path) : Bool := p.components == q.components

/-- The order of paths, by their components. -/
def le (p q : Path) : Bool := Component.listLe p.components q.components

/-- A path seen from another: it goes on where the other ends, unless it starts at the root. -/
def join (base p : Path) : Path :=
  if p.isAbsolute then p
  else if base.text.isEmpty || base.text.toList.getLast? == some '/' then ⟨base.text ++ p.text⟩
  else ⟨base.text ++ "/" ++ p.text⟩

/-- The name at the end of a path, if a name is what it ends with. -/
def fileName? (p : Path) : Option String :=
  match p.components.getLast? with
  | some (.name s) => some s
  | _ => none

/-- What follows the last dot of the name at the end of a path. A dot in front of a name starts no
extension. -/
def fileExtension? (p : Path) : Option String :=
  p.fileName?.bind fun name =>
    let reversed := name.toList.reverse
    match reversed.dropWhile (· != '.') with
    | [] | [_] => none
    | _ :: _ :: _ => some (String.ofList (reversed.takeWhile (· != '.')).reverse)

/-- Segments, the last first, without those at the end that are no component. -/
def trimSegments (relative : Bool) : List String → List String
  | [] => []
  | s :: before =>
    if counts (relative && before.isEmpty) s then s :: before else trimSegments relative before

/-- The path with the given segments, the last first. -/
def ofSegments (relative : Bool) (reversed : List String) : Path :=
  let inner := String.intercalate "/" reversed.reverse
  ⟨if relative then inner else "/" ++ inner⟩

/-- The paths above one with the given segments, the last first: one for each component. -/
def ancestorsFrom (relative : Bool) : List String → List Path
  | [] => []
  | s :: before =>
    if counts (relative && before.isEmpty) s then
      ofSegments relative (trimSegments relative before) :: ancestorsFrom relative before
    else ancestorsFrom relative before

/-- A path and the paths above it, nearest first. -/
def ancestors (p : Path) : List Path := p :: ancestorsFrom (!p.isAbsolute) p.segments.reverse

/-- What is left of the segments of a path from the root after `n` components. -/
def dropComponents : Nat → List String → List String
  | 0, segments => segments
  | _ + 1, [] => []
  | n + 1, s :: segments =>
    if counts false s then dropComponents n segments else dropComponents (n + 1) segments

/-- The text of a path for people who are at a place: below it the way from there, a dot for the
place itself, and the text of the path anywhere else. The place is given from the root. -/
def display (place p : Path) : String :=
  if place.isAbsolute && place.components.isPrefixOf p.components then
    let left := dropComponents (place.components.length - 1) p.segments
    let left := trimSegments false (left.dropWhile fun s => !counts false s).reverse
    if left.isEmpty then "." else (ofSegments true left).text
  else p.text

/-- Joining a relative path only ever adds to the text. -/
theorem text_join_of_relative {base p : Path} (h : p.isAbsolute = false) :
    ∃ between, (base.join p).text = base.text ++ between ++ p.text := by
  unfold join
  rw [h]
  by_cases ends : base.text.isEmpty || base.text.toList.getLast? == some '/'
  · exact ⟨"", by simp [ends]⟩
  · exact ⟨"/", by simp [ends]⟩

end Path

end Knockout
