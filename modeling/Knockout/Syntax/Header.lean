import Knockout.Syntax.Block

/-!
# The header

The section `TOURNEY { … }` with the attributes of the tournament. The last value of an attribute
wins, and a declared number of teams keeps the token it was read from.
-/

namespace Knockout

/-- Attributes of a tournament. -/
structure Header where
  name : String := ""
  venue : String := ""
  /-- The declared number of teams with its token, once one has been read. -/
  count : Option (UInt32 × Token) := none
  deriving DecidableEq, Repr

namespace Header

/-- Which attribute an entry gives. -/
inductive Field where
  | name
  | teamCount
  | venue
  deriving DecidableEq, Repr

/-- The declared number of teams, zero when there is none. -/
def declared (h : Header) : UInt32 := (h.count.map (·.1)).getD 0

/-- The attributes of the header. -/
def block : Block Field where
  name := .header
  closer := .rbrace
  entry?
    | .attribute .name => some .name
    | .attribute .teamCount => some .teamCount
    | .attribute .venue => some .venue
    | _ => none

/-- The value of an attribute; without one the header stays as it is. -/
def entry (h : Header) (f : Field) : Reader Header := do
  let _ ← Reader.symbol .colon
  match f with
  | .name =>
    match ← Reader.string .tournamentName with
    | some t => return { h with name := t.lexeme }
    | none => return h
  | .teamCount =>
    match ← Reader.number .teamCount with
    | some count => return { h with count := some count }
    | none => return h
  | .venue =>
    match ← Reader.string .venue with
    | some t => return { h with venue := t.lexeme }
    | none => return h

/-- The whole section. -/
def reader : Reader Header := do
  let _ ← Reader.keyword .tournament
  let _ ← Reader.symbol .lbrace
  block.read entry {}

end Header

end Knockout
