/-!
# Squads

Players, the positions they play in, and the teams whose rosters list them.
-/

namespace Knockout

/-- Playing position of a squad member. -/
inductive Position where
  | goalkeeper
  | defender
  | midfielder
  | forward
  deriving DecidableEq, Repr

namespace Position

/-- All positions, from the back line forward. -/
def all : List Position := [.goalkeeper, .defender, .midfielder, .forward]

/-- The canonical word for a position. -/
def name : Position → String
  | .goalkeeper => "GOALKEEPER"
  | .defender => "DEFENDER"
  | .midfielder => "MIDFIELDER"
  | .forward => "FORWARD"

/-- The words for positions, the Spanish one before the English one. -/
def vocabulary : List (String × Position) :=
  [("PORTERO", .goalkeeper), ("GOALKEEPER", .goalkeeper),
    ("DEFENSA", .defender), ("DEFENDER", .defender),
    ("MEDIOCAMPO", .midfielder), ("MIDFIELDER", .midfielder),
    ("DELANTERO", .forward), ("FORWARD", .forward)]

/-- The position a word stands for, in either language. -/
def ofWord? (word : String) : Option Position := vocabulary.lookup word

/-- Every position is listed. -/
theorem mem_all (p : Position) : p ∈ all := by
  cases p <;> decide

end Position

/-- A squad member. -/
structure Player where
  name : String
  /-- Absent when the definition does not say. -/
  position : Option Position := none
  /-- Shirt number. -/
  number : UInt32 := 0
  /-- Absent when the definition does not say. -/
  age : Option UInt32 := none
  deriving DecidableEq, Repr

/-- A team and its roster, in definition order. -/
structure Team where
  name : String
  players : List Player := []
  deriving DecidableEq, Repr

namespace Team

/-- Whether the roster lists a player of this name. -/
def lists (t : Team) (player : String) : Bool := t.players.any (·.name == player)

end Team

end Knockout
