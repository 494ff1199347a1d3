import Knockout.Syntax.Elimination
import Knockout.Syntax.Header
import Knockout.Syntax.Teams

/-!
# Definitions

A definition is a header, the teams and the elimination rounds, in this order. `parse` always gives
a tournament, as good as the tokens allow, with everything that is wrong: the faults in the order
in which they were met, and last a declared number of teams that is not the number defined.
-/

namespace Knockout

/-- A tournament with the errors of the definition it was read from. -/
structure Parsed where
  document : Tournament
  errors : List SyntaxError
  deriving DecidableEq, Repr

namespace Parsed

/-- Whether nothing is wrong. -/
def isClean (p : Parsed) : Bool := p.errors.isEmpty

end Parsed

namespace Tournament

/-- A whole definition: the tournament and the token that declared its number of teams. -/
def reader (strictness : Strictness) : Reader (Tournament × Option Token) := do
  let header ← Header.reader
  let teams ← Team.reader
  let bracket ← Bracket.reader strictness teams
  Reader.ending
  return ({ name := header.name, venue := header.venue, declaredTeams := header.declared,
            teams, bracket }, header.count.map (·.2))

/-- The fault of a tournament that declares another number of teams than it defines. -/
def countFaults (t : Tournament) (count : Option Token) : List SyntaxFault :=
  if t.declaredTeams.toNat = t.teams.length then []
  else [.teamCount t.declaredTeams t.teams.length count]

end Tournament

namespace SyntaxFault

/-- Of the faults that say that the tokens end too soon only the first tells something new. -/
def dropRepeatedEnds : List SyntaxFault → List SyntaxFault
  | [] => []
  | f :: fs =>
    if f.isEndOfInput then f :: fs.filter (!·.isEndOfInput) else f :: dropRepeatedEnds fs

end SyntaxFault

/-- The empty span after the last of some tokens. -/
def endSpan (tokens : List Token) : Span :=
  match tokens.getLast? with
  | some t => .point t.span.stop
  | none => .unknown

/-- Numbers faults from 1 and gives them their place. -/
def SyntaxError.ofFaults (ending : Span) (faults : List SyntaxFault) : List SyntaxError :=
  (faults.zipIdx 1).map fun f => ⟨f.2, f.1.kind, f.1.message, f.1.span ending⟩

/-- Reads tokens into a tournament. -/
def parse (strictness : Strictness) (tokens : List Token) : Parsed :=
  let outcome := (Tournament.reader strictness).run tokens
  let (document, count) := outcome.value
  let faults := outcome.faults ++ document.countFaults count
  { document
    errors := SyntaxError.ofFaults (endSpan tokens) (SyntaxFault.dropRepeatedEnds faults) }

/-- Reading a definition takes every token. -/
theorem Tournament.rest_reader (strictness : Strictness) (tokens : List Token) :
    ((Tournament.reader strictness).run tokens).rest = [] := by
  simp only [Tournament.reader, Reader.run_bind, Reader.run_pure]
  unfold Reader.ending
  dsimp only
  split <;> rfl

end Knockout
