import Knockout.Command.Session
import Knockout.Report.Graph

/-!
# Exporting the bracket

The command that writes the bracket of a file as a graph, on standard output or to a file.
-/

namespace Knockout.GraphExport

/-- Writes the bracket of a file as a graph. -/
def run (s : Session) (config : Config) (strict : Bool) (output : Option Path) (file : Path) :
    Execution :=
  match s.loadTournament (config.strictness strict) file with
  | (stderr, .error f) => { stderr, failure := some f }
  | (stderr, .ok t) =>
    let graph := Graph.text t.bracket
    match output with
    | none => { stderr, stdout := graph }
    | some target =>
      match s.place.writeText target graph with
      | .error fault => { stderr, failure := some (.unwritableGraph target fault) }
      | .ok _ =>
        let wrote := s.printer.line .status "Wrote" (s.printer.highlight (s.display target))
        { stderr := stderr ++ wrote, written := some (target, graph) }

end Knockout.GraphExport
