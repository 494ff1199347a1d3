import Knockout.Tournament

/-!
# Bracket graph

A bracket as a graph in the DOT language: a node for each fixture, a cluster for each phase that
has any, and an edge from a fixture to the one its winner goes on to. Of two neighbours in a phase
both lead to the same fixture of the next.
-/

namespace Knockout

namespace Graph

/-- A fixture with its number in the graph. -/
structure Node where
  number : Nat
  fixture : Fixture
  deriving DecidableEq, Repr

/-- The nodes of a phase. -/
structure Cluster where
  phase : Phase
  nodes : List Node
  deriving DecidableEq, Repr

/-- The clusters of some phases, with nodes numbered from `number` on. A phase without fixtures has
none. -/
def clustersFrom (b : Bracket) (number : Nat) : List Phase → List Cluster
  | [] => []
  | p :: phases =>
    match b.fixtures p with
    | [] => clustersFrom b number phases
    | f :: fs =>
      ⟨p, ((f :: fs).zipIdx number).map fun n => ⟨n.2, n.1⟩⟩ ::
        clustersFrom b (number + (f :: fs).length) phases

/-- The clusters of a bracket, with nodes numbered from 1. -/
def clusters (b : Bracket) : List Cluster := clustersFrom b 1 Phase.all

/-- The edges that leave one cluster: node `i` leads to node `i / 2` of the next phase, if it is
there. -/
def edgesOf (cs : List Cluster) (c : Cluster) : List (Nat × Nat) :=
  match c.phase.next?.bind fun p => cs.find? (·.phase == p) with
  | none => []
  | some next =>
    c.nodes.zipIdx.filterMap fun n =>
      next.nodes[n.2 / 2]?.map fun target => (n.1.number, target.number)

/-- The edges between clusters, in the order of the nodes they leave. -/
def edges (cs : List Cluster) : List (Nat × Nat) := cs.flatMap (edgesOf cs)

/-- A character of a label in quotes. -/
def escapeChar (c : Char) : List Char := if c = '\\' ∨ c = '"' then ['\\', c] else [c]

/-- The two characters that end a line of a label. -/
def lineEnd : List Char := ['\\', 'n']

/-- The label of a fixture: the two sides with the score between them, each on a line. -/
def label (f : Fixture) : List Char :=
  f.first.toList.flatMap escapeChar ++ lineEnd ++ f.score.toList.flatMap escapeChar ++ lineEnd ++
    f.second.toList.flatMap escapeChar

/-- The line that declares a node. Completed fixtures are filled. -/
def nodeText (n : Node) : String :=
  let fill := if n.fixture.isCompleted then ", fillcolor=lightgreen" else ""
  s!"    P{n.number} [label=\"{String.ofList (label n.fixture)}\"{fill}];\n"

/-- The lines of a cluster. -/
def clusterText (c : Cluster) : String :=
  s!"\n  subgraph cluster_{c.phase.key} \x7b\n    label=\"{c.phase.label}\";\n" ++
    String.join (c.nodes.map nodeText) ++ "  \x7d\n"

/-- The line of an edge. -/
def edgeText (e : Nat × Nat) : String := s!"  P{e.1} -> P{e.2};\n"

/-- The lines of all edges, set apart from what is before them. -/
def edgesText (es : List (Nat × Nat)) : String :=
  if es.isEmpty then "" else "\n" ++ String.join (es.map edgeText)

/-- The bracket as a graph. -/
def text (b : Bracket) : String :=
  let cs := clusters b
  "digraph Bracket \x7b\n  rankdir=LR;\n" ++
    "  node [shape=box, style=\"rounded,filled\", fillcolor=white];\n" ++
    String.join (cs.map clusterText) ++ edgesText (edges cs) ++ "\x7d\n"

end Graph

end Knockout
