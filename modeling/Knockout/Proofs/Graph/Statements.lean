import Knockout.Report.Graph
import Mathlib.Data.List.Basic
import Mathlib.Tactic.Lemma

/-!
# Graph texts, read

What a text in the DOT language declares, one statement a line: nodes with their labels and colours,
and edges. A line does not end within quotes, so that no name can end a statement. Main statements:
`Graph.declaredNodes_text` and `Graph.declaredEdges_text`, the text of a bracket declares the nodes
of its clusters and the edges between them, and nothing else.
-/

namespace Knockout.Graph

/-! ## Lines -/

/-- Whether the next character is in quotes, and whether a backslash stands before it there. -/
inductive Quoting where
  | outside
  | inside
  | escaped
  deriving DecidableEq, Repr

/-- How a quotation goes on with a character. -/
def Quoting.next : Quoting → Char → Quoting
  | .outside, c => if c = '"' then .inside else .outside
  | .inside, c => if c = '"' then .outside else if c = '\\' then .escaped else .inside
  | .escaped, _ => .inside

/-- A character more at the start of the first line. -/
def push (c : Char) : List (List Char) → List (List Char)
  | [] => [[c]]
  | l :: ls => (c :: l) :: ls

/-- The lines of a text. A line feed in quotes does not end a line. -/
def linesFrom : Quoting → List Char → List (List Char)
  | _, [] => [[]]
  | q, c :: cs =>
    if q = .outside ∧ c = '\n' then [] :: linesFrom .outside cs
    else push c (linesFrom (q.next c) cs)

/-- The lines of a text, from its start. -/
def lines (text : List Char) : List (List Char) := linesFrom .outside text

/-- Reads on within a line, if it does not end. -/
def Quoting.run : Quoting → List Char → Option Quoting
  | q, [] => some q
  | q, c :: cs => if q = .outside ∧ c = '\n' then none else (q.next c).run cs

/-- Every quote is closed, and the line ends nowhere. -/
def IsLine (line : List Char) : Prop := Quoting.outside.run line = some .outside

instance (line : List Char) : Decidable (IsLine line) :=
  inferInstanceAs (Decidable (_ = _))

/-- A text is run through piece by piece. -/
lemma Quoting.run_append (q : Quoting) (as bs : List Char) :
    q.run (as ++ bs) = (q.run as).bind fun q' => q'.run bs := by
  induction as generalizing q with
  | nil => rfl
  | cons c as ih =>
    rw [List.cons_append, run, run]
    split
    · rfl
    · exact ih _

/-- Two parts of a line make a part of a line. -/
lemma IsLine.append {as bs : List Char} (first : IsLine as) (second : IsLine bs) :
    IsLine (as ++ bs) := by
  rw [IsLine, Quoting.run_append, first]
  exact second

/-- Text without quotation marks and line ends is part of a line. -/
lemma isLine_of_plain {line : List Char} (plain : ∀ c ∈ line, c ≠ '"' ∧ c ≠ '\n') :
    IsLine line := by
  induction line with
  | nil => rfl
  | cons c line ih =>
    obtain ⟨⟨quote, feed⟩, plain⟩ := List.forall_mem_cons.1 plain
    rw [IsLine, Quoting.run, if_neg fun ends => feed ends.2, Quoting.next, if_neg quote]
    exact ih plain

/-- A line that leaves all quotations closed ends at its line end. -/
lemma linesFrom_of_run {q : Quoting} {line : List Char} (whole : q.run line = some .outside)
    (rest : List Char) : linesFrom q (line ++ '\n' :: rest) = line :: lines rest := by
  induction line generalizing q with
  | nil =>
    cases whole
    rw [List.nil_append, linesFrom, if_pos ⟨rfl, rfl⟩]
    rfl
  | cons c line ih =>
    rw [Quoting.run] at whole
    split at whole
    · cases whole
    · next goesOn =>
      rw [List.cons_append, linesFrom, if_neg goesOn, ih whole]
      rfl

/-- Lines that are put together are read back. -/
lemma lines_flatMap {ls : List (List Char)} (whole : ∀ l ∈ ls, IsLine l) :
    lines (ls.flatMap (· ++ ['\n'])) = ls ++ [[]] := by
  induction ls with
  | nil => rfl
  | cons l ls ih =>
    obtain ⟨first, whole⟩ := List.forall_mem_cons.1 whole
    rw [List.flatMap_cons, List.append_assoc, List.singleton_append, lines, linesFrom_of_run first,
      ih whole]
    rfl

/-! ## Statements -/

/-- A node as a text declares it. -/
structure Declaration where
  name : List Char
  /-- The lines of the label. -/
  label : List (List Char)
  /-- The colour that the node is filled with, where it is not the default. -/
  fill : Option (List Char)
  deriving DecidableEq, Repr

/-- The lines of a label up to the quote that closes it, and what is behind. A backslash and `n` end
a line; before another character a backslash stands for that character. -/
def readLabel : List Char → List (List Char) × List Char
  | [] => ([[]], [])
  | ['\\'] => ([['\\']], [])
  | '\\' :: c :: cs =>
    if c = 'n' then ([] :: (readLabel cs).1, (readLabel cs).2)
    else (push c (readLabel cs).1, (readLabel cs).2)
  | c :: cs => if c = '"' then ([[]], cs) else (push c (readLabel cs).1, (readLabel cs).2)

/-- The colour in the attributes behind the label. -/
def readFill (attributes : List Char) : Option (List Char) :=
  if ", fillcolor=".toList <+: attributes then
    some ((attributes.drop ", fillcolor=".toList.length).takeWhile (· ≠ ']'))
  else none

/-- The first word of a line. -/
def firstWord (line : List Char) : List Char := (line.dropWhile (· = ' ')).takeWhile (· ≠ ' ')

/-- What follows the first word. -/
def afterWord (line : List Char) : List Char := (line.dropWhile (· = ' ')).dropWhile (· ≠ ' ')

/-- Words that set defaults where a node would have its name. -/
def keywords : List (List Char) := ["graph".toList, "node".toList, "edge".toList]

/-- The node that a line declares: a name, and attributes in brackets. -/
def node? (line : List Char) : Option Declaration :=
  if firstWord line ∈ keywords then none
  else
    match afterWord line with
    | ' ' :: '[' :: attributes =>
      let label := readLabel ((attributes.dropWhile (· ≠ '"')).drop 1)
      some ⟨firstWord line, label.1, readFill label.2⟩
    | _ => none

/-- The edge that a line declares: two names with an arrow between them. -/
def edge? (line : List Char) : Option (List Char × List Char) :=
  match afterWord line with
  | ' ' :: '-' :: '>' :: ' ' :: target => some (firstWord line, target.takeWhile (· ≠ ';'))
  | _ => none

/-- The nodes that a graph declares, line by line. -/
def declaredNodes (text : List Char) : List Declaration := (lines text).filterMap node?

/-- The edges that a graph declares, line by line. -/
def declaredEdges (text : List Char) : List (List Char × List Char) := (lines text).filterMap edge?

/-! ## Labels -/

/-- Escaped text reads as that text, at the front of the first line of a label. -/
lemma readLabel_escape (cs rest : List Char) :
    readLabel (cs.flatMap escapeChar ++ rest) =
      (cs.foldr push (readLabel rest).1, (readLabel rest).2) := by
  induction cs with
  | nil => rfl
  | cons c cs ih =>
    rw [List.flatMap_cons, List.append_assoc, escapeChar, List.foldr_cons]
    split
    · next special =>
      have letter : c ≠ 'n' := by rintro rfl; simp at special
      rw [List.cons_append, List.singleton_append, readLabel, if_neg letter, ih]
    · next plain =>
      obtain ⟨slash, quote⟩ := not_or.1 plain
      rw [List.singleton_append, readLabel, if_neg quote, ih]
      · exact fun eq _ => absurd eq slash
      · exact fun _ _ eq _ => absurd eq slash

/-- Characters that are pushed one after the other stand before the first line. -/
lemma foldr_push (cs : List Char) (l : List Char) (ls : List (List Char)) :
    cs.foldr push (l :: ls) = (cs ++ l) :: ls := by
  induction cs with
  | nil => rfl
  | cons c cs ih => rw [List.foldr_cons, ih, push, List.cons_append]

/-- An end of line in a label starts a new line of it. -/
lemma readLabel_lineEnd (rest : List Char) :
    readLabel (lineEnd ++ rest) = ([] :: (readLabel rest).1, (readLabel rest).2) := rfl

/-- A quotation mark ends a label. -/
lemma readLabel_quote (rest : List Char) : readLabel ('"' :: rest) = ([[]], rest) := rfl

/-- A label shows the two sides with the score between them, whatever characters they have. -/
lemma readLabel_label (f : Fixture) (rest : List Char) :
    readLabel (label f ++ '"' :: rest) =
      ([f.first.toList, f.score.toList, f.second.toList], rest) := by
  simp only [label, List.append_assoc, readLabel_escape, readLabel_lineEnd, readLabel_quote,
    foldr_push, List.append_nil]

/-- Escaped text keeps a quotation open. -/
lemma run_escape (cs : List Char) : Quoting.inside.run (cs.flatMap escapeChar) = some .inside := by
  induction cs with
  | nil => rfl
  | cons c cs ih =>
    rw [List.flatMap_cons, Quoting.run_append, escapeChar]
    split
    · exact ih
    · next plain =>
      obtain ⟨slash, quote⟩ := not_or.1 plain
      have inside : Quoting.inside.run [c] = some .inside := by
        simp [Quoting.run, Quoting.next, slash, quote]
      rw [inside]
      exact ih

/-! ## The lines of a bracket -/

/-- The name of a node. -/
def nodeName (number : Nat) : List Char := 'P' :: Nat.toDigits 10 number

/-- The line that declares a node. -/
def nodeLine (n : Node) : List Char :=
  "    ".toList ++ nodeName n.number ++ " [label=\"".toList ++ label n.fixture ++ "\"".toList ++
    (if n.fixture.isCompleted then ", fillcolor=lightgreen" else "").toList ++ "];".toList

/-- The line that declares an edge. -/
def edgeLine (e : Nat × Nat) : List Char :=
  "  ".toList ++ nodeName e.1 ++ " -> ".toList ++ nodeName e.2 ++ ";".toList

/-- The line that opens the cluster of a phase. -/
def clusterLine (p : Phase) : List Char :=
  "  subgraph cluster_".toList ++ p.key.toList ++ " \x7b".toList

/-- The line that names it. -/
def labelLine (p : Phase) : List Char := "    label=\"".toList ++ p.label.toList ++ "\";".toList

/-- The lines of a cluster, with an empty one in front. -/
def clusterLines (c : Cluster) : List (List Char) :=
  [[], clusterLine c.phase, labelLine c.phase] ++ c.nodes.map nodeLine ++ ["  \x7d".toList]

/-- The lines of the edges, with an empty one in front if there are any. -/
def edgeLines (es : List (Nat × Nat)) : List (List Char) :=
  if es.isEmpty then [] else [] :: es.map edgeLine

/-- The lines of a graph, without the end of the last one. -/
def textLines (b : Bracket) : List (List Char) :=
  ["digraph Bracket \x7b".toList, "  rankdir=LR;".toList,
    "  node [shape=box, style=\"rounded,filled\", fillcolor=white];".toList] ++
    (clusters b).flatMap clusterLines ++ edgeLines (edges (clusters b)) ++ ["\x7d".toList]

/-- A number is written in its decimal digits. -/
lemma toList_toString (n : Nat) : (toString n).toList = Nat.toDigits 10 n := by
  rw [Nat.toString_eq_repr, Nat.toList_repr]

/-- The text of a node is one line. -/
lemma toList_nodeText (n : Node) : (nodeText n).toList = nodeLine n ++ ['\n'] := by
  have start : "    P".toList = "    ".toList ++ ['P'] := rfl
  have text : (String.ofList (label n.fixture)).toList = label n.fixture := String.toList_ofList
  have close : "];\n".toList = "];".toList ++ ['\n'] := rfl
  change ("    P" ++ toString n.number ++ " [label=\"" ++ String.ofList (label n.fixture) ++ "\"" ++
    (if n.fixture.isCompleted then ", fillcolor=lightgreen" else "") ++ "];\n").toList = _
  unfold nodeLine nodeName
  simp only [String.toList_append, toList_toString, text, start, close, List.append_assoc,
    List.cons_append, List.nil_append]

/-- The text of an edge is one line. -/
lemma toList_edgeText (e : Nat × Nat) : (edgeText e).toList = edgeLine e ++ ['\n'] := by
  have start : "  P".toList = "  ".toList ++ ['P'] := rfl
  have arrow : " -> P".toList = " -> ".toList ++ ['P'] := rfl
  have close : ";\n".toList = ";".toList ++ ['\n'] := rfl
  change ("  P" ++ toString e.1 ++ " -> P" ++ toString e.2 ++ ";\n").toList = _
  unfold edgeLine nodeName
  simp only [String.toList_append, toList_toString, start, arrow, close, List.append_assoc,
    List.cons_append, List.nil_append]

/-- The text of a cluster is its lines. -/
lemma toList_clusterText (c : Cluster) :
    (clusterText c).toList = (clusterLines c).flatMap (· ++ ['\n']) := by
  have start : "\n  subgraph cluster_".toList = '\n' :: "  subgraph cluster_".toList := rfl
  have feed : " \x7b\n    label=\"".toList = " \x7b".toList ++ '\n' :: "    label=\"".toList := rfl
  have close : "\";\n".toList = "\";".toList ++ ['\n'] := rfl
  have last : "  \x7d\n".toList = "  \x7d".toList ++ ['\n'] := rfl
  change ("\n  subgraph cluster_" ++ c.phase.key ++ " \x7b\n    label=\"" ++ c.phase.label ++
    "\";\n" ++ String.join (c.nodes.map nodeText) ++ "  \x7d\n").toList = _
  unfold clusterLines clusterLine labelLine
  simp only [String.toList_append, String.toList_join, start, feed, close, last, List.flatMap_map,
    toList_nodeText, List.append_assoc, List.cons_append, List.nil_append, List.flatMap_append,
    List.flatMap_cons, List.flatMap_nil]

/-- The text of the edges is their lines. -/
lemma toList_edgesText (es : List (Nat × Nat)) :
    (edgesText es).toList = (edgeLines es).flatMap (· ++ ['\n']) := by
  unfold edgesText edgeLines
  split
  · rfl
  · rw [String.toList_append, String.toList_join, List.flatMap_cons, List.flatMap_map,
      List.flatMap_map]
    simp only [toList_edgeText]
    rfl

/-- The text of a graph is its lines. -/
lemma toList_text (b : Bracket) : (text b).toList = (textLines b).flatMap (· ++ ['\n']) := by
  have opening : "digraph Bracket \x7b\n  rankdir=LR;\n".toList =
    "digraph Bracket \x7b".toList ++ '\n' :: "  rankdir=LR;".toList ++ ['\n'] := by cbv
  have defaults : "  node [shape=box, style=\"rounded,filled\", fillcolor=white];\n".toList =
    "  node [shape=box, style=\"rounded,filled\", fillcolor=white];".toList ++ ['\n'] := by cbv
  have last : "\x7d\n".toList = "\x7d".toList ++ ['\n'] := rfl
  unfold text textLines
  simp only [String.toList_append, String.toList_join, opening, defaults, last, List.flatMap_map,
    toList_clusterText, toList_edgesText, List.append_assoc, List.cons_append, List.nil_append,
    List.flatMap_append, List.flatMap_cons, List.flatMap_nil, List.flatMap_assoc]

/-! ## Whole lines -/

/-- The name of a node has no character that ends a word, a line or a statement. -/
lemma forall_mem_nodeName (number : Nat) :
    ∀ c ∈ nodeName number, c ≠ '"' ∧ c ≠ '\n' ∧ c ≠ ' ' ∧ c ≠ ';' := by
  refine List.forall_mem_cons.2 ⟨by decide, fun c listed => ?_⟩
  have digit := Nat.isDigit_of_mem_toDigits (by decide) (by decide) listed
  refine ⟨?_, ?_, ?_, ?_⟩ <;> rintro rfl <;> cases digit

/-- The name of a node is part of a line. -/
lemma isLine_nodeName (number : Nat) : IsLine (nodeName number) :=
  isLine_of_plain fun c listed =>
    have ⟨quote, feed, _⟩ := forall_mem_nodeName number c listed
    ⟨quote, feed⟩

/-- A label keeps its quotation open. -/
lemma run_label (f : Fixture) : Quoting.inside.run (label f) = some .inside := by
  have feed : Quoting.inside.run lineEnd = some .inside := rfl
  simp only [label, Quoting.run_append, run_escape, feed, Option.bind_some]

/-- The line of a node is a line. -/
lemma isLine_nodeLine (n : Node) : IsLine (nodeLine n) := by
  have start : Quoting.outside.run "    ".toList = some .outside := by decide
  have name : Quoting.outside.run (nodeName n.number) = some .outside := isLine_nodeName n.number
  have opening : Quoting.outside.run " [label=\"".toList = some .inside := by decide
  have closing : Quoting.inside.run "\"".toList = some .outside := by decide
  have fill : Quoting.outside.run
      (if n.fixture.isCompleted then ", fillcolor=lightgreen" else "").toList = some .outside := by
    split <;> decide
  have close : Quoting.outside.run "];".toList = some .outside := by decide
  unfold nodeLine IsLine
  simp only [Quoting.run_append, start, name, opening, run_label, closing, fill, close,
    Option.bind_some]

/-- The line of an edge is a line. -/
lemma isLine_edgeLine (e : Nat × Nat) : IsLine (edgeLine e) := by
  have start : IsLine "  ".toList := by decide
  have arrow : IsLine " -> ".toList := by decide
  have close : IsLine ";".toList := by decide
  exact (((start.append (isLine_nodeName e.1)).append arrow).append (isLine_nodeName e.2)).append
    close

/-- The lines of a cluster are lines. -/
lemma isLine_of_mem_clusterLines (c : Cluster) : ∀ l ∈ clusterLines c, IsLine l := by
  have opening : ∀ l ∈ [[], clusterLine c.phase, labelLine c.phase], IsLine l := by
    cases c.phase <;> decide
  have nodes : ∀ l ∈ c.nodes.map nodeLine, IsLine l :=
    List.forall_mem_map.2 fun n _ => isLine_nodeLine n
  have last : ∀ l ∈ ["  \x7d".toList], IsLine l := by decide
  exact List.forall_mem_append.2 ⟨List.forall_mem_append.2 ⟨opening, nodes⟩, last⟩

/-- The lines of the edges are lines. -/
lemma isLine_of_mem_edgeLines (es : List (Nat × Nat)) : ∀ l ∈ edgeLines es, IsLine l := by
  unfold edgeLines
  split
  · exact nofun
  · exact List.forall_mem_cons.2 ⟨rfl, List.forall_mem_map.2 fun e _ => isLine_edgeLine e⟩

/-- The lines of a graph are lines. -/
lemma isLine_of_mem_textLines (b : Bracket) : ∀ l ∈ textLines b, IsLine l := by
  have opening : ∀ l ∈ ["digraph Bracket \x7b".toList, "  rankdir=LR;".toList,
      "  node [shape=box, style=\"rounded,filled\", fillcolor=white];".toList], IsLine l := by
    decide
  have clusters : ∀ l ∈ (clusters b).flatMap clusterLines, IsLine l :=
    List.forall_mem_flatMap.2 fun c _ => isLine_of_mem_clusterLines c
  have edges := isLine_of_mem_edgeLines (edges (Graph.clusters b))
  have last : ∀ l ∈ ["\x7d".toList], IsLine l := by decide
  exact List.forall_mem_append.2 ⟨List.forall_mem_append.2
    ⟨List.forall_mem_append.2 ⟨opening, clusters⟩, edges⟩, last⟩

/-- The lines of a graph, and nothing behind the last one. -/
lemma lines_text (b : Bracket) : lines (text b).toList = textLines b ++ [[]] := by
  rw [toList_text, lines_flatMap (isLine_of_mem_textLines b)]

/-! ## Declarations -/

section Words

variable {blanks name rest : List Char}

/-- A line cut at its first blank that is not at the start. -/
lemma words_eq (blank : ∀ c ∈ blanks, c = ' ') (dark : ∀ c ∈ name, c ≠ ' ') (nonempty : name ≠ []) :
    firstWord (blanks ++ name ++ ' ' :: rest) = name ∧
      afterWord (blanks ++ name ++ ' ' :: rest) = ' ' :: rest := by
  have start : (blanks ++ name ++ ' ' :: rest).dropWhile (· = ' ') = name ++ ' ' :: rest := by
    obtain ⟨c, cs, rfl⟩ := List.exists_cons_of_ne_nil nonempty
    rw [List.append_assoc, List.dropWhile_append_of_pos (by simpa using blank), List.cons_append,
      List.dropWhile_cons_of_neg (by simpa using dark c List.mem_cons_self)]
  have plain : ∀ c ∈ name, decide (c ≠ ' ') = true := by simpa using dark
  rw [firstWord, afterWord, start, List.takeWhile_append_of_pos plain,
    List.dropWhile_append_of_pos plain]
  exact ⟨List.append_nil name, rfl⟩

end Words

/-- A node as its line declares it. -/
def Node.declaration (n : Node) : Declaration where
  name := nodeName n.number
  label := [n.fixture.first.toList, n.fixture.score.toList, n.fixture.second.toList]
  fill := if n.fixture.isCompleted then some "lightgreen".toList else none

/-- The name of a node is no keyword of the language of graphs. -/
lemma nodeName_notMem_keywords (number : Nat) : nodeName number ∉ keywords := by
  simp [nodeName, keywords]

/-- The attributes of a node. -/
def attributes (f : Fixture) : List Char :=
  "label=\"".toList ++ (label f ++ '"' ::
    ((if f.isCompleted then ", fillcolor=lightgreen" else "").toList ++ "];".toList))

/-- The line of a node starts with its name, and its attributes follow. -/
lemma words_nodeLine (n : Node) :
    firstWord (nodeLine n) = nodeName n.number ∧
      afterWord (nodeLine n) = ' ' :: '[' :: attributes n.fixture := by
  have opening : " [label=\"".toList = ' ' :: '[' :: "label=\"".toList := rfl
  have closing : "\"".toList = ['"'] := rfl
  have line : nodeLine n =
      "    ".toList ++ nodeName n.number ++ ' ' :: '[' :: attributes n.fixture := by
    unfold nodeLine attributes
    simp only [opening, closing, List.append_assoc, List.cons_append, List.nil_append]
  rw [line]
  exact words_eq (by simp) (fun c listed => (forall_mem_nodeName _ c listed).2.2.1)
    (List.cons_ne_nil _ _)

/-- The line of an edge starts with the name of its source, and an arrow follows. -/
lemma words_edgeLine (e : Nat × Nat) :
    firstWord (edgeLine e) = nodeName e.1 ∧
      afterWord (edgeLine e) = ' ' :: '-' :: '>' :: ' ' :: (nodeName e.2 ++ [';']) := by
  have arrow : " -> ".toList = ' ' :: '-' :: '>' :: [' '] := rfl
  have close : ";".toList = [';'] := rfl
  have line : edgeLine e =
      "  ".toList ++ nodeName e.1 ++ ' ' :: '-' :: '>' :: ' ' :: (nodeName e.2 ++ [';']) := by
    unfold edgeLine
    simp only [arrow, close, List.append_assoc, List.cons_append, List.nil_append]
  rw [line]
  exact words_eq (by simp) (fun c listed => (forall_mem_nodeName _ c listed).2.2.1)
    (List.cons_ne_nil _ _)

/-- What is read in the attributes of a node. -/
lemma readLabel_attributes (f : Fixture) :
    readLabel (((attributes f).dropWhile (· ≠ '"')).drop 1) =
      ([f.first.toList, f.score.toList, f.second.toList],
        (if f.isCompleted then ", fillcolor=lightgreen" else "").toList ++ "];".toList) := by
  rw [← readLabel_label]
  rfl

/-- A colour is read exactly where one is written. -/
lemma readFill_eq (filled : Bool) :
    readFill ((if filled then ", fillcolor=lightgreen" else "").toList ++ "];".toList) =
      if filled then some "lightgreen".toList else none := by
  cases filled <;> decide

/-- The line of a node declares that node. -/
lemma node?_nodeLine (n : Node) : node? (nodeLine n) = some n.declaration := by
  obtain ⟨first, after⟩ := words_nodeLine n
  rw [node?, first, after, if_neg (nodeName_notMem_keywords n.number)]
  simp only [readLabel_attributes, readFill_eq]
  rfl

/-- The line of a node declares no edge. -/
lemma edge?_nodeLine (n : Node) : edge? (nodeLine n) = none := by
  rw [edge?, (words_nodeLine n).2]
  rfl

/-- No name leaves its quotes. -/
example :
    let n : Node := ⟨1, ⟨"A\"];\n  P1 -> P2;", "B\\", "2-0", []⟩⟩
    lines (nodeLine n) = [nodeLine n] ∧ edge? (nodeLine n) = none ∧
      node? (nodeLine n) = some ⟨"P1".toList,
        ["A\"];\n  P1 -> P2;".toList, "2-0".toList, "B\\".toList], some "lightgreen".toList⟩ := by
  decide +kernel

/-- The line of an edge declares no node. -/
lemma node?_edgeLine (e : Nat × Nat) : node? (edgeLine e) = none := by
  rw [node?, (words_edgeLine e).2]
  split <;> rfl

/-- The line of an edge declares that edge. -/
lemma edge?_edgeLine (e : Nat × Nat) : edge? (edgeLine e) = some (nodeName e.1, nodeName e.2) := by
  have name : ∀ c ∈ nodeName e.2, decide (c ≠ ';') = true := by
    simpa using fun c listed => (forall_mem_nodeName e.2 c listed).2.2.2
  obtain ⟨first, after⟩ := words_edgeLine e
  rw [edge?, first, after]
  simp only
  rw [List.takeWhile_append_of_pos name]
  simp

/-! ## The declarations of a bracket -/

section Declarations

variable (c : Cluster) (es : List (Nat × Nat)) (b : Bracket)

/-- A cluster declares its nodes. -/
lemma filterMap_clusterLines :
    (clusterLines c).filterMap node? = c.nodes.map Node.declaration ∧
      (clusterLines c).filterMap edge? = [] := by
  have frame : [[], clusterLine c.phase, labelLine c.phase].filterMap node? = [] ∧
      [[], clusterLine c.phase, labelLine c.phase].filterMap edge? = [] := by
    cases c.phase <;> decide
  have last : ["  \x7d".toList].filterMap node? = [] ∧ ["  \x7d".toList].filterMap edge? = [] := by
    decide
  simp only [clusterLines, List.filterMap_append, frame, last, List.filterMap_map,
    Function.comp_def, node?_nodeLine, edge?_nodeLine, List.nil_append, List.append_nil,
    List.filterMap_eq_map', List.filterMap_none, and_self]

/-- The lines of the edges declare those edges and no node. -/
lemma filterMap_edgeLines :
    (edgeLines es).filterMap node? = [] ∧
      (edgeLines es).filterMap edge? = es.map fun e => (nodeName e.1, nodeName e.2) := by
  have blank : node? [] = none ∧ edge? [] = none := by decide
  unfold edgeLines
  split
  · next empty =>
    rw [List.isEmpty_iff.1 empty]
    exact ⟨rfl, rfl⟩
  · rw [List.filterMap_cons_none blank.1, List.filterMap_cons_none blank.2]
    simp only [List.filterMap_map, Function.comp_def, node?_edgeLine, edge?_edgeLine,
      List.filterMap_eq_map', List.filterMap_none, and_self]

/-- The lines around the clusters and the edges declare nothing. -/
lemma filterMap_textLines {α : Type} {read : List Char → Option α}
    (opening : ["digraph Bracket \x7b".toList, "  rankdir=LR;".toList,
      "  node [shape=box, style=\"rounded,filled\", fillcolor=white];".toList].filterMap read = [])
    (last : ["\x7d".toList, []].filterMap read = []) :
    (lines (text b).toList).filterMap read =
      ((clusters b).flatMap fun c => (clusterLines c).filterMap read) ++
        (edgeLines (edges (clusters b))).filterMap read := by
  rw [lines_text, textLines, List.append_assoc, List.append_assoc, List.append_assoc,
    List.filterMap_append, opening, List.filterMap_append, List.filterMap_flatMap,
    List.filterMap_append, List.singleton_append, last, List.append_nil, List.nil_append]

/-- A graph declares the nodes of its clusters. -/
lemma declaredNodes_text :
    declaredNodes (text b).toList = ((clusters b).flatMap (·.nodes)).map Node.declaration := by
  rw [declaredNodes, filterMap_textLines b (by decide) (by decide), (filterMap_edgeLines _).1,
    List.append_nil, List.map_flatMap]
  simp only [(filterMap_clusterLines _).1]

/-- A graph declares the edges between its clusters. -/
lemma declaredEdges_text :
    declaredEdges (text b).toList =
      (edges (clusters b)).map fun e => (nodeName e.1, nodeName e.2) := by
  rw [declaredEdges, filterMap_textLines b (by decide) (by decide), (filterMap_edgeLines _).2]
  simp only [(filterMap_clusterLines _).2, List.flatMap_eq_nil_iff.2, implies_true,
    List.nil_append]

end Declarations

end Knockout.Graph
