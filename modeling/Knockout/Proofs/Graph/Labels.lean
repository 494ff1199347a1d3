import Knockout.Proofs.Graph.Structure
import Mathlib.Algebra.Ring.Parity
import Mathlib.Data.List.Basic
import Mathlib.Tactic.Lemma

/-!
# Labels of a graph

What stands between the quotes of a graph. A quote with an odd run of backslashes before it does not
close a label, and only such quotes are in one (`Graph.Body.odd_slashes`), so that a text has
exactly the quotations that it is made of. `Graph.readLines?` reads a label back from the left; it
takes what `Graph.label` writes and nothing else. The main statement is `Graph.text_quotes_labels`.
-/

namespace Knockout.Graph

/-- The number of backslashes at the end of a text. -/
def slashes (cs : List Char) : Nat := (cs.reverse.takeWhile (· = '\\')).length

/-- Texts made of characters that are neither quotes nor backslashes, and of backslashes each with
the character that it stands before. -/
inductive Body : List Char → Prop where
  | nil : Body []
  | plain (quote : c ≠ '"') (slash : c ≠ '\\') (more : Body cs) : Body (c :: cs)
  | escape (more : Body cs) : Body ('\\' :: c :: cs)

/-- The texts between quotes, from somewhere in a text on. -/
def quotationsFrom : Quoting → List Char → List (List Char)
  | _, [] => []
  | .outside, c :: cs => quotationsFrom (Quoting.outside.next c) cs
  | .inside, c :: cs =>
    if c = '"' then [] :: quotationsFrom .outside cs
    else push c (quotationsFrom (Quoting.inside.next c) cs)
  | .escaped, c :: cs => push c (quotationsFrom .inside cs)

/-- The texts between quotes, with the backslashes in them. -/
def quotations (text : List Char) : List (List Char) := quotationsFrom .outside text

/-- The lines of a label. A backslash stands before a backslash, before a quote, and before the `n`
that ends a line; a text with any other backslash or with a bare quote is no label. -/
def readLines? : List Char → Option (List (List Char))
  | [] => some [[]]
  | '\\' :: c :: cs =>
    if c = 'n' then (readLines? cs).map ([] :: ·)
    else if c = '\\' ∨ c = '"' then (readLines? cs).map (push c)
    else none
  | c :: cs => if c = '\\' ∨ c = '"' then none else (readLines? cs).map (push c)

/-- A mark with a backslash before it; every other character as it is. -/
def escapeMark (mark c : Char) : List Char := if c = mark then ['\\', c] else [c]

/-! ## Runs of backslashes -/

section Slashes

variable {c : Char} {cs as bs : List Char}

/-- There are no more backslashes at the end of a text than there are characters in it. -/
lemma slashes_le (cs : List Char) : slashes cs ≤ cs.length := by
  have le := (cs.reverse.takeWhile_sublist (· = '\\')).length_le
  rwa [List.length_reverse] at le

/-- A further character joins the backslashes at the end if it is one and nothing but such follow
it. -/
lemma slashes_cons (c : Char) (cs : List Char) :
    slashes (c :: cs) =
      if c = '\\' ∧ slashes cs = cs.length then slashes cs + 1 else slashes cs := by
  unfold slashes
  rw [List.reverse_cons, List.takeWhile_append, List.length_reverse]
  by_cases whole : (cs.reverse.takeWhile (· = '\\')).length = cs.length
  · rw [if_pos whole, List.length_append, List.length_reverse, whole]
    by_cases slash : c = '\\'
    · simp [slash]
    · simp [slash]
  · rw [if_neg whole, if_neg fun both => whole both.2]

/-- A character that is no backslash does not join those at the end. -/
lemma slashes_plain (slash : c ≠ '\\') (cs : List Char) : slashes (c :: cs) = slashes cs := by
  rw [slashes_cons, if_neg fun both => slash both.1]

/-- An escaped character changes no parity. -/
lemma even_slashes_escape (c : Char) (cs : List Char) :
    Even (slashes ('\\' :: c :: cs)) ↔ Even (slashes cs) := by
  have le := slashes_le cs
  rw [slashes_cons '\\', slashes_cons c, List.length_cons]
  by_cases run : c = '\\' ∧ slashes cs = cs.length
  · rw [if_pos run, if_pos ⟨rfl, congrArg (· + 1) run.2⟩, Nat.even_add_one, Nat.even_add_one,
      not_not]
  · rw [if_neg run, if_neg fun both => by omega]

namespace Body

/-- Two such texts one after the other make one. -/
lemma append (first : Body as) (second : Body bs) : Body (as ++ bs) := by
  induction first with
  | nil => exact second
  | plain quote slash _ ih => exact .plain quote slash ih
  | escape _ ih => exact .escape ih

/-- Escaped text is such a text, whatever was escaped. -/
lemma escape_flatMap (cs : List Char) : Body (cs.flatMap escapeChar) := by
  induction cs with
  | nil => exact .nil
  | cons c cs ih =>
    rw [List.flatMap_cons, escapeChar]
    split
    · exact .escape ih
    · next plain =>
      obtain ⟨slash, quote⟩ := not_or.1 plain
      exact .plain quote slash ih

/-- The label of a match is such a text. -/
lemma label (f : Fixture) : Body (label f) := by
  have lineEnd : Body lineEnd := .escape .nil
  apply Body.append
  · apply Body.append
    · apply Body.append
      · exact ((escape_flatMap _).append lineEnd)
      · exact escape_flatMap _
    · exact lineEnd
  · exact escape_flatMap _

/-- No run of backslashes at the end is left open. -/
lemma even_slashes (body : Body cs) : Even (slashes cs) := by
  induction body with
  | nil => exact Even.zero
  | plain quote slash _ ih => rwa [slashes_plain slash]
  | escape _ ih => rwa [even_slashes_escape]

/-- A quote has an odd run of backslashes before it. -/
lemma odd_slashes (body : Body cs) (split : cs = as ++ '"' :: bs) : Odd (slashes as) := by
  rw [← Nat.not_even_iff_odd]
  -- what is taken off the front of `as`, piece by piece, leaves the parity as it is
  induction body generalizing as with
  | nil => exact absurd split (by simp)
  | plain quote slash _ ih =>
    cases as with
    | nil => exact absurd (List.cons.inj split).1 quote
    | cons c as =>
      obtain ⟨rfl, rest⟩ := List.cons.inj split
      rw [slashes_plain slash]
      exact ih rest
  | escape _ ih =>
    cases as with
    | nil => exact absurd (List.cons.inj split).1 (by decide)
    | cons c as =>
      obtain ⟨rfl, rest⟩ := List.cons.inj split
      cases as with
      | nil => decide
      | cons d as =>
        obtain ⟨rfl, later⟩ := List.cons.inj rest
        rw [even_slashes_escape]
        exact ih later

/-- The first quote with an even run of backslashes before it is the one after the text. -/
lemma prefix_of_even (body : Body cs) {rest before after : List Char}
    (split : cs ++ '"' :: rest = before ++ '"' :: after) (even : Even (slashes before)) :
    cs <+: before := by
  obtain ⟨more, rfl, -⟩ | ⟨more, within, ends⟩ := List.append_eq_append_iff.1 split
  · exact List.prefix_append _ _
  · cases more with
    | nil =>
      obtain rfl := within.trans (List.append_nil before)
      exact List.prefix_refl _
    | cons c more =>
      -- the quote would be one of the text, which have odd runs before them
      obtain ⟨rfl, -⟩ := List.cons.inj ends
      exact absurd even (Nat.not_even_iff_odd.2 (body.odd_slashes within))

end Body

end Slashes

/-! ## Quotations -/

variable {q : Quoting} {line cs : List Char}

/-- There is a first line after a character is put before it. -/
lemma push_ne_nil (c : Char) (ls : List (List Char)) : push c ls ≠ [] := by
  cases ls <;> exact List.cons_ne_nil _ _

/-- A quotation that is open has its place in the list. -/
lemma quotationsFrom_ne_nil (opened : q ≠ .outside) (whole : q.run line = some .outside) :
    quotationsFrom q line ≠ [] := by
  cases line with
  | nil => exact fun _ => opened (Option.some.inj whole)
  | cons c line =>
    cases q with
    | outside => exact absurd rfl opened
    | inside =>
      rw [quotationsFrom]
      split
      · exact List.cons_ne_nil _ _
      · exact push_ne_nil _ _
    | escaped => exact push_ne_nil _ _

/-- A character is put before the first of the lines, whatever comes after them. -/
lemma push_append (c : Char) {ls : List (List Char)} (nonempty : ls ≠ [])
    (more : List (List Char)) :
    push c (ls ++ more) = push c ls ++ more := by
  cases ls with
  | nil => exact absurd rfl nonempty
  | cons l ls => rfl

/-- A line that leaves all quotations closed is read by itself. -/
lemma quotationsFrom_of_run (whole : q.run line = some .outside) (rest : List Char) :
    quotationsFrom q (line ++ '\n' :: rest) = quotationsFrom q line ++ quotations rest := by
  induction line generalizing q with
  | nil =>
    cases whole
    rfl
  | cons c line ih =>
    rw [Quoting.run] at whole
    split at whole
    · cases whole
    · cases q with
      | outside => exact ih whole
      | inside =>
        rw [List.cons_append, quotationsFrom, quotationsFrom]
        split
        · next quote =>
          rw [Quoting.next, if_pos quote] at whole
          rw [ih whole, List.cons_append]
        · next quote =>
          have inside : Quoting.inside.next c ≠ .outside := by
            rw [Quoting.next, if_neg quote]
            split <;> decide
          rw [ih whole, push_append _ (quotationsFrom_ne_nil inside whole)]
      | escaped =>
        have inside : Quoting.inside ≠ .outside := by decide
        have whole : Quoting.inside.run line = some .outside := whole
        rw [List.cons_append, quotationsFrom, quotationsFrom, ih whole,
          push_append _ (quotationsFrom_ne_nil inside whole)]

/-- Lines that are put together have the quotations of each. -/
lemma quotations_flatMap {ls : List (List Char)} (whole : ∀ l ∈ ls, IsLine l) :
    quotations (ls.flatMap (· ++ ['\n'])) = ls.flatMap quotations := by
  induction ls with
  | nil => rfl
  | cons l ls ih =>
    obtain ⟨first, whole⟩ := List.forall_mem_cons.1 whole
    rw [List.flatMap_cons, List.flatMap_cons, List.append_assoc, List.singleton_append, ← ih whole]
    exact quotationsFrom_of_run first _

/-- Text without a quotation mark has no quotations. -/
lemma quotations_append_of_unquoted (unquoted : '"' ∉ cs) (rest : List Char) :
    quotations (cs ++ rest) = quotations rest := by
  induction cs with
  | nil => rfl
  | cons c cs ih =>
    rw [List.mem_cons, not_or] at unquoted
    rw [quotations, List.cons_append, quotationsFrom, Quoting.next, if_neg (Ne.symm unquoted.1)]
    exact ih unquoted.2

/-- What is quoted is the text up to the quote behind it. -/
lemma quotationsFrom_body (body : Body cs) (rest : List Char) :
    quotationsFrom .inside (cs ++ '"' :: rest) = cs :: quotations rest := by
  induction body with
  | nil => rfl
  | plain quote slash _ ih =>
    rw [List.cons_append, quotationsFrom, if_neg quote, Quoting.next, if_neg quote, if_neg slash,
      ih]
    rfl
  | @escape c _ _ ih =>
    have slash : '\\' ≠ '"' := by decide
    rw [List.cons_append, List.cons_append, quotationsFrom, if_neg slash, Quoting.next,
      if_neg slash, if_pos rfl, quotationsFrom, ih]
    rfl

/-- The name of a node has no quotation mark. -/
lemma quote_notMem_nodeName (number : Nat) : '"' ∉ nodeName number := fun listed =>
  (forall_mem_nodeName number '"' listed).1 rfl

/-- The line of a node quotes the label of its match alone. -/
lemma quotations_nodeLine (n : Node) : quotations (nodeLine n) = [label n.fixture] := by
  have blanks : '"' ∉ "    ".toList := by decide
  have opening : " [label=\"".toList = " [label=".toList ++ ['"'] := rfl
  have bracket : '"' ∉ " [label=".toList := by decide
  have closing : "\"".toList = ['"'] := rfl
  have start (rest : List Char) : quotations ('"' :: rest) = quotationsFrom .inside rest := rfl
  have close :
      quotations ((if n.fixture.isCompleted then ", fillcolor=lightgreen" else "").toList ++
        "];".toList) = [] := by
    split <;> decide
  unfold nodeLine
  simp only [List.append_assoc, opening, closing, List.cons_append, List.nil_append]
  rw [quotations_append_of_unquoted blanks,
    quotations_append_of_unquoted (quote_notMem_nodeName n.number),
    quotations_append_of_unquoted bracket, start, quotationsFrom_body (Body.label n.fixture), close]

/-- The line of an edge quotes nothing. -/
lemma quotations_edgeLine (e : Nat × Nat) : quotations (edgeLine e) = [] := by
  have blanks : '"' ∉ "  ".toList := by decide
  have arrow : '"' ∉ " -> ".toList := by decide
  unfold edgeLine
  simp only [List.append_assoc]
  rw [quotations_append_of_unquoted blanks,
    quotations_append_of_unquoted (quote_notMem_nodeName e.1),
    quotations_append_of_unquoted arrow, quotations_append_of_unquoted (quote_notMem_nodeName e.2)]
  rfl

/-- The lines of a cluster quote the name of its phase, then the labels of its matches. -/
lemma quotations_clusterLines (c : Cluster) :
    (clusterLines c).flatMap quotations =
      c.phase.label.toList :: c.nodes.map fun n => label n.fixture := by
  have frame : [[], clusterLine c.phase, labelLine c.phase].flatMap quotations =
      [c.phase.label.toList] := by
    cases c.phase <;> decide
  have last : ["  \x7d".toList].flatMap quotations = [] := by decide
  rw [clusterLines, List.flatMap_append, List.flatMap_append, frame, last, List.append_nil,
    List.flatMap_map]
  simp only [quotations_nodeLine]
  rw [List.map_eq_flatMap]
  rfl

/-- The lines of the edges quote nothing. -/
lemma quotations_edgeLines (es : List (Nat × Nat)) : (edgeLines es).flatMap quotations = [] := by
  unfold edgeLines
  split
  · rfl
  · rw [List.flatMap_cons, List.flatMap_map]
    simp only [quotations_edgeLine]
    exact List.flatMap_eq_nil_iff.2 fun _ _ => rfl

/-- All that the graph quotes: the style of its nodes, then each phase with its matches. -/
lemma quotations_text (b : Bracket) :
    quotations (text b).toList = "rounded,filled".toList ::
      Phase.all.flatMap fun p =>
        if b.fixtures p = [] then [] else p.label.toList :: (b.fixtures p).map label := by
  have opening : ["digraph Bracket \x7b".toList, "  rankdir=LR;".toList,
      "  node [shape=box, style=\"rounded,filled\", fillcolor=white];".toList].flatMap quotations =
        ["rounded,filled".toList] := by
    decide
  have last : ["\x7d".toList].flatMap quotations = [] := by decide
  rw [toList_text, quotations_flatMap (isLine_of_mem_textLines b), textLines, List.flatMap_append,
    List.flatMap_append, List.flatMap_append, opening, quotations_edgeLines, last, List.append_nil,
    List.append_nil, List.flatMap_assoc, List.singleton_append]
  simp only [quotations_clusterLines]
  rw [clusters_eq, List.filterMap_eq_flatMap_toList, List.flatMap_assoc]
  refine congrArg _ (List.flatMap_congr fun p _ => ?_)
  rw [cluster?]
  split
  · rfl
  · have fixtures : (b.fixtures p).map label =
        (((b.fixtures p).zipIdx (b.before p + 1)).map Prod.fst).map label := by
      rw [List.zipIdx_map_fst]
    rw [Option.toList_some, List.flatMap_singleton, List.map_map, fixtures, List.map_map]
    rfl

/-! ## Reading -/

/-- Replacing backslashes first does not touch those that quotes get. -/
lemma escapeChar_eq (c : Char) :
    escapeChar c = (escapeMark '\\' c).flatMap (escapeMark '"') := by
  unfold escapeChar escapeMark
  by_cases slash : c = '\\'
  · simp [slash]
  · by_cases quote : c = '"'
    · simp [quote]
    · simp [slash, quote]

/-- The text of a label with some lines. -/
def written (ls : List (List Char)) : List Char :=
  lineEnd.intercalate (ls.map (·.flatMap escapeChar))

/-- A label writes the first side, the score and the second side on three lines. -/
lemma label_eq (f : Fixture) :
    label f = written [f.first.toList, f.score.toList, f.second.toList] := by
  simp [label, written, List.intercalate]

section Reading

variable {c : Char} {cs : List Char} {ls : List (List Char)}

/-- One line is written as its characters escaped. -/
lemma written_singleton (l : List Char) : written [l] = l.flatMap escapeChar := by
  simp [written, List.intercalate]

/-- A further line is written before an end of line and the others. -/
lemma written_cons (nonempty : ls ≠ []) (l : List Char) :
    written (l :: ls) = l.flatMap escapeChar ++ (lineEnd ++ written ls) := by
  obtain ⟨l', ls, rfl⟩ := List.exists_cons_of_ne_nil nonempty
  rw [written, List.map_cons, List.map_cons, List.intercalate_cons_cons, List.append_assoc]
  rfl

/-- A character of the first line is written before everything else. -/
lemma written_push (nonempty : ls ≠ []) (c : Char) :
    written (push c ls) = escapeChar c ++ written ls := by
  cases ls with
  | nil => exact absurd rfl nonempty
  | cons l ls =>
    rw [push]
    cases ls with
    | nil => rw [written_singleton, written_singleton, List.flatMap_cons]
    | cons l' ls =>
      have more : l' :: ls ≠ [] := List.cons_ne_nil _ _
      rw [written_cons more, written_cons more, List.flatMap_cons, List.append_assoc]

/-- A label is the text of the lines that are read in it. -/
lemma eq_written (read : readLines? cs = some ls) : ls ≠ [] ∧ cs = written ls := by
  induction cs using readLines?.induct generalizing ls with
  | case1 =>
    cases read
    exact ⟨List.cons_ne_nil _ _, rfl⟩
  | case2 cs ih =>
    rw [readLines?, if_pos rfl] at read
    obtain ⟨more, rest, rfl⟩ := Option.map_eq_some_iff.1 read
    obtain ⟨nonempty, rfl⟩ := ih rest
    exact ⟨List.cons_ne_nil _ _, (written_cons nonempty []).symm⟩
  | case3 c cs letter mark ih =>
    rw [readLines?, if_neg letter, if_pos mark] at read
    obtain ⟨more, rest, rfl⟩ := Option.map_eq_some_iff.1 read
    obtain ⟨nonempty, rfl⟩ := ih rest
    refine ⟨push_ne_nil _ _, ?_⟩
    rw [written_push nonempty, escapeChar, if_pos mark]
    rfl
  | case4 c cs letter mark =>
    rw [readLines?, if_neg letter, if_neg mark] at read
    cases read
  | case5 c cs apart mark =>
    rw [readLines?, if_pos mark] at read
    · cases read
    · exact apart
  | case6 c cs apart mark ih =>
    rw [readLines?, if_neg mark] at read
    · obtain ⟨more, rest, rfl⟩ := Option.map_eq_some_iff.1 read
      obtain ⟨nonempty, rfl⟩ := ih rest
      refine ⟨push_ne_nil _ _, ?_⟩
      rw [written_push nonempty, escapeChar, if_neg mark]
      rfl
    · exact apart

/-- An escaped character reads as that character, at the front of the first line. -/
lemma readLines?_escapeChar (c : Char) (rest : List Char) :
    readLines? (escapeChar c ++ rest) = (readLines? rest).map (push c) := by
  rw [escapeChar]
  split
  · next mark =>
    have letter : c ≠ 'n' := by
      rintro rfl
      exact absurd mark (by decide)
    rw [List.cons_append, List.singleton_append, readLines?, if_neg letter, if_pos mark]
  · next mark =>
    rw [List.singleton_append, readLines?, if_neg mark]
    exact fun _ _ slash => absurd (.inl slash) mark

/-- Escaped characters read as those characters, at the front of the first line. -/
lemma readLines?_flatMap (cs rest : List Char) :
    readLines? (cs.flatMap escapeChar ++ rest) =
      (readLines? rest).map fun ls => cs.foldr push ls := by
  induction cs with
  | nil => exact (Option.map_id_apply).symm
  | cons c cs ih =>
    rw [List.flatMap_cons, List.append_assoc, readLines?_escapeChar, ih, Option.map_map]
    rfl

/-- Lines are read back as they were written. -/
lemma readLines?_written (nonempty : ls ≠ []) : readLines? (written ls) = some ls := by
  induction ls with
  | nil => exact absurd rfl nonempty
  | cons l ls ih =>
    cases ls with
    | nil =>
      rw [written_singleton, ← List.append_nil (l.flatMap escapeChar), readLines?_flatMap,
        readLines?, Option.map_some, foldr_push, List.append_nil]
    | cons l' ls =>
      have more : l' :: ls ≠ [] := List.cons_ne_nil _ _
      rw [written_cons more, readLines?_flatMap, lineEnd, List.cons_append, List.singleton_append,
        readLines?, if_pos rfl, ih more, Option.map_some, Option.map_some, foldr_push,
        List.append_nil]

/-- What is read is what was written. -/
lemma readLines?_eq_some_iff : readLines? cs = some ls ↔ ls ≠ [] ∧ cs = written ls := by
  constructor
  · exact eq_written
  · rintro ⟨nonempty, rfl⟩
    exact readLines?_written nonempty

end Reading

/-- **Labels are safe and unambiguous.** The quotations of a graph are the style, and for each phase
with fixtures its name and their labels. A label is made by replacing backslashes first and then
quotes. Every quote in it has an odd run of backslashes before it, and it does not end in such a
run, so that the first quote without one is the quote that closes it. It reads as the two sides with
the score between them, as no other text does; fixtures have the same label only where all three are
the same. -/
theorem text_quotes_labels (b : Bracket) :
    (quotations (text b).toList = "rounded,filled".toList ::
      Phase.all.flatMap fun p =>
        if b.fixtures p = [] then [] else p.label.toList :: (b.fixtures p).map label) ∧
    ∀ f : Fixture,
      (label f = lineEnd.intercalate ([f.first.toList, f.score.toList, f.second.toList].map
        fun cs => (cs.flatMap (escapeMark '\\')).flatMap (escapeMark '"'))) ∧
      (∀ before after, label f = before ++ '"' :: after → Odd (slashes before)) ∧
      Even (slashes (label f)) ∧
      (∀ rest before after, label f ++ '"' :: rest = before ++ '"' :: after →
        Even (slashes before) → label f <+: before) ∧
      (∀ cs, readLines? cs = some [f.first.toList, f.score.toList, f.second.toList] ↔
        cs = label f) ∧
      ∀ g, label f = label g ↔ f.first = g.first ∧ f.score = g.score ∧ f.second = g.second := by
  have reads (f : Fixture) (cs : List Char) :
      readLines? cs = some [f.first.toList, f.score.toList, f.second.toList] ↔ cs = label f := by
    rw [readLines?_eq_some_iff, label_eq]
    exact and_iff_right (List.cons_ne_nil _ _)
  refine ⟨quotations_text b, fun f => ⟨?passes, fun before after => (Body.label f).odd_slashes,
    (Body.label f).even_slashes, fun rest before after => (Body.label f).prefix_of_even, reads f,
    fun g => ?distinct⟩⟩
  case passes =>
    rw [label_eq, written]
    simp only [List.flatMap_assoc, ← escapeChar_eq]
  case distinct =>
    rw [← reads g, (reads f _).2 rfl]
    simp [String.toList_inj]

/-- A name may look like the escapes and the ends of lines that are around it. -/
example :
    let f : Fixture := ⟨"A\\", "\\n", "\\\"\n", []⟩
    readLines? (label f) = some [f.first.toList, f.score.toList, f.second.toList] ∧
      quotations ('"' :: label f ++ ['"', ';']) = [label f] := by
  decide

end Knockout.Graph
