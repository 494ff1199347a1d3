import Knockout.Text.Table
import Mathlib.Algebra.GroupWithZero.Nat
import Mathlib.Data.List.DropRight
import Mathlib.Data.List.Forall2

/-!
# The alignment of tables

The rows of a table may have any number of cells, and a column is as wide as the longest of the
cells that stand in it (`Table.widths_getElem?`). So every cell fits, and what stands before it in a
row is as long as the columns before it with their gaps (`Table.exists_laidOut`). The end of a line
is trimmed, which takes nothing from a cell as long as a later one can be seen
(`Text.trimEnd_append_of_visible`). The main statement is `Text.tableText_aligned`.
-/

namespace Knockout.Text

variable {cs ds : List Char}

/-- A text with a character to be seen. -/
def Visible (cs : List Char) : Prop := ∃ c ∈ cs, isBlank c = false

/-- What is to be seen stays so behind other characters. -/
lemma Visible.append_left (visible : Visible ds) (cs : List Char) : Visible (cs ++ ds) := by
  obtain ⟨c, listed, dark⟩ := visible
  exact ⟨c, List.mem_append_right cs listed, dark⟩

/-- What is to be seen stays so in front of other characters. -/
lemma Visible.append_right (visible : Visible cs) (ds : List Char) : Visible (cs ++ ds) := by
  obtain ⟨c, listed, dark⟩ := visible
  exact ⟨c, List.mem_append_left ds listed, dark⟩

/-- Where nothing is to be seen there are only blanks. -/
lemma not_visible_iff : ¬ Visible cs ↔ ∀ c ∈ cs, isBlank c = true := by
  simp [Visible]

/-- Trimming leaves something of what is to be seen. -/
lemma Visible.trimEnd_ne_nil (visible : Visible cs) : trimEnd cs ≠ [] := by
  intro empty
  exact not_visible_iff.2 (List.rdropWhile_eq_nil_iff.1 empty) visible

/-- What stands before something to be seen is not trimmed. -/
lemma trimEnd_append_of_visible (visible : Visible ds) (cs : List Char) :
    trimEnd (cs ++ ds) = cs ++ trimEnd ds := by
  have stops : ds.reverse.dropWhile isBlank ≠ [] := by
    rw [← List.reverse_ne_nil_iff]
    exact visible.trimEnd_ne_nil
  rw [trimEnd, List.reverse_append, List.dropWhile_append, if_neg (by simp [stops]),
    List.reverse_append, List.reverse_reverse, trimEnd]

/-- A longer text is trimmed to no less. -/
lemma trimEnd_prefix_append (cs ds : List Char) : trimEnd cs <+: trimEnd (cs ++ ds) := by
  by_cases visible : Visible ds
  · rw [trimEnd_append_of_visible visible]
    exact (List.rdropWhile_prefix isBlank cs).trans (List.prefix_append cs _)
  · have same := trimEnd_append (not_visible_iff.1 visible) cs
    exact ⟨[], by rw [same, List.append_nil]⟩

/-- A trimmed text does not end in a blank. -/
lemma isBlank_getLast?_trimEnd {c : Char} (last : (trimEnd cs).getLast? = some c) :
    isBlank c = false := by
  rw [trimEnd, List.getLast?_reverse] at last
  have stop := List.head?_dropWhile_not isBlank cs.reverse
  rw [last] at stop
  exact stop

namespace Table

/-- The lengths of the cells in a column, those of the rows that reach it. -/
def lengths (table : List (List (List Char))) (j : Nat) : List Nat :=
  table.filterMap fun row => row[j]?.map List.length

/-- The length of the longest cell in a column. -/
def columnWidth (table : List (List (List Char))) (j : Nat) : Nat := (lengths table j).max?.getD 0

/-- Where a column begins: each column before it is followed by two spaces. -/
def columnStart (width : Nat → Nat) (i : Nat) : Nat :=
  ((List.range i).map fun j => width j + 2).sum

/-- A row in columns of some widths, before it is trimmed. -/
def laidOut (width : Nat → Nat) (row : List (List Char)) : List Char :=
  [' ', ' '].intercalate (row.mapIdx fun j cell => pad (width j) cell)

/-- Whether every cell of a row is within its column. -/
def Fits (width : Nat → Nat) (row : List (List Char)) : Prop :=
  ∀ i cell, row[i]? = some cell → cell.length ≤ width i

/-- Whether something is to be seen in a cell of a row or behind it. -/
def VisibleFrom (row : List (List Char)) (i : Nat) : Prop := ∃ cell ∈ row.drop i, Visible cell

/-- The line of a row in columns of some widths. -/
structure Aligned (width : Nat → Nat) (row : List (List Char)) (line : List Char) : Prop where
  /-- Nothing but blanks is missing at the end of the line. -/
  trimmed : ∃ blanks, laidOut width row = line ++ blanks ∧ ∀ c ∈ blanks, isBlank c = true
  /-- No blank is left there. -/
  ends : ∀ c, line.getLast? = some c → isBlank c = false
  /-- A cell begins with its column if something is to be seen in it or behind it. Where the line
  ends within the cell, the blanks at the end of the cell are missing. -/
  begins : ∀ i cell, row[i]? = some cell → VisibleFrom row i →
    columnStart width i < line.length ∧ trimEnd cell <+: line.drop (columnStart width i)
  /-- A cell is there in full if something is to be seen behind it. -/
  whole : ∀ i cell, row[i]? = some cell → VisibleFrom row (i + 1) →
    cell <+: line.drop (columnStart width i)

variable {table : List (List (List Char))} {width : Nat → Nat} {row : List (List Char)}
  {cell : List Char} {w i : Nat}

/-! ### Widths -/

/-- One more row counts for the longest cell in each column that it reaches. -/
lemma max?_lengths_cons (row : List (List Char)) (table : List (List (List Char))) (j : Nat) :
    (lengths (row :: table) j).max? =
      (row[j]?.map List.length).merge max (lengths table j).max? := by
  cases found : row[j]? with
  | none => simp [lengths, found]
  | some cell =>
    have longer : lengths (row :: table) j = cell.length :: lengths table j := by
      simp [lengths, found]
    rw [longer, List.max?_cons]
    cases (lengths table j).max? <;> rfl

/-- Widening by all rows gives each column the length of its longest cell, if that is not wide
enough already. -/
lemma foldl_widen_getElem? (table : List (List (List Char))) (widths : List Nat) (j : Nat) :
    (table.foldl widen widths)[j]? = widths[j]?.merge max (lengths table j).max? := by
  -- the widths grow from row to row, so the induction starts from any
  induction table generalizing widths with
  | nil => simp [lengths]
  | cons row table ih =>
    rw [List.foldl_cons, ih, widen_getElem?, max?_lengths_cons,
      (Option.associative_merge max).assoc]

/-- A column is as wide as its longest cell, and there is none without a cell in it. -/
lemma widths_getElem? (table : List (List (List Char))) (j : Nat) :
    (widths table)[j]? = (lengths table j).max? := by
  rw [widths, foldl_widen_getElem?, List.getElem?_nil, Option.merge_none_left]

/-- A row of a table fits in its columns. -/
lemma fits_columnWidth (listed : row ∈ table) : Fits (columnWidth table) row := by
  intro i cell found
  have mem : cell.length ∈ lengths table i := by
    refine List.mem_filterMap.2 ⟨row, listed, ?_⟩
    rw [found, Option.map_some]
  cases longest : (lengths table i).max? with
  | none =>
    rw [List.max?_eq_none_iff.1 longest] at mem
    cases mem
  | some w =>
    rw [columnWidth, longest]
    exact (List.max?_eq_some_iff.1 longest).2 _ mem

/-! ### Rows -/

/-- A cell within its column is padded to the width of it. -/
lemma length_pad (fits : cell.length ≤ w) : (pad w cell).length = w := by
  rw [pad, List.length_append, List.length_replicate]
  omega

/-- Behind the first column the others begin as they do without it. -/
lemma columnStart_succ (width : Nat → Nat) (i : Nat) :
    columnStart width (i + 1) = width 0 + 2 + columnStart (fun j => width (j + 1)) i := by
  simp [columnStart, List.range_succ_eq_map, Function.comp_def]

/-- The last cell of a row is only padded. -/
lemma laidOut_singleton (width : Nat → Nat) (cell : List Char) :
    laidOut width [cell] = pad (width 0) cell := by
  simp [laidOut]

/-- A cell with others behind it is padded, and two spaces follow. -/
lemma laidOut_cons_cons (width : Nat → Nat) (cell next : List Char) (row : List (List Char)) :
    laidOut width (cell :: next :: row) =
      pad (width 0) cell ++ [' ', ' '] ++ laidOut (fun j => width (j + 1)) (next :: row) := by
  simp [laidOut, List.mapIdx_cons]

/-- The text of a row is the row laid out in the columns of the table. -/
lemma rowText_eq_laidOut (widths : List Nat) (row : List (List Char)) :
    rowText widths row = laidOut (fun j => widths[j]?.getD 0) row := by
  have width (ws : List Nat) : ws.headD 0 = ws[0]?.getD 0 := by
    rw [List.headD_eq_head?_getD, List.head?_eq_getElem?]
  fun_induction rowText widths row with
  | case1 widths => rfl
  | case2 widths cell => rw [laidOut_singleton, width]
  | case3 widths cell row more ih =>
    obtain ⟨next, row, rfl⟩ := List.exists_cons_of_ne_nil more
    rw [ih, laidOut_cons_cons, width]
    simp only [List.getElem?_tail]

/-- A row shows what any of its cells shows. -/
lemma visible_laidOut (listed : cell ∈ row) (visible : Visible cell) :
    Visible (laidOut width row) := by
  induction row generalizing width with
  | nil => cases listed
  | cons first row ih =>
    have here (same : cell = first) : Visible (pad (width 0) first) := by
      rw [← same]
      exact visible.append_right _
    cases row with
    | nil =>
      rw [laidOut_singleton]
      exact here (List.mem_singleton.1 listed)
    | cons next row =>
      rw [laidOut_cons_cons]
      obtain same | later := List.mem_cons.1 listed
      · exact ((here same).append_right _).append_right _
      · exact (ih later).append_left _

/-- A row is cut at a cell: what stands before it is as long as the columns before it, and what
stands behind it is to be seen if a later cell is. -/
lemma exists_laidOut (fits : Fits width row) (found : row[i]? = some cell) :
    ∃ before after, laidOut width row = before ++ cell ++ after ∧
      before.length = columnStart width i ∧ (VisibleFrom row (i + 1) → Visible after) := by
  induction row generalizing width i with
  | nil => cases found
  | cons first row ih =>
    -- only a cell with another one behind it is followed by a gap
    cases row with
    | nil =>
      obtain rfl : i = 0 := Nat.lt_one_iff.1 (List.getElem?_eq_some_iff.1 found).1
      obtain rfl : first = cell := Option.some.inj found
      refine ⟨[], List.replicate (width 0 - first.length) ' ', ?_, rfl, nofun⟩
      rw [laidOut_singleton, List.nil_append, pad]
    | cons next row =>
      rw [laidOut_cons_cons]
      cases i with
      | zero =>
        obtain rfl : first = cell := Option.some.inj found
        refine ⟨[], List.replicate (width 0 - first.length) ' ' ++ [' ', ' '] ++
          laidOut (fun j => width (j + 1)) (next :: row), ?_, rfl, ?_⟩
        · simp only [pad, List.nil_append, List.append_assoc]
        · rintro ⟨later, listed, visible⟩
          exact (visible_laidOut listed visible).append_left _
      | succ i =>
        have fits' : Fits (fun j => width (j + 1)) (next :: row) :=
          fun j cell found => fits (j + 1) cell found
        obtain ⟨before, after, split, start, seen⟩ := ih fits' found
        refine ⟨pad (width 0) first ++ [' ', ' '] ++ before, after, ?_, ?_, seen⟩
        · rw [split]
          simp only [List.append_assoc]
        · have first := length_pad (fits 0 first rfl)
          rw [List.length_append, List.length_append, first, start, columnStart_succ]
          rfl

/-- What is to be seen from a cell on is in the cell or behind it. -/
lemma VisibleFrom.or_behind (visible : VisibleFrom row i) (found : row[i]? = some cell) :
    Visible cell ∨ VisibleFrom row (i + 1) := by
  obtain ⟨inside, rfl⟩ := List.getElem?_eq_some_iff.1 found
  obtain ⟨later, listed, visible⟩ := visible
  rw [List.drop_eq_getElem_cons inside] at listed
  obtain rfl | behind := List.mem_cons.1 listed
  · exact .inl visible
  · exact .inr ⟨later, behind, visible⟩

/-- Trimming a row leaves its cells in their columns. -/
lemma Fits.aligned (fits : Fits width row) :
    Aligned width row (trimEnd (laidOut width row)) where
  trimmed := exists_trimEnd _
  ends _ last := isBlank_getLast?_trimEnd last
  begins i cell found visible := by
    obtain ⟨before, after, split, start, seen⟩ := exists_laidOut fits found
    have visible : Visible (cell ++ after) := by
      obtain here | later := visible.or_behind found
      · exact here.append_right after
      · exact (seen later).append_left cell
    rw [split, List.append_assoc, trimEnd_append_of_visible visible, ← start, List.drop_left,
      List.length_append]
    exact ⟨Nat.lt_add_of_pos_right (List.length_pos_iff.2 visible.trimEnd_ne_nil),
      trimEnd_prefix_append cell after⟩
  whole i cell found later := by
    obtain ⟨before, after, split, start, seen⟩ := exists_laidOut fits found
    rw [split, trimEnd_append_of_visible (seen later), ← start, List.append_assoc, List.drop_left]
    exact List.prefix_append cell _

/-- A table is the trimmed lines of its rows, each with a line feed. -/
lemma flatMap_line (table : List (List (List Char))) :
    table.flatMap (line (widths table)) =
      (table.map fun row => trimEnd (laidOut (columnWidth table) row)).flatMap (· ++ ['\n']) := by
  have line_eq (row : List (List Char)) :
      line (widths table) row = trimEnd (laidOut (columnWidth table) row) ++ ['\n'] := by
    simp only [line, rowText_eq_laidOut, widths_getElem?]
    rfl
  rw [List.flatMap_map]
  exact congrArg table.flatMap (funext line_eq)

end Table

/-- **Tables are aligned.** A column is as wide as the longest of the cells that stand in it, the
one of the header and those of the rows that reach it. The text of a table is a line for the header
and one for each row in order, each ended by a line feed; the cells of a line begin with their
columns, as far as something is to be seen in them or behind them, and only blanks are missing at
its end. -/
theorem tableText_aligned (header : List String) (rows : List (List String)) :
    let table := (header :: rows).map fun row => row.map String.toList
    (∀ j, (Table.widths table)[j]? = (Table.lengths table j).max?) ∧
      ∃ lines, (tableText header rows).toList = lines.flatMap (· ++ ['\n']) ∧
        List.Forall₂ (Table.Aligned (Table.columnWidth table)) table lines := by
  intro table
  have text : (tableText header rows).toList = table.flatMap (Table.line (Table.widths table)) :=
    String.toList_ofList
  refine ⟨Table.widths_getElem? table, _, text.trans (Table.flatMap_line table), ?_⟩
  rw [List.forall₂_map_right_iff, List.forall₂_same]
  exact fun row listed => (Table.fits_columnWidth listed).aligned

/-- A row may have no cells or more than the header, and what is blank behind its last character to
be seen is dropped. -/
example :
    tableText ["Team"] [["Cóndores", "2"], [], ["Ana ", "", "10 ", " "]] =
      "Team\nCóndores  2\n\nAna          10\n" := by
  decide

end Knockout.Text
