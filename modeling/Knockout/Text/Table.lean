import Knockout.Text.Blank

/-!
# Tables

Plain tables of text: left-aligned columns, two spaces apart, as wide as their widest cell. Widths
count characters. Main statement: `Table.widen_getElem?`, making room for a row widens each column
to the cell in it and adds the columns that only the row has.
-/

namespace Knockout.Text

namespace Table

/-- Widths that leave room for one more row. -/
def widen : List Nat → List (List Char) → List Nat
  | widths, [] => widths
  | [], cells => cells.map List.length
  | w :: widths, cell :: cells => max w cell.length :: widen widths cells

/-- The width of each column. -/
def widths (rows : List (List (List Char))) : List Nat := rows.foldl widen []

/-- A cell filled with spaces up to its width. -/
def pad (width : Nat) (cell : List Char) : List Char :=
  cell ++ List.replicate (width - cell.length) ' '

/-- The cells of a row side by side. -/
def rowText (widths : List Nat) : List (List Char) → List Char
  | [] => []
  | [cell] => pad (widths.headD 0) cell
  | cell :: cells => pad (widths.headD 0) cell ++ [' ', ' '] ++ rowText widths.tail cells

/-- A row as a line: the blanks at its end are dropped. -/
def line (widths : List Nat) (row : List (List Char)) : List Char :=
  trimEnd (rowText widths row) ++ ['\n']

end Table

/-- Text of a table, a line for the header and one for each row. -/
def tableText (header : List String) (rows : List (List String)) : String :=
  let cells := (header :: rows).map fun row => row.map String.toList
  String.ofList (cells.flatMap (Table.line (Table.widths cells)))

namespace Table

/-- Making room for a row widens each column to the cell in it, and adds the columns that only the
row has. -/
theorem widen_getElem? (widths : List Nat) (cells : List (List Char)) (i : Nat) :
    (widen widths cells)[i]? = widths[i]?.merge max (cells[i]?.map List.length) := by
  induction cells generalizing widths i with
  | nil => cases widths <;> simp [widen]
  | cons cell cells ih =>
    cases widths with
    | nil => simp only [widen, List.getElem?_map, List.getElem?_nil, Option.merge_none_left]
    | cons w widths => cases i <;> simp [widen, ih]

end Table

end Knockout.Text
