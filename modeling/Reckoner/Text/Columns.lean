/-
Rows of cells in columns. A cell is filled up to the width of its column, and a column reaches over
the rows next to one another that have a cell in it. What stands behind the last cell of a row is
in no column.
-/
namespace Reckoner.Text

/-- A cell of a row. An empty column is left out unless a firm cell is in it. -/
structure Cell where
  text : String
  firm : Bool
  deriving DecidableEq, Repr

/-- A row: its cells, and the text behind them. -/
structure Row where
  cells : List Cell
  rest : String
  deriving DecidableEq, Repr

namespace Row

/-- The width of a column in which some rows have a cell: a blank more than the longest text. -/
def columnWidth (j : Nat) (rows : List Row) : Nat :=
  let cells := rows.filterMap (·.cells[j]?)
  if cells.all fun c => c.text.isEmpty && !c.firm then 0
  else (cells.map (·.text.length)).foldl max 0 + 1

/-- The row has a cell in a column. -/
def hasColumn (j : Nat) (r : Row) : Bool :=
  j < r.cells.length

/-- For each row the width of a column, behind a run of rows that have a cell in it. -/
def columnWidthsBehind (j : Nat) : List Row → List Row → List Nat
  | run, [] => run.map fun _ => columnWidth j run
  | run, r :: rest =>
    if r.hasColumn j then columnWidthsBehind j (r :: run) rest
    else (run.map fun _ => columnWidth j run) ++ 0 :: columnWidthsBehind j [] rest

/-- For each row the width of a column. -/
def columnWidths (j : Nat) (rows : List Row) : List Nat :=
  columnWidthsBehind j [] rows

/-- The width that a tab advances by. -/
def tabWidth : Nat := 8

/-- The cells of a row, filled up to the widths of their columns. Empty cells at the beginning of
a row are filled up with tabs. -/
def filled : Bool → List Cell → List Nat → String
  | leading, c :: cells, width :: widths =>
    if c.text.isEmpty && leading then
      String.ofList (List.replicate ((width + tabWidth - 1) / tabWidth) '\t') ++
        filled true cells widths
    else
      c.text ++ String.ofList (List.replicate (width - c.text.length) ' ') ++
        filled false cells widths
  | _, _, _ => ""

/-- A text without the blanks and tabs at its end. -/
def trimmed (s : String) : String :=
  String.ofList ((s.toList.reverse.dropWhile fun c => c == ' ' || c == '\t').reverse)

/-- The lines of some rows. -/
def lines (rows : List Row) : List String :=
  let columns := (rows.map (·.cells.length)).foldl max 0
  let widths := (List.range columns).map fun j => columnWidths j rows
  rows.zipIdx.map fun (r, i) =>
    trimmed (filled true r.cells (widths.map (·.getD i 0)) ++ r.rest)

end Row

end Reckoner.Text
