import WorkloadReplay.Text.Width

/-!
# Tables

Tables for the console: a line of column names, a rule, and a line for each row. Cells are aligned
to the left, with a blank on either side, and a bar stands between two columns. A cell of several
lines makes its row that high.
-/

namespace WorkloadReplay

namespace Text

/-- The lines of a cell. -/
def cellLines (cell : String) : List String := cell.splitOn "\n"

/-- A text with blanks after it up to a width. -/
def padTo (columns : Nat) (s : String) : String :=
  s ++ String.ofList (List.replicate (columns - width s) ' ')

/-- The columns that a column of cells needs without its margins. -/
def columnWidth (cells : List String) : Nat :=
  (cells.flatMap cellLines).foldl (fun n line => max n (width line)) 0

/-- The lines of a row whose columns have given widths. -/
def rowLines (widths : List Nat) (row : List String) : List String :=
  let cells := row.map cellLines
  let height := cells.foldl (fun n lines => max n lines.length) 1
  (List.range height).map fun i =>
    String.intercalate "|" ((widths.zip cells).map fun (w, lines) =>
      " " ++ padTo w (lines[i]?.getD "") ++ " ")

/-- The table of rows under a header. -/
def table (header : List String) (rows : List (List String)) : String :=
  let widths := header.zipIdx.map fun (name, i) =>
    columnWidth (name :: rows.map fun row => row[i]?.getD "")
  let rule := String.intercalate "+" (widths.map fun w =>
    String.ofList (List.replicate (w + 2) '-'))
  String.intercalate "\n" (rowLines widths header ++ [rule] ++ rows.flatMap (rowLines widths))

end Text

end WorkloadReplay
