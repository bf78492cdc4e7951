import Tariff.Report.Page

/-!
# Columns

Rows of cells under a header. A column is as wide as its longest cell, two blanks stand between
columns and in front of the first, and no line ends in blanks.

* `widths`: the widths of the columns.
* `rowText`: the cells of a row, each padded to its width.
* `columns`: the header and the rows as lines of a page.
-/

namespace Tariff.Report

open Text

/-- What stands between two columns, and in front of the first. -/
def gap : String := "  "

/-- The widths of the columns of a header and rows, in characters. -/
def widths (header : List String) (rows : List (List String)) : List Nat :=
  rows.foldl (fun widths row => List.zipWith max widths (row.map String.length))
    (header.map String.length)

/-- A cell with blanks behind it up to a width. -/
def paddedCell (cell : String) (width : Nat) : String :=
  cell ++ String.ofList (List.replicate (width - cell.length) ' ')

/-- The cells of a row at their widths, without the blanks at the end of the line. -/
def rowText (widths : List Nat) (row : List String) : String :=
  trimmedRight (joined gap (List.zipWith paddedCell row widths))

/-- A table as lines, the header first. -/
def columns (header : List String) (rows : List (List String)) : Page :=
  let widths := widths header rows
  [plain gap, Style.cyan.on (rowText widths header)] ::
    rows.map fun row => [plain gap, plain (rowText widths row)]

end Tariff.Report
