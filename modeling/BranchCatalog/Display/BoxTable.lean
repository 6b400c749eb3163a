import BranchCatalog.Text.Width

namespace BranchCatalog.BoxTable

def header : Text × Text :=
  ("Entity".toList, "Rows".toList)

def cellLines (cell : Text) : List Text :=
  Text.split '\n' cell

/-- A cell is as wide as its widest line. -/
def cellWidth (cell : Text) : Nat :=
  ((cellLines cell).map Text.width).foldl max 0

/-- A column is as wide as its widest cell. -/
def columnWidth (cells : List Text) : Nat :=
  (cells.map cellWidth).foldl max 0

/-- A line of a cell with a space on both sides, filled up with spaces to the width. -/
def padded (width : Nat) (line : Text) : Text :=
  ' ' :: line ++ List.replicate (width - Text.width line + 1) ' '

/-- The lines of a row; the shorter cell is continued with empty lines. -/
def rowLines (leftWidth rightWidth : Nat) (row : Text × Text) : List Text :=
  let left := cellLines row.1
  let right := cellLines row.2
  (List.range (max left.length right.length)).map fun index =>
    '│' :: padded leftWidth (left[index]?.getD []) ++ '│' ::
      padded rightWidth (right[index]?.getD []) ++ ['│']

/-- A horizontal rule with the given ends and crossing. -/
def rule (start crossing finish : Char) (leftWidth rightWidth : Nat) : Text :=
  start :: List.replicate (leftWidth + 2) '─' ++ crossing ::
    List.replicate (rightWidth + 2) '─' ++ [finish]

/-- The table of labelled values; without rows there is none. -/
def draw (rows : List (Text × Text)) : Text :=
  if rows.isEmpty then []
  else
    let leftWidth := columnWidth (header.1 :: rows.map (·.1))
    let rightWidth := columnWidth (header.2 :: rows.map (·.2))
    Text.join ['\n'] ([rule '╭' '┬' '╮' leftWidth rightWidth] ++
      rowLines leftWidth rightWidth header ++ [rule '├' '┼' '┤' leftWidth rightWidth] ++
      (rows.flatMap (rowLines leftWidth rightWidth)) ++ [rule '╰' '┴' '╯' leftWidth rightWidth])

end BranchCatalog.BoxTable
