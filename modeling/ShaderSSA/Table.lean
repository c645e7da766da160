import ShaderSSA.Target.Tally
import ShaderSSA.Text.Width

/-!
# Tables

A table has a header and rows of cells. Columns fit their widest line; a cell with several lines makes
its row as many lines high.
-/

namespace ShaderSSA

structure Table where
  header : List String
  rows : List (List String)

namespace Table

def cellLines (cell : String) : List String := cell.splitOn "\n"

def cellWidth (cell : String) : Nat := ((cellLines cell).map Text.width).foldl max 0

def columnWidths (t : Table) : List Nat :=
  t.rows.foldl (fun widths row => List.zipWith max widths (row.map cellWidth))
    (t.header.map cellWidth)

/-- A line of text, filled up to a width, with a blank on each side. -/
def padded (width : Nat) (line : String) : String :=
  " " ++ line ++ String.ofList (List.replicate (width - Text.width line + 1) ' ')

def rule (widths : List Nat) (left : String) (fill : Char) (middle right : String) : String :=
  left ++ middle.intercalate (widths.map fun w => String.ofList (List.replicate (w + 2) fill)) ++
    right

def rowLines (widths : List Nat) (row : List String) : List String :=
  let cells := row.map cellLines
  let height := (cells.map List.length).foldl max 0
  (List.range height).map fun i =>
    "│" ++ "┆".intercalate
      (List.zipWith (fun w (lines : List String) => padded w (lines.getD i "")) widths cells) ++ "│"

def lines (t : Table) : List String :=
  let widths := t.columnWidths
  let separator := rule widths "├" '╌' "┼" "┤"
  [rule widths "┌" '─' "┬" "┐"] ++ rowLines widths t.header ++ [rule widths "╞" '═' "╪" "╡"] ++
    [separator].intercalate (t.rows.map (rowLines widths)) ++ [rule widths "└" '─' "┴" "┘"]

def text (t : Table) : String := "\n".intercalate t.lines

end Table

def Target.Program.tallyTable (p : Program) : Except Fault Table := do
  let tallies ← p.tallies
  return {
    header := ["function", "alu", "intrinsic", "tex", "call", "jump", "other", "if", "loop", "total"]
    rows := tallies.map fun (name, t) =>
      name :: [t.alu, t.intrinsic, t.tex, t.call, t.jump, t.other, t.branches, t.loops,
        t.total].map toString }

end ShaderSSA
