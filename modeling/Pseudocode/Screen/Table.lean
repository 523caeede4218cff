import Pseudocode.Screen.Reserve
import Pseudocode.Screen.Wrap

/-!
# Tables

A table of texts with ruled borders. A column is as wide as its widest cell, and a row as high as
the cell for which most rows are reserved. A cell is drawn in the rectangle it is given: wrapped to
its width and cut to its height.
-/

namespace Pseudocode.Screen

/-- The characters that rule a table, beside those of its outer frame. -/
structure Ruling extends Border where
  topJoint : Char
  bottomJoint : Char
  leftJoint : Char
  rightJoint : Char
  crossing : Char

/-- A table with square corners. -/
def squareRuling : Ruling where
  topLeft := '┌'
  topRight := '┐'
  bottomLeft := '└'
  bottomRight := '┘'
  horizontal := '─'
  vertical := '│'
  topJoint := '┬'
  bottomJoint := '┴'
  leftJoint := '├'
  rightJoint := '┤'
  crossing := '┼'

/-- A table: its headings and its rows, of as many cells each. -/
structure Table where
  headings : List String
  rows : List (List String)

namespace Table

/-- The width of a cell: that of its widest line. -/
def cellWidth (cell : String) : Nat :=
  (Block.ofLines cell.toList).width

/-- The widths of the columns. -/
def widths (t : Table) : List Nat :=
  t.rows.foldl (fun ws row => List.zipWith max ws (row.map cellWidth)) (t.headings.map cellWidth)

/-- The height of a row in columns of the given widths. -/
def rowHeight (widths : List Nat) (row : List String) : Nat :=
  (List.zipWith (fun w (cell : String) => Reserve.textRows w cell.toList) widths row).foldl max 1

/-- A text drawn in a rectangle. -/
def drawText (width height : Nat) (text : List Char) : Block :=
  (((Block.ofLines (wrap width (settle text))).fillBelow height).fill width).cut width height

/-- A horizontal rule across columns of the given widths. -/
def rule (widths : List Nat) (left joint right bar : Char) : Block :=
  ⟨[left :: List.intercalate [joint] (widths.map (List.replicate · bar)) ++ [right]]⟩

/-- A row of cells between vertical rules. -/
def drawRow (r : Ruling) (widths : List Nat) (row : List String) : Block :=
  let height := rowHeight widths row
  let bar : Block := ⟨List.replicate height [r.vertical]⟩
  let cells := List.zipWith (fun w (cell : String) => drawText w height cell.toList) widths row
  Block.beside (cells.foldr (fun cell drawn => bar :: cell :: drawn) [bar])

/-- The table with its borders. -/
def draw (t : Table) (r : Ruling) : Block :=
  let ws := t.widths
  let top := rule ws r.topLeft r.topJoint r.topRight r.horizontal
  let middle := rule ws r.leftJoint r.crossing r.rightJoint r.horizontal
  let bottom := rule ws r.bottomLeft r.bottomJoint r.bottomRight r.horizontal
  let body := t.rows.map (drawRow r ws)
  [drawRow r ws t.headings, middle].foldl Block.above top
    |> (body.foldl Block.above · |>.above bottom)

end Table

end Pseudocode.Screen
