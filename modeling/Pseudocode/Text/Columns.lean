/-!
# Aligned columns

Text in columns. A tab ends a cell, and the cells of a column are filled with spaces to the widest
of them and two more. A column is a run of consecutive lines that have a cell at its place; what
follows the last tab of a line is in no column and is not filled. A vertical tab ends a cell too,
and a form feed ends a line and all columns with it.
-/

namespace Pseudocode.Text.Columns

/-- The blanks between a column and the next. -/
def gap : Nat := 2

/-- A line: its cells, the text after the last of them, and whether all columns end with it. -/
structure Line where
  cells : List (List Char)
  rest : List Char
  ends : Bool := false

/-- Puts one character in front of a list of lines. -/
def pushChar (c : Char) : List Line → List Line
  | [] => [{ cells := [], rest := [c] }]
  | l :: ls =>
    match l.cells with
    | [] => { l with rest := c :: l.rest } :: ls
    | cell :: cells => { l with cells := (c :: cell) :: cells } :: ls

/-- The lines of a text. -/
def lines : List Char → List Line
  | [] => [{ cells := [], rest := [] }]
  | c :: cs =>
    let ls := lines cs
    if c = '\n' then { cells := [], rest := [] } :: ls
    else if c = '\x0c' then { cells := [], rest := [], ends := true } :: ls
    else if c = '\t' ∨ c = '\x0b' then
      match ls with
      | [] => [{ cells := [[]], rest := [] }]
      | l :: rest => { l with cells := [] :: l.cells } :: rest
    else pushChar c ls

/-- The width of the column at an index in the run of lines that starts here. -/
def runWidth (index : Nat) : List Line → Nat
  | [] => 0
  | l :: ls =>
    match l.cells[index]? with
    | none => 0
    | some cell => max cell.length (if l.ends then 0 else runWidth index ls)

/-- The width of the column at an index that reaches from the lines above, nearest first, into the
lines from here on. -/
def columnWidth (above : List Line) (index : Nat) (here : List Line) : Nat :=
  max (upwards above) (runWidth index here)
where
  /-- The part of the column in the lines above. -/
  upwards : List Line → Nat
    | [] => 0
    | l :: ls =>
      if l.ends then 0
      else
        match l.cells[index]? with
        | none => 0
        | some cell => max cell.length (upwards ls)

/-- A cell filled to the width of its column and the gap. -/
def fill (width : Nat) (cell : List Char) : List Char :=
  cell ++ List.replicate (width + gap - cell.length) ' '

/-- One line, its cells filled. -/
def writeLine (above : List Line) (l : Line) (below : List Line) : List Char :=
  (l.cells.zipIdx.flatMap fun (cell, i) => fill (columnWidth above i (l :: below)) cell) ++ l.rest

/-- All lines from here on, with line feeds between them. -/
def write (above : List Line) : List Line → List Char
  | [] => []
  | [l] => writeLine above l []
  | l :: ls => writeLine above l ls ++ '\n' :: write (l :: above) ls

/-- A text with its columns aligned. -/
def align (s : String) : String :=
  String.ofList (write [] (lines s.toList))

end Pseudocode.Text.Columns
