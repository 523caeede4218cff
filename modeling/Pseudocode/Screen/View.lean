import Pseudocode.Screen.Basic
import Pseudocode.Screen.Table

/-!
# Views

What a screen shows: the source with line numbers beside the table of variables, the window on the
output below them, and the field while an answer is awaited.
-/

namespace Pseudocode.Screen

/-- A number filled with spaces in front to a width. -/
def rightAligned (width n : Nat) : List Char :=
  let ds := (toString n).toList
  List.replicate (width - ds.length) ' ' ++ ds

/-- The pane with the numbered lines of the source. -/
def sourcePane (s : Screen) : Block :=
  let lines := s.session.lines
  let width := (toString lines.length).length
  let rows := lines.zipIdx.map fun (line, i) => rightAligned width (i + 1) ++ ' ' :: line.toList
  (Block.mk rows).pane

/-- The number of a line, if the source has such a line. -/
def sourceLine? (s : Session) (line : Int) : Option Int :=
  if 1 ≤ line ∧ line ≤ s.lines.length then some line else none

/-- The line that is marked as faulty. -/
def faultyLine? (s : Screen) : Option Int :=
  sourceLine? s.session s.session.errorLine

/-- The line that is marked as the current one. -/
def currentLine? (s : Screen) : Option Int :=
  if s.session.fault.isSome || s.session.last.completed then none
  else sourceLine? s.session s.session.last.line

/-- The table of variables. -/
def variableTable (s : Screen) : Table where
  headings := ["Variable", "Valeur", "Type"]
  rows :=
    match s.session.machine.memory.vars.bindings with
    | [] => [["-", "-", "-"]]
    | bs => bs.map fun b => [b.name, b.value.toText, b.value.kind.name]

/-- The pane with the variables. -/
def variablesPane (s : Screen) : Block :=
  s.variableTable.draw squareRuling

/-- The text in the window, wrapped and filled to its size. -/
def Window.block (w : Window) : Block :=
  let text := (Block.mk w.visible).toText
  if w.width ≤ 0 then ((Block.ofText text).fillBelow w.height).fill 0
  else Table.drawText w.width.toNat w.height text

/-- The line with the name of the source and the status. -/
def headerLine (s : Screen) : Block :=
  ((Block.ofText s.session.source.name.toList).spaced.fill 0).withLast
    (' ' :: s.status.toList)

/-- The line of the field. While nothing is typed, the cursor stands on the first character of the
placeholder, and there is no room for the others. -/
def fieldLine (s : Screen) : List Char :=
  " > ".toList ++ if s.field.value.isEmpty then s.field.placeholder.toList.take 1 else s.field.value

/-- The line that names the keys. -/
def helpLine : String := "r exécuter · s pas à pas · x réinitialiser · q quitter"

/-- The whole screen. -/
def view (s : Screen) : Block :=
  if s.ready then
    let panes := Block.beside [s.sourcePane, ⟨[[' ']]⟩, s.variablesPane]
    let field := if s.waiting then [s.fieldLine] else []
    ⟨s.headerLine.rows ++ panes.rows ++ s.window.block.pane.rows ++ field ++ [helpLine.toList]⟩
  else ⟨["initialisation...".toList]⟩

end Pseudocode.Screen
