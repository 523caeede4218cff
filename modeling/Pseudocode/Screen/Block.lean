import Pseudocode.Text.Lines
import Pseudocode.Text.Piece

/-!
# Blocks of text

A block is a list of rows that are drawn one below the other. Blocks are filled to a rectangle,
framed, and put side by side; a row is measured by the columns it takes on the screen, not by its
length.
-/

namespace Pseudocode.Screen

/-- The rows of a rectangle of text, from the top. -/
structure Block where
  rows : List (List Char)
  deriving DecidableEq, Repr

/-- The characters that draw a border. -/
structure Border where
  topLeft : Char
  topRight : Char
  bottomLeft : Char
  bottomRight : Char
  horizontal : Char
  vertical : Char

/-- A border with round corners. -/
def roundBorder : Border where
  topLeft := '╭'
  topRight := '╮'
  bottomLeft := '╰'
  bottomRight := '╯'
  horizontal := '─'
  vertical := '│'

/-- The number of spaces that a tab is drawn as. -/
def tabWidth : Nat := 4

/-- A text with its tabs drawn as spaces. -/
def expandTabs (cs : List Char) : List Char :=
  cs.flatMap fun c => if c = '\t' then List.replicate tabWidth ' ' else [c]

/-- A text as it is drawn: tabs are spaces, and the carriage return of a line break is left out. -/
def settle (cs : List Char) : List Char :=
  Text.dropReturns (expandTabs cs)

/-- A row filled with spaces to a width; a wider row stays as it is. -/
def fillRow (width : Nat) (row : List Char) : List Char :=
  row ++ List.replicate (width - Text.width row) ' '

/-- A row without the spaces at its end. -/
def dropFinalSpaces (row : List Char) : List Char :=
  (row.reverse.dropWhile (· = ' ')).reverse

namespace Block

/-- The lines of a text. -/
def ofLines (cs : List Char) : Block :=
  ⟨Text.splitAtChar '\n' cs⟩

/-- The block of a text as it is drawn. -/
def ofText (cs : List Char) : Block :=
  ofLines (settle cs)

/-- The rows as a text. -/
def toText (b : Block) : List Char :=
  List.intercalate ['\n'] b.rows

/-- The block drawn as one text. A carriage return at the end of a row other than the last stands
before a line break then. -/
def settled (b : Block) : Block :=
  ofText b.toText

/-- The width of the widest row. -/
def width (b : Block) : Nat :=
  (b.rows.map Text.width).foldl max 0

def height (b : Block) : Nat :=
  b.rows.length

/-- The block with all rows as wide as the widest, and no less than a width. -/
def fill (b : Block) (width : Nat) : Block :=
  ⟨b.rows.map (fillRow (max width b.width))⟩

/-- The block with empty rows below it up to a height. -/
def fillBelow (b : Block) (height : Nat) : Block :=
  ⟨b.rows ++ List.replicate (height - b.height) []⟩

/-- The part of the block that fits into a width and a height. -/
def cut (b : Block) (width height : Nat) : Block :=
  ⟨(b.rows.map (Text.fit width)).take height⟩

/-- The block with a column of spaces on both sides. -/
def spaced (b : Block) : Block :=
  ⟨b.rows.map fun row => ' ' :: row ++ [' ']⟩

/-- The block in a frame as wide as its widest row. -/
def framed (b : Block) (f : Border) : Block :=
  let edge (left right : Char) : List Char := left :: List.replicate b.width f.horizontal ++ [right]
  ⟨edge f.topLeft f.topRight
    :: b.rows.map (fun row => f.vertical :: row ++ [f.vertical])
    ++ [edge f.bottomLeft f.bottomRight]⟩

/-- A framed pane with one column of spaces inside the frame. -/
def pane (b : Block) : Block :=
  (b.settled.spaced.fill 0).framed roundBorder

/-- The height of the highest block. -/
def highest (bs : List Block) : Nat :=
  (bs.map height).foldl max 0

/-- The blocks of a list side by side, aligned at the top. -/
def beside (bs : List Block) : Block :=
  let height := highest bs
  let columns := bs.map fun b => ((b.fillBelow height).fill 0).rows
  ⟨columns.foldr (List.zipWith (· ++ ·)) (List.replicate height [])⟩

/-- One block below another. -/
def above (a b : Block) : Block :=
  ⟨a.rows ++ b.rows⟩

/-- The block with a text behind its last row. -/
def withLast (b : Block) (text : List Char) : Block :=
  ⟨b.rows.dropLast ++ [b.rows.getLast?.getD [] ++ text]⟩

/-- The rows as texts, without the spaces at their ends. -/
def toLines (b : Block) : List String :=
  b.rows.map fun row => String.ofList (dropFinalSpaces row)

end Block

end Pseudocode.Screen
