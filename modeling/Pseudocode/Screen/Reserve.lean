import Pseudocode.Screen.Block
import Pseudocode.Text.Blank

/-!
# Reserved rows

How many rows a text is given in a column. This is settled before the text is drawn, by a count of
its own that agrees with the drawing for plain text. It differs where the drawing does not see a
character as this count does: a tab is one byte of white space here and four spaces in the drawing,
and a control character takes a column here and none there. What does not fit into the reserved rows
is not drawn.
-/

namespace Pseudocode.Screen

/-- A line for which rows are being counted. -/
structure Reserve where
  /-- The rows begun so far. -/
  rows : Nat := 1
  /-- The columns taken in the current row. -/
  used : Nat := 0
  /-- The bytes of white space behind them. -/
  space : Nat := 0
  /-- Whether a word has begun behind the white space. -/
  inWord : Bool := false
  /-- The columns of the word. -/
  wordWidth : Nat := 0
  deriving DecidableEq, Repr

namespace Reserve

/-- Places the white space. -/
def placeSpace (r : Reserve) : Reserve :=
  { r with used := r.used + r.space, space := 0 }

/-- Places the white space and the word, if there is one. -/
def placeWord (r : Reserve) : Reserve :=
  if r.inWord then
    { r with used := r.used + r.space + r.wordWidth, space := 0, inWord := false, wordWidth := 0 }
  else r

/-- Begins a new row and drops the white space. -/
def breakRow (r : Reserve) : Reserve :=
  { r with rows := r.rows + 1, used := 0, space := 0 }

/-- Begins a new row if the word does not fit behind the white space. -/
def breakIfFull (limit : Nat) (r : Reserve) : Reserve :=
  if limit < r.used + r.wordWidth + r.space then r.breakRow else r

/-- Adds columns to the word. -/
def grow (r : Reserve) (width : Nat) : Reserve :=
  { r with inWord := true, wordWidth := r.wordWidth + width }

/-- Adds white space behind the word. -/
def addSpace (r : Reserve) (bytes : Nat) : Reserve :=
  let r := r.placeWord
  { r with space := r.space + bytes }

/-- Adds a grapheme outside ASCII: a word that fills a row is placed first. -/
def addGrapheme (limit : Nat) (r : Reserve) (width : Nat) : Reserve :=
  let r := if limit < r.wordWidth + width then r.placeWord else r
  (r.grow width).breakIfFull limit

/-- Adds a hyphen, behind which a row can break. -/
def addHyphen (limit : Nat) (r : Reserve) : Reserve :=
  let r := r.placeSpace
  if limit ≤ r.used + r.wordWidth then r.grow 1
  else
    let r := r.placeWord
    { r with used := r.used + 1 }

/-- Places a word that has filled a row. -/
def placeFullWord (limit : Nat) (r : Reserve) : Reserve :=
  if r.wordWidth = limit then r.placeWord else r

/-- Adds another character of ASCII, in a new row if the current one is full. -/
def addChar (limit : Nat) (r : Reserve) : Reserve :=
  let r := if r.used = limit then r.breakRow else r
  ((r.grow 1).placeFullWord limit).breakIfFull limit

/-- The white space that does not tie the words around it together. -/
def isBreakable (c : Char) : Bool :=
  Text.isBlank c && c.toNat ≠ 0xa0

/-- Takes up the next piece of the line. -/
def next (limit : Nat) (r : Reserve) (p : Text.Piece) : Reserve :=
  match p.role, p.chars with
  | .grapheme, c :: _ =>
    if isBreakable c then r.addSpace c.utf8Size else r.addGrapheme limit p.width
  | .shown, [c] | .obeyed, [c] =>
    if isBreakable c then r.addSpace 1
    else if c = '-' then r.addHyphen limit
    else r.addChar limit
  | _, _ => r.grow 0

/-- The rows for a line. -/
def lineRows (limit : Nat) (cs : List Char) : Nat :=
  ((Text.pieces cs).foldl (next limit) {}).rows

/-- The rows for a text in a column. -/
def textRows (limit : Nat) (cs : List Char) : Nat :=
  (Block.ofLines (Text.dropReturns cs)).rows.foldl (fun n line => n + lineRows limit line) 0

end Reserve

end Pseudocode.Screen
