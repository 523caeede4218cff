import Pseudocode.Screen.Item

/-!
# Wrapping

Text is broken into rows that fit a width. Rows break at spaces, and the spaces at a break are
dropped; after a hyphen a row can break too. A word that is wider than a row is broken where the
row is full. Line breaks of the text stay, with the spaces before them if these fit.

Control sequences take no room. At the end of a row the pen and the link in use are put down, and in
the next row they are taken up again.
-/

namespace Pseudocode.Screen

/-- A text that is being wrapped. Characters are kept last first. -/
structure Wrapping where
  /-- What has its final place. -/
  done : List Char := []
  /-- The columns taken in the current row. -/
  used : Nat := 0
  /-- The spaces after what is done. -/
  spaces : List Char := []
  /-- The word that follows the spaces, as far as it is known. -/
  word : List Char := []
  /-- The columns of the word. -/
  wordWidth : Nat := 0
  /-- The pen after the word. -/
  pen : Pen := {}
  /-- The pen after what is done. -/
  donePen : Pen := {}
  /-- The link after the word. -/
  link : Link := {}
  /-- The link after what is done. -/
  doneLink : Link := {}

namespace Wrapping

/-- Writes behind what is done. -/
def put (w : Wrapping) (cs : List Char) : Wrapping :=
  { w with done := cs.reverse ++ w.done }

/-- Places the spaces. -/
def placeSpaces (w : Wrapping) : Wrapping :=
  { w with done := w.spaces ++ w.done, used := w.used + w.spaces.length, spaces := [] }

/-- Places the spaces and the word, if there is one. -/
def placeWord (w : Wrapping) : Wrapping :=
  if w.word.isEmpty then w
  else
    let w := w.placeSpaces
    { w with
      done := w.word ++ w.done
      used := w.used + w.wordWidth
      word := []
      wordWidth := 0
      donePen := w.pen
      doneLink := w.link }

/-- Begins a new row and drops the spaces. -/
def breakRow (w : Wrapping) : Wrapping :=
  let w := if w.donePen.isPlain then w else w.put Pen.reset
  let w := if w.doneLink.isNone then w else w.put (Link.write {})
  let w := w.put ['\n']
  let w := if w.doneLink.isNone then w else w.put w.doneLink.write
  let w := if w.donePen.isPlain then w else w.put w.donePen.write
  { w with used := 0, spaces := [] }

/-- Ends a line: spaces that no word follows stay if they fit. -/
def endLine (limit : Nat) (w : Wrapping) : Wrapping :=
  if w.wordWidth = 0 then
    if limit < w.used + w.spaces.length then { w with used := 0, spaces := [] }.placeWord
    else { w with done := w.spaces ++ w.done, spaces := [] }.placeWord
  else w.placeWord

/-- Ends the text and puts down the link and the pen. -/
def finish (limit : Nat) (w : Wrapping) : Wrapping :=
  let w := w.endLine limit
  let w := if w.doneLink.isNone then w else w.put (Link.write {})
  if w.donePen.isPlain then w else w.put Pen.reset

/-- Adds a space behind the word. -/
def addSpace (w : Wrapping) (c : Char) : Wrapping :=
  let w := w.placeWord
  { w with spaces := c :: w.spaces }

/-- Adds a grapheme to the word: a word that fills a row is placed first, and one that no longer
fits into the current row begins a new one. -/
def addToWord (limit : Nat) (w : Wrapping) (i : Item) : Wrapping :=
  let w := if limit < w.wordWidth + i.width then w.placeWord else w
  let w := { w with word := i.chars.reverse ++ w.word, wordWidth := w.wordWidth + i.width }
  if limit < w.used + w.wordWidth + w.spaces.length then w.breakRow else w

/-- Adds an item that takes no room to the word, and minds what it does to the text behind. -/
def addUnseen (w : Wrapping) (i : Item) : Wrapping :=
  let w :=
    match i.effect with
    | .none => w
    | .pen ps => { w with pen := w.pen.applyAll ps }
    | .link l => { w with link := l }
  { w with word := i.chars.reverse ++ w.word }

/-- Takes up the next item of the text. -/
def next (limit : Nat) (w : Wrapping) (i : Item) : Wrapping :=
  match i.chars with
  | ['\n'] => (w.endLine limit).breakRow
  | ['\t'] => w.addSpace '\t'
  | [' '] => if w.pen.leavesBlank then w.addSpace ' ' else w.addToWord limit i
  | ['-'] =>
    let w := w.placeSpaces
    if w.used + w.wordWidth + 1 ≤ limit then
      let w := w.placeWord
      { w with done := '-' :: w.done, used := w.used + 1 }
    else w.addToWord limit i
  | _ => if i.width = 0 then w.addUnseen i else w.addToWord limit i

end Wrapping

/-- A text with line breaks put in so that its rows fit a width. Without a width nothing changes. -/
def wrap (limit : Nat) (cs : List Char) : List Char :=
  if limit = 0 then cs
  else (((items cs).foldl (Wrapping.next limit) {}).finish limit).done.reverse

end Pseudocode.Screen
