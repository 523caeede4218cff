import Pseudocode.Text.Width

/-!
# Pieces of a line

What a terminal makes of the characters of a line. Most of them it shows; control characters it
obeys; and an escape character begins a control sequence, whose characters are not shown either. A
terminal reads a line from left to right and only remembers what kind of sequence it is in. The
line falls into pieces: graphemes, and single characters of ASCII and of control sequences. The
width of a line is that of the pieces that are shown.
-/

namespace Pseudocode.Text

/-- The character that begins a control sequence. -/
def escapeChar : Char := Char.ofNat 0x1b

/-- The character that rings the bell, and ends a command to the operating system. -/
def bellChar : Char := Char.ofNat 0x07

/-- The two characters that break a control sequence off. -/
def isCancel (c : Char) : Bool :=
  c.toNat = 0x18 || c.toNat = 0x1a

/-- The byte that ends a text inside a control sequence is 9C: whether it is one of the bytes of a
character. -/
def holdsTerminator (c : Char) : Bool :=
  let n := c.toNat
  0x80 ≤ n && (n % 64 = 0x1c || (0x800 ≤ n && n / 64 % 64 = 0x1c)
    || (0x10000 ≤ n && n / 4096 % 64 = 0x1c))

/-- Where a terminal is in a control sequence. -/
inductive Place where
  /-- In no sequence. -/
  | ground
  /-- Behind the escape character. -/
  | escape
  /-- Behind the escape character and characters that select a set of functions. -/
  | escapeMiddle
  /-- In the parameters of a control function. -/
  | parameters
  /-- Behind them. -/
  | parametersMiddle
  /-- In a command to the operating system, such as a title or a link. -/
  | command
  /-- In a text for an application. -/
  | message
  /-- At the start of a text for a device. -/
  | device
  /-- In the parameters of a text for a device. -/
  | deviceParameters
  /-- Behind them. -/
  | deviceMiddle
  /-- In a text for a device. -/
  | deviceText
  deriving DecidableEq, Repr

/-- What a character is to a terminal. -/
inductive Role where
  /-- It begins a grapheme outside ASCII. -/
  | grapheme
  /-- It is shown in one column. -/
  | shown
  /-- It is obeyed. -/
  | obeyed
  /-- It is part of a control sequence. -/
  | silent
  deriving DecidableEq, Repr

namespace Place

/-- The place after a printable ASCII character in a sequence. -/
def afterPrintable (p : Place) (c : Char) : Place :=
  let middle := c < '0'
  let parameter := '0' ≤ c && c ≤ '?'
  match p with
  | .ground => .ground
  | .escape =>
    if middle then .escapeMiddle
    else
      match c with
      | '[' => .parameters
      | ']' => .command
      | 'P' => .device
      | 'X' | '^' | '_' => .message
      | _ => .ground
  | .escapeMiddle => if middle then .escapeMiddle else .ground
  | .parameters =>
    if middle then .parametersMiddle else if parameter then .parameters else .ground
  | .parametersMiddle => if middle then .parametersMiddle else .ground
  | .device | .deviceParameters =>
    if middle then .deviceMiddle else if parameter then .deviceParameters else .deviceText
  | .deviceMiddle => if middle then .deviceMiddle else .deviceText
  | .command | .message | .deviceText => p

/-- The place after an ASCII control other than the escape character and the cancelling ones, and
whether the control is obeyed there. -/
def afterControl (p : Place) (c : Char) : Place × Role :=
  match p with
  | .ground | .escape | .escapeMiddle | .parameters | .parametersMiddle => (p, .obeyed)
  | .command => (if c = bellChar then .ground else .command, .silent)
  | .device => (if 0x08 ≤ c.toNat && c.toNat ≤ 0x0d then .deviceText else .device, .silent)
  | .message | .deviceParameters | .deviceMiddle | .deviceText => (p, .silent)

/-- The place after a character, and what the character is. A character outside ASCII ends a
sequence, except that commands and texts for devices hold such characters. -/
def next (p : Place) (c : Char) : Place × Role :=
  if 0x80 ≤ c.toNat then
    if p = .command ∨ p = .deviceText then
      (if holdsTerminator c then .ground else p, .silent)
    else (.ground, .grapheme)
  else if c = escapeChar then (if p = .device then .deviceText else .escape, .silent)
  else if isCancel c then
    (.ground, if p = .command ∨ p = .message ∨ p = .deviceText then .silent else .obeyed)
  else if c.toNat < 0x20 then p.afterControl c
  else if c.toNat = 0x7f then (p, if p = .ground then .obeyed else .silent)
  else (p.afterPrintable c, if p = .ground then .shown else .silent)

end Place

/-- A piece of a line. -/
structure Piece where
  chars : List Char
  role : Role
  /-- The columns it takes. -/
  width : Nat
  deriving DecidableEq, Repr

/-- The first piece of a line that goes on at a place. -/
def firstPiece (p : Place) (c : Char) (cs : List Char) : Piece :=
  match (p.next c).2 with
  | .grapheme =>
    let rest := cs.take (graphemeRest c cs)
    ⟨c :: rest, .grapheme, graphemeWidth c rest⟩
  | .shown => ⟨[c], .shown, 1⟩
  | r => ⟨[c], r, 0⟩

/-- What is left of a line after its first piece. -/
def restAfter (piece : Piece) (cs : List Char) : List Char :=
  cs.drop (piece.chars.length - 1)

/-- The pieces of a line that goes on at a place. -/
def piecesFrom (p : Place) (cs : List Char) : List Piece :=
  match cs with
  | [] => []
  | c :: cs =>
    let piece := firstPiece p c cs
    piece :: piecesFrom (p.next c).1 (restAfter piece cs)
termination_by cs.length
decreasing_by
  simp only [restAfter, List.length_drop, List.length_cons]
  omega

/-- The pieces of a line. -/
def pieces (cs : List Char) : List Piece :=
  piecesFrom .ground cs

/-- The columns that a line takes. -/
def width (cs : List Char) : Nat :=
  (pieces cs).foldl (fun w p => w + p.width) 0

/-- The part of a line that fits into a width, given the place where it goes on and whether
something has been left out already: from then on only control sequences stay. -/
def fitFrom (width : Nat) (p : Place) (full : Bool) (cs : List Char) : List Char :=
  match cs with
  | [] => []
  | c :: cs =>
    let piece := firstPiece p c cs
    let rest := restAfter piece cs
    if piece.role = .obeyed ∨ piece.role = .silent then
      piece.chars ++ fitFrom width (p.next c).1 full rest
    else if full ∨ width < piece.width then fitFrom width p true rest
    else piece.chars ++ fitFrom (width - piece.width) (p.next c).1 false rest
termination_by cs.length
decreasing_by
  all_goals
    simp only [restAfter, List.length_drop, List.length_cons]
    omega

/-- The part of a line that fits into a width. -/
def fit (width : Nat) (cs : List Char) : List Char :=
  fitFrom width .ground false cs

end Pseudocode.Text
