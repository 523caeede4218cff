import Pseudocode.Text.Piece

/-!
# Pens

How a terminal draws text: with attributes, an underline and colours. A control sequence with the
final letter `m` changes the pen by its parameters, and another one sets a link. Text that is broken
over rows needs the pen and the link to be put down at the end of a row and taken up again in the
next, so both are written as control sequences too.
-/

namespace Pseudocode.Screen

/-- The ways to draw characters that are either on or off. -/
inductive Attribute where
  | bold
  | faint
  | italic
  | slowBlink
  | rapidBlink
  | reverse
  | concealed
  | struck
  deriving DecidableEq, Repr

namespace Attribute

/-- The attributes in the order of their numbers. -/
def all : List Attribute :=
  [.bold, .faint, .italic, .slowBlink, .rapidBlink, .reverse, .concealed, .struck]

/-- The parameter that sets an attribute. -/
def number : Attribute → Nat
  | .bold => 1
  | .faint => 2
  | .italic => 3
  | .slowBlink => 5
  | .rapidBlink => 6
  | .reverse => 7
  | .concealed => 8
  | .struck => 9

/-- The attribute that a parameter sets. -/
def ofNumber? (n : Nat) : Option Attribute :=
  all.find? (·.number = n)

/-- The attributes that a parameter clears. -/
def clearedBy : Nat → List Attribute
  | 22 => [.bold, .faint]
  | 23 => [.italic]
  | 25 => [.slowBlink, .rapidBlink]
  | 27 => [.reverse]
  | 28 => [.concealed]
  | 29 => [.struck]
  | _ => []

end Attribute

/-- A colour. -/
inductive Colour where
  /-- One of the sixteen colours of a terminal. -/
  | basic (n : Nat)
  /-- One of the 256 colours of a palette. -/
  | palette (n : Nat)
  | direct (red green blue : Nat)
  deriving DecidableEq, Repr

/-- What a colour is for. -/
inductive ColourUse where
  | text
  | ground
  | underline
  deriving DecidableEq, Repr

/-- The parameter that introduces a colour for a use. -/
def ColourUse.number : ColourUse → Nat
  | .text => 38
  | .ground => 48
  | .underline => 58

/-- Numbers with semicolons between them. -/
def parameters (ns : List Nat) : String :=
  String.intercalate ";" (ns.map toString)

/-- The parameters that set a colour. -/
def Colour.write (use : ColourUse) : Colour → String
  | .basic n =>
    match use with
    | .underline => parameters [use.number, 5, n]
    | _ => toString (if n < 8 then use.number - 8 + n else use.number + 44 + n)
  | .palette n => parameters [use.number, 5, n]
  | .direct r g b => parameters [use.number, 2, r, g, b]

/-- How text is drawn. -/
structure Pen where
  attributes : List Attribute := []
  /-- The style of the underline: none, single, double, curly, dotted or dashed. -/
  underline : Nat := 0
  text : Option Colour := none
  ground : Option Colour := none
  underlineColour : Option Colour := none
  deriving DecidableEq, Repr

namespace Pen

/-- Whether spaces drawn with the pen look like no drawing at all. -/
def leavesBlank (p : Pen) : Bool :=
  !p.attributes.contains .reverse && p.ground.isNone && p.underline = 0

/-- Whether nothing is special about the pen. -/
def isPlain (p : Pen) : Bool :=
  p = {}

def set (p : Pen) (a : Attribute) : Pen :=
  if p.attributes.contains a then p else { p with attributes := a :: p.attributes }

def clear (p : Pen) (as : List Attribute) : Pen :=
  { p with attributes := p.attributes.filter fun a => !as.contains a }

def colour (p : Pen) (use : ColourUse) (c : Option Colour) : Pen :=
  match use with
  | .text => { p with text := c }
  | .ground => { p with ground := c }
  | .underline => { p with underlineColour := c }

/-- The control sequence that puts any pen down. -/
def reset : List Char :=
  Text.escapeChar :: "[m".toList

/-- The control sequence that takes the pen up. -/
def write (p : Pen) : List Char :=
  let attributes := (Attribute.all.filter p.attributes.contains).map fun a => toString a.number
  let underline :=
    match p.underline with
    | 0 => []
    | 1 => ["4"]
    | n => ["4:" ++ toString n]
  let colours :=
    (p.text.toList.map (Colour.write .text)) ++ (p.ground.toList.map (Colour.write .ground))
      ++ (p.underlineColour.toList.map (Colour.write .underline))
  Text.escapeChar :: '[' :: (String.intercalate ";" (attributes ++ underline ++ colours)).toList
    ++ ['m']

end Pen

/-! ## Reading parameters -/

/-- A parameter of a control sequence. -/
structure Parameter where
  value : Nat := 0
  /-- Whether a colon ties the next parameter to it. -/
  tied : Bool := false
  deriving DecidableEq, Repr

/-- The parameters between separators, given what has been read of the first: a missing number is
zero. -/
def Parameter.readFrom (value : Nat) : List Char → List Parameter
  | [] => [{ value }]
  | c :: cs =>
    if c = ';' then { value } :: readFrom 0 cs
    else if c = ':' then { value, tied := true } :: readFrom 0 cs
    else readFrom (value * 10 + (c.toNat - '0'.toNat)) cs

/-- The parameters in a text of digits and separators. An empty text has none. -/
def Parameter.read (cs : List Char) : List Parameter :=
  if cs.isEmpty then [] else readFrom 0 cs

/-- A component of a colour is a byte. -/
def Parameter.byte (p : Parameter) : Nat :=
  p.value % 256

/-- The parameters of a list that belong together by colons. -/
def tiedRun : List Parameter → List Parameter
  | [] => []
  | p :: ps => if p.tied then p :: tiedRun ps else [p]

/-- The components of a direct colour, and the number of parameters they take. Components that are
tied may have the number of a colour space before them and a tolerance behind. -/
def components? (tied : Bool) (ps : List Parameter) : Option (Colour × Nat) :=
  if tied then
    match tiedRun ps with
    | [r, g, b] => if b.tied then none else some (.direct r.byte g.byte b.byte, 3)
    | _ :: r :: g :: b :: rest =>
      if rest.length ≤ 3 then some (.direct r.byte g.byte b.byte, rest.length + 4) else none
    | _ => none
  else
    match ps with
    | r :: g :: b :: _ =>
      if r.tied || g.tied || b.tied then none
      else some (.direct r.byte g.byte b.byte, 3)
    | _ => none

/-- The colour that parameters behind a parameter for a use choose, if any, and the number of
parameters that this takes. -/
def readColour? (introduction : Parameter) : List Parameter → Option (Option Colour × Nat)
  | [] => none
  | kind :: ps =>
    match kind.value with
    | 0 => some (none, 1)
    | 1 => some (some (.direct 0 0 0), 1)
    | 2 =>
      if introduction.tied != kind.tied then none
      else (components? kind.tied ps).map fun (c, n) => (some c, n + 1)
    | 5 =>
      match ps with
      | n :: _ =>
        if introduction.tied != kind.tied || n.tied then none
        else some (some (.palette n.byte), 2)
      | [] => none
    | _ => none

namespace Pen

/-- The pen after a parameter that takes no others, by its number. -/
def apply (p : Pen) (n : Nat) : Pen :=
  if n = 0 then {}
  else if 30 ≤ n && n ≤ 37 then p.colour .text (some (.basic (n - 30)))
  else if 40 ≤ n && n ≤ 47 then p.colour .ground (some (.basic (n - 40)))
  else if 90 ≤ n && n ≤ 97 then p.colour .text (some (.basic (n - 82)))
  else if 100 ≤ n && n ≤ 107 then p.colour .ground (some (.basic (n - 92)))
  else
    match n with
    | 24 => { p with underline := 0 }
    | 39 => p.colour .text none
    | 49 => p.colour .ground none
    | 59 => p.colour .underline none
    | _ =>
      match Attribute.ofNumber? n with
      | some a => p.set a
      | none => p.clear (Attribute.clearedBy n)

/-- The pen after the first of some parameters, and the number of others that it takes. -/
def applyFirst (p : Pen) (first : Parameter) (ps : List Parameter) : Pen × Nat :=
  let coloured (use : ColourUse) : Pen × Nat :=
    match readColour? first ps with
    | some (c, n) => (p.colour use c, n)
    | none => (p, 0)
  match first.value with
  | 4 =>
    match first.tied, ps with
    | true, style :: _ =>
      if style.value ≤ 5 then ({ p with underline := style.value }, 1) else (p, 0)
    | _, _ => ({ p with underline := 1 }, 0)
  | 38 => coloured .text
  | 48 => coloured .ground
  | 58 => coloured .underline
  | n => (p.apply n, 0)

/-- The pen after parameters of which some are taken already. -/
def applyFrom (p : Pen) : (taken : Nat) → List Parameter → Pen
  | _, [] => p
  | n + 1, _ :: ps => p.applyFrom n ps
  | 0, q :: ps =>
    let (p, n) := p.applyFirst q ps
    p.applyFrom n ps

/-- The pen after a control sequence with parameters. Without any it is put down. -/
def applyAll (p : Pen) (ps : List Parameter) : Pen :=
  if ps.isEmpty then {} else p.applyFrom 0 ps

end Pen

/-! ## Links -/

/-- Where a text leads to. -/
structure Link where
  parameters : List Char := []
  address : List Char := []
  deriving DecidableEq, Repr

namespace Link

/-- Whether the text leads nowhere. -/
def isNone (l : Link) : Bool :=
  l = {}

/-- The control sequence that sets the link. -/
def write (l : Link) : List Char :=
  Text.escapeChar :: "]8;".toList ++ l.parameters ++ ';' :: l.address ++ [Text.bellChar]

end Link

end Pseudocode.Screen
