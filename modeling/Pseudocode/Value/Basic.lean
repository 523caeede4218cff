import Pseudocode.Decimal.Layout
import Pseudocode.Decimal.Literal
import Pseudocode.Text.Blank

/-!
# Values

A value is a number or a text. Truth values are the numbers one and zero. This module also holds the
two conversions at the edge of a program: the text that is shown for a value, and the value that is
made of an answer typed by a reader.
-/

namespace Pseudocode

/-- The two kinds of values. -/
inductive ValueKind where
  | number
  | text
  deriving DecidableEq, Repr

/-- The name of a kind, as messages and variable tables show it. -/
def ValueKind.name : ValueKind → String
  | number => "nombre"
  | text => "texte"

/-- Values. -/
inductive Value where
  | num (x : Float)
  | text (s : String)
  deriving Inhabited

namespace Value

def kind : Value → ValueKind
  | num _ => .number
  | text _ => .text

def isText (v : Value) : Bool :=
  v.kind = .text

/-- Truth values are numbers. -/
def ofBool (b : Bool) : Value :=
  num (if b then 1 else 0)

/-- The number, or zero for a text. -/
def toFloat : Value → Float
  | num x => x
  | text _ => 0

/-- Numbers are written with the fewest digits that read back, with a power of ten from `10 ^ 21` on
and below `10 ^ -6`. Both zeros are written alike. -/
def numberLayout : Decimal.Layout where
  positionalFrom := -6
  positionalBelow := 21
  exponentDigits := 1
  zero := "0"
  negativeZero := "0"
  infinity := "Infinity"
  negativeInfinity := "-Infinity"
  nan := "NaN"

/-- The text of a number. -/
def formatNumber (x : Float) : String :=
  numberLayout.format x

/-- The text that is shown for a value. -/
def toText : Value → String
  | num x => formatNumber x
  | text s => s

/-- Zero and the empty text are false, everything else is true. -/
def truthy : Value → Bool
  | num x => x != 0
  | text s => s != ""

/-- Whether two values are equal; a number never equals a text. -/
def equal : Value → Value → Bool
  | num x, num y => x == y
  | text s, text t => s == t
  | _, _ => false

/-- The value of an answer: a number if the answer, apart from the white space around it, is a
decimal literal that a double can hold, and the answer itself otherwise. -/
def ofAnswer (raw : String) : Value :=
  match (Decimal.Literal.parse? (Text.trimChars raw.toList)).bind Decimal.Literal.toFloat? with
  | some x => num x
  | none => text raw

end Value

end Pseudocode
