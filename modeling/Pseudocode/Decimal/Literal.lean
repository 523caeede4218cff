import Pseudocode.Decimal.Binary

/-!
# Decimal literals

The text of a decimal number and the double that it denotes. A literal is kept as its parts, so
that recognising it and rounding it are two steps: the value is rounded once, correctly, and is
absent only if it is beyond the largest finite double.
-/

namespace Pseudocode.Decimal

/-- The decimal digits `0` to `9`; no other script's digits count. -/
def isDigit (c : Char) : Bool :=
  '0' ≤ c && c ≤ '9'

/-- The number written by a list of digits. -/
def digitsValue (cs : List Char) : Nat :=
  cs.foldl (fun n c => 10 * n + (c.toNat - '0'.toNat)) 0

/-- A number written in decimal is read back. -/
theorem digitsValue_toDigits (n : Nat) : digitsValue (Nat.toDigits 10 n) = n := by
  have back := Nat.ofDigitChars_ten_toDigits (n := n)
  rw [Nat.ofDigitChars_eq_foldl] at back
  exact back

theorem isDigit_of_mem_toDigits {n : Nat} {c : Char} (member : c ∈ Nat.toDigits 10 n) :
    isDigit c = true := by
  have digit := Nat.isDigit_of_mem_toDigits (by decide) (by decide) member
  simp only [Char.isDigit, Bool.and_eq_true, decide_eq_true_eq] at digit
  simp only [isDigit, Bool.and_eq_true, decide_eq_true_eq]
  exact digit

/-- A decimal literal: sign, digits before and after the point, and exponent. -/
structure Literal where
  negative : Bool := false
  whole : List Char
  fraction : List Char := []
  exponent : Int := 0
  deriving Repr

/-- All digits of a literal, without its point, as one number. -/
def Literal.digits (l : Literal) : Nat :=
  digitsValue (l.whole ++ l.fraction)

/-- The power of ten by which the digits of a literal are multiplied. -/
def Literal.shift (l : Literal) : Int :=
  l.exponent - l.fraction.length

/-- The double nearest to `± digits · 10 ^ shift`, or `none` on overflow. A number from `10 ^ 310`
on overflows and one below `10 ^ -330` rounds to zero whatever its digits, so no power of ten far
beyond these is computed: the number of bits of the digits tells a power of ten below them and one above
them, since `10 ^ 3` is less than `2 ^ 10` and `10` is more than `2 ^ 3`. -/
def nearestScaled? (negative : Bool) (digits : Nat) (shift : Int) : Option Float :=
  let size := Nat.log2 digits
  if digits = 0 then nearest? negative 0 1
  else if 310 ≤ 3 * (size / 10 : Int) + shift then none
  else if (size / 3 : Int) + 1 + shift ≤ -330 then nearest? negative 0 1
  else if 0 ≤ shift then nearest? negative (digits * Nat.pow 10 shift.toNat) 1
  else nearest? negative digits (Nat.pow 10 (-shift).toNat)

/-- The double that a literal denotes, or `none` on overflow. -/
def Literal.toFloat? (l : Literal) : Option Float :=
  nearestScaled? l.negative l.digits l.shift

/-! ## Recognising a literal -/

/-- Reads a sign, if there is one. -/
def takeSign : List Char → Bool × List Char
  | '-' :: cs => (true, cs)
  | '+' :: cs => (false, cs)
  | cs => (false, cs)

/-- Reads digits with a point among them, after them or before them: at least one digit, and at
most one point. -/
def takeMantissa? (cs : List Char) : Option (List Char × List Char × List Char) :=
  let whole := cs.takeWhile isDigit
  match cs.dropWhile isDigit with
  | '.' :: rest =>
    let fraction := rest.takeWhile isDigit
    if whole.isEmpty && fraction.isEmpty then none
    else some (whole, fraction, rest.dropWhile isDigit)
  | rest => if whole.isEmpty then none else some (whole, [], rest)

/-- Reads what follows the digits of a literal up to its end: nothing, or an exponent mark, a sign
and at least one digit. -/
def exponentOf? : List Char → Option Int
  | [] => some 0
  | mark :: cs =>
    if mark = 'e' ∨ mark = 'E' then
      let (negative, digits) := takeSign cs
      if digits.isEmpty || !digits.all isDigit then none
      else
        let n : Int := digitsValue digits
        some (if negative then -n else n)
    else none

/-- The literal spelled by the whole of a text, if it spells one. -/
def Literal.parse? (cs : List Char) : Option Literal := do
  let (negative, cs) := takeSign cs
  let (whole, fraction, cs) ← takeMantissa? cs
  let exponent ← exponentOf? cs
  return { negative, whole, fraction, exponent }

end Pseudocode.Decimal
