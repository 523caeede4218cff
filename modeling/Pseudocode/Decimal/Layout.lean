import Pseudocode.Decimal.Shortest

/-!
# Number layouts

How the digits of a number are written: positionally, or with one digit before the point and a
power of ten after it. Which of the two is a decision of the text in which the number stands; a
`Layout` holds that decision and the spellings that go with it.
-/

namespace Pseudocode.Decimal

/-- The decisions of a number format. -/
structure Layout where
  /-- The least exponent of a leading digit that is written positionally. -/
  positionalFrom : Int
  /-- The first exponent of a leading digit that is no longer written positionally. -/
  positionalBelow : Int
  /-- The least number of digits of a written exponent. -/
  exponentDigits : Nat
  zero : String
  negativeZero : String
  infinity : String
  negativeInfinity : String
  nan : String

/-- The digits of a number, most significant first. -/
def digitChars (n : Nat) : List Char :=
  Nat.toDigits 10 n

/-- A decimal without a power of ten: zeros fill the places between the digits and the point. -/
def Scaled.positional (x : Scaled) : List Char :=
  let ds := digitChars x.digits
  if 0 ≤ x.exponent then ds ++ List.replicate x.exponent.toNat '0'
  else
    let places := (-x.exponent).toNat
    if places < ds.length then
      ds.take (ds.length - places) ++ '.' :: ds.drop (ds.length - places)
    else '0' :: '.' :: (List.replicate (places - ds.length) '0' ++ ds)

/-- The exponent of the leading digit. -/
def Scaled.leading (x : Scaled) : Int :=
  x.exponent + (digitChars x.digits).length - 1

/-- The digits of an exponent, filled with zeros to a least width. -/
def exponentChars (width : Nat) (n : Nat) : List Char :=
  let ds := digitChars n
  List.replicate (width - ds.length) '0' ++ ds

/-- A decimal with one digit before the point, and a signed power of ten. -/
def Scaled.scientific (width : Nat) (x : Scaled) : List Char :=
  let mantissa :=
    match digitChars x.digits with
    | [] => []
    | [d] => [d]
    | d :: ds => d :: '.' :: ds
  let e := x.leading
  mantissa ++ 'e' :: (if e < 0 then '-' else '+') :: exponentChars width e.natAbs

/-- Writes a decimal as a layout decides. -/
def Layout.write (l : Layout) (x : Scaled) : List Char :=
  if l.positionalFrom ≤ x.leading ∧ x.leading < l.positionalBelow then x.positional
  else x.scientific l.exponentDigits

/-- The text of a double: the shortest decimal that reads back as it, in the given layout. -/
def Layout.format (l : Layout) (x : Float) : String :=
  match classify x with
  | .nan => l.nan
  | .infinite negative => if negative then l.negativeInfinity else l.infinity
  | .finite negative m =>
    if m.mantissa = 0 then if negative then l.negativeZero else l.zero
    else
      let cs := l.write m.shortest
      String.ofList (if negative then '-' :: cs else cs)

end Pseudocode.Decimal
