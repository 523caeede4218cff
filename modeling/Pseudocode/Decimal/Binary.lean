/-!
# Doubles as exact dyadic numbers

A finite double is `± m · 2 ^ q` for one mantissa `m` below `2 ^ 53` and one exponent `q` of at
least `-1074`. This module takes a double apart into that form, and rounds a positive rational
number to the nearest double, a tie going to the even mantissa. Both directions work on the bits in
exact natural-number arithmetic, so nothing here depends on how a machine divides.
-/

namespace Pseudocode.Decimal

/-- The number `mantissa · 2 ^ exponent`. -/
structure Dyadic where
  mantissa : Nat
  exponent : Int
  deriving DecidableEq, Repr

/-- The three classes of doubles. A finite one keeps its sign apart from its magnitude, so that the
two zeros stay different. -/
inductive Class where
  | nan
  | infinite (negative : Bool)
  | finite (negative : Bool) (magnitude : Dyadic)
  deriving DecidableEq, Repr

/-- The number of explicit mantissa bits of a double. -/
def mantissaBits : Nat := 52

/-- The exponent of the smallest positive double. -/
def leastExponent : Int := -1074

/-- Reads the sign, exponent and mantissa fields of a bit pattern. -/
def Class.ofBits (bits : Nat) : Class :=
  let negative := decide (Nat.pow 2 63 ≤ bits)
  let field := bits / Nat.pow 2 mantissaBits % 2048
  let fraction := bits % Nat.pow 2 mantissaBits
  if field = 2047 then
    if fraction = 0 then .infinite negative else .nan
  else if field = 0 then .finite negative ⟨fraction, leastExponent⟩
  else .finite negative ⟨fraction + Nat.pow 2 mantissaBits, field - 1075⟩

/-- The class of a double. -/
def classify (x : Float) : Class :=
  Class.ofBits x.toBits.toNat

/-! ## Rounding a rational number -/

/-- The quotient `n / d` rounded to the nearest whole number, a half going to the even one. -/
def roundHalfEven (n d : Nat) : Nat :=
  let k := n / d
  let r := n % d
  if d < 2 * r ∨ (2 * r = d ∧ k % 2 = 1) then k + 1 else k

/-- The fraction `n / d` divided by `2 ^ q`, as a numerator and a denominator. -/
def scale (n d : Nat) (q : Int) : Nat × Nat :=
  if 0 ≤ q then (n, d * Nat.pow 2 q.toNat) else (n * Nat.pow 2 (-q).toNat, d)

/-- The exponent at which a positive fraction `n / d` has a mantissa of 53 bits, or the least
exponent if the fraction is smaller than that. The logarithms leave two candidates; the quotient
decides between them. -/
def exponentFor (n d : Nat) : Int :=
  let low := max leastExponent ((n.log2 : Int) - d.log2 - 1 - mantissaBits)
  let (n', d') := scale n d low
  if n' / d' < Nat.pow 2 (mantissaBits + 1) then low else low + 1

/-- The bit pattern of the positive double nearest to `n / d`. Exponent and mantissa are added, so
a mantissa that rounds up to `2 ^ 53` carries into the exponent by itself; a result of at least
`infinityBits` stands for an overflow. -/
def nearestBits (n d : Nat) : Nat :=
  if n = 0 then 0
  else
    let q := exponentFor n d
    let (n', d') := scale n d q
    (q - leastExponent).toNat * Nat.pow 2 mantissaBits + roundHalfEven n' d'

/-- The bit pattern of positive infinity. -/
def infinityBits : Nat := 2047 * Nat.pow 2 mantissaBits

/-- The double nearest to `± n / d`, or `none` if that is beyond the largest finite one. -/
def nearest? (negative : Bool) (n d : Nat) : Option Float :=
  let bits := nearestBits n d
  if bits < infinityBits then
    some (Float.ofBits (UInt64.ofNat (if negative then bits + Nat.pow 2 63 else bits)))
  else none

end Pseudocode.Decimal
