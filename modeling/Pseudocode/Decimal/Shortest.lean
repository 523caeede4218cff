import Pseudocode.Decimal.Binary

/-!
# Shortest decimals

The decimal with the fewest digits that reads back as a given double, and of those the one nearest
to it. A double stands for an interval of reals, the ones that round to it; for each number of
digits in turn the two neighbours of the double on that decimal grid are tested against the
interval, in exact arithmetic.
-/

namespace Pseudocode.Decimal

/-- The decimal number `digits · 10 ^ exponent`. -/
structure Scaled where
  digits : Nat
  exponent : Int
  deriving DecidableEq, Repr

/-- The interval of reals that round to a double, as three numerators over one denominator: the
lower end, the double itself and the upper end. The ends belong to it iff the mantissa is even. -/
structure Interval where
  lower : Nat
  value : Nat
  upper : Nat
  denominator : Nat
  closed : Bool

/-- The rounding interval of a positive dyadic number. The distance to the double below halves at a
power of two, unless the exponent is already the least one. -/
def Dyadic.interval (x : Dyadic) : Interval :=
  let narrow := decide (x.mantissa = Nat.pow 2 mantissaBits ∧ leastExponent < x.exponent)
  let up := if 0 ≤ x.exponent then Nat.pow 2 x.exponent.toNat else 1
  let down := if 0 ≤ x.exponent then 4 else 4 * Nat.pow 2 (-x.exponent).toNat
  { lower := (4 * x.mantissa - (if narrow then 1 else 2)) * up
    value := 4 * x.mantissa * up
    upper := (4 * x.mantissa + 2) * up
    denominator := down
    closed := x.mantissa % 2 = 0 }

/-- The number of decimal digits of a natural number, one for zero. -/
def digitCount (n : Nat) : Nat :=
  (Nat.toDigits 10 n).length

/-- The exponent of the leading decimal digit of a positive fraction `n / d`. -/
def leadingExponent (n d : Nat) : Int :=
  if d ≤ n then (digitCount (n / d) : Int) - 1 else -(digitCount ((d - 1) / n) : Int)

/-- The fraction `n / d` divided by `10 ^ k`, as a numerator and a denominator. -/
def scaleTen (n d : Nat) (k : Int) : Nat × Nat :=
  if 0 ≤ k then (n, d * Nat.pow 10 k.toNat) else (n * Nat.pow 10 (-k).toNat, d)

/-- Whether the decimal `digits · 10 ^ k` lies in the interval. -/
def Interval.contains (i : Interval) (digits : Nat) (k : Int) : Bool :=
  let (up, down) := if 0 ≤ k then (Nat.pow 10 k.toNat, 1) else (1, Nat.pow 10 (-k).toNat)
  let point := digits * up * i.denominator
  if i.closed then i.lower * down ≤ point && point ≤ i.upper * down
  else i.lower * down < point && point < i.upper * down

/-- The neighbour of the interval's value on the grid of multiples of `10 ^ k` that lies in the
interval; of two the nearer one, of two equally near the one with an even last digit. -/
def Interval.onGrid? (i : Interval) (k : Int) : Option Nat :=
  let (n, d) := scaleTen i.value i.denominator k
  let low := n / d
  let r := n % d
  match i.contains low k, i.contains (low + 1) k with
  | true, true => some (if 2 * r < d ∨ (2 * r = d ∧ low % 2 = 0) then low else low + 1)
  | true, false => some low
  | false, true => some (low + 1)
  | false, false => none

/-- Tries the grids from `10 ^ k` downwards; `fuel` of them are tried at most. -/
def Interval.search (i : Interval) : Nat → Int → Scaled
  | 0, k => ⟨i.value / i.denominator, k⟩
  | fuel + 1, k =>
    match i.onGrid? k with
    | some digits => ⟨digits, k⟩
    | none => i.search fuel (k - 1)

/-- Moves the zeros at the end of the digits into the exponent. -/
def Scaled.normalize (x : Scaled) : Scaled :=
  if h : x.digits % 10 = 0 ∧ x.digits ≠ 0 then
    Scaled.normalize ⟨x.digits / 10, x.exponent + 1⟩
  else x
termination_by x.digits
decreasing_by omega

/-- The shortest decimal of a positive dyadic number: seventeen digits are enough for a double. -/
def Dyadic.shortest (x : Dyadic) : Scaled :=
  let i := x.interval
  (i.search 20 (leadingExponent i.value i.denominator)).normalize

end Pseudocode.Decimal
