import Pseudocode.Decimal.Literal
import Pseudocode.Text.JsonString

/-!
# 64-bit integer literals

Integers as they are written on a command line: a sign, a base mark (`0x`, `0o`, `0b`, or a leading
zero for octal), and digits, among which single underscores may stand. A literal may be malformed,
or well-formed as far as it was read and too large.
-/

namespace Pseudocode.Text.Integer

/-- Why a text is no 64-bit integer. -/
inductive Problem where
  | malformed
  | outOfRange
  deriving DecidableEq, Repr

/-- The value of a digit of a base up to sixteen. -/
def digit? (base : Nat) (c : Char) : Option Nat :=
  match Json.hexDigit? c with
  | some d => if d < base then some d else none
  | none => none

/-- The base of an unsigned literal and the digits after its mark. -/
def radix : List Char → Nat × List Char
  | '0' :: m :: d :: cs =>
    if m = 'x' ∨ m = 'X' then (16, d :: cs)
    else if m = 'o' ∨ m = 'O' then (8, d :: cs)
    else if m = 'b' ∨ m = 'B' then (2, d :: cs)
    else (8, m :: d :: cs)
  | '0' :: cs => (8, cs)
  | cs => (10, cs)

/-- The number that digits of a base write, read from the left: the first bad character makes it
malformed, unless it has already grown beyond 64 bits. -/
def magnitude (base : Nat) : Nat → List Char → Except Problem Nat
  | n, [] => .ok n
  | n, c :: cs =>
    if c = '_' then magnitude base n cs
    else
      match digit? base c with
      | none => .error .malformed
      | some d =>
        let n' := n * base + d
        if Nat.pow 2 64 ≤ n' then .error .outOfRange else magnitude base n' cs

/-- Whether every underscore stands between two other characters of a literal's digits. A base mark
counts as a digit before the first of them. -/
def underscoresSeparate (marked : Bool) (digits : List Char) : Bool :=
  go marked digits
where
  /-- `after` says whether a digit comes just before. -/
  go (after : Bool) : List Char → Bool
    | [] => true
    | '_' :: cs => after && !cs.isEmpty && go false cs
    | _ :: cs => go true cs

/-- An unsigned literal. -/
def unsigned (cs : List Char) : Except Problem Nat :=
  if cs.isEmpty then .error .malformed
  else
    let (base, digits) := radix cs
    match magnitude base 0 digits with
    | .error e => .error e
    | .ok n => if underscoresSeparate (base != 10) digits then .ok n else .error .malformed

/-- The 64-bit integer that a text writes. -/
def parse (s : String) : Except Problem Int :=
  let (negative, cs) := Decimal.takeSign s.toList
  match unsigned cs with
  | .error e => .error e
  | .ok n =>
    if negative then if n ≤ Nat.pow 2 63 then .ok (-(n : Int)) else .error .outOfRange
    else if n < Nat.pow 2 63 then .ok n else .error .outOfRange

end Pseudocode.Text.Integer
