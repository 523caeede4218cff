/-!
# Base 64

Bytes written with sixty-four signs. Four signs stand for three bytes; the last group may stand for
two or one and is filled up with equals signs. Line breaks may stand anywhere. Here the bytes are
those of a text.
-/

namespace Pseudocode.Text.Base64

/-- The number that a sign stands for. -/
def value? (c : Char) : Option Nat :=
  if c.isUpper then some (c.toNat - 'A'.toNat)
  else if c.isLower then some (c.toNat - 'a'.toNat + 26)
  else if c.isDigit then some (c.toNat - '0'.toNat + 52)
  else if c = '+' then some 62
  else if c = '/' then some 63
  else none

/-- The bytes that groups of four signs stand for. Bits beyond the last byte say nothing. -/
def bytes? : List Char → Option (List Nat)
  | [] => some []
  | [a, b, '=', '='] => do
    let n := (← value? a) * 64 + (← value? b)
    return [n / 16]
  | [a, b, c, '='] => do
    let n := ((← value? a) * 64 + (← value? b)) * 64 + (← value? c)
    return [n / 1024, n / 4 % 256]
  | a :: b :: c :: d :: cs => do
    let n := (((← value? a) * 64 + (← value? b)) * 64 + (← value? c)) * 64 + (← value? d)
    return [n / 65536, n / 256 % 256, n % 256] ++ (← bytes? cs)
  | _ => none

/-- The text whose bytes are written, if there is one. -/
def decode? (s : String) : Option String := do
  let signs := s.toList.filter fun c => c ≠ '\n' && c ≠ '\r'
  String.fromUTF8? ⟨((← bytes? signs).map UInt8.ofNat).toArray⟩

end Pseudocode.Text.Base64
