/-!
# White space

The characters that count as white space around a text, and the two operations that use them:
cutting white space off both ends of a text, and asking whether a text holds anything else.

The set is the white space property of Unicode, not the four characters of `Char.isWhitespace`.
-/

namespace Pseudocode.Text

/-- The code points with the white space property: seven controls and the space, the two Latin-1
blanks, and the spaces and separators of the other blocks. -/
def blankRanges : List (Nat × Nat) :=
  [(0x09, 0x0d), (0x20, 0x20), (0x85, 0x85), (0xa0, 0xa0), (0x1680, 0x1680), (0x2000, 0x200a),
    (0x2028, 0x2029), (0x202f, 0x202f), (0x205f, 0x205f), (0x3000, 0x3000)]

/-- Whether a character is white space. -/
def isBlank (c : Char) : Bool :=
  blankRanges.any fun (lo, hi) => lo ≤ c.toNat && c.toNat ≤ hi

/-- Drops the leading white space of a character list. -/
def dropBlanks (cs : List Char) : List Char :=
  cs.dropWhile isBlank

/-- Drops white space from both ends of a character list. -/
def trimChars (cs : List Char) : List Char :=
  (dropBlanks (dropBlanks cs).reverse).reverse

/-- The text without the white space at its two ends. -/
def trim (s : String) : String :=
  String.ofList (trimChars s.toList)

/-- A text is blank if it holds white space only, the empty text included. -/
def isBlankText (s : String) : Bool :=
  s.toList.all isBlank

/-- White space has been cut off the front. -/
theorem head?_dropBlanks (cs : List Char) :
    ∀ c, (dropBlanks cs).head? = some c → isBlank c = false := by
  induction cs with
  | nil => simp [dropBlanks]
  | cons a rest ih =>
    intro c h
    by_cases ha : isBlank a
    · exact ih c (by simpa [dropBlanks, List.dropWhile_cons, ha] using h)
    · have : a = c := by simpa [dropBlanks, List.dropWhile_cons, ha] using h
      simpa [this] using ha

end Pseudocode.Text
