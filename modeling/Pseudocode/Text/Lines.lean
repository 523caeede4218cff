/-!
# Lines

Texts as lists of lines. A line feed ends a line; a carriage return right before it belongs to the
line break and not to the line.
-/

namespace Pseudocode.Text

/-- Drops every carriage return that stands before a line feed. -/
def dropReturns : List Char → List Char
  | [] => []
  | [c] => [c]
  | c :: d :: cs =>
    if c = '\r' ∧ d = '\n' then dropReturns (d :: cs) else c :: dropReturns (d :: cs)

/-- The stretches of a list between the separators, one more than there are separators. -/
def splitAtChar (sep : Char) : List Char → List (List Char)
  | [] => [[]]
  | c :: cs =>
    if c = sep then [] :: splitAtChar sep cs
    else
      match splitAtChar sep cs with
      | [] => [[c]]
      | l :: ls => (c :: l) :: ls

/-- A text cut at every occurrence of a separator. -/
def splitText (sep : Char) (s : String) : List String :=
  (splitAtChar sep s.toList).map String.ofList

/-- The lines of a text, the empty one after a final line break included. -/
def lines (s : String) : List String :=
  (splitAtChar '\n' (dropReturns s.toList)).map String.ofList

/-! ## Lines of a stream -/

/-- What a reader gets at once from a stream: a line without its line break, or as much of a long
line as the reader has room for. -/
structure Chunk where
  chars : List Char := []
  /-- Whether the line goes on behind the chunk. -/
  cut : Bool := false
  /-- Whether the chunk ends with a line feed. -/
  ended : Bool := false

/-- The sign for a byte that belongs to a character which was cut apart. -/
def strayByte : Char := Char.ofNat 0xfffd

/-- Takes a chunk of a number of bytes off characters of known sizes. -/
def takeChunk (room : Nat) : List (Char × Nat) → Chunk × List (Char × Nat)
  | [] => ({ cut := room = 0 }, [])
  | (c, n) :: us =>
    if room = 0 then ({ cut := true }, (c, n) :: us)
    else if c = '\n' then ({ ended := true }, us)
    else if n ≤ room then
      let (k, rest) := takeChunk (room - n) us
      ({ k with chars := c :: k.chars }, rest)
    else
      ({ chars := List.replicate room strayByte, cut := true },
        List.replicate (n - room) (strayByte, 1) ++ us)

/-- The next chunk of a stream. A carriage return before the line feed is not part of the line, and
one at the end of a long chunk is left for the next. -/
def nextChunk (room : Nat) (us : List (Char × Nat)) : Chunk × List (Char × Nat) :=
  let (k, rest) := takeChunk room us
  if k.chars.getLast? = some '\r' then
    if k.cut then ({ k with chars := k.chars.dropLast }, ('\r', 1) :: rest)
    else if k.ended then ({ k with chars := k.chars.dropLast }, rest)
    else (k, rest)
  else (k, rest)

/-- The chunks of a stream. -/
def chunks (room : Nat) (fuel : Nat) (us : List (Char × Nat)) : List Chunk :=
  match fuel, us with
  | 0, _ | _, [] => []
  | fuel + 1, us =>
    let (k, rest) := nextChunk room us
    k :: chunks room fuel rest

/-- The number of bytes of a line that a reader has room for. -/
def lineRoom : Nat := 4096

/-- The chunks that a reader gets from a stream, one after the other: nothing follows a final line
break, and the last line keeps a carriage return if no line feed comes after it. -/
def inputChunks (s : String) : List Chunk :=
  chunks lineRoom (s.utf8ByteSize + 1) (s.toList.map fun c => (c, c.utf8Size))

/-- The lines that a reader gets from a stream, where a long one comes in several pieces. -/
def inputLines (s : String) : List String :=
  (inputChunks s).map (String.ofList ·.chars)

/-- The lines that a reader gets from a stream up to the first that is too long for it. -/
def wholeLines (s : String) : List String :=
  ((inputChunks s).takeWhile (!·.cut)).map (String.ofList ·.chars)

/-- A list has at least one stretch between its separators. -/
theorem splitAtChar_ne_nil (sep : Char) (cs : List Char) : splitAtChar sep cs ≠ [] := by
  cases cs with
  | nil => simp [splitAtChar]
  | cons c cs =>
    simp only [splitAtChar]
    split
    · simp
    · split <;> simp

/-- There is one stretch more than there are separators. -/
theorem length_splitAtChar (sep : Char) (cs : List Char) :
    (splitAtChar sep cs).length = cs.count sep + 1 := by
  induction cs with
  | nil => simp [splitAtChar]
  | cons c cs ih =>
    simp only [splitAtChar]
    split
    · rename_i h
      simp [ih, h]
    · rename_i h
      split
      · rename_i heq
        exact absurd heq (splitAtChar_ne_nil sep cs)
      · rename_i l ls heq
        rw [heq] at ih
        simpa [h, List.count_cons] using ih

end Pseudocode.Text
