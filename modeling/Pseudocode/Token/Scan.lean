import Pseudocode.Token.Basic
import Pseudocode.Decimal.Literal

/-!
# Scanning

A source text becomes a list of tokens that always ends with an end-of-file token. Blanks separate
tokens, a character that can start no token is skipped, and the only error is a string that is never
closed.

The scanner takes one `Piece` at a time off the front of the text: the characters it used, and the
token they spell, if any. Every piece uses at least one character, and positions follow from the
characters used, so the text is the concatenation of its pieces.
-/

namespace Pseudocode.Scan

/-- A place in a text: line and column, both counted from one. -/
structure Position where
  line : Nat := 1
  column : Nat := 1
  deriving DecidableEq, Repr

/-- The place after one character: a line feed starts the next line. -/
def Position.next (p : Position) (c : Char) : Position :=
  if c = '\n' then ⟨p.line + 1, 1⟩ else ⟨p.line, p.column + 1⟩

/-- The place after a list of characters. -/
def Position.after (p : Position) (cs : List Char) : Position :=
  cs.foldl Position.next p

/-- The blanks between tokens. A line feed is a token of its own. -/
def isSeparator (c : Char) : Bool :=
  c = ' ' || c = '\t' || c = '\r'

/-- The letters of names: ASCII, and the block of Latin-1 that starts at `À`. -/
def isLetter (c : Char) : Bool :=
  ('a' ≤ c && c ≤ 'z') || ('A' ≤ c && c ≤ 'Z') || (0xc0 ≤ c.toNat && c.toNat ≤ 0xff)

/-- The characters of a name after its first. -/
def isNamePart (c : Char) : Bool :=
  isLetter c || Decimal.isDigit c || c = '_'

/-- What a token says apart from its place. -/
structure Word where
  kind : Kind
  text : String
  number : Float := 0

/-- The token with a given word at a given place. -/
def Word.at (w : Word) (p : Position) : Token :=
  { kind := w.kind, text := w.text, number := w.number, line := p.line, column := p.column }

/-- What is taken off the front of a text: a word or nothing, the characters it used, and the text
that is left. -/
structure Piece where
  word : Option Word
  used : List Char
  rest : List Char

/-- The digits of a number literal: at most one point, which may come last. -/
def numberParts (cs : List Char) : Decimal.Literal × List Char × List Char :=
  let whole := cs.takeWhile Decimal.isDigit
  match cs.dropWhile Decimal.isDigit with
  | '.' :: rest =>
    let fraction := rest.takeWhile Decimal.isDigit
    ({ whole, fraction }, whole ++ '.' :: fraction, rest.dropWhile Decimal.isDigit)
  | rest => ({ whole }, whole, rest)

/-- A number literal. One that is too large for a double denotes zero. -/
def number (cs : List Char) : Piece :=
  let (literal, used, rest) := numberParts cs
  { word := some { kind := .number, text := String.ofList used, number := literal.toFloat?.getD 0 }
    used, rest }

/-- A name or a keyword. -/
def name (cs : List Char) : Piece :=
  let used := cs.takeWhile isNamePart
  let text := String.ofList used
  { word := some { kind := .ofWord text, text }, used, rest := cs.dropWhile isNamePart }

/-- The inside of a string up to its closing quote: its contents, the characters used including that
quote, and the rest. A backslash in front of the quote is dropped and keeps the quote from closing
the string; any other backslash stands for itself. -/
def stringBody? (quote : Char) : List Char → Option (List Char × List Char × List Char)
  | [] => none
  | [c] => if c = quote then some ([], [c], []) else none
  | c :: d :: cs =>
    if c = quote then some ([], [c], d :: cs)
    else if c = '\\' ∧ d = quote then
      (stringBody? quote cs).map fun (body, used, rest) => (d :: body, c :: d :: used, rest)
    else
      (stringBody? quote (d :: cs)).map fun (body, used, rest) => (c :: body, c :: used, rest)

/-- A string literal, without its quotes. -/
def string? (quote : Char) (cs : List Char) : Option Piece :=
  (stringBody? quote cs).map fun (body, used, rest) =>
    { word := some { kind := .string, text := String.ofList body }, used := quote :: used, rest }

/-- A word of the given text, spelled by the given characters. -/
def fixed (kind : Kind) (text : String) (used rest : List Char) : Piece :=
  { word := some { kind, text }, used, rest }

/-- The operators of one character, each with its text: the two one-character comparisons are other
spellings of two-character ones. -/
def operators : List (Char × Kind × String) :=
  [('←', .assign, "←"), ('≥', .greaterEq, ">="), ('≤', .lessEq, "<="), ('=', .equal, "="),
    ('+', .plus, "+"), ('-', .minus, "-"), ('*', .multiply, "*"), ('/', .divide, "/"),
    ('>', .greater, ">"), ('<', .less, "<")]

/-- The piece at the front of the non-empty text `c :: cs`, or `none` if it is a string that is
never closed. -/
def piece? (c : Char) (cs : List Char) : Option Piece :=
  if c = '\n' then some (fixed .newline "\n" [c] cs)
  else if Decimal.isDigit c then some (number (c :: cs))
  else if c = '"' ∨ c = '\'' then string? c cs
  else if isLetter c then some (name (c :: cs))
  else
    match c, cs with
    | '>', '=' :: rest => some (fixed .greaterEq ">=" ['>', '='] rest)
    | '<', '=' :: rest => some (fixed .lessEq "<=" ['<', '='] rest)
    | _, _ =>
      match operators.lookup c with
      | some (kind, text) => some (fixed kind text [c] cs)
      | none => some { word := none, used := [c], rest := cs }

/-! ## Pieces use up the text -/

theorem takeWhile_length_pos {α : Type} (p : α → Bool) (a : α) (l : List α) (h : p a = true) :
    0 < ((a :: l).takeWhile p).length := by
  simp [h]

theorem numberParts_append (cs : List Char) :
    (numberParts cs).2.1 ++ (numberParts cs).2.2 = cs := by
  have h := List.takeWhile_append_dropWhile (p := Decimal.isDigit) (l := cs)
  simp only [numberParts]
  split
  · rename_i rest heq
    rw [heq] at h
    simp [h]
  · exact h

theorem stringBody?_append {quote : Char} {cs body used rest : List Char}
    (h : stringBody? quote cs = some (body, used, rest)) : used ++ rest = cs := by
  fun_induction stringBody? quote cs generalizing body used rest with
  | case1 => simp at h
  | case2 => cases h; rfl
  | case3 => simp at h
  | case4 => cases h; rfl
  | case5 _ _ _ _ _ ih =>
    obtain ⟨⟨b, u, r⟩, h', e⟩ := Option.map_eq_some_iff.1 h
    cases e
    simp [ih h']
  | case6 _ _ _ _ _ ih =>
    obtain ⟨⟨b, u, r⟩, h', e⟩ := Option.map_eq_some_iff.1 h
    cases e
    simp [ih h']

/-- A piece and what it leaves make up the text it was taken from. -/
theorem piece?_append {c : Char} {cs : List Char} {p : Piece} (h : piece? c cs = some p) :
    p.used ++ p.rest = c :: cs := by
  unfold piece? at h
  split at h
  · cases h; rfl
  split at h
  · cases h; exact numberParts_append (c :: cs)
  split at h
  · obtain ⟨⟨b, u, r⟩, h', rfl⟩ := Option.map_eq_some_iff.1 h
    simp [stringBody?_append h']
  split at h
  · cases h; exact List.takeWhile_append_dropWhile
  split at h
  · cases h; rfl
  · cases h; rfl
  · split at h <;> (cases h; rfl)

/-- A piece uses at least one character. -/
theorem piece?_used_pos {c : Char} {cs : List Char} {p : Piece} (h : piece? c cs = some p) :
    0 < p.used.length := by
  unfold piece? at h
  split at h
  · cases h; simp [fixed]
  split at h
  · cases h
    rename_i hd
    have := takeWhile_length_pos Decimal.isDigit c cs hd
    simp only [number, numberParts]
    split
    · rw [List.length_append]
      omega
    · exact this
  split at h
  · obtain ⟨⟨b, u, r⟩, h', rfl⟩ := Option.map_eq_some_iff.1 h
    simp
  split at h
  · cases h
    rename_i hl
    exact takeWhile_length_pos isNamePart c cs (by simp [isNamePart, hl])
  split at h
  · cases h; simp [fixed]
  · cases h; simp [fixed]
  · split at h <;> (cases h; simp [fixed])

/-- A piece leaves less text than there was. -/
theorem piece?_rest_lt {c : Char} {cs : List Char} {p : Piece} (h : piece? c cs = some p) :
    p.rest.length < (c :: cs).length := by
  have h₁ := piece?_append h
  have h₂ := piece?_used_pos h
  rw [← h₁]
  simp
  omega

/-! ## The scanner -/

/-- Scans the text that starts at a place: its tokens, or the place of the quote that opens a string
without an end. -/
def tokensFrom (p : Position) (cs : List Char) : Except Position (List Token) :=
  match cs with
  | [] => .ok [{ kind := .eof, line := p.line, column := p.column }]
  | c :: rest =>
    if isSeparator c then tokensFrom (p.next c) rest
    else
      match _h : piece? c rest with
      | none => .error p
      | some piece =>
        match tokensFrom (p.after piece.used) piece.rest with
        | .error e => .error e
        | .ok tokens =>
          match piece.word with
          | some w => .ok (w.at p :: tokens)
          | none => .ok tokens
termination_by cs.length
decreasing_by
  · simp
  · exact piece?_rest_lt _h

/-- The tokens of a source text, or the place of the quote that opens a string without an end. -/
def tokens (source : String) : Except Position (List Token) :=
  tokensFrom {} source.toList

end Pseudocode.Scan
