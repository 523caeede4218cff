/-!
# Tokens of YAML

The characters that a YAML text may hold, positions in it, and the tokens that it is made of. Line
breaks are the line feed, the next-line character and the two Unicode separators; a carriage return,
alone or before a line feed, is turned into a line feed before anything else is looked at.
-/

namespace Pseudocode.Yaml

/-! ## Characters -/

/-- The next-line character, a line break. -/
def nextLine : Char := Char.ofNat 0x85

/-- The mark that may stand at the very start of a text. -/
def byteOrderMark : Char := Char.ofNat 0xfeff

/-- The characters that end a line. -/
def isBreak (c : Char) : Bool :=
  c = '\n' || c = nextLine || c.toNat = 0x2028 || c.toNat = 0x2029

/-- The blanks inside a line. -/
def isBlank (c : Char) : Bool :=
  c = ' ' || c = '\t'

/-- The characters of names: of anchors, tag handles and directives. -/
def isWordChar (c : Char) : Bool :=
  c.isAlphanum || c = '_' || c = '-'

/-- The characters that may occur at all: no control but the tab and the line breaks, and neither of
the two code points that are no characters at the end of the basic plane. -/
def isAllowed (c : Char) : Bool :=
  c = '\t' || c = '\n' || c = '\r' || (0x20 ≤ c.toNat && c.toNat ≤ 0x7e) || c = nextLine
    || (0xa0 ≤ c.toNat && c.toNat ≤ 0xfffd) || 0x10000 ≤ c.toNat

/-- Whether a blank, a line break or the end of the text comes next. -/
def atGap : List Char → Bool
  | [] => true
  | c :: _ => isBlank c || isBreak c

/-- Whether a line break or the end of the text comes next. -/
def atLineEnd : List Char → Bool
  | [] => true
  | c :: _ => isBreak c

/-- Whether the three signs that start or end a document come next, as a word of their own. -/
def atDocumentMark : List Char → Bool
  | '-' :: '-' :: '-' :: cs => atGap cs
  | '.' :: '.' :: '.' :: cs => atGap cs
  | _ => false

/-- Turns carriage returns into line feeds, one with a line feed after it into a single one. -/
def unifyBreaks : List Char → List Char
  | [] => []
  | [c] => [if c = '\r' then '\n' else c]
  | c :: d :: cs =>
    if c = '\r' then
      if d = '\n' then unifyBreaks (d :: cs) else '\n' :: unifyBreaks (d :: cs)
    else c :: unifyBreaks (d :: cs)

/-- The characters of a text, ready to be scanned, or nothing if one of them may not occur. -/
def characters? (s : String) : Option (List Char) :=
  let cs := match s.toList with
    | c :: rest => if c = byteOrderMark then rest else c :: rest
    | [] => []
  if cs.all isAllowed then some (unifyBreaks cs) else none

/-! ## Positions -/

/-- A position in a text. -/
structure Mark where
  index : Nat := 0
  line : Nat := 0
  column : Nat := 0
  /-- Whether only blanks were passed since the last line break. -/
  fresh : Bool := false

/-- The position behind a character. -/
def Mark.after (m : Mark) (c : Char) : Mark :=
  if isBreak c then { index := m.index + 1, line := m.line + 1, column := 0, fresh := true }
  else { m with
    index := m.index + 1
    column := m.column + 1
    fresh := m.fresh && isBlank c }

/-- The position behind several characters. -/
def Mark.over (m : Mark) (cs : List Char) : Mark :=
  cs.foldl Mark.after m

/-- A text from a position on. -/
structure Cursor where
  mark : Mark := {}
  rest : List Char

/-- Passes over a number of characters. -/
def Cursor.drop (c : Cursor) (n : Nat) : Cursor :=
  { mark := c.mark.over (c.rest.take n), rest := c.rest.drop n }

/-- Passes over the characters of a class. -/
def Cursor.dropWhile (c : Cursor) (p : Char → Bool) : Cursor :=
  { mark := c.mark.over (c.rest.takeWhile p), rest := c.rest.dropWhile p }

/-- Passes over the rest of the line, up to its break. -/
def Cursor.toLineEnd (c : Cursor) : Cursor :=
  c.dropWhile (!isBreak ·)

/-! ## Tokens -/

/-- The parts of a YAML text. -/
inductive Token where
  /-- The version directive. -/
  | version (major minor : Nat)
  /-- A directive that declares what a tag handle stands for. -/
  | handle (name meaning : String)
  | documentStart
  | documentEnd
  | streamEnd
  | blockSequence
  | blockMapping
  | blockEnd
  | flowSequence
  | flowSequenceEnd
  | flowMapping
  | flowMappingEnd
  | flowEntry
  | blockEntry
  | key
  | value
  /-- Another mention of an anchored part. -/
  | reference (name : String)
  | anchor (name : String)
  | tag (handle suffix : String)
  /-- A text; only one without quotes can stand for something else. -/
  | scalar (plain : Bool) (text : String)
  deriving DecidableEq, Repr

end Pseudocode.Yaml
