import Pseudocode.Yaml.Scalar

/-!
# Scanning YAML

From characters to tokens. Indentation opens and closes block collections, so the scanner keeps the
columns at which those that are open start. A key is known only by the colon behind it: wherever one
may start, the place is kept, and the tokens that announce the key are put there once the colon is
found in the same line.
-/

namespace Pseudocode.Yaml

/-- A place at which a key may have started. -/
structure KeyPlace where
  /-- The number of tokens before it. -/
  number : Nat
  mark : Mark
  /-- Whether nothing but a key can be there. -/
  required : Bool

/-- The farthest that the colon may be from the start of its key. -/
def keyReach : Nat := 1024

/-- The state of a scan. -/
structure Scanner where
  cursor : Cursor
  /-- The column of the innermost open block collection, or `-1`. -/
  indent : Int := -1
  /-- The columns around it. -/
  outer : List Int := []
  /-- The place of a key in the open flow collections and around them, innermost first. -/
  places : List (Option KeyPlace) := [none]
  /-- Whether a key may start here. -/
  keyAllowed : Bool := true
  /-- The tokens so far, last first, and their number. -/
  tokens : List Token := []
  count : Nat := 0

namespace Scanner

/-- Whether a flow collection is open. -/
def inFlow (s : Scanner) : Bool :=
  1 < s.places.length

def rest (s : Scanner) : List Char :=
  s.cursor.rest

/-- Adds a token. -/
def push (s : Scanner) (t : Token) : Scanner :=
  { s with tokens := t :: s.tokens, count := s.count + 1 }

/-- Puts a token behind a number of others. -/
def insert (s : Scanner) (number : Nat) (t : Token) : Scanner :=
  let later := s.count - number
  { s with tokens := s.tokens.take later ++ t :: s.tokens.drop later, count := s.count + 1 }

/-- Passes over a number of characters. -/
def skip (s : Scanner) (n : Nat) : Scanner :=
  { s with cursor := s.cursor.drop n }

/-! ## Indentation -/

/-- Closes the block collections that start behind a column. -/
def unroll (s : Scanner) (column : Int) : Scanner :=
  if s.inFlow then s
  else
    let closed := (s.indent :: s.outer).takeWhile (column < ·)
    let s := closed.foldl (fun s _ => s.push .blockEnd) s
    match (s.indent :: s.outer).drop closed.length with
    | [] => s
    | indent :: outer => { s with indent, outer }

/-- Opens a block collection at a column unless one is open there. -/
def roll (s : Scanner) (column number : Nat) (t : Token) : Scanner :=
  if s.inFlow || (column : Int) ≤ s.indent then s
  else { s.insert number t with indent := column, outer := s.indent :: s.outer }

/-! ## Places of keys -/

/-- Gives up the place of a key, which fails if nothing else can be there. -/
def dropPlace? (s : Scanner) : Option Scanner :=
  match s.places with
  | some p :: ps => if p.required then none else some { s with places := none :: ps }
  | _ => some s

/-- Keeps the place of a key if one may start here. -/
def keepPlace? (s : Scanner) : Option Scanner :=
  if s.keyAllowed then do
    let mark := s.cursor.mark
    let required := !s.inFlow && s.indent = mark.column
    let s ← s.dropPlace?
    return { s with places := some { number := s.count, mark, required } :: s.places.drop 1 }
  else some s

/-- The place of the key that a colon here belongs to, if there is one. -/
def place? (s : Scanner) : Option (Option KeyPlace) :=
  match s.places with
  | some p :: _ =>
    let mark := s.cursor.mark
    if p.mark.line < mark.line || p.mark.index + keyReach < mark.index then
      if p.required then none else some none
    else some (some p)
  | _ => some none

/-! ## Blanks and comments -/

/-- What follows blanks and line breaks up to a comment, if one follows. Only breaks of one byte are
looked over. -/
def nextComment? : List Char → Option (List Char)
  | [] => none
  | c :: cs => if c = '#' then some (c :: cs) else if isBlank c || c = '\n' then nextComment? cs
      else none

/-- Passes over a comment and the comments in the lines that follow. -/
def dropComments (fuel : Nat) (c : Cursor) : Cursor :=
  match fuel with
  | 0 => c
  | fuel + 1 =>
    let c := c.toLineEnd
    match nextComment? c.rest with
    | none => c
    | some rest => dropComments fuel (c.drop (c.rest.length - rest.length))

/-- Passes over blanks, comments and line breaks up to the next token. Outside of flow collections a
tab is no blank where a key may start, which it may after a line break. -/
def toToken (fuel : Nat) (s : Scanner) : Scanner :=
  match fuel with
  | 0 => s
  | fuel + 1 =>
    let isSpace (c : Char) : Bool := c = ' ' || ((s.inFlow || !s.keyAllowed) && c = '\t')
    let c := s.cursor.dropWhile isSpace
    let c := if c.rest.head? = some '#' then dropComments c.rest.length c else c
    match c.rest with
    | d :: _ =>
      if isBreak d then
        toToken fuel { s with cursor := c.drop 1, keyAllowed := s.keyAllowed || !s.inFlow }
      else { s with cursor := c }
    | [] => { s with cursor := c }

/-- Passes over a comment behind a token in the same line. -/
def dropLineComment (s : Scanner) : Scanner :=
  let c := s.cursor.dropWhile isBlank
  if !s.cursor.mark.fresh && c.rest.head? = some '#' then { s with cursor := c.toLineEnd } else s

/-! ## Directives, names and tags -/

/-- A number of one or two digits. -/
def number? (cs : List Char) : Option (Nat × List Char) :=
  let ds := cs.takeWhile Char.isDigit
  if ds.isEmpty || 2 < ds.length then none
  else some (ds.foldl (fun n c => 10 * n + (c.toNat - '0'.toNat)) 0, cs.drop ds.length)

/-- The characters of a tag. -/
def isTagChar (c : Char) : Bool :=
  isWordChar c || ";/?:@&=+$,.!~*'()[]".toList.contains c

/-- Reads the characters of a tag; a percent sign with two hexadecimal digits writes one. -/
def tagText? : List Char → Option (List Char × List Char)
  | '%' :: a :: b :: cs => do
    let c ← codePoint? 2 [a, b]
    guard (c.toNat < 0x80)
    let (s, rest) ← tagText? cs
    return (c :: s, rest)
  | c :: cs =>
    if c = '%' then none
    else if isTagChar c then (tagText? cs).map fun (s, rest) => (c :: s, rest)
    else some ([], c :: cs)
  | [] => some ([], [])

/-- Reads a tag handle: an exclamation mark, and perhaps a word and another mark. -/
def tagHandle? : List Char → Option (List Char × List Char)
  | '!' :: cs =>
    let word := cs.takeWhile isWordChar
    match cs.drop word.length with
    | '!' :: rest => some ('!' :: word ++ ['!'], rest)
    | rest => some ('!' :: word, rest)
  | _ => none

/-- Reads a tag: a handle and what follows it. -/
def tag? (cs : List Char) : Option (Token × List Char) := do
  let (handle, suffix, rest) ← match cs with
    | '!' :: '<' :: cs => do
      let (s, rest) ← tagText? cs
      match rest with
      | '>' :: rest => if s.isEmpty then none else some ([], s, rest)
      | _ => none
    | _ => do
      let (h, rest) ← tagHandle? cs
      let (s, rest) ← tagText? rest
      if 1 < h.length && h.getLast? = some '!' then
        if s.isEmpty then none else some (h, s, rest)
      else
        match h.drop 1 ++ s with
        | [] => some ([], ['!'], rest)
        | s => some (['!'], s, rest)
  guard (atGap rest)
  return (.tag (String.ofList handle) (String.ofList suffix), rest)

/-- Reads the name of an anchor or of a reference to one, up to a gap or a sign that ends it. -/
def name? (cs : List Char) : Option (String × List Char) :=
  let word := cs.takeWhile isWordChar
  let rest := cs.drop word.length
  let ends := atGap rest || (rest.head?.map ("?:,]\x7d%@\x60".toList.contains ·)).getD false
  if word.isEmpty || !ends then none else some (String.ofList word, rest)

/-- Reads a directive: the version, or the meaning of a tag handle. -/
def directive? (cs : List Char) : Option (Token × List Char) := do
  let word := cs.takeWhile isWordChar
  let rest := cs.drop word.length
  guard (atGap rest)
  match String.ofList word with
  | "YAML" =>
    let (major, rest) ← number? (rest.dropWhile isBlank)
    match rest with
    | '.' :: rest =>
      let (minor, rest) ← number? rest
      return (.version major minor, rest)
    | _ => none
  | "TAG" =>
    let (h, rest) ← tagHandle? (rest.dropWhile isBlank)
    guard (h = ['!'] ∨ (1 < h.length ∧ h.getLast? = some '!'))
    guard ((rest.head?.map isBlank).getD false)
    let (s, rest) ← tagText? (rest.dropWhile isBlank)
    guard (!s.isEmpty && atGap rest)
    return (.handle (String.ofList h) (String.ofList s), rest)
  | _ => none

/-! ## Tokens -/

/-- The tokens that are a single sign. -/
def sign? (s : Scanner) : Option (Option Scanner) :=
  match s.rest with
  | '[' :: _ => some (open? .flowSequence)
  | '\x7b' :: _ => some (open? .flowMapping)
  | ']' :: _ => some (close? .flowSequenceEnd)
  | '\x7d' :: _ => some (close? .flowMappingEnd)
  | ',' :: _ => some (do
    let s ← s.dropPlace?
    return { (s.skip 1).push .flowEntry with keyAllowed := true })
  | '-' :: cs => if atGap cs then some (startItem? .blockSequence .blockEntry true) else none
  | '?' :: cs =>
    if s.inFlow || atGap cs then some (startItem? .blockMapping .key (!s.inFlow)) else none
  | ':' :: cs => if s.inFlow || atGap cs then some colon? else none
  | _ => none
where
  /-- The start of a flow collection, which may be a key. -/
  open? (t : Token) : Option Scanner := do
    let s ← s.keepPlace?
    return { (s.skip 1).push t with places := none :: s.places, keyAllowed := true }
  /-- The end of a flow collection. -/
  close? (t : Token) : Option Scanner := do
    let s ← s.dropPlace?
    let places := if s.inFlow then s.places.drop 1 else s.places
    return { (s.skip 1).push t with places, keyAllowed := false }
  /-- A sign that starts an item of a block collection. -/
  startItem? (start t : Token) (keyAllowed : Bool) : Option Scanner := do
    guard (s.inFlow || s.keyAllowed)
    let s := s.roll s.cursor.mark.column s.count start
    let s ← s.dropPlace?
    return { (s.skip 1).push t with keyAllowed }
  /-- A colon: the place of its key was kept, or the key was announced by a sign. -/
  colon? : Option Scanner := do
    match ← s.place? with
    | some p =>
      let s := (s.insert p.number .key).roll p.mark.column p.number .blockMapping
      return { (s.skip 1).push .value with places := none :: s.places.drop 1, keyAllowed := false }
    | none =>
      guard (s.inFlow || s.keyAllowed)
      let s := s.roll s.cursor.mark.column s.count .blockMapping
      return { (s.skip 1).push .value with
        places := none :: s.places.drop 1
        keyAllowed := !s.inFlow }

/-- Goes on behind a token that was read from the rest of the text. -/
def readTo (s : Scanner) (rest : List Char) (t : Token) : Scanner :=
  (s.skip (s.rest.length - rest.length)).push t

/-- The tokens that hold a name or a text. -/
def word? (s : Scanner) : Option Scanner :=
  match s.rest with
  | [] => none
  | c :: cs =>
    if c = '*' || c = '&' then do
      let s ← s.keepPlace?
      let (name, rest) ← name? cs
      let t := if c = '*' then Token.reference name else .anchor name
      return { s.readTo rest t with keyAllowed := false }
    else if c = '!' then do
      let s ← s.keepPlace?
      let (t, rest) ← tag? (c :: cs)
      return { s.readTo rest t with keyAllowed := false }
    else if (c = '|' || c = '>') && !s.inFlow then do
      let s ← s.dropPlace?
      let (text, cursor) ← block? (c = '>') s.indent (s.cursor.drop 1)
      return { s.push (.scalar false (String.ofList text)) with cursor, keyAllowed := true }
    else if c = '\'' || c = '"' then do
      let s ← s.keepPlace?
      let (text, cursor) ← quoted? c (s.cursor.mark.after c) [] .none cs
      return { s.push (.scalar false (String.ofList text)) with cursor, keyAllowed := false }
    else if startsPlain s.inFlow (c :: cs) then do
      let s ← s.keepPlace?
      let p ← plain? s.inFlow (s.indent + 1).toNat s.cursor.mark [] .none s.rest
      return { s.push (.scalar true (String.ofList p.text)) with
        cursor := p.cursor
        keyAllowed := p.leftLine }
    else none

/-- Closes all block collections, for a token between documents. -/
def betweenDocuments? (s : Scanner) : Option Scanner := do
  let s ← (s.unroll (-1)).dropPlace?
  return { s with keyAllowed := false }

/-- Reads the next token. A comment behind it goes with it, except behind a dash. -/
def next? (s : Scanner) : Option Scanner :=
  let s := s.toToken (s.rest.length + 1)
  let s := s.unroll s.cursor.mark.column
  let start := s.cursor.mark.column = 0
  match s.rest with
  | [] => do return (← s.betweenDocuments?).push .streamEnd
  | c :: cs =>
    if start && c = '%' then do
      let s ← s.betweenDocuments?
      let (t, rest) ← directive? cs
      let s := s.readTo rest t
      let c := s.cursor.dropWhile isBlank
      let c := if c.rest.head? = some '#' then c.toLineEnd else c
      guard (atLineEnd c.rest)
      return { s with cursor := c.drop 1 }
    else if start && atDocumentMark (c :: cs) then do
      let s ← s.betweenDocuments?
      return (s.skip 3).push (if c = '-' then .documentStart else .documentEnd)
    else do
      let s ← s.sign?.getD s.word?
      return if s.tokens.head? = some .blockEntry then s else s.dropLineComment

/-- The tokens up to the end of the text, or up to a fault. The reader looks two tokens ahead, so a
fault is met while two tokens before it are still to be read: these are left out. -/
def run (fuel : Nat) (s : Scanner) : List Token :=
  match fuel with
  | 0 => (s.tokens.drop 2).reverse
  | fuel + 1 =>
    match s.next? with
    | none => (s.tokens.drop 2).reverse
    | some s => if s.tokens.head? = some .streamEnd then s.tokens.reverse else run fuel s

end Scanner

/-- The tokens of a text that can be read. -/
def scan (cs : List Char) : List Token :=
  Scanner.run (cs.length + 1) { cursor := { rest := cs } }

end Pseudocode.Yaml
