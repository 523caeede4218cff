import Pseudocode.Text.JsonString
import Pseudocode.Yaml.Token

/-!
# Scalars of YAML

How texts are read from a YAML text: plain ones, quoted ones and blocks. A plain or quoted text may
go over several lines, where a line break stands for a space and further ones for themselves. A
block keeps its lines, without their common indentation.
-/

namespace Pseudocode.Yaml

/-- The line break that a character adds to a text. -/
def breakText (c : Char) : Char :=
  if c = nextLine then '\n' else c

/-- The blanks and line breaks since the last other character, last first. -/
inductive Gap where
  | none
  | blanks (cs : List Char)
  /-- The first line break, unless it was written away, and the others. -/
  | lines (first : Option Char) (others : List Char)

namespace Gap

/-- Takes up a blank: those around a line break say nothing. -/
def blank (c : Char) : Gap → Gap
  | .none => .blanks [c]
  | .blanks cs => .blanks (c :: cs)
  | g => g

/-- Takes up a line break. -/
def lineBreak (c : Char) : Gap → Gap
  | .lines first others => .lines first (breakText c :: others)
  | _ => .lines (some (breakText c)) []

def isNone : Gap → Bool
  | .none => true
  | _ => false

def isLines : Gap → Bool
  | .lines _ _ => true
  | _ => false

/-- Puts what a gap stands for behind a text, both given last character first. -/
def behind (out : List Char) : Gap → List Char
  | .none => out
  | .blanks cs => cs ++ out
  | .lines (some '\n') [] => ' ' :: out
  | .lines (some '\n') others => others ++ out
  | .lines (some c) others => others ++ c :: out
  | .lines Option.none others => others ++ out

end Gap

/-! ## Quoted texts -/

/-- The character that an escape of one letter stands for. -/
def escaped? (c : Char) : Option Char :=
  match c with
  | '0' => some '\x00'
  | 'a' => some '\x07'
  | 'b' => some '\x08'
  | 't' | '\t' => some '\t'
  | 'n' => some '\n'
  | 'v' => some '\x0b'
  | 'f' => some '\x0c'
  | 'r' => some '\r'
  | 'e' => some '\x1b'
  | ' ' => some ' '
  | '"' => some '"'
  | '\'' => some '\''
  | '\\' => some '\\'
  | 'N' => some nextLine
  | '_' => some (Char.ofNat 0xa0)
  | 'L' => some (Char.ofNat 0x2028)
  | 'P' => some (Char.ofNat 0x2029)
  | _ => none

/-- The number of hexadecimal digits that follow an escape letter. -/
def escapeLength? (c : Char) : Option Nat :=
  match c with
  | 'x' => some 2
  | 'u' => some 4
  | 'U' => some 8
  | _ => none

/-- The character whose code point some hexadecimal digits write. -/
def codePoint? (n : Nat) (cs : List Char) : Option Char := do
  guard (cs.length = n)
  let v ← cs.foldlM (fun v c => (Text.Json.hexDigit? c).map (16 * v + ·)) 0
  guard (v ≤ 0x10ffff ∧ ¬ (0xd800 ≤ v ∧ v ≤ 0xdfff))
  return Char.ofNat v

/-- Reads a quoted text up to its closing quote, from behind the opening one. -/
def quoted? (quote : Char) (m : Mark) (out : List Char) (gap : Gap) (cs : List Char) :
    Option (List Char × Cursor) :=
  match cs with
  | [] => none
  | c :: rest =>
    if isBlank c then quoted? quote (m.after c) out (gap.blank c) rest
    else if isBreak c then quoted? quote (m.after c) out (gap.lineBreak c) rest
    else if m.column = 0 && atDocumentMark (c :: rest) then none
    else
      let out := gap.behind out
      match rest with
      | [] => if c = quote then some (out.reverse, ⟨m.after c, []⟩) else none
      | d :: rest' =>
        if c = quote then
          if quote = '\'' && d = '\'' then
            quoted? quote ((m.after c).after d) ('\'' :: out) .none rest'
          else some (out.reverse, ⟨m.after c, d :: rest'⟩)
        else if c = '\\' && quote = '"' then
          let m := (m.after c).after d
          if isBreak d then quoted? quote m out (.lines none []) rest'
          else
            match escaped? d with
            | some e => quoted? quote m (e :: out) .none rest'
            | none => do
              let n ← escapeLength? d
              let e ← codePoint? n (rest'.take n)
              quoted? quote (m.over (rest'.take n)) (e :: out) .none (rest'.drop n)
        else quoted? quote (m.after c) (c :: out) .none (d :: rest')
termination_by cs.length
decreasing_by all_goals simp only [List.length_cons, List.length_drop]; omega

/-! ## Plain texts -/

/-- Whether a plain text ends before these characters, in a flow collection or outside. -/
def endsPlain (flow : Bool) : List Char → Bool
  | [] => true
  | c :: cs => (c = ':' && atGap cs) || (flow && ",?[]\x7b\x7d".toList.contains c)

/-- Whether a plain text may start with these characters. -/
def startsPlain (flow : Bool) : List Char → Bool
  | [] => false
  | c :: cs =>
    if c = '-' then !atGap cs
    else if c = '?' || c = ':' then !flow && !atGap cs
    else !(isBlank c || isBreak c || ",[]\x7b\x7d#&*!|>'\"%@\x60".toList.contains c)

/-- A plain text, whether it was left in a later line than it was begun or last continued in, and
where it was left. -/
structure Plain where
  text : List Char
  leftLine : Bool
  cursor : Cursor

/-- Reads a plain text, whose lines start at a column or behind it. -/
def plain? (flow : Bool) (column : Nat) (m : Mark) (out : List Char) (gap : Gap) :
    List Char → Option Plain
  | [] => some ⟨out.reverse, gap.isLines, ⟨m, []⟩⟩
  | c :: cs =>
    let stop : Plain := ⟨out.reverse, gap.isLines, ⟨m, c :: cs⟩⟩
    if isBlank c then
      if gap.isLines && m.column < column && c = '\t' then none
      else plain? flow column (m.after c) out (gap.blank c) cs
    else if isBreak c then plain? flow column (m.after c) out (gap.lineBreak c) cs
    else if !gap.isNone
        && ((!flow && m.column < column) || c = '#' || (m.column = 0 && atDocumentMark (c :: cs)))
    then some stop
    else if endsPlain flow (c :: cs) then some stop
    else plain? flow column (m.after c) (c :: gap.behind out) .none cs

/-! ## Blocks -/

/-- What becomes of the line breaks at the end of a block. -/
inductive Chomping where
  /-- None is kept. -/
  | strip
  /-- One is kept. -/
  | clip
  /-- All are kept. -/
  | keep
  deriving DecidableEq

/-- The signs behind the one that starts a block. -/
structure BlockHeader where
  chomping : Chomping := .clip
  /-- The indentation against the surrounding one, or zero if the first line decides. -/
  indentation : Nat := 0

/-- Reads a chomping sign. -/
def chomping? : List Char → Option Chomping × List Char
  | '+' :: cs => (some .keep, cs)
  | '-' :: cs => (some .strip, cs)
  | cs => (none, cs)

/-- Reads an indentation digit, which is not zero. -/
def indentation? : List Char → Option (Option Nat × List Char)
  | [] => some (none, [])
  | c :: cs =>
    if c.isDigit then if c = '0' then none else some (some (c.toNat - '0'.toNat), cs)
    else some (none, c :: cs)

/-- Reads the two signs of a block header, in either order. -/
def blockHeader? (cs : List Char) : Option (BlockHeader × List Char) := do
  let (early, cs) := chomping? cs
  let (indentation, cs) ← indentation? cs
  let (late, cs) := if early.isNone && indentation.isSome then chomping? cs else (none, cs)
  return ({ chomping := (early.orElse fun _ => late).getD .clip
            indentation := indentation.getD 0 }, cs)

/-- The line breaks in front of a line of a block, last first, and the widest indentation seen. -/
structure Margin where
  breaks : List Char := []
  widest : Nat := 0
  cursor : Cursor

/-- Passes over the indentation of a line and empty lines in front of it. Without a given
indentation all spaces count; a tab cannot be one of them. -/
def margin? (indentation : Nat) (m : Mark) (breaks : List Char) (widest : Nat) :
    List Char → Option Margin
  | [] => some ⟨breaks, max widest m.column, ⟨m, []⟩⟩
  | c :: cs =>
    let inside := indentation = 0 || m.column < indentation
    if inside && c = ' ' then margin? indentation (m.after c) breaks widest cs
    else if inside && c = '\t' then none
    else if isBreak c then
      margin? indentation (m.after c) (breakText c :: breaks) (max widest m.column) cs
    else some ⟨breaks, max widest m.column, ⟨m, c :: cs⟩⟩

/-- The lines of a block as far as they are read. Texts are kept last character first. -/
structure BlockLines where
  text : List Char := []
  /-- The break of the last line. -/
  last : List Char := []
  /-- The breaks of the empty lines after it. -/
  empty : List Char := []
  /-- Whether the last line starts with a blank. -/
  indented : Bool := false

/-- Takes up a line of a block. In a folded block a single break between two lines that do not start
with a blank is a space. -/
def BlockLines.add (b : BlockLines) (folded : Bool) (line : List Char) : BlockLines :=
  let blank := match line with
    | c :: _ => isBlank c
    | [] => false
  let joint :=
    if folded && !b.indented && !blank && b.last = ['\n'] then
      if b.empty.isEmpty then [' '] else []
    else b.last
  { text := line.reverse ++ (b.empty ++ (joint ++ b.text)), indented := blank }

/-- Reads the lines of a block that have the given indentation. -/
def blockLines? (folded : Bool) (indentation : Nat) (fuel : Nat) (b : BlockLines) (c : Cursor) :
    Option (BlockLines × Cursor) :=
  match fuel with
  | 0 => some (b, c)
  | fuel + 1 =>
    if c.mark.column = indentation && !c.rest.isEmpty then do
      let b := b.add folded (c.rest.takeWhile (!isBreak ·))
      let c := c.toLineEnd
      let last := (c.rest.head?.map breakText).toList
      let c := c.drop 1
      let margin ← margin? indentation c.mark [] 0 c.rest
      blockLines? folded indentation fuel { b with last, empty := margin.breaks } margin.cursor
    else some (b, c)

/-- Reads a block from behind its first sign. `outer` is the indentation around it, or `-1`. -/
def block? (folded : Bool) (outer : Int) (c : Cursor) : Option (List Char × Cursor) := do
  let (header, rest) ← blockHeader? c.rest
  let c := (c.drop (c.rest.length - rest.length)).dropWhile isBlank
  let c := if c.rest.head? = some '#' then c.toLineEnd else c
  guard (atLineEnd c.rest)
  let c := c.drop 1
  let given := if header.indentation = 0 then 0 else (max outer 0).toNat + header.indentation
  let margin ← margin? given c.mark [] 0 c.rest
  let indentation := if given = 0 then max (max margin.widest (outer + 1).toNat) 1 else given
  let (b, c) ← blockLines? folded indentation (margin.cursor.rest.length + 1)
    { empty := margin.breaks } margin.cursor
  let tail := match header.chomping with
    | .strip => []
    | .clip => b.last
    | .keep => b.empty ++ b.last
  return ((tail ++ b.text).reverse, c)

end Pseudocode.Yaml
