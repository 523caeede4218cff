import Pseudocode.Yaml.Token

/-!
# Writing YAML texts

A text of one line is written in quotes. One of several lines is written as a block, line by line
under its key, unless a character of it or a blank at the end of a line could get lost there.
-/

namespace Pseudocode.Yaml

/-- The lower-case hexadecimal digits of a number, filled with zeros to a width. -/
def hexDigits (width n : Nat) : List Char :=
  let ds := Nat.toDigits 16 n
  List.replicate (width - ds.length) '0' ++ ds

/-- The characters that are written as they are. -/
def isPlainChar (c : Char) : Bool :=
  (0x20 ≤ c.toNat && c.toNat ≤ 0x7e) || (0xa0 ≤ c.toNat && c.toNat ≤ 0xfffd && c ≠ byteOrderMark)

/-- A character in double quotes. -/
def quoteChar (c : Char) : List Char :=
  if c = '"' ∨ c = '\\' then ['\\', c]
  else if c = '\n' then ['\\', 'n']
  else if c = '\t' then ['\\', 't']
  else if isPlainChar c && !isBreak c then [c]
  else if c.toNat < 0x100 then '\\' :: 'x' :: hexDigits 2 c.toNat
  else if c.toNat < 0x10000 then '\\' :: 'u' :: hexDigits 4 c.toNat
  else '\\' :: 'U' :: hexDigits 8 c.toNat

/-- A text in double quotes. -/
def quoteText (s : String) : String :=
  String.ofList ('"' :: s.toList.flatMap quoteChar ++ ['"'])

/-- Whether a space stands before a line break or at the end. -/
def endsInSpace : List Char → Bool
  | [] => false
  | [c] => c = ' '
  | c :: d :: cs => (c = ' ' && isBreak d) || endsInSpace (d :: cs)

/-- Whether a text is written as a block: it has a line feed, all its characters can stand there,
and no line of it ends in a space. -/
def isBlockText (cs : List Char) : Bool :=
  cs.contains '\n' && cs.all (fun c => isPlainChar c || c = '\n' || c = '\t') && !endsInSpace cs

/-- The indentation that a block announces if its first line starts with a space or is empty. -/
def announcedIndentation : Nat := 4

/-- The signs of a block: its indentation where the first line would not show it, and what becomes
of the line breaks at its end. -/
def blockSigns (cs : List Char) : List Char :=
  let indentation := match cs with
    | c :: _ => if c = ' ' || isBreak c then (toString announcedIndentation).toList else []
    | [] => []
  let chomping := match cs.reverse with
    | c :: d :: _ => if !isBreak c then ['-'] else if isBreak d then ['+'] else []
    | [c] => if isBreak c then ['+'] else ['-']
    | [] => ['-']
  '|' :: indentation ++ chomping

/-- The lines of a block, each that is not empty behind a number of spaces. -/
def blockBody (column : Nat) (lineStart : Bool) : List Char → List Char
  | [] => []
  | c :: cs =>
    if isBreak c then c :: blockBody column true cs
    else if lineStart then List.replicate column ' ' ++ c :: blockBody column false cs
    else c :: blockBody column false cs

/-- A text as the value of a key: in quotes, or as a block with its lines at a column. A block that
starts with a line break needs none behind its signs. -/
def writeText (column : Nat) (s : String) : String :=
  let cs := s.toList
  if isBlockText cs then
    let start := match cs with
      | c :: _ => if isBreak c then [] else ['\n']
      | [] => []
    let body := blockBody column true cs
    let last := match cs.getLast? with
      | some c => if isBreak c then [] else ['\n']
      | none => []
    String.ofList (blockSigns cs ++ start ++ body ++ last)
  else quoteText s ++ "\n"

end Pseudocode.Yaml
