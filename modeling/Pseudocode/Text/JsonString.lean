import Pseudocode.Decimal.Literal
import Pseudocode.Text.Quoted

/-!
# JSON strings and lists of strings

Writing a text as a JSON string, and reading a JSON list of strings. A written string may stand
inside a web page: the characters that have a meaning there are escaped too, and so are the two
line separators that end a line of a script.
-/

namespace Pseudocode.Text.Json

/-- The characters above the controls that are escaped by number. -/
def isGuarded (c : Char) : Bool :=
  c = '<' || c = '>' || c = '&' || c.toNat = 0x2028 || c.toNat = 0x2029

/-- One character inside a JSON string. -/
def escape (c : Char) : List Char :=
  match c.toNat with
  | 0x08 => ['\\', 'b']
  | 0x09 => ['\\', 't']
  | 0x0a => ['\\', 'n']
  | 0x0c => ['\\', 'f']
  | 0x0d => ['\\', 'r']
  | 0x22 => ['\\', '"']
  | 0x5c => ['\\', '\\']
  | n => if n < 0x20 || isGuarded c then '\\' :: 'u' :: hexChars 4 n else [c]

/-- A text as a JSON string. -/
def string (s : String) : String :=
  String.ofList ('"' :: (s.toList.flatMap escape ++ ['"']))

/-! ## Reading -/

/-- The white space of JSON. -/
def isSpace (c : Char) : Bool :=
  c = ' ' || c = '\t' || c = '\n' || c = '\r'

/-- The value of a hexadecimal digit. -/
def hexDigit? (c : Char) : Option Nat :=
  if '0' ≤ c && c ≤ '9' then some (c.toNat - '0'.toNat)
  else if 'a' ≤ c && c ≤ 'f' then some (c.toNat - 'a'.toNat + 10)
  else if 'A' ≤ c && c ≤ 'F' then some (c.toNat - 'A'.toNat + 10)
  else none

/-- The value of four hexadecimal digits. -/
def hexQuad? (a b c d : Char) : Option Nat := do
  return 0x1000 * (← hexDigit? a) + 0x100 * (← hexDigit? b) + 0x10 * (← hexDigit? c)
    + (← hexDigit? d)

def isHighSurrogate (n : Nat) : Bool := 0xd800 ≤ n && n < 0xdc00

def isLowSurrogate (n : Nat) : Bool := 0xdc00 ≤ n && n < 0xe000

/-- What stands for a surrogate without its partner. -/
def replacement : Char := Char.ofNat 0xfffd

/-- What is taken off the front of a string's contents. -/
inductive Item where
  /-- The quote that closes the string. -/
  | close
  | char (c : Char)
  /-- An escaped code unit. -/
  | unit (n : Nat)

/-- Takes one item off the front of a string's contents. -/
def item? : List Char → Option (Item × List Char)
  | [] => none
  | '"' :: cs => some (.close, cs)
  | '\\' :: 'u' :: a :: b :: c :: d :: cs => (hexQuad? a b c d).map fun n => (.unit n, cs)
  | '\\' :: c :: cs =>
    match c with
    | '"' | '\\' | '/' => some (.char c, cs)
    | 'b' => some (.char '\x08', cs)
    | 'f' => some (.char '\x0c', cs)
    | 'n' => some (.char '\n', cs)
    | 'r' => some (.char '\r', cs)
    | 't' => some (.char '\t', cs)
    | _ => none
  | c :: cs => if c.toNat < 0x20 || c = '\\' then none else some (.char c, cs)

/-- The items of a string up to its closing quote, and the text after it. Every item takes at least
one character, so as many steps as there are characters are enough. -/
def items? : Nat → List Char → Option (List Item × List Char)
  | 0, _ => none
  | fuel + 1, cs =>
    match item? cs with
    | none => none
    | some (.close, rest) => some ([], rest)
    | some (i, rest) => (items? fuel rest).map fun (is, rest') => (i :: is, rest')

/-- The characters that items stand for. Two code units of a pair make one character; one without a
partner is replaced. -/
def characters : List Item → List Char
  | [] => []
  | .close :: is => characters is
  | .char c :: is => c :: characters is
  | .unit n :: .unit m :: is =>
    if isHighSurrogate n && isLowSurrogate m then
      Char.ofNat (0x10000 + (n - 0xd800) * 0x400 + (m - 0xdc00)) :: characters is
    else unit n :: characters (.unit m :: is)
  | .unit n :: is => unit n :: characters is
where
  unit (n : Nat) : Char :=
    if isHighSurrogate n || isLowSurrogate n then replacement else Char.ofNat n

/-- A list item: a string, or `null` for the empty one. -/
def element? (cs : List Char) : Option (String × List Char) :=
  match cs with
  | '"' :: rest =>
    (items? rest.length rest).map fun (is, rest') => (String.ofList (characters is), rest')
  | 'n' :: 'u' :: 'l' :: 'l' :: rest => some ("", rest)
  | _ => none

/-- The items of a list after its opening bracket, and the text after its closing one. -/
def elements? : Nat → List Char → Option (List String × List Char)
  | 0, _ => none
  | fuel + 1, cs =>
    match element? (cs.dropWhile isSpace) with
    | none => none
    | some (s, rest) =>
      match rest.dropWhile isSpace with
      | ']' :: rest' => some ([s], rest')
      | ',' :: rest' => (elements? fuel rest').map fun (ss, rest'') => (s :: ss, rest'')
      | _ => none

/-- The list of strings that a whole text spells: `null`, or a list whose items are strings or
`null`. -/
def strings? (text : String) : Option (List String) :=
  match text.toList.dropWhile isSpace with
  | 'n' :: 'u' :: 'l' :: 'l' :: rest => finish ([], rest)
  | '[' :: rest =>
    match rest.dropWhile isSpace with
    | ']' :: rest' => finish ([], rest')
    | _ => (elements? rest.length rest).bind finish
  | _ => none
where
  /-- Accepts a result if only white space follows it. -/
  finish (r : List String × List Char) : Option (List String) :=
    if r.2.all isSpace then some r.1 else none

end Pseudocode.Text.Json
