import Pseudocode.Screen.Pen
import Pseudocode.Text.Lines

/-!
# Items

A text for a terminal as a list of items: graphemes, with the columns they take, and whole control
sequences, which take none. A sequence that is not well-formed ends before the character that does
not belong to it. The items are found by the number of characters that follow the first one.
-/

namespace Pseudocode.Screen

/-! ## The extent of control sequences -/

/-- The marks that select a private set of functions. -/
def isLead (c : Char) : Bool :=
  '<' ≤ c && c ≤ '?'

/-- The digits and separators of parameters. -/
def isParameter (c : Char) : Bool :=
  '0' ≤ c && c ≤ ';'

/-- The characters that stand between parameters and the final character. -/
def isMiddle (c : Char) : Bool :=
  ' ' ≤ c && c ≤ '/'

/-- The final characters of control functions. -/
def isFinal (c : Char) : Bool :=
  '@' ≤ c && c ≤ '~'

/-- The number of characters of a control function behind its opening bracket. -/
def functionLength (cs : List Char) : Nat :=
  let lead := cs.takeWhile isLead
  let values := (cs.drop lead.length).takeWhile isParameter
  let middle := (cs.drop (lead.length + values.length)).takeWhile isMiddle
  let n := lead.length + values.length + middle.length
  match cs.drop n with
  | c :: _ => if isFinal c then n + 1 else n
  | [] => n

/-- The number of characters of a text inside a control sequence, with what ends it. A bell ends a
command only; what breaks a sequence off is not part of it. -/
def textLength (command : Bool) : List Char → Nat
  | [] => 0
  | c :: cs =>
    if c = Text.escapeChar then if cs.head? = some '\\' then 2 else 0
    else if Text.isCancel c then 0
    else if (command && c = Text.bellChar) || Text.holdsTerminator c then 1
    else textLength command cs + 1

/-- The number of characters of a control sequence behind the escape character. -/
def sequenceLength (cs : List Char) : Nat :=
  let middle := (cs.takeWhile isMiddle).length
  match cs.drop middle with
  | [] => middle
  | c :: rest =>
    match c with
    | '[' => middle + 1 + functionLength rest
    | 'P' =>
      let n := functionLength rest
      let whole := middle = 0 && ((rest.take n).getLast?.map isFinal).getD false
      middle + 1 + n + if whole then textLength false (rest.drop n) else 0
    | ']' => middle + 1 + textLength (middle = 0) rest
    | 'X' | '^' | '_' => middle + 1 + textLength false rest
    | _ => if '0' ≤ c && c ≤ '~' then middle + 1 else middle

/-! ## The meaning of control sequences -/

/-- What a control sequence does to the text behind it. -/
inductive Effect where
  | none
  | pen (parameters : List Parameter)
  | link (l : Link)
  deriving DecidableEq, Repr

/-- The effect of a control function, given behind its opening bracket: the letter `m` is for
pens. -/
def functionEffect (cs : List Char) : Effect :=
  if cs.getLast? = some 'm' && cs.dropLast.all isParameter then
    .pen (Parameter.read cs.dropLast)
  else .none

/-- The characters of a command without those that end it. -/
def commandText (cs : List Char) : List Char :=
  cs.takeWhile fun c =>
    !(c = Text.escapeChar || c = Text.bellChar || Text.holdsTerminator c)

/-- The number that a text begins with. -/
def leadingNumber (cs : List Char) : Nat :=
  (cs.takeWhile Char.isDigit).foldl (fun n c => n * 10 + (c.toNat - '0'.toNat)) 0

/-- The effect of a command: number eight sets a link. -/
def commandEffect (cs : List Char) : Effect :=
  let text := commandText cs
  match Text.splitAtChar ';' text with
  | [_, parameters, address] =>
    if leadingNumber text = 8 then .link { parameters, address } else .none
  | _ => .none

/-- The effect of a control sequence, given behind the escape character. -/
def effectOf : List Char → Effect
  | '[' :: cs => functionEffect cs
  | ']' :: cs => commandEffect cs
  | _ => .none

/-! ## Items of a text -/

/-- An item of a text. -/
structure Item where
  chars : List Char
  /-- The columns it takes. -/
  width : Nat
  effect : Effect := .none
  deriving DecidableEq, Repr

/-- The first item of a text. -/
def firstItem (c : Char) (cs : List Char) : Item :=
  if c = Text.escapeChar then
    let rest := cs.take (sequenceLength cs)
    { chars := c :: rest, width := 0, effect := effectOf rest }
  else if c.toNat < 0x80 then
    { chars := [c], width := if c.toNat < 0x20 ∨ c.toNat = 0x7f then 0 else 1 }
  else
    let rest := cs.take (Text.graphemeRest c cs)
    { chars := c :: rest, width := Text.graphemeWidth c rest }

/-- The items of a text. -/
def items (cs : List Char) : List Item :=
  match cs with
  | [] => []
  | c :: cs =>
    let item := firstItem c cs
    item :: items (cs.drop (item.chars.length - 1))
termination_by cs.length
decreasing_by
  simp only [List.length_drop, List.length_cons]
  omega

end Pseudocode.Screen
