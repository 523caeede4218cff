import Pseudocode.Text.Base64
import Pseudocode.Text.Date
import Pseudocode.Text.Integer
import Pseudocode.Yaml.Node

/-!
# Values of YAML scalars

What a plain text stands for: nothing, a truth value, a whole or a binary number, a time, or itself.
A quoted text stands for itself, and a tag decides where one is written. Then what a part of a
document is when a text, a number, a truth value, a time or a record with named fields is asked for;
nothing written leaves the usual value.
-/

namespace Pseudocode.Yaml

/-- What a scalar stands for. -/
inductive Value where
  | null
  | bool (b : Bool)
  | integer (i : Int)
  | number (x : Float)
  | time (t : Text.Moment)
  | text (s : String)

namespace Value

/-- The words that stand for something else than themselves. -/
def words : List (String × Value) :=
  [("", .null), ("~", .null), ("null", .null), ("Null", .null), ("NULL", .null),
    ("true", .bool true), ("True", .bool true), ("TRUE", .bool true),
    ("false", .bool false), ("False", .bool false), ("FALSE", .bool false)]
    ++ [".nan", ".NaN", ".NAN"].map (·, .number (0 / 0))
    ++ [".inf", ".Inf", ".INF", "+.inf", "+.Inf", "+.INF"].map (·, .number (1 / 0))
    ++ ["-.inf", "-.Inf", "-.INF"].map (·, .number (-1 / 0))

/-- A decimal literal that a double can hold. -/
def number? (cs : List Char) : Option Value := do
  let x ← (← Decimal.Literal.parse? cs).toFloat?
  return .number x

/-- Whether every underscore stands between two digits. -/
def underscoresJoin : List Char → Bool
  | [] => true
  | '_' :: _ => false
  | c :: '_' :: cs => c.isDigit && (cs.head?.map Char.isDigit).getD false && underscoresJoin cs
  | _ :: cs => underscoresJoin cs

/-- Digits of a base behind its mark, with a sign in front of them. -/
def marked? (base : Nat) (cs : List Char) : Option Value :=
  let (negative, digits) := Decimal.takeSign cs
  if digits.isEmpty then none
  else
    match Text.Integer.magnitude base 0 digits with
    | .ok n => some (.integer (if negative then -(n : Int) else n))
    | .error _ => none

/-- A whole number, in any of the bases. -/
def integer? (cs : List Char) : Option Value :=
  match Text.Integer.parse (String.ofList cs) with
  | .ok i => some (.integer i)
  | .error _ =>
    match Text.Integer.unsigned cs with
    | .ok n => some (.integer n)
    | .error _ => none

/-- A whole number whose sign stands between its base mark and its digits. -/
def lateSigned? : List Char → Option Value
  | '0' :: 'b' :: cs => marked? 2 cs
  | '0' :: 'o' :: cs => marked? 8 cs
  | _ => none

/-- What a text that starts with a digit or a sign stands for, times apart. Underscores say
nothing. -/
def numeric? (s : String) : Option Value :=
  let cs := s.toList.filter (· ≠ '_')
  (integer? cs).orElse fun _ => (number? cs).orElse fun _ => lateSigned? cs

/-- What a plain text stands for. Times are looked for on request. -/
def ofPlain (times : Bool) (s : String) : Value :=
  match words.find? (·.1 = s) with
  | some (_, v) => v
  | none =>
    match s.toList with
    | [] => .null
    | c :: cs =>
      let found :=
        if c = '.' then
          if underscoresJoin (c :: cs) then number? ((c :: cs).filter (· ≠ '_')) else none
        else if c.isDigit || c = '+' || c = '-' then
          match if times then Text.Date.ofStamp? s else none with
          | some t => some (.time t)
          | none => numeric? s
        else none
      found.getD (.text s)

/-- The tag of a value. -/
def tag : Value → String
  | null => "!!null"
  | bool _ => "!!bool"
  | integer _ => "!!int"
  | number _ => "!!float"
  | time _ => "!!timestamp"
  | text _ => "!!str"

/-- The double nearest to a whole number. -/
def ofInteger (i : Int) : Float :=
  (Decimal.nearest? (i < 0) i.natAbs 1).getD 0

/-- A tag in short. -/
def shortTag (tag : String) : String :=
  let lead := "tag:yaml.org,2002:"
  if tag.startsWith lead then "!!" ++ (tag.drop lead.length).toString else tag

/-- The tags of values other than texts. -/
def valueTags : List String :=
  ["!!null", "!!bool", "!!int", "!!float", "!!timestamp"]

/-- What a scalar with a tag stands for, or nothing if the tag does not fit. A tag that is not known
says nothing about a text. -/
def ofScalar? (tag : String) (plain : Bool) (s : String) : Option Value :=
  let tag := shortTag tag
  if tag = "!!binary" then (Text.Base64.decode? s).map .text
  else if tag = "" && !plain || tag ≠ "" && !valueTags.contains tag then some (.text s)
  else
    let v := ofPlain (tag = "" || tag = "!!timestamp") s
    if tag = "" || tag = v.tag then some v
    else
      match v with
      | .integer i =>
        if tag = "!!float" && i < Nat.pow 2 63 then some (.number (ofInteger i)) else none
      | _ => none

/-- The words for truth values beyond the usual ones. -/
def truthWord? (s : String) : Option Bool :=
  if ["y", "Y", "yes", "Yes", "YES", "on", "On", "ON"].contains s then some true
  else if ["n", "N", "no", "No", "NO", "off", "Off", "OFF"].contains s then some false
  else none

/-- The whole part of a number that is at most the bound of 64-bit integers. One that has no place
among them, the bound included, counts as the least of them. -/
def wholePart? (x : Float) : Option Int :=
  let least : Int := -Nat.pow 2 63
  match Decimal.classify x with
  | .nan => none
  | .infinite negative => if negative then some least else none
  | .finite negative d =>
    let n := match d.exponent with
      | .ofNat q => d.mantissa * Nat.pow 2 q
      | .negSucc q => d.mantissa / Nat.pow 2 (q + 1)
    if negative then some (max least (-(n : Int)))
    else if n < Nat.pow 2 63 then some n
    else if n = Nat.pow 2 63 then some least
    else none

end Value

namespace Node

/-- The part that a reference stands for; others stand for themselves. -/
def target? : Node → Option Node
  | reference _ n => n
  | n => some n

/-- A scalar: its text, and what it stands for. -/
def scalar? (n : Node) : Option (String × Value) := do
  match ← n.target? with
  | scalar tag plain text =>
    match ← Value.ofScalar? tag plain text with
    | .text s => return (s, .text s)
    | v => return (text, v)
  | _ => none

/-- A text: what was written, whatever it stands for. -/
def text? (n : Node) (usual : String) : Option String := do
  match ← n.scalar? with
  | (_, .null) => return usual
  | (s, _) => return s

/-- A truth value. -/
def bool? (n : Node) (usual : Bool) : Option Bool := do
  match (← n.scalar?).2 with
  | .null => return usual
  | .bool b => return b
  | .text s => Value.truthWord? s
  | _ => none

/-- A 64-bit integer; of a binary number, its whole part. -/
def int? (n : Node) (usual : Int) : Option Int := do
  match (← n.scalar?).2 with
  | .null => return usual
  | .integer i => if -Nat.pow 2 63 ≤ i ∧ i < Nat.pow 2 63 then return i else none
  | .number x => Value.wholePart? x
  | _ => none

/-- A time, written plainly or as a full time stamp in quotes. -/
def time? (n : Node) (usual : Text.Moment) : Option Text.Moment := do
  match ← n.scalar? with
  | (_, .null) => return usual
  | (_, .time t) => return t
  | (s, _) => if Text.Date.isFullStamp s then Text.Date.ofStamp? s else none

/-- The items of a sequence. -/
def items? (n : Node) : Option (List Node) := do
  match ← n.target? with
  | sequence items => return items
  | n =>
    match ← n.scalar? with
    | (_, .null) => return []
    | _ => none

/-- Whether nothing is written at a part. -/
def isNull (n : Node) : Bool :=
  match n.scalar? with
  | some (_, .null) => true
  | _ => false

/-- How a key was written: two keys of a mapping may not be written alike. -/
def spelling : Node → Nat × String
  | scalar _ _ text => (0, text)
  | sequence _ => (1, "")
  | mapping _ => (2, "")
  | reference name _ => (3, name)

/-- Whether a key asks for the entries of other mappings. -/
def isMerge : Node → Bool
  | scalar tag plain text =>
    text = "<<" && ((tag = "" && plain) || Value.shortTag tag = "!!merge")
  | _ => false

/-- The name of a field; an entry without a key is passed over. -/
def fieldName? (key : Node) : Option (Option String) := do
  match ← key.scalar? with
  | (_, .null) => return none
  | (s, _) => return some s

/-- The fields that the entries of a mapping write, if no two have the same key. -/
def ownFields? (entries : List (Node × Node)) : Option (List (String × Node)) := do
  guard ((entries.map (·.1.spelling)).eraseDups.length = entries.length)
  let fields ← entries.mapM fun (key, value) =>
    if key.isMerge then some none else do return (← key.fieldName?).map (·, value)
  return fields.filterMap id

/-- Adds fields whose names are not there yet. -/
def addFields (fields more : List (String × Node)) : List (String × Node) :=
  fields ++ more.filter fun f => !fields.any (·.1 = f.1)

/-- The fields of a record: a mapping, or nothing for one without fields. The entries of a mapping
that is merged in come after its own, and count only where it has none of that name. -/
def fields? (n : Node) : Option (List (String × Node)) :=
  match n with
  | reference _ target =>
    match target with
    | some n => n.fields?
    | none => none
  | sequence _ => none
  | scalar .. => if n.isNull then some [] else none
  | mapping entries => do
    let own ← ownFields? entries
    match _h : entries.find? (·.1.isMerge) with
    | none => return own
    | some (_, scalar ..) => none
    | some (_, sequence items) =>
      items.attach.foldlM (fun fields item => do
        match item.1 with
        | scalar .. | sequence _ => none
        | _ => return addFields fields (← item.1.fields?)) own
    | some (_, value) => return addFields own (← value.fields?)
termination_by sizeOf n
decreasing_by
  · simp_wf
    omega
  · have hm := List.sizeOf_lt_of_mem (List.mem_of_find?_eq_some _h)
    have hi := List.sizeOf_lt_of_mem item.2
    simp at hm ⊢
    omega
  · have hm := List.sizeOf_lt_of_mem (List.mem_of_find?_eq_some _h)
    simp at hm ⊢
    omega

end Node

end Pseudocode.Yaml
