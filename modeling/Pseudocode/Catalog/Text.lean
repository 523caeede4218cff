import Pseudocode.Catalog.Shelf
import Pseudocode.Yaml.Print
import Pseudocode.Yaml.Value

/-!
# Catalogues as text

The text of a catalogue file: a YAML mapping with the next number, and a list of records, each a
mapping of its own. Times are time stamps. Reading passes over fields that it does not know. What is
read back is not always what was written: a year needs four digits, and a code whose first line is
indented or empty loses its place in the text.
-/

namespace Pseudocode

namespace Record

/-- The time of a record that has none. -/
def noTime : Text.Moment := { seconds := -62135596800 }

/-- A record without content. -/
def blank : Record where
  id := 0
  name := ""
  code := ""
  created := noTime.seconds
  updated := noTime.seconds

/-- The column at which the lines of a code stand. -/
def codeColumn : Nat := 8

/-- The text of a record. -/
def toText (r : Record) : String :=
  "    - id: " ++ toString r.id.toInt ++ "\n"
    ++ "      name: " ++ Yaml.writeText codeColumn r.name
    ++ "      code: " ++ Yaml.writeText codeColumn r.code
    ++ "      created_at: " ++ Text.Date.stamp r.creation ++ "\n"
    ++ "      updated_at: " ++ Text.Date.stamp r.change ++ "\n"

/-- The fields of a record. -/
def fieldNames : List String := ["id", "name", "code", "created_at", "updated_at"]

/-- Takes up a field of a record. -/
def set? (r : Record) (field : String × Yaml.Node) : Option Record :=
  let n := field.2
  match field.1 with
  | "id" => (n.int? 0).map fun i => { r with id := Int64.ofInt i }
  | "name" => (n.text? "").map fun name => { r with name }
  | "code" => (n.text? "").map fun code => { r with code }
  | "created_at" =>
    (n.time? noTime).map fun t => { r with created := t.seconds, createdNanos := t.nanos }
  | "updated_at" =>
    (n.time? noTime).map fun t => { r with updated := t.seconds, updatedNanos := t.nanos }
  | _ => some r

/-- The record that a part of a document writes; nothing written is no record. -/
def ofNode? (n : Yaml.Node) : Option (Option Record) := do
  if n.isNull then return none
  else
    let fields := (← n.fields?).filter (fieldNames.contains ·.1)
    guard ((fields.map (·.1)).eraseDups.length = fields.length)
    return some (← fields.foldlM set? blank)

end Record

namespace Catalog

/-- The catalogue as text. -/
def toText (c : Catalog) : String :=
  let list :=
    if c.records.isEmpty then "algorithms: []\n"
    else "algorithms:\n" ++ String.join (c.records.map Record.toText)
  "next_id: " ++ toString c.nextId.toInt ++ "\n" ++ list

/-- Takes up a field of a catalogue. -/
def set? (c : Catalog) (field : String × Yaml.Node) : Option Catalog :=
  match field.1 with
  | "next_id" => (field.2.int? 0).map fun i => { c with nextId := Int64.ofInt i }
  | "algorithms" => do
    let records ← (← field.2.items?).mapM Record.ofNode?
    return { c with records := records.filterMap id }
  | _ => some c

/-- The catalogue that a text spells; a text without content spells an empty one. -/
def ofText? (s : String) : Option Catalog := do
  match ← Yaml.document? s with
  | none => return { nextId := 0 }
  | some n =>
    let fields := (← n.fields?).filter (["next_id", "algorithms"].contains ·.1)
    guard ((fields.map (·.1)).eraseDups.length = fields.length)
    fields.foldlM set? { nextId := 0 }

/-- What is found in a file to which a catalogue was written. -/
def filed (c : Catalog) : ShelfFile :=
  match ofText? c.toText with
  | some c => .catalog c
  | none => .garbled

end Catalog

end Pseudocode
