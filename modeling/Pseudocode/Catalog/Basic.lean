import Pseudocode.FileError
import Pseudocode.Text.Blank
import Pseudocode.Text.Date

/-!
# The catalogue of saved algorithms

Algorithms are saved under a name in a file and found again by number or by name. A catalogue is
what the file says: the number for the next record, and the records in the order they were saved.
Numbers are 64-bit integers and wrap around.

Every operation loads the file, and those that change something save it. A failed operation leaves
the file as it was.
-/

namespace Pseudocode

/-- A saved algorithm. Times are in seconds since 1970, and nanoseconds beyond these. -/
structure Record where
  id : Int64
  name : String
  code : String
  created : Int
  updated : Int
  createdNanos : Fin 1000000000 := 0
  updatedNanos : Fin 1000000000 := 0
  deriving DecidableEq, Repr

namespace Record

/-- The time at which a record was created. -/
def creation (r : Record) : Text.Moment :=
  { seconds := r.created, nanos := r.createdNanos }

/-- The time at which a record was changed last. -/
def change (r : Record) : Text.Moment :=
  { seconds := r.updated, nanos := r.updatedNanos }

end Record

/-- What a catalogue file says. -/
structure Catalog where
  nextId : Int64
  records : List Record := []
  deriving DecidableEq, Repr

/-- Why a record is refused. -/
inductive Refusal where
  | nameMissing
  | nameTooLong
  | codeMissing
  deriving DecidableEq, Repr

/-- The largest number of characters of a name. -/
def maxNameLength : Nat := 255

def Refusal.message : Refusal → String
  | nameMissing => "le nom est obligatoire"
  | nameTooLong => "le nom dépasse " ++ toString maxNameLength ++ " caractères"
  | codeMissing => "le code est obligatoire"

/-- Why a catalogue operation fails. -/
inductive CatalogError where
  /-- No record has the number or name given. -/
  | notFound (what : String)
  | invalid (why : Refusal)
  /-- The file is there and does not hold a catalogue. -/
  | unreadable
  /-- The file or its directory cannot be reached. -/
  | inaccessible (e : FileError)
  /-- The file cannot be written. -/
  | unwritten (e : FileError)
  deriving DecidableEq, Repr

def CatalogError.message : CatalogError → String
  | notFound what => "algorithme introuvable: " ++ what
  | invalid why => "algorithme invalide: " ++ why.message
  | unreadable => "parse store"
  | inaccessible e => e.message
  | unwritten e => "write store: " ++ e.message

/-! ## Validity -/

/-- Checks a name that has been trimmed. -/
def checkName (name : String) : Except CatalogError Unit :=
  if Text.isBlankText name then .error (.invalid .nameMissing)
  else if maxNameLength < name.length then .error (.invalid .nameTooLong)
  else .ok ()

def checkCode (code : String) : Except CatalogError Unit :=
  if Text.isBlankText code then .error (.invalid .codeMissing) else .ok ()

/-! ## Pure operations -/

namespace Catalog

/-- The number after the largest positive one among some records, at least one. -/
def freshId (records : List Record) : Int64 :=
  records.foldl (fun next r => if next ≤ r.id then r.id + 1 else next) 1

/-- The catalogue as it is worked with: a file without a usable next number gets one. -/
def normalize (c : Catalog) : Catalog :=
  if c.nextId ≤ 0 then { c with nextId := freshId c.records } else c

/-- Adds a record under the next number. -/
def insert (c : Catalog) (name code : String) (now : Text.Moment) : Record × Catalog :=
  let r : Record :=
    { id := c.nextId, name, code, created := now.seconds, updated := now.seconds
      createdNanos := now.nanos, updatedNanos := now.nanos }
  (r, { nextId := c.nextId + 1, records := c.records ++ [r] })

/-- The first record with a number. -/
def find? (c : Catalog) (id : Int64) : Option Record :=
  c.records.find? (·.id = id)

/-- Whether one record comes before another, newest first: by the time it was created, then by
number. -/
def newer (a b : Record) : Bool :=
  b.creation.total < a.creation.total || (a.creation.total = b.creation.total && b.id ≤ a.id)

/-- The records, newest first; records with the same time and number stay in the order of the
file. -/
def newestFirst (c : Catalog) : List Record :=
  c.records.mergeSort newer

/-- The newest record with a name. -/
def findName? (c : Catalog) (name : String) : Option Record :=
  c.newestFirst.find? (·.name = name)

/-- Changes the first record with a number. -/
def modifyFirst (id : Int64) (f : Record → Record) : List Record → List Record
  | [] => []
  | r :: rs => if r.id = id then f r :: rs else r :: modifyFirst id f rs

/-- Removes the first record with a number. -/
def eraseFirst (id : Int64) : List Record → List Record
  | [] => []
  | r :: rs => if r.id = id then rs else r :: eraseFirst id rs

end Catalog

/-- A change of a record: the parts that are set. -/
structure Patch where
  name : Option String := none
  code : Option String := none

/-- The patched record. -/
def Patch.apply (p : Patch) (now : Text.Moment) (r : Record) : Record :=
  { r with
    name := p.name.getD r.name
    code := p.code.getD r.code
    updated := now.seconds
    updatedNanos := now.nanos }

end Pseudocode
