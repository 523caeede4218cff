import Pseudocode.Catalog.Basic

/-!
# Catalogue files

A catalogue file together with the clock that dates its records. The file may be missing, hold a
catalogue, hold something else, or not be readable at all, and writing it may fail. A failure leaves
the file, unless it was missing and what the attempt leaves in its place cannot be read. A medium
says what is found in the file after a catalogue was written to it, which is the catalogue if nothing
is lost. The clock is read only when a record is about to be dated, also if the save that follows
fails.
-/

namespace Pseudocode

/-- What is found where a catalogue file should be. -/
inductive ShelfFile where
  | absent
  /-- No file, where a failed attempt to write one leaves something that cannot be read. -/
  | fragile (e : FileError)
  | catalog (c : Catalog)
  /-- A file that holds no catalogue. -/
  | garbled
  /-- Something that cannot be read. -/
  | closed (e : FileError)
  deriving DecidableEq, Repr

/-- What is found after a failed attempt to write. -/
def ShelfFile.spoilt : ShelfFile → ShelfFile
  | fragile e => closed e
  | f => f

/-- A clock: the second and the nanosecond of each of its readings, the first being number one, and
how often it was read. -/
structure Clock where
  time : Nat → Int
  nanos : Nat → Fin 1000000000 := fun _ => 0
  readings : Nat := 0

/-- The time of a reading. -/
def Clock.moment (c : Clock) (n : Nat) : Text.Moment :=
  { seconds := c.time n, nanos := c.nanos n }

/-- Reads the clock. -/
def Clock.read (c : Clock) : Text.Moment × Clock :=
  (c.moment (c.readings + 1), { c with readings := c.readings + 1 })

/-- A catalogue file, whether and how it can be written, and the clock. -/
structure Shelf where
  file : ShelfFile
  /-- Why the file cannot be written, if it cannot. -/
  blocked : Option CatalogError := none
  /-- What is found in the file after a catalogue was written to it. -/
  medium : Catalog → ShelfFile := .catalog
  /-- The catalogue that was to be written last, whether or not that worked. -/
  attempt : Option Catalog := none
  clock : Clock

/-- The file of saved algorithms unless a caller names another. -/
def Catalog.defaultPath : String := ".algofr/algorithms.yaml"

/-- The path of the catalogue file: the one given, or the usual one if that is blank. -/
def Catalog.pathOrDefault (path : String) : String :=
  if Text.isBlankText path then Catalog.defaultPath else path

namespace Shelf

/-- The catalogue of the file; a missing file is an empty catalogue. -/
def load (s : Shelf) : Except CatalogError Catalog :=
  match s.file with
  | .absent => .ok { nextId := 1 }
  | .fragile _ => .ok { nextId := 1 }
  | .catalog c => .ok c.normalize
  | .garbled => .error .unreadable
  | .closed e => .error (.inaccessible e)

/-- Replaces the catalogue of the file. -/
def save (s : Shelf) (c : Catalog) : Except CatalogError Shelf :=
  match s.blocked with
  | some e => .error e
  | none => .ok { s with file := s.medium c, attempt := some c }

/-- Saves a catalogue and answers with a value, or fails. -/
def commit {α : Type} (s : Shelf) (c : Catalog) (answer : α) : Except CatalogError α × Shelf :=
  match s.save c with
  | .error e => (.error e, { s with file := s.file.spoilt, attempt := some c })
  | .ok s' => (.ok answer, s')

/-- Saves a new algorithm under its trimmed name. -/
def create (s : Shelf) (name code : String) : Except CatalogError Record × Shelf :=
  let name := Text.trim name
  match (do checkName name; checkCode code; s.load) with
  | .error e => (.error e, s)
  | .ok c =>
    let (now, clock) := s.clock.read
    let (r, c') := c.insert name code now
    { s with clock }.commit c' r

/-- All algorithms, newest first. -/
def list (s : Shelf) : Except CatalogError (List Record) :=
  s.load.map Catalog.newestFirst

/-- The algorithm with a number. -/
def get (s : Shelf) (id : Int64) : Except CatalogError Record := do
  match (← s.load).find? id with
  | some r => return r
  | none => throw (.notFound (toString id.toInt))

/-- The newest algorithm with a name, white space around it apart. -/
def find (s : Shelf) (name : String) : Except CatalogError Record := do
  let name := Text.trim name
  match (← s.load).findName? name with
  | some r => return r
  | none => throw (.notFound name)

/-- Checks the parts of a patch that are set. -/
def checkPatch (p : Patch) : Except CatalogError Unit := do
  match p.name with
  | some name => checkName name
  | none => pure ()
  match p.code with
  | some code => checkCode code
  | none => pure ()

/-- Changes the parts of an algorithm that a patch sets, and dates it. -/
def update (s : Shelf) (id : Int64) (p : Patch) : Except CatalogError Record × Shelf :=
  let p := { p with name := p.name.map Text.trim }
  match (do checkPatch p; s.load) with
  | .error e => (.error e, s)
  | .ok c =>
    match c.find? id with
    | none => (.error (.notFound (toString id.toInt)), s)
    | some r =>
      let (now, clock) := s.clock.read
      let records := Catalog.modifyFirst id (p.apply now) c.records
      { s with clock }.commit { c with records } (p.apply now r)

/-- Removes an algorithm. -/
def delete (s : Shelf) (id : Int64) : Except CatalogError Unit × Shelf :=
  match s.load with
  | .error e => (.error e, s)
  | .ok c =>
    match c.find? id with
    | none => (.error (.notFound (toString id.toInt)), s)
    | some _ => s.commit { c with records := Catalog.eraseFirst id c.records } ()

end Shelf

end Pseudocode
