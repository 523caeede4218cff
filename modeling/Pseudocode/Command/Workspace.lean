import Pseudocode.Catalog.Shelf
import Pseudocode.Catalog.Text

/-!
# Workspaces

The files that a command sees, as a value: texts and catalogues by path. A directory is there if
something is in it. A path is followed part by part, so every directory on the way must be there,
also one that the path leaves again. What fails, fails with the reason that the reader is told.
-/

namespace Pseudocode.Command

/-- Whether paths start at a place: relative ones, also those that go back first, and absolute
ones. -/
def isRoot (place : List String) : Bool :=
  place.all (· = "..") || place = ["/"]

/-- The place above a place. -/
def above (place : List String) : List String :=
  if place.all (· = "..") then ".." :: place else if place = ["/"] then place else place.dropLast

/-- The place that a part of a path leads to: an empty part and a single dot say nothing, a double
dot goes back. -/
def follow (place : List String) (part : String) : List String :=
  if part = "" ∨ part = "." then place
  else if part = ".." then above place
  else place ++ [part]

/-- Where a path starts. -/
def startOf (path : String) : List String :=
  if path.toList.head? = some '/' then ["/"] else []

/-- The place that a path names, whether or not it can be followed. -/
def pathParts (path : String) : List String :=
  (Text.splitText '/' path).foldl follow (startOf path)

/-- The last part of a path. -/
def baseName (path : String) : String :=
  if path = "" then "."
  else
    let cs := (path.toList.reverse.dropWhile (· = '/')).takeWhile (· ≠ '/')
    if cs.isEmpty then "/" else String.ofList cs.reverse

/-- What stands at a path. -/
inductive Document where
  | text (s : String)
  | catalog (c : Catalog)
  /-- A file that holds neither. -/
  | garbled
  | directory

/-- Whether a document has content of its own. -/
def Document.isFile : Document → Bool
  | directory => false
  | _ => true

/-- What a document is, taken for a catalogue file. -/
def Document.shelfFile : Document → ShelfFile
  | catalog c => c.filed
  | text s =>
    match Catalog.ofText? s with
    | some c => .catalog c
    | none => .garbled
  | garbled => .garbled
  | directory => .garbled

/-- The files that a command sees. -/
structure Workspace where
  documents : List (List String × Document) := []

/-- The most bytes of a part of a path. -/
def nameLimit : Nat := 255

/-- The most bytes of a path. -/
def pathLimit : Nat := 4095

namespace Workspace

/-- Whether a place is known to be a directory because something is in it. -/
def isDirectory (w : Workspace) (place : List String) : Bool :=
  w.documents.any fun (p, _) => place.isPrefixOf p

/-- What stands at a place. Paths start at directories. -/
def at? (w : Workspace) (place : List String) : Option Document :=
  if isRoot place then some .directory
  else
    match w.documents.lookup place with
    | some d => some d
    | none => if w.isDirectory place then some .directory else none

/-- Goes on from a place, which must be a directory, by a part of a path. -/
def enter (w : Workspace) (place : List String) (part : String) :
    Except FileProblem (List String) :=
  match w.at? place with
  | none => .error .missing
  | some d =>
    if d.isFile then .error .notDirectory
    else if nameLimit < part.utf8ByteSize then .error .tooLong
    else .ok (follow place part)

/-- The place that a path leads to, part by part. Only the last part need not be there. -/
def resolve (w : Workspace) (path : String) : Except FileProblem (List String) :=
  if path.toList.contains '\x00' then .error .malformed
  else if pathLimit < path.utf8ByteSize then .error .tooLong
  else if path = "" then .error .missing
  else (Text.splitText '/' path).foldlM w.enter (startOf path)

/-- What stands at a path, or why nothing can be read there. -/
def find (w : Workspace) (path : String) : Except FileError Document :=
  match w.resolve path with
  | .error problem => .error ⟨"open", path, problem⟩
  | .ok place =>
    match w.at? place with
    | none => .error ⟨"open", path, .missing⟩
    | some d => if d.isFile then .ok d else .error ⟨"read", path, .isDirectory⟩

/-- Puts a document at a place. -/
def put (w : Workspace) (place : List String) (d : Document) : Workspace :=
  { w with documents := (place, d) :: w.documents.filter (·.1 ≠ place) }

/-- Puts a document at a path. -/
def insert (w : Workspace) (path : String) (d : Document) : Workspace :=
  w.put (pathParts path) d

/-- The text of a document, for reading it as a source or a configuration. -/
def text (w : Workspace) (path : String) : Except FileError String :=
  match w.find path with
  | .ok (.text s) => .ok s
  | .ok (.catalog c) => .ok c.toText
  | .ok _ => .ok ""
  | .error e => .error e

/-! ## Catalogue files -/

/-- Makes the directories of a place, from the outermost. Those that were made stay if one cannot
be made. -/
def makeDirectories (w : Workspace) (made : List String) :
    List String → Except FileError Unit × Workspace
  | [] => (.ok (), w)
  | part :: parts =>
    let place := made ++ [part]
    let fails (problem : FileProblem) : Except FileError Unit × Workspace :=
      (.error ⟨"mkdir", String.intercalate "/" place, problem⟩, w)
    match w.at? place with
    | some d => if d.isFile then fails .notDirectory else w.makeDirectories place parts
    | none =>
      if nameLimit < part.utf8ByteSize then fails .tooLong
      else (w.put place .directory).makeDirectories place parts

/-- The directory that a path names up to its last part. -/
def directoryOf (path : String) : List String :=
  pathParts (String.ofList (path.toList.reverse.dropWhile (· ≠ '/')).reverse)

/-- Writes a catalogue to a path. Its directory is made first. The text goes to a file beside it,
which then takes its place. -/
def store (w : Workspace) (path : String) (c : Catalog) : Except CatalogError Unit × Workspace :=
  match w.makeDirectories [] (directoryOf path) with
  | (.error e, w) => (.error (.inaccessible e), w)
  | (.ok (), w) =>
    let beside := path ++ ".tmp"
    let fails (problem : FileProblem) : Except CatalogError Unit :=
      .error (.unwritten ⟨"open", beside, problem⟩)
    match w.resolve beside with
    | .error problem => (fails problem, w)
    | .ok place =>
      if (w.at? place).any (!·.isFile) then (fails .isDirectory, w)
      else
        match w.resolve path with
        | .error problem => (.error (.unwritten ⟨"rename", path, problem⟩), w)
        | .ok target =>
          if (w.at? target).any (!·.isFile) then
            (.error (.unwritten ⟨"rename", path, .alreadyThere⟩), w.put place (.catalog c))
          else (.ok (), w.put target (.catalog c))

/-- The workspace after the directories of a path were made, as far as they can be. -/
def prepared (w : Workspace) (path : String) : Workspace :=
  (w.makeDirectories [] (directoryOf path)).2

/-- What a catalogue file is where nothing stands: a look at the path with its directories made
tells what a failed attempt to write leaves. -/
def missingFile (w : Workspace) (path : String) : ShelfFile :=
  match (w.prepared path).find path with
  | .ok _ => .absent
  | .error e => if e.problem = .missing then .absent else .fragile e

/-- What is found at the path of a catalogue file. -/
def shelfFile (w : Workspace) (path : String) : ShelfFile :=
  match w.find path with
  | .ok d => d.shelfFile
  | .error e => if e.problem = .missing then w.missingFile path else .closed e

/-- The catalogue file at a path. -/
def shelf (w : Workspace) (path : String) (clock : Clock) : Shelf where
  file := w.shelfFile path
  blocked :=
    match w.store path { nextId := 0 } with
    | (.ok (), _) => none
    | (.error e, _) => some e
  medium := Catalog.filed
  clock

/-- Writes a catalogue file back if that was tried. -/
def putShelf (w : Workspace) (path : String) (after : Shelf) : Workspace :=
  match after.attempt with
  | some c => (w.store path c).2
  | none => w

end Workspace

end Pseudocode.Command
