import Mathlib.Algebra.Group.Nat.Defs
import Pseudocode.Catalog.Shelf

/-!
# What a request does to a catalogue

A request of a catalogue file loads the catalogue, and may write another one back. This module opens
the operations once: `Shelf.Effect` lists what a request that found the catalogue `c` can do to it,
one rule for each kind of change and one for everything that leaves it, and `serve_effect` says that
the list is complete, whatever medium keeps the file. `Shelf.Yields` says when the file is written.

Numbers are given out in ascending order and never twice, as long as they do not run out: the
records of a catalogue `Numbered used` have numbers from one to `used`, which ascend in the order of
the file. Every change keeps that.
-/

namespace Pseudocode

namespace Catalog

variable {c : Catalog} {used : Nat} {records : List Record} {id other : Int64}

/-- The numbers of the records, in the order of the file. -/
def ids (c : Catalog) : List Int64 :=
  c.records.map Record.id

/-- The numbers up to `used` have been given out, and the records have some of these, ascending. -/
structure Numbered (c : Catalog) (used : Nat) : Prop where
  next : c.nextId.toInt = used + 1
  ascending : c.ids.Pairwise fun i j => i.toInt < j.toInt
  range : ∀ i ∈ c.ids, 1 ≤ i.toInt ∧ i.toInt ≤ used

/-! ## Records by number -/

theorem mem_ids_of_find? {r : Record} (found : c.find? id = some r) : id ∈ c.ids := by
  have same : r.id = id := by simpa using List.find?_some found
  rw [← same]
  exact List.mem_map_of_mem (List.mem_of_find?_eq_some found)

theorem find?_eq_none (absent : id ∉ c.ids) : c.find? id = none := by
  rw [find?, List.find?_eq_none]
  intro r member
  have other : r.id ≠ id := fun same => absent (same ▸ List.mem_map_of_mem member)
  simpa using other

theorem find?_modifyFirst {f : Record → Record} (keeps : ∀ r, (f r).id = r.id) :
    (modifyFirst id f records).find? (·.id = other)
      = if other = id then (records.find? (·.id = id)).map f
        else records.find? (·.id = other) := by
  induction records with
  | nil => simp [modifyFirst]
  | cons r rest ih =>
    rw [modifyFirst]
    by_cases here : r.id = id
    · by_cases same : other = id
      · simp [here, same, keeps]
      · have skipped : ¬id = other := fun h => same h.symm
        simp [here, same, skipped, keeps]
    · by_cases same : other = id
      · subst same
        simpa [here] using ih
      · by_cases first : r.id = other
        · simp [first, same]
        · simpa [here, same, first] using ih

/-- A change leaves the list of what it does not touch. -/
theorem map_modifyFirst {α : Type} {f : Record → Record} {g : Record → α}
    (keeps : ∀ r, g (f r) = g r) : (modifyFirst id f records).map g = records.map g := by
  induction records with
  | nil => rfl
  | cons r rest ih =>
    rw [modifyFirst]
    split
    · simp [keeps]
    · simp [ih]

theorem mem_modifyFirst {f : Record → Record} {r : Record}
    (distinct : (records.map Record.id).Nodup) :
    r ∈ modifyFirst id f records ↔
      (r ∈ records ∧ r.id ≠ id) ∨ ∃ r' ∈ records, r'.id = id ∧ r = f r' := by
  induction records with
  | nil => simp [modifyFirst]
  | cons first rest ih =>
    have ⟨apart, distinct'⟩ := List.nodup_cons.mp distinct
    rw [modifyFirst]
    by_cases here : first.id = id
    · subst here
      have others : ∀ r ∈ rest, r.id ≠ first.id :=
        fun r member same => apart (same ▸ List.mem_map_of_mem member)
      rw [if_pos rfl]
      grind
    · rw [if_neg here]
      grind

theorem eraseFirst_sublist : (eraseFirst id records).Sublist records := by
  induction records with
  | nil => exact .slnil
  | cons r rest ih =>
    rw [eraseFirst]
    split
    · exact List.sublist_cons_self ..
    · exact ih.cons_cons r

theorem mem_eraseFirst {r : Record} (distinct : (records.map Record.id).Nodup) :
    r ∈ eraseFirst id records ↔ r ∈ records ∧ r.id ≠ id := by
  induction records with
  | nil => simp [eraseFirst]
  | cons first rest ih =>
    have ⟨apart, distinct'⟩ := List.nodup_cons.mp distinct
    rw [eraseFirst]
    by_cases here : first.id = id
    · subst here
      have others : ∀ r ∈ rest, r.id ≠ first.id :=
        fun r member same => apart (same ▸ List.mem_map_of_mem member)
      rw [if_pos rfl]
      grind
    · rw [if_neg here]
      grind

theorem find?_eraseFirst (different : other ≠ id) :
    (eraseFirst id records).find? (·.id = other) = records.find? (·.id = other) := by
  induction records with
  | nil => rfl
  | cons r rest ih =>
    rw [eraseFirst]
    by_cases here : r.id = id
    · have skipped : ¬id = other := fun same => different same.symm
      simp [here, skipped]
    · by_cases first : r.id = other
      · simp [first, different]
      · simpa [here, first] using ih

/-- Records that differ in something are told apart by it. -/
theorem eq_of_nodup_map {α : Type} {g : Record → α} (distinct : (records.map g).Nodup)
    {r r' : Record} (member : r ∈ records) (member' : r' ∈ records) (same : g r = g r') :
    r = r' := by
  induction records with
  | nil => cases member
  | cons first rest ih =>
    have ⟨apart, distinct'⟩ := List.nodup_cons.mp distinct
    rcases List.mem_cons.mp member with rfl | later
    · rcases List.mem_cons.mp member' with rfl | later'
      · rfl
      · exact absurd (same ▸ List.mem_map_of_mem later') apart
    · rcases List.mem_cons.mp member' with rfl | later'
      · exact absurd (same ▸ List.mem_map_of_mem later) apart
      · exact ih distinct' later later'

theorem find?_of_mem (distinct : c.ids.Nodup) {r : Record} (member : r ∈ c.records) :
    c.find? r.id = some r := by
  cases found : c.find? r.id with
  | none => simpa using List.find?_eq_none.mp found r member
  | some r' =>
    have same : r'.id = r.id := by simpa using List.find?_some found
    rw [eq_of_nodup_map distinct (List.mem_of_find?_eq_some found) member same]

/-! ## Records by name -/

theorem mem_of_findName? {name : String} {r : Record} (found : c.findName? name = some r) :
    r ∈ c.records ∧ r.name = name := by
  refine ⟨?_, by simpa using List.find?_some found⟩
  exact List.mem_mergeSort.mp (List.mem_of_find?_eq_some found)

theorem find?_of_findName? (distinct : c.ids.Nodup) {name : String} {r : Record}
    (found : c.findName? name = some r) : c.find? r.id = some r :=
  find?_of_mem distinct (mem_of_findName? found).1

theorem findName?_eq_none_iff {name : String} :
    c.findName? name = none ↔ ∀ r ∈ c.records, r.name ≠ name := by
  simp [findName?, newestFirst, List.find?_eq_none, List.mem_mergeSort]

/-! ## Numbers -/

theorem numbered_empty : Numbered { nextId := 1 } 0 :=
  ⟨rfl, .nil, nofun⟩

namespace Numbered

theorem normalize (numbered : c.Numbered used) : c.normalize = c := by
  have positive : ¬c.nextId ≤ 0 := by
    rw [Int64.le_iff_toInt_le, numbered.next]
    show ¬(used : Int) + 1 ≤ 0
    omega
  rw [Catalog.normalize, if_neg positive]

theorem nodup (numbered : c.Numbered used) : c.ids.Nodup :=
  numbered.ascending.imp fun below same => absurd below (by rw [same]; exact Int.lt_irrefl _)

/-- The next number is not that of any record. -/
theorem fresh (numbered : c.Numbered used) : c.nextId ∉ c.ids := by
  intro member
  have range := (numbered.range _ member).2
  rw [numbered.next] at range
  omega

/-- A new record takes the next number. -/
theorem insert (numbered : c.Numbered used) (room : used + 2 < 2 ^ 63) (name code : String)
    (now : Text.Moment) : (c.insert name code now).2.Numbered (used + 1) := by
  have ids : (c.insert name code now).2.ids = c.ids ++ [c.nextId] := by
    simp [Catalog.insert, Catalog.ids]
  refine ⟨?_, ?_, fun i member => ?_⟩
  · show (c.nextId + 1).toInt = _
    rw [Int64.toInt_add, numbered.next, Int64.toInt_one, Int.bmod_eq_of_le] <;> omega
  · rw [ids]
    refine List.pairwise_append.mpr ⟨numbered.ascending, List.pairwise_singleton .., ?_⟩
    intro i member j last
    obtain rfl := List.mem_singleton.mp last
    have range := (numbered.range i member).2
    rw [numbered.next]
    omega
  · rw [ids] at member
    rcases List.mem_append.mp member with member | member
    · have range := numbered.range i member
      omega
    · obtain rfl := List.mem_singleton.mp member
      rw [numbered.next]
      omega

/-- Other records, with the same numbers or fewer of them. -/
theorem replace (numbered : c.Numbered used)
    (fewer : (records.map Record.id).Sublist c.ids) : Numbered { c with records } used :=
  ⟨numbered.next, numbered.ascending.sublist fewer,
    fun i member => numbered.range i (fewer.subset member)⟩

end Numbered

theorem find?_insert (numbered : c.Numbered used) (name code : String) (now : Text.Moment) :
    (c.insert name code now).2.find? id
      = if id = c.nextId then some (c.insert name code now).1 else c.find? id := by
  show (c.records ++ [(c.insert name code now).1]).find? _ = _
  rw [List.find?_append]
  by_cases last : id = c.nextId
  · have none : c.records.find? (·.id = id) = none := find?_eq_none (last ▸ numbered.fresh)
    rw [none, if_pos last]
    simp [Catalog.insert, last]
  · have skipped : ¬c.nextId = id := fun same => last same.symm
    rw [if_neg last]
    simp [Catalog.insert, skipped, Catalog.find?]

theorem find?_eraseFirst_self (numbered : c.Numbered used) :
    (eraseFirst id c.records).find? (·.id = id) = none := by
  rw [List.find?_eq_none]
  intro r member
  simpa using ((mem_eraseFirst numbered.nodup).mp member).2

end Catalog

/-! ## Requests -/

/-- The record with the parts of a patch that are set, the name trimmed, dated `now`. -/
def Record.patched (r : Record) (p : Patch) (now : Text.Moment) : Record where
  id := r.id
  name := (p.name.map Text.trim).getD r.name
  code := p.code.getD r.code
  created := r.created
  updated := now.seconds
  createdNanos := r.createdNanos
  updatedNanos := now.nanos

/-- The parts of the patch that are set may be set, the name trimmed. -/
def Patch.Valid (p : Patch) : Prop :=
  Shelf.checkPatch { p with name := p.name.map Text.trim } = .ok ()

/-- A failed attempt to write leaves what is there. -/
def ShelfFile.Steady (f : ShelfFile) : Prop :=
  f.spoilt = f

namespace Shelf

/-- What can be asked of a catalogue file. -/
inductive Request where
  | create (name code : String)
  | get (id : Int64)
  | find (name : String)
  | list
  | update (id : Int64) (patch : Patch)
  | delete (id : Int64)

/-- What is answered: a record, all records, or that it is done. -/
inductive Reply where
  | record (result : Except CatalogError Record)
  | records (result : Except CatalogError (List Record))
  | done (result : Except CatalogError Unit)

/-- Whether a request is to change the file. -/
def Request.writes : Request → Bool
  | create _ _ => true
  | update _ _ => true
  | delete _ => true
  | get _ => false
  | find _ => false
  | list => false

def Reply.isOk : Reply → Bool
  | record result => result.isOk
  | records result => result.isOk
  | done result => result.isOk

/-- Serves a request. -/
def serve (s : Shelf) : Request → Reply × Shelf
  | .create name code => (.record (s.create name code).1, (s.create name code).2)
  | .get id => (.record (s.get id), s)
  | .find name => (.record (s.find name), s)
  | .list => (.records s.list, s)
  | .update id p => (.record (s.update id p).1, (s.update id p).2)
  | .delete id => (.done (s.delete id).1, (s.delete id).2)

/-- What a request that finds the catalogue `c` answers, and the catalogue that it leaves, `now`
being the time if the request dates a record. -/
inductive Effect (c : Catalog) (now : Text.Moment) : Request → Reply → Catalog → Prop
  | created {name code : String} (named : checkName (Text.trim name) = .ok ())
      (coded : checkCode code = .ok ()) :
      Effect c now (.create name code) (.record (.ok (c.insert (Text.trim name) code now).1))
        (c.insert (Text.trim name) code now).2
  | updated {id : Int64} {p : Patch} {r : Record} (found : c.find? id = some r) :
      Effect c now (.update id p) (.record (.ok (r.patched p now)))
        { c with records := Catalog.modifyFirst id (·.patched p now) c.records }
  | deleted {id : Int64} {r : Record} (found : c.find? id = some r) :
      Effect c now (.delete id) (.done (.ok ()))
        { c with records := Catalog.eraseFirst id c.records }
  | left {request : Request} {reply : Reply} (idle : request.writes = false ∨ reply.isOk = false) :
      Effect c now request reply c

/-- The file of a shelf after a request that left the catalogue `c'` for `c`: what the medium makes
of `c'`, or the file as it was, if a failed attempt to write leaves it. -/
def Leaves (s s' : Shelf) (c c' : Catalog) : Prop :=
  s'.medium = s.medium ∧ (s'.file = s.medium c' ∧ s'.attempt = some c' ∨
    c' = c ∧ (s.file.Steady → s'.file = s.file))

variable {s : Shelf} {c : Catalog}

/-- The file holds a catalogue, or there is none, and a failed attempt to write leaves that. -/
structure Holds (s : Shelf) (c : Catalog) : Prop where
  steady : s.file.Steady
  loaded : s.load = .ok c

theorem load_of_file_eq {s s' : Shelf} (same : s'.file = s.file) : s'.load = s.load := by
  rw [load, load, same]

theorem Holds.of_file_eq {s' : Shelf} (holds : s.Holds c) (same : s'.file = s.file) :
    s'.Holds c := by
  refine ⟨?_, (load_of_file_eq same).trans holds.loaded⟩
  rw [same]
  exact holds.steady

/-- The catalogue that was left is loaded next, if the medium keeps what is written. -/
theorem Leaves.holds {s' : Shelf} {c' : Catalog} (leaves : s.Leaves s' c c')
    (keeps : s'.attempt = some c' → s.medium c' = .catalog c') (normal : c'.normalize = c')
    (holds : s.Holds c) : s'.Holds c' := by
  rcases leaves.2 with ⟨file, attempt⟩ | ⟨rfl, file⟩
  · rw [keeps attempt] at file
    refine ⟨by rw [file]; rfl, ?_⟩
    rw [Shelf.load, file]
    show Except.ok c'.normalize = _
    rw [normal]
  · exact holds.of_file_eq (file holds.steady)

theorem leaves_refl (s : Shelf) (c : Catalog) : s.Leaves s c c :=
  ⟨rfl, .inr ⟨rfl, fun _ => rfl⟩⟩

/-- The shelf after its clock was read. -/
def later (s : Shelf) : Shelf :=
  { s with clock := s.clock.read.2 }

/-- The shelf after a catalogue was written. -/
def written (s : Shelf) (c : Catalog) : Shelf :=
  { s with file := s.medium c, attempt := some c }

theorem commit_free {α : Type} (free : s.blocked = none) (c : Catalog) (answer : α) :
    s.commit c answer = (.ok answer, s.written c) := by
  rw [commit, save, written, free]

/-- The shelf after a catalogue could not be written. -/
def spoilt (s : Shelf) (c : Catalog) : Shelf :=
  { s with file := s.file.spoilt, attempt := some c }

theorem commit_blocked {α : Type} {e : CatalogError} (blocked : s.blocked = some e) (c : Catalog)
    (answer : α) : s.commit c answer = (.error e, s.spoilt c) := by
  rw [commit, save, spoilt, blocked]

/-- A catalogue that is written is what the file is left with. -/
theorem leaves_written (s : Shelf) (c c' : Catalog) : s.Leaves (s.written c') c c' :=
  ⟨rfl, .inl ⟨rfl, rfl⟩⟩

theorem leaves_spoilt (s : Shelf) (c c' : Catalog) : s.Leaves (s.spoilt c') c c :=
  ⟨rfl, .inr ⟨rfl, fun steady => steady⟩⟩

theorem create_eq_commit (loaded : s.load = .ok c) {name code : String}
    (named : checkName (Text.trim name) = .ok ()) (coded : checkCode code = .ok ()) :
    s.create name code
      = s.later.commit
          (c.insert (Text.trim name) code s.clock.read.1).2
          (c.insert (Text.trim name) code s.clock.read.1).1 := by
  rw [create, named, coded, loaded]
  rfl

/-- A record that can be created is. -/
theorem create_of_allowed (loaded : s.load = .ok c) {name code : String}
    (named : checkName (Text.trim name) = .ok ()) (coded : checkCode code = .ok ())
    (free : s.blocked = none) :
    s.create name code
      = (.ok (c.insert (Text.trim name) code s.clock.read.1).1,
        s.later.written (c.insert (Text.trim name) code s.clock.read.1).2) := by
  rw [create_eq_commit loaded named coded, commit_free (s := s.later) free]

/-- A record that cannot be created leaves the catalogue. -/
theorem create_of_refused (loaded : s.load = .ok c) {name code : String}
    (refused : ¬(checkName (Text.trim name) = .ok () ∧ checkCode code = .ok () ∧
      s.blocked = none)) :
    ∃ e s', s.create name code = (.error e, s') ∧ s.Leaves s' c c := by
  cases named : checkName (Text.trim name) with
  | error e =>
    rw [create, named]
    exact ⟨e, s, rfl, leaves_refl s c⟩
  | ok =>
    cases coded : checkCode code with
    | error e =>
      rw [create, named, coded]
      exact ⟨e, s, rfl, leaves_refl s c⟩
    | ok =>
      cases free : s.blocked with
      | none => exact absurd ⟨named, coded, free⟩ refused
      | some e =>
        rw [create_eq_commit loaded named coded, commit_blocked (s := s.later) free]
        exact ⟨e, _, rfl, leaves_spoilt s.later c _⟩

theorem update_of_found (loaded : s.load = .ok c) {id : Int64} {p : Patch} (valid : p.Valid)
    {r : Record} (found : c.find? id = some r) :
    s.update id p
      = s.later.commit
          { c with records := Catalog.modifyFirst id (·.patched p s.clock.read.1) c.records }
          (r.patched p s.clock.read.1) := by
  unfold Patch.Valid at valid
  rw [update]
  simp only [valid, loaded, bind, Except.bind, found]
  rfl

/-- A change that can be made is. -/
theorem update_of_allowed (loaded : s.load = .ok c) {id : Int64} {p : Patch} (valid : p.Valid)
    {r : Record} (found : c.find? id = some r) (free : s.blocked = none) :
    s.update id p
      = (.ok (r.patched p s.clock.read.1), s.later.written
          { c with records := Catalog.modifyFirst id (·.patched p s.clock.read.1) c.records }) := by
  rw [update_of_found loaded valid found, commit_free (s := s.later) free]

theorem update_of_missing (loaded : s.load = .ok c) {id : Int64} {p : Patch} (valid : p.Valid)
    (missing : c.find? id = none) :
    s.update id p = (.error (.notFound (toString id.toInt)), s) := by
  unfold Patch.Valid at valid
  rw [update]
  simp only [valid, loaded, bind, Except.bind, missing]

/-- A change that cannot be made leaves the catalogue. -/
theorem update_of_refused (loaded : s.load = .ok c) {id : Int64} {p : Patch}
    (refused : ¬(p.Valid ∧ s.blocked = none ∧ (c.find? id).isSome)) :
    ∃ e s', s.update id p = (.error e, s') ∧ s.Leaves s' c c := by
  cases valid : checkPatch { p with name := p.name.map Text.trim } with
  | error e =>
    rw [update, valid]
    exact ⟨e, s, rfl, leaves_refl s c⟩
  | ok =>
    cases found : c.find? id with
    | none => exact ⟨_, s, update_of_missing loaded valid found, leaves_refl s c⟩
    | some r =>
      cases free : s.blocked with
      | none => exact absurd ⟨valid, free, found ▸ rfl⟩ refused
      | some e =>
        rw [update_of_found loaded valid found, commit_blocked (s := s.later) free]
        exact ⟨e, _, rfl, leaves_spoilt s.later c _⟩

theorem delete_of_found (loaded : s.load = .ok c) {id : Int64} {r : Record}
    (found : c.find? id = some r) :
    s.delete id = s.commit { c with records := Catalog.eraseFirst id c.records } () := by
  simp only [delete, loaded, found]

/-- A deletion that can be made is. -/
theorem delete_of_allowed (loaded : s.load = .ok c) {id : Int64} {r : Record}
    (found : c.find? id = some r) (free : s.blocked = none) :
    s.delete id
      = (.ok (), s.written { c with records := Catalog.eraseFirst id c.records }) := by
  rw [delete_of_found loaded found, commit_free free]

theorem delete_of_missing (loaded : s.load = .ok c) {id : Int64} (missing : c.find? id = none) :
    s.delete id = (.error (.notFound (toString id.toInt)), s) := by
  simp only [delete, loaded, missing]

/-- A number is looked up in the catalogue of the file. -/
theorem get_eq (loaded : s.load = .ok c) (id : Int64) :
    s.get id = match c.find? id with
      | some r => .ok r
      | none => .error (.notFound (toString id.toInt)) := by
  rw [get, loaded]
  show (match c.find? id with | some r => pure r | none => throw _) = _
  cases c.find? id <;> rfl

/-- A name is looked up in the catalogue of the file, trimmed. -/
theorem find_eq (loaded : s.load = .ok c) (name : String) :
    s.find name = match c.findName? (Text.trim name) with
      | some r => .ok r
      | none => .error (.notFound (Text.trim name)) := by
  rw [find, loaded]
  show (match c.findName? (Text.trim name) with | some r => pure r | none => throw _) = _
  cases c.findName? (Text.trim name) <;> rfl

theorem effect_create (loaded : s.load = .ok c) (name code : String) :
    ∃ c', Effect c s.clock.read.1 (.create name code) (.record (s.create name code).1) c' ∧
      s.Leaves (s.create name code).2 c c' := by
  by_cases allowed :
      checkName (Text.trim name) = .ok () ∧ checkCode code = .ok () ∧ s.blocked = none
  · obtain ⟨named, coded, free⟩ := allowed
    rw [create_of_allowed loaded named coded free]
    exact ⟨_, .created named coded, leaves_written s.later ..⟩
  · obtain ⟨e, s', fails, leaves⟩ := create_of_refused loaded allowed
    rw [fails]
    exact ⟨c, .left (.inr rfl), leaves⟩

theorem effect_update (loaded : s.load = .ok c) (id : Int64) (p : Patch) :
    ∃ c', Effect c s.clock.read.1 (.update id p) (.record (s.update id p).1) c' ∧
      s.Leaves (s.update id p).2 c c' := by
  by_cases allowed : p.Valid ∧ s.blocked = none ∧ (c.find? id).isSome
  · obtain ⟨valid, free, isSome⟩ := allowed
    obtain ⟨r, found⟩ := Option.isSome_iff_exists.mp isSome
    rw [update_of_allowed loaded valid found free]
    exact ⟨_, .updated found, leaves_written s.later ..⟩
  · obtain ⟨e, s', fails, leaves⟩ := update_of_refused loaded allowed
    rw [fails]
    exact ⟨c, .left (.inr rfl), leaves⟩

theorem effect_delete (loaded : s.load = .ok c) (id : Int64) :
    ∃ c', Effect c s.clock.read.1 (.delete id) (.done (s.delete id).1) c' ∧
      s.Leaves (s.delete id).2 c c' := by
  cases found : c.find? id with
  | none =>
    rw [delete_of_missing loaded found]
    exact ⟨c, .left (.inr rfl), leaves_refl s c⟩
  | some r =>
    cases free : s.blocked with
    | none =>
      rw [delete_of_allowed loaded found free]
      exact ⟨_, .deleted found, leaves_written ..⟩
    | some e =>
      rw [delete_of_found loaded found, commit_blocked free]
      exact ⟨c, .left (.inr rfl), leaves_spoilt s c _⟩

theorem serve_of_reading {request : Request} (reads : request.writes = false) :
    (s.serve request).2 = s := by
  cases request with
  | create | update | delete => cases reads
  | get | find | list => rfl

/-- Every request has one of the effects. -/
theorem serve_effect (loaded : s.load = .ok c) (request : Request) :
    ∃ c', Effect c s.clock.read.1 request (s.serve request).1 c' ∧
      s.Leaves (s.serve request).2 c c' := by
  by_cases reads : request.writes = false
  · rw [serve_of_reading reads]
    exact ⟨c, .left (.inl reads), leaves_refl s c⟩
  · cases request with
    | create name code =>
      simp only [serve]
      exact effect_create loaded name code
    | update id p =>
      simp only [serve]
      exact effect_update loaded id p
    | delete id =>
      simp only [serve]
      exact effect_delete loaded id
    | get | find | list => exact absurd rfl reads

/-! ## Writing -/

/-- What becomes of a shelf, by whether it was served: nothing; or a catalogue was to be written, and
could not be; or it was written. -/
inductive Yields (s : Shelf) : (served : Bool) → Shelf → Prop
  | left (served : Bool) : Yields s served s
  | failed {s' : Shelf} (c : Catalog) (blocked : s.blocked ≠ none) (file : s'.file = s.file.spoilt)
      (attempt : s'.attempt = some c) : Yields s false s'
  | wrote {s' : Shelf} (c : Catalog) (free : s.blocked = none) (file : s'.file = s.medium c)
      (attempt : s'.attempt = some c) : Yields s true s'

theorem yields_commit {α : Type} (s : Shelf) (clock : Clock) (c : Catalog) (answer : α) :
    s.Yields ({ s with clock }.commit c answer).1.isOk ({ s with clock }.commit c answer).2 := by
  rcases Option.eq_none_or_eq_some s.blocked with free | ⟨e, blocked⟩
  · rw [commit_free (s := { s with clock }) free]
    exact .wrote c free rfl rfl
  · rw [commit_blocked (s := { s with clock }) blocked]
    exact .failed c (by rw [blocked]; nofun) rfl rfl

theorem yields_create (s : Shelf) (name code : String) :
    s.Yields (s.create name code).1.isOk (s.create name code).2 := by
  simp only [create]
  split
  · exact .left _
  · exact s.yields_commit _ _ _

theorem yields_update (s : Shelf) (id : Int64) (p : Patch) :
    s.Yields (s.update id p).1.isOk (s.update id p).2 := by
  simp only [update]
  split
  · exact .left _
  · split
    · exact .left _
    · exact s.yields_commit _ _ _

theorem yields_delete (s : Shelf) (id : Int64) :
    s.Yields (s.delete id).1.isOk (s.delete id).2 := by
  simp only [delete]
  split
  · exact .left _
  · split
    · exact .left _
    · exact s.yields_commit s.clock _ _

/-- What a request makes of a shelf. -/
theorem yields_serve (s : Shelf) (request : Request) :
    s.Yields (s.serve request).1.isOk (s.serve request).2 := by
  cases request with
  | create name code =>
    simp only [serve, Reply.isOk]
    exact s.yields_create name code
  | update id p =>
    simp only [serve, Reply.isOk]
    exact s.yields_update id p
  | delete id =>
    simp only [serve, Reply.isOk]
    exact s.yields_delete id
  | get | find | list =>
    simp only [serve]
    exact .left _

/-- What was not served leaves the file, if a failed attempt to write does. -/
theorem Yields.file_eq {s' : Shelf} (yields : s.Yields false s') (steady : s.file.Steady) :
    s'.file = s.file := by
  cases yields with
  | left => rfl
  | failed c blocked file => exact file.trans steady

theorem file_serve_of_idle {request : Request}
    (idle : request.writes = false ∨ (s.serve request).1.isOk = false) (steady : s.file.Steady) :
    (s.serve request).2.file = s.file := by
  rcases idle with reads | failed
  · rw [serve_of_reading reads]
  · have yields := s.yields_serve request
    rw [failed] at yields
    exact yields.file_eq steady

end Shelf

end Pseudocode
