import Pseudocode.Proofs.Catalog.Requests

/-!
# The life of a record

A record begins with the request that creates it, changes with those that update it, and ends with
the one that deletes it. What was asked, what was answered and the times of the clock tell how it
stands at any point (`life`), and the file says the same, whatever requests came between and
whichever of them failed (`Shelf.record_lifetime`).

The file of saved algorithms is rewritten as a whole at every change. That one record is not touched
by what is done to the others rests on its number alone: numbers ascend in the order of the file, no
two records have the same one, and a number that was given out is not given out again, so a record
that was deleted is never found again (`Shelf.Kept`).
-/

namespace Pseudocode

/-- A request, and why the file cannot be written at that time, if it cannot. -/
structure Visit where
  request : Shelf.Request
  blocked : Option CatalogError := none

/-- What was asked and answered, and the time that a record was dated with if one was. -/
structure Entry where
  request : Shelf.Request
  reply : Shelf.Reply
  now : Text.Moment

namespace Entry

/-- The number under which a record was created. -/
def created? (e : Entry) : Option Int64 :=
  match e.request, e.reply with
  | .create _ _, .record (.ok r) => some r.id
  | _, _ => none

/-- The number whose record was deleted. -/
def deleted? (e : Entry) : Option Int64 :=
  match e.request, e.reply with
  | .delete id, .done (.ok ()) => some id
  | _, _ => none

/-- The number that an entry is about: that of a record which was created, or which was to be
changed or deleted. -/
def subject? (e : Entry) : Option Int64 :=
  match e.request with
  | .update id _ => some id
  | .delete id => some id
  | _ => e.created?

/-- What becomes of the record `id` that was `before`. -/
def tell (id : Int64) (before : Option Record) (e : Entry) : Option Record :=
  match e.request, e.reply with
  | .create name code, .record (.ok r) =>
    if r.id = id then
      some
        { id, name := Text.trim name, code, created := e.now.seconds, updated := e.now.seconds
          createdNanos := e.now.nanos, updatedNanos := e.now.nanos }
    else before
  | .update id' p, .record (.ok _) =>
    if id' = id then before.map (·.patched p e.now) else before
  | .delete id', .done (.ok ()) => if id' = id then none else before
  | _, _ => before

end Entry

/-- The record `id` as the entries tell it. -/
def life (id : Int64) (log : List Entry) : Option Record :=
  log.foldl (Entry.tell id) none

/-- The number of records that were created. -/
def creations (log : List Entry) : Nat :=
  log.countP (·.created?.isSome)

/-! ## Entries -/

variable {log : List Entry} {e : Entry} {id : Int64}

theorem life_concat (id : Int64) (log : List Entry) (e : Entry) :
    life id (log ++ [e]) = e.tell id (life id log) := by
  rw [life, List.foldl_append]
  rfl

theorem creations_concat (log : List Entry) (e : Entry) :
    creations (log ++ [e]) = creations log + if e.created?.isSome then 1 else 0 := by
  rw [creations, List.countP_append, List.countP_singleton]
  rfl

theorem creations_append (log log' : List Entry) :
    creations (log ++ log') = creations log + creations log' :=
  List.countP_append

namespace Entry

/-- An entry that changed nothing tells nothing. -/
theorem tell_of_idle (idle : e.request.writes = false ∨ e.reply.isOk = false) :
    e.created? = none ∧ e.deleted? = none ∧ ∀ id before, e.tell id before = before := by
  obtain ⟨request, reply, now⟩ := e
  cases request with
  | get | find | list => exact ⟨rfl, rfl, fun _ _ => rfl⟩
  | create | update | delete =>
    have failed : reply.isOk = false := idle.resolve_left nofun
    rcases reply with (_ | _) | (_ | _) | (_ | _)
    case record.ok | records.ok | done.ok => cases failed
    all_goals exact ⟨rfl, rfl, fun _ _ => rfl⟩

/-- An entry that is about another record says nothing of this one. -/
theorem tell_of_other (other : e.subject? ≠ some id) (before : Option Record) :
    e.tell id before = before := by
  obtain ⟨request, reply, now⟩ := e
  cases request with
  | get | find | list => rfl
  | create name code =>
    rcases reply with (_ | r) | (_ | _) | (_ | _)
    case record.ok =>
      have different : r.id ≠ id := fun same => other (congrArg some same)
      exact if_neg different
    all_goals rfl
  | update id' p =>
    have different : id' ≠ id := fun same => other (congrArg some same)
    rcases reply with (_ | _) | (_ | _) | (_ | _)
    case record.ok => exact if_neg different
    all_goals rfl
  | delete id' =>
    have different : id' ≠ id := fun same => other (congrArg some same)
    rcases reply with (_ | _) | (_ | _) | (_ | _)
    case done.ok => exact if_neg different
    all_goals rfl

/-- Only its creation brings a record to life. -/
theorem tell_eq_none (other : e.created? ≠ some id) : e.tell id none = none := by
  obtain ⟨request, reply, now⟩ := e
  cases request with
  | get | find | list => rfl
  | create name code =>
    rcases reply with (_ | r) | (_ | _) | (_ | _)
    case record.ok =>
      have different : r.id ≠ id := fun same => other (congrArg some same)
      exact if_neg different
    all_goals rfl
  | update =>
    rcases reply with (_ | _) | (_ | _) | (_ | _)
    case record.ok => exact ite_self _
    all_goals rfl
  | delete =>
    rcases reply with (_ | _) | (_ | _) | (_ | _)
    case done.ok => exact ite_self _
    all_goals rfl

/-- A deletion ends the life of a record. -/
theorem tell_of_deleted (deleted : e.deleted? = some id) (before : Option Record) :
    e.tell id before = none := by
  obtain ⟨request, reply, now⟩ := e
  cases request with
  | create | get | find | list | update => cases deleted
  | delete id' =>
    rcases reply with (_ | _) | (_ | _) | (_ | _)
    case done.ok => exact if_pos (Option.some.inj deleted)
    all_goals cases deleted

end Entry

/-- A record that was never created is not there. -/
theorem life_eq_none (never : ∀ e ∈ log, e.created? ≠ some id) : life id log = none := by
  rw [life]
  induction log with
  | nil => rfl
  | cons e log ih =>
    rw [List.foldl_cons, Entry.tell_eq_none (never e (List.mem_cons_self ..))]
    exact ih fun e member => never e (List.mem_cons_of_mem _ member)

/-! ## Catalogues -/

namespace Catalog

/-- The catalogue holds what the entries tell: as many numbers were given out as records were
created, all different, each record is as it is told, and none that was deleted is there. -/
structure Follows (c : Catalog) (log : List Entry) : Prop where
  numbered : c.Numbered (creations log)
  given : ∀ e ∈ log, ∀ id, e.created? = some id → id.toInt ≤ creations log
  distinct : (log.filterMap Entry.created?).Nodup
  told : ∀ id, c.find? id = life id log
  buried : ∀ e ∈ log, ∀ id, e.deleted? = some id →
    id.toInt ≤ creations log ∧ c.find? id = none

theorem follows_empty : Follows { nextId := 1 } [] :=
  ⟨numbered_empty, by simp, .nil, fun _ => rfl, by simp⟩

variable {c c' : Catalog} {now : Text.Moment}

namespace Follows

/-- An entry that gave out no number leaves the numbers as they are. -/
theorem of_created?_eq_none (follows : c.Follows log) (none : e.created? = none)
    {records : List Record} (fewer : (records.map Record.id).Sublist c.ids)
    (deleted : ∀ id, e.deleted? = some id → id ∈ c.ids)
    (told : ∀ id, ({ c with records } : Catalog).find? id = e.tell id (c.find? id)) :
    ({ c with records } : Catalog).Follows (log ++ [e]) := by
  have same : creations (log ++ [e]) = creations log := by
    rw [creations_concat, none]
    rfl
  refine ⟨?_, ?_, ?_, fun id => ?_, ?_⟩
  · rw [same]
    exact follows.numbered.replace fewer
  · intro e' member id created
    rw [same]
    rcases List.mem_append.mp member with member | member
    · exact follows.given e' member id created
    · obtain rfl := List.mem_singleton.mp member
      rw [none] at created
      cases created
  · rw [List.filterMap_append, List.filterMap_cons_none none]
    simpa using follows.distinct
  · rw [life_concat, ← follows.told]
    exact told id
  · intro e' member id gone
    rw [same]
    rcases List.mem_append.mp member with member | member
    · obtain ⟨below, missing⟩ := follows.buried e' member id gone
      refine ⟨below, ?_⟩
      rw [told, missing, Entry.tell_eq_none (by simp [none])]
    · obtain rfl := List.mem_singleton.mp member
      refine ⟨(follows.numbered.range id (deleted id gone)).2, ?_⟩
      rw [told, Entry.tell_of_deleted gone]

theorem insert (follows : c.Follows log) (room : creations log + 2 < 2 ^ 63)
    (name code : String) :
    (c.insert (Text.trim name) code now).2.Follows (log ++
      [⟨.create name code, .record (.ok (c.insert (Text.trim name) code now).1), now⟩]) := by
  have more : creations (log ++
      [⟨.create name code, .record (.ok (c.insert (Text.trim name) code now).1), now⟩])
        = creations log + 1 :=
    creations_concat ..
  have next := follows.numbered.next
  refine ⟨?_, ?_, ?_, fun id => ?_, ?_⟩
  · rw [more]
    exact follows.numbered.insert room ..
  · intro e' member id created
    rw [more]
    rcases List.mem_append.mp member with member | member
    · have before := follows.given e' member id created
      omega
    · obtain rfl := List.mem_singleton.mp member
      obtain rfl : c.nextId = id := Option.some.inj created
      omega
  · rw [List.filterMap_append]
    refine List.nodup_append.mpr ⟨follows.distinct, List.pairwise_singleton .., ?_⟩
    -- the numbers given out before are below the new one
    intro i before j new same
    obtain ⟨e', member, created⟩ := List.mem_filterMap.mp before
    obtain rfl : j = c.nextId := List.mem_singleton.mp new
    have below := follows.given e' member i created
    rw [same] at below
    omega
  · rw [life_concat, ← follows.told, find?_insert follows.numbered]
    by_cases last : id = c.nextId
    · subst last
      rw [if_pos rfl]
      exact (if_pos rfl).symm
    · have other : c.nextId ≠ id := fun same => last same.symm
      rw [if_neg last]
      exact (if_neg other).symm
  · intro e' member id gone
    rw [more]
    rcases List.mem_append.mp member with member | member
    · obtain ⟨below, none⟩ := follows.buried e' member id gone
      have old : id ≠ c.nextId := by
        rintro rfl
        omega
      rw [find?_insert follows.numbered, if_neg old]
      exact ⟨by omega, none⟩
    · obtain rfl := List.mem_singleton.mp member
      cases gone

/-- What one request does to a catalogue is what its entry tells of it. -/
theorem effect {request : Shelf.Request} {reply : Shelf.Reply} (follows : c.Follows log)
    (effect : Shelf.Effect c now request reply c')
    (room : creations (log ++ [⟨request, reply, now⟩]) + 1 < 2 ^ 63) :
    c'.Follows (log ++ [⟨request, reply, now⟩]) := by
  cases effect with
  | @created name code named coded =>
    rw [creations_concat] at room
    exact follows.insert room name code
  | @updated id p r found =>
    have keeps : ∀ r : Record, (r.patched p now).id = r.id := fun _ => rfl
    refine follows.of_created?_eq_none rfl ?_ nofun fun other => ?_
    · rw [map_modifyFirst keeps]
      exact List.Sublist.refl _
    · refine (find?_modifyFirst keeps).trans ?_
      by_cases same : other = id
      · subst same
        exact (if_pos rfl).trans (if_pos rfl).symm
      · have different : id ≠ other := fun h => same h.symm
        exact (if_neg same).trans (if_neg different).symm
  | @deleted id r found =>
    refine follows.of_created?_eq_none rfl (eraseFirst_sublist.map _) ?_ fun other => ?_
    · intro other gone
      obtain rfl := Option.some.inj gone
      exact mem_ids_of_find? found
    · by_cases same : other = id
      · subst same
        exact (find?_eraseFirst_self follows.numbered).trans (if_pos rfl).symm
      · have different : id ≠ other := fun h => same h.symm
        exact (find?_eraseFirst same).trans (if_neg different).symm
  | left idle =>
    obtain ⟨created, deleted, told⟩ := Entry.tell_of_idle (e := ⟨request, reply, now⟩) idle
    refine follows.of_created?_eq_none created (List.Sublist.refl _) ?_
      fun id => (told id _).symm
    rw [deleted]
    nofun

/-- A number that was not given out yet, or whose record was deleted, is not found. -/
theorem find?_eq_none (follows : c.Follows log)
    (gone : (∀ e ∈ log, e.created? ≠ some id) ∨ ∃ e ∈ log, e.deleted? = some id) :
    c.find? id = none := by
  rcases gone with never | ⟨e, member, deleted⟩
  · rw [follows.told, life_eq_none never]
  · exact (follows.buried e member id deleted).2

end Follows

/-- Records that two catalogues share stand in the same order in both. -/
theorem Numbered.filter_ids_eq {used used' : Nat} (numbered : c.Numbered used)
    (numbered' : c'.Numbered used') :
    c'.ids.filter (c.ids.contains ·) = c.ids.filter (c'.ids.contains ·) := by
  have perm : (c'.ids.filter (c.ids.contains ·)).Perm (c.ids.filter (c'.ids.contains ·)) := by
    refine (List.perm_ext_iff_of_nodup (numbered'.nodup.filter _) (numbered.nodup.filter _)).mpr ?_
    intro i
    simp [List.mem_filter, and_comm]
  refine perm.eq_of_pairwise (fun i j _ _ below above => ?_)
    (numbered'.ascending.filter _) (numbered.ascending.filter _)
  exact absurd below (Int.lt_asymm above)

end Catalog

/-! ## Visits -/

namespace Shelf

/-- Before the first visit there is no file. What is written to it will not be lost. -/
def empty (clock : Clock) : Shelf :=
  { file := .absent, clock }

/-- Serves the request of a visit, and enters what was asked and answered. -/
def visit (s : Shelf) (v : Visit) : Entry × Shelf :=
  let s := { s with blocked := v.blocked }
  (⟨v.request, (s.serve v.request).1, s.clock.read.1⟩, (s.serve v.request).2)

/-- Serves some visits in order. -/
def visitAll (s : Shelf) : List Visit → List Entry × Shelf
  | [] => ([], s)
  | v :: visits =>
    let (e, s') := s.visit v
    let (log, s'') := s'.visitAll visits
    (e :: log, s'')

/-- The numbers of the records in the file, in its order. -/
def ids (s : Shelf) : List Int64 :=
  match s.load with
  | .ok c => c.ids
  | .error _ => []

/-- The answer to the question for a record: the record, or that there is none with the number. -/
def found (id : Int64) : Option Record → Except CatalogError Record
  | some r => .ok r
  | none => .error (.notFound (toString id.toInt))

/-- The file keeps what is written, and holds what the entries tell. -/
structure Kept (s : Shelf) (log : List Entry) (c : Catalog) : Prop extends s.Holds c where
  keeps : s.medium = .catalog
  follows : c.Follows log

variable {clock : Clock} {visits : List Visit} {s : Shelf} {c : Catalog}

theorem kept_empty (clock : Clock) : (empty clock).Kept [] { nextId := 1 } :=
  ⟨⟨rfl, rfl⟩, rfl, Catalog.follows_empty⟩

theorem visitAll_append (s : Shelf) (visits visits' : List Visit) :
    s.visitAll (visits ++ visits') =
      ((s.visitAll visits).1 ++ ((s.visitAll visits).2.visitAll visits').1,
        ((s.visitAll visits).2.visitAll visits').2) := by
  induction visits generalizing s with
  | nil => rfl
  | cons v visits ih =>
    simp only [List.cons_append, visitAll, ih]

namespace Kept

theorem visit (kept : s.Kept log c) (v : Visit)
    (room : creations (log ++ [(s.visit v).1]) + 1 < 2 ^ 63) :
    ∃ c', (s.visit v).2.Kept (log ++ [(s.visit v).1]) c' := by
  obtain ⟨c', effect, leaves⟩ :=
    serve_effect (s := { s with blocked := v.blocked }) kept.loaded v.request
  have follows : c'.Follows (log ++ [(s.visit v).1]) := kept.follows.effect effect room
  refine ⟨c', ?_, leaves.1.trans kept.keeps, follows⟩
  exact leaves.holds (fun _ => congrFun kept.keeps c') follows.numbered.normalize
    ⟨kept.steady, kept.loaded⟩

theorem visitAll (kept : s.Kept log c) (visits : List Visit)
    (room : creations (log ++ (s.visitAll visits).1) + 1 < 2 ^ 63) :
    ∃ c', (s.visitAll visits).2.Kept (log ++ (s.visitAll visits).1) c' := by
  induction visits generalizing s log c with
  | nil =>
    rw [Shelf.visitAll, List.append_nil]
    exact ⟨c, kept⟩
  | cons v visits ih =>
    have split : log ++ (s.visitAll (v :: visits)).1
        = log ++ [(s.visit v).1] ++ ((s.visit v).2.visitAll visits).1 := by
      simp [Shelf.visitAll]
    rw [split] at room ⊢
    obtain ⟨c', kept'⟩ := kept.visit v (by rw [creations_append] at room; omega)
    exact ih kept' room

theorem get (kept : s.Kept log c) (id : Int64) : s.get id = found id (life id log) := by
  rw [get_eq kept.loaded, kept.follows.told]
  cases life id log <;> rfl

theorem ids (kept : s.Kept log c) : s.ids = c.ids := by
  rw [Shelf.ids, kept.loaded]

end Kept

/-- The file follows the entries from the first visit on, as long as numbers do not run out. -/
theorem kept_of_visitAll (held : (empty clock).visitAll visits = (log, s))
    (few : creations log < 2 ^ 63 - 1) : ∃ c, s.Kept log c := by
  have run := (kept_empty clock).visitAll visits
  simp only [held, List.nil_append] at run
  exact run (by omega)

/-- So it does after the first of these visits. -/
theorem kept_of_append {earlier later : List Visit}
    (held : (empty clock).visitAll (earlier ++ later) = (log, s))
    (few : creations log < 2 ^ 63 - 1) :
    ∃ c, ((empty clock).visitAll earlier).2.Kept ((empty clock).visitAll earlier).1 c := by
  refine kept_of_visitAll rfl ?_
  rw [visitAll_append, Prod.mk.injEq] at held
  rw [← held.1, creations_append] at few
  omega

/-- Whatever is asked of a catalogue file that was not there at first, in whatever order, and
whichever times it could not be written: no number is given out twice, and the record of a number is
the one created under it, with all later changes. It can be changed and deleted while it is there,
and is not found before its creation, nor ever again after it was deleted. What is asked about other
records leaves it alone, and records that are there at two times stand in the same order then. -/
theorem record_lifetime (held : (empty clock).visitAll visits = (log, s))
    (few : creations log < 2 ^ 63 - 1) :
    (log.filterMap Entry.created?).Nodup ∧
    (∀ id, s.get id = found id (life id log)) ∧
    (∀ id r, life id log = some r → s.blocked = none →
      (∀ p : Patch, p.Valid → (s.update id p).1 = .ok (r.patched p s.clock.read.1)) ∧
      (s.delete id).1 = .ok ()) ∧
    (∀ id, ((∀ e ∈ log, e.created? ≠ some id) ∨ ∃ e ∈ log, e.deleted? = some id) →
      ∀ blocked, let s := { s with blocked }
        s.get id = .error (.notFound (toString id.toInt)) ∧
        (∀ p : Patch, p.Valid → s.update id p = (.error (.notFound (toString id.toInt)), s)) ∧
        s.delete id = (.error (.notFound (toString id.toInt)), s)) ∧
    (∀ earlier v later, visits = earlier ++ v :: later →
      let s' := ((empty clock).visitAll earlier).2
      ∀ id, (s'.visit v).1.subject? ≠ some id → (s'.visit v).2.get id = s'.get id) ∧
    ∀ earlier later, visits = earlier ++ later →
      let s' := ((empty clock).visitAll earlier).2
      s.ids.filter (s'.ids.contains ·) = s'.ids.filter (s.ids.contains ·) := by
  obtain ⟨c, kept⟩ := kept_of_visitAll held few
  refine ⟨kept.follows.distinct, kept.get, fun id r alive free => ?_,
    fun id gone blocked => ?_, ?_, ?_⟩
  · have found := (kept.follows.told id).trans alive
    refine ⟨fun p valid => ?_, ?_⟩
    · rw [update_of_allowed kept.loaded valid found free]
    · rw [delete_of_allowed kept.loaded found free]
  · have missing := kept.follows.find?_eq_none gone
    have loaded : { s with blocked }.load = .ok c := kept.loaded
    refine ⟨?_, fun p valid => update_of_missing loaded valid missing,
      delete_of_missing loaded missing⟩
    rw [get_eq loaded, missing]
  · rintro earlier v later rfl s' id other
    obtain ⟨c', before⟩ := kept_of_append held few
    have held' : (empty clock).visitAll ((earlier ++ [v]) ++ later) = (log, s) := by
      rw [List.append_assoc]
      exact held
    obtain ⟨c'', after⟩ := kept_of_append held' few
    rw [visitAll_append] at after
    rw [before.get, ← Entry.tell_of_other other (life id _), ← life_concat]
    exact after.get id
  · rintro earlier later rfl s'
    obtain ⟨c', before⟩ := kept_of_append held few
    rw [kept.ids, before.ids]
    exact before.follows.numbered.filter_ids_eq kept.follows.numbered

/-- A clock that goes backwards, a write that fails, a change and a deletion: the number of the
deleted record is not given out again. -/
theorem record_lifetime_deleted :
    let visits : List Visit :=
      [{ request := .create " a " "x" },
        { request := .create "b" "y", blocked := some .unreadable },
        { request := .create "b" "y" },
        { request := .update 1 { name := some "c " } },
        { request := .delete 2 },
        { request := .create "d" "z" }]
    let run := (empty { time := fun n => 100 - n }).visitAll visits
    creations run.1 < 2 ^ 63 - 1 ∧
      run.2.get 1 = .ok { id := 1, name := "c", code := "x", created := 99, updated := 96 } ∧
      run.2.get 2 = .error (.notFound "2") ∧
      run.2.get 3 = .ok { id := 3, name := "d", code := "z", created := 95, updated := 95 } := by
  intro visits run
  have held : (empty { time := fun n => 100 - n }).visitAll visits = (run.1, run.2) := rfl
  have few : creations run.1 < 2 ^ 63 - 1 := by decide +kernel
  have gets := (record_lifetime held few).2.1
  exact ⟨few, (gets 1).trans rfl, (gets 2).trans rfl, (gets 3).trans rfl⟩

end Shelf

end Pseudocode
