import Pseudocode.Catalog.Text
import Pseudocode.Proofs.Catalog.Lifetime

/-!
# Numbers of records

A catalogue file may come from elsewhere: its numbers need not ascend, may be negative, and the next
number may be missing. It is well-formed if its numbers are different from each other and from the
last one that there is, and the next number, if there is one, is above them all. From such a file on
every record that is created has a number above all that are there and all that were given out
before, whatever is created, changed and deleted in between and whichever requests fail
(`Shelf.created_ids_increase`).

* A missing next number is made up from those of the records, and is above them (`freshId_spec`).
* What is loaded is ahead of its records and of the numbers given out so far (`Catalog.Ahead`), and
  every effect of a request keeps that (`Catalog.Ahead.effect`).
* Which catalogues are written in the course of some visits is listed by `Shelf.filings`. The file
  has to show the numbers of each of them (`ShelfFile.Shows`); the text of a catalogue does not do
  so for a code that begins with an empty line (`Shelf.create_garbles_file`).
-/

namespace Pseudocode

/-! ## Well-formed files -/

namespace Catalog

/-- The numbers of a catalogue are different and leave the last one free, and its next number, if it
is a usable one, is above them. -/
structure WellFormed (c : Catalog) : Prop where
  distinct : c.ids.Nodup
  below : ∀ i ∈ c.ids, i < Int64.maxValue
  ahead : 0 < c.nextId.toInt → ∀ i ∈ c.ids, i.toInt < c.nextId.toInt

/-- The next number of a catalogue that was loaded is above the numbers of its records and those
given out so far. -/
structure Ahead (c : Catalog) (log : List Entry) : Prop where
  positive : 1 ≤ c.nextId.toInt
  distinct : c.ids.Nodup
  below : ∀ i ∈ c.ids, i.toInt < c.nextId.toInt
  given : ∀ e ∈ log, ∀ i, e.created? = some i → i.toInt < c.nextId.toInt

end Catalog

namespace ShelfFile

/-- There is no file, nor anything else after a failed attempt to write one, or there is one with a
well-formed catalogue. -/
def WellFormed : ShelfFile → Prop
  | absent => True
  | catalog c => c.WellFormed
  | fragile _ => False
  | garbled => False
  | closed _ => False

theorem WellFormed.steady {f : ShelfFile} (wellFormed : f.WellFormed) : f.Steady := by
  cases f with
  | absent | catalog => rfl
  | fragile | garbled | closed => exact wellFormed.elim

/-- The file shows the numbers of a catalogue: the next one, and those of the records in order. -/
def Shows (f : ShelfFile) (c : Catalog) : Prop :=
  match f with
  | catalog c' => c'.nextId = c.nextId ∧ c'.ids = c.ids
  | absent => False
  | fragile _ => False
  | garbled => False
  | closed _ => False

instance (f : ShelfFile) (c : Catalog) : Decidable (f.Shows c) := by
  unfold Shows
  cases f <;> infer_instance

end ShelfFile

/-! ## Next numbers -/

theorem toInt_add_one {i : Int64} (room : i < Int64.maxValue) : (i + 1).toInt = i.toInt + 1 := by
  have least := Int64.le_toInt i
  rw [Int64.lt_iff_toInt_lt, Int64.toInt_maxValue] at room
  rw [Int64.toInt_add, Int64.toInt_one, Int.bmod_eq_of_le] <;> omega

namespace Catalog

variable {c c' : Catalog} {log : List Entry} {now : Text.Moment} {records : List Record}

theorem foldl_freshId {next : Int64} (positive : 1 ≤ next.toInt)
    (below : ∀ r ∈ records, r.id < Int64.maxValue) :
    let last := records.foldl (fun next r => if next ≤ r.id then r.id + 1 else next) next
    next.toInt ≤ last.toInt ∧ ∀ r ∈ records, r.id.toInt < last.toInt := by
  induction records generalizing next with
  | nil => simp
  | cons r records ih =>
    have room := below r List.mem_cons_self
    have below' := fun r' member => below r' (List.mem_cons_of_mem r member)
    simp only [List.foldl_cons, List.forall_mem_cons]
    split
    · rename_i reached
      rw [Int64.le_iff_toInt_le] at reached
      have more := toInt_add_one room
      have positive' : 1 ≤ (r.id + 1).toInt := by omega
      obtain ⟨ahead, others⟩ := ih positive' below'
      exact ⟨by omega, by omega, others⟩
    · rename_i beyond
      rw [Int64.le_iff_toInt_le] at beyond
      obtain ⟨ahead, others⟩ := ih positive below'
      exact ⟨ahead, by omega, others⟩

/-- A next number that is made up is positive and above those of the records. -/
theorem freshId_spec (below : ∀ r ∈ records, r.id < Int64.maxValue) :
    1 ≤ (freshId records).toInt ∧ ∀ r ∈ records, r.id.toInt < (freshId records).toInt :=
  foldl_freshId (show 1 ≤ (1 : Int64).toInt by decide) below

theorem WellFormed.ahead_normalize (wellFormed : c.WellFormed) : c.normalize.Ahead [] := by
  rw [normalize]
  split
  · have below : ∀ r ∈ c.records, r.id < Int64.maxValue :=
      fun r member => wellFormed.below r.id (List.mem_map_of_mem member)
    obtain ⟨positive, above⟩ := freshId_spec below
    refine ⟨positive, wellFormed.distinct, fun i member => ?_, by simp⟩
    obtain ⟨r, among, rfl⟩ := List.mem_map.mp member
    exact above r among
  · rename_i usable
    have positive : 0 < c.nextId.toInt := by
      rw [Int64.le_iff_toInt_le] at usable
      have zero : (0 : Int64).toInt = 0 := rfl
      omega
    exact ⟨positive, wellFormed.distinct, wellFormed.ahead positive, by simp⟩

theorem ahead_empty : Ahead { nextId := 1 } [] :=
  ⟨by decide, .nil, by simp [ids], by simp⟩

namespace Ahead

theorem wellFormed (ahead : c.Ahead log) : c.WellFormed := by
  refine ⟨ahead.distinct, fun i member => ?_, fun _ => ahead.below⟩
  rw [Int64.lt_iff_toInt_lt]
  exact Int.lt_of_lt_of_le (ahead.below i member) (Int64.toInt_le c.nextId)

theorem normalize (ahead : c.Ahead log) : c.normalize = c := by
  have positive : ¬c.nextId ≤ 0 := by
    have one := ahead.positive
    have zero : (0 : Int64).toInt = 0 := rfl
    rw [Int64.le_iff_toInt_le]
    omega
  rw [Catalog.normalize, if_neg positive]

/-- What was shown of a catalogue that is ahead is ahead. -/
theorem of_same (ahead : c.Ahead log) (next : c'.nextId = c.nextId) (ids : c'.ids = c.ids) :
    c'.Ahead log := by
  refine ⟨?_, ?_, ?_, ?_⟩
  · rw [next]
    exact ahead.positive
  · rw [ids]
    exact ahead.distinct
  · rw [ids, next]
    exact ahead.below
  · rw [next]
    exact ahead.given

/-- Other records, with the same numbers or fewer of them, and an entry that gave out no number. -/
theorem replace (ahead : c.Ahead log) {e : Entry} (none : e.created? = none)
    (fewer : (records.map Record.id).Sublist c.ids) :
    ({ c with records } : Catalog).Ahead (log ++ [e]) := by
  refine ⟨ahead.positive, fewer.nodup ahead.distinct,
    fun i member => ahead.below i (fewer.subset member), fun e' member i created => ?_⟩
  rcases List.mem_append.mp member with member | member
  · exact ahead.given e' member i created
  · obtain rfl := List.mem_singleton.mp member
    rw [none] at created
    cases created

theorem insert (ahead : c.Ahead log) (room : c.nextId < Int64.maxValue) {e : Entry}
    (created : e.created? = some c.nextId) (name code : String) :
    (c.insert name code now).2.Ahead (log ++ [e]) := by
  have more : (c.insert name code now).2.nextId.toInt = c.nextId.toInt + 1 := toInt_add_one room
  have ids : (c.insert name code now).2.ids = c.ids ++ [c.nextId] := by
    simp [Catalog.insert, Catalog.ids]
  have positive := ahead.positive
  refine ⟨by omega, ?_, fun i member => ?_, fun e' member i created' => ?_⟩
  · rw [ids]
    refine List.nodup_append.mpr ⟨ahead.distinct, List.pairwise_singleton .., ?_⟩
    rintro i member j last rfl
    have below := ahead.below i member
    rw [List.mem_singleton.mp last] at below
    omega
  · rw [ids] at member
    rcases List.mem_append.mp member with member | member
    · have below := ahead.below i member
      omega
    · obtain rfl := List.mem_singleton.mp member
      omega
  · rcases List.mem_append.mp member with member | member
    · have before := ahead.given e' member i created'
      omega
    · obtain rfl := List.mem_singleton.mp member
      obtain rfl := Option.some.inj (created.symm.trans created')
      omega

/-- Every effect of a request leaves the catalogue ahead, and does not lower its next number. -/
theorem effect {request : Shelf.Request} {reply : Shelf.Reply} (ahead : c.Ahead log)
    (effect : Shelf.Effect c now request reply c')
    (room : ∀ i, (⟨request, reply, now⟩ : Entry).created? = some i → i < Int64.maxValue) :
    c'.Ahead (log ++ [⟨request, reply, now⟩]) ∧ c.nextId.toInt ≤ c'.nextId.toInt := by
  cases effect with
  | @created name code named coded =>
    have last := room c.nextId rfl
    have more := toInt_add_one last
    refine ⟨ahead.insert last rfl .., ?_⟩
    show c.nextId.toInt ≤ (c.nextId + 1).toInt
    omega
  | @updated id p r found =>
    have keeps : ∀ r : Record, (r.patched p now).id = r.id := fun _ => rfl
    refine ⟨ahead.replace rfl ?_, Int.le_refl _⟩
    rw [map_modifyFirst keeps]
    exact List.Sublist.refl _
  | @deleted id r found =>
    exact ⟨ahead.replace rfl (eraseFirst_sublist.map _), Int.le_refl _⟩
  | left idle =>
    have none := (Entry.tell_of_idle (e := ⟨request, reply, now⟩) idle).1
    exact ⟨ahead.replace none (List.Sublist.refl _), Int.le_refl _⟩

end Ahead

end Catalog

namespace Shelf

variable {s : Shelf} {c : Catalog} {log : List Entry}

/-- A record is created under the next number. -/
theorem eq_nextId_of_created {c' : Catalog} {now : Text.Moment} {request : Request} {reply : Reply}
    (effect : Effect c now request reply c') {i : Int64}
    (created : (⟨request, reply, now⟩ : Entry).created? = some i) : i = c.nextId := by
  cases effect with
  | created => exact (Option.some.inj created).symm
  | updated | deleted => cases created
  | left idle =>
    rw [(Entry.tell_of_idle (e := ⟨request, reply, now⟩) idle).1] at created
    cases created

/-! ## What visits write -/

/-- The catalogue that a visit writes to the file. -/
def filing? (s : Shelf) (v : Visit) : Option Catalog :=
  if v.request.writes && (s.visit v).1.reply.isOk then (s.visit v).2.attempt else none

/-- The catalogues that some visits write to the file. -/
def filings (s : Shelf) : List Visit → List Catalog
  | [] => []
  | v :: visits => (s.filing? v).toList ++ (s.visit v).2.filings visits

/-- What a visit can do: one of the effects, after which the file holds what the medium makes of the
catalogue, or is as it was, if a failed attempt to write leaves it. -/
theorem visit_effect (loaded : s.load = .ok c) (v : Visit) :
    (s.visit v).2.medium = s.medium ∧
      ∃ c', Effect c s.clock.read.1 v.request (s.visit v).1.reply c' ∧
        (s.filing? v = some c' ∧ (s.visit v).2.file = s.medium c' ∨
          c' = c ∧ (s.file.Steady → (s.visit v).2.file = s.file)) := by
  obtain ⟨c', effect, medium, leaves⟩ :=
    serve_effect (s := { s with blocked := v.blocked }) loaded v.request
  refine ⟨medium, ?_⟩
  by_cases writes : v.request.writes && (s.visit v).1.reply.isOk
  · refine ⟨c', effect, leaves.imp_left fun written => ⟨?_, written.1⟩⟩
    rw [filing?, if_pos writes]
    exact written.2
  · have idle : v.request.writes = false ∨ (s.visit v).1.reply.isOk = false := by
      rwa [Bool.not_eq_true, Bool.and_eq_false_iff] at writes
    exact ⟨c, .left idle, .inr ⟨rfl, fun steady => file_serve_of_idle idle steady⟩⟩

theorem mem_filings_cons {v : Visit} {visits : List Visit} :
    c ∈ s.filings (v :: visits) ↔ c ∈ s.filing? v ∨ c ∈ (s.visit v).2.filings visits := by
  rw [filings, List.mem_append, Option.mem_toList, Option.mem_def]

theorem filings_append (s : Shelf) (earlier later : List Visit) :
    s.filings (earlier ++ later)
      = s.filings earlier ++ (s.visitAll earlier).2.filings later := by
  induction earlier generalizing s with
  | nil => rfl
  | cons v earlier ih =>
    simp only [List.cons_append, filings, ih, List.append_assoc]
    rfl

/-! ## Shelves -/

/-- The file is well-formed, and what is loaded from it is ahead. -/
structure Sound (s : Shelf) (log : List Entry) (c : Catalog) : Prop where
  file : s.file.WellFormed
  loaded : s.load = .ok c
  ahead : c.Ahead log

theorem sound_of_wellFormed (wellFormed : s.file.WellFormed) : ∃ c, s.Sound [] c := by
  cases file : s.file with
  | absent =>
    exact ⟨_, wellFormed, by rw [load, file], Catalog.ahead_empty⟩
  | catalog c =>
    rw [file] at wellFormed
    exact ⟨_, by rwa [file], by rw [load, file],
      Catalog.WellFormed.ahead_normalize wellFormed⟩
  | fragile | garbled | closed =>
    rw [file] at wellFormed
    exact wellFormed.elim

namespace Sound

/-- What the file shows after a catalogue that is ahead was written. -/
theorem of_shows {s' : Shelf} (ahead : c.Ahead log) (shows' : s'.file.Shows c) :
    ∃ c', s'.Sound log c' ∧ c'.nextId = c.nextId := by
  cases file : s'.file with
  | catalog c' =>
    rw [file] at shows'
    obtain ⟨next, ids⟩ := shows'
    have ahead' := ahead.of_same next ids
    refine ⟨c', ⟨?_, ?_, ahead'⟩, next⟩
    · rw [file]
      exact ahead'.wellFormed
    · rw [load, file]
      exact congrArg Except.ok ahead'.normalize
  | absent | fragile | garbled | closed =>
    rw [file] at shows'
    exact shows'.elim

theorem visit (sound : s.Sound log c) (v : Visit)
    (room : ∀ i, (s.visit v).1.created? = some i → i < Int64.maxValue)
    (kept : ∀ c' ∈ s.filing? v, (s.medium c').Shows c') :
    ∃ c', (s.visit v).2.Sound (log ++ [(s.visit v).1]) c' ∧ c.nextId.toInt ≤ c'.nextId.toInt := by
  obtain ⟨-, c', effect, outcome⟩ := visit_effect sound.loaded v
  obtain ⟨ahead, more⟩ := sound.ahead.effect effect room
  rcases outcome with ⟨filed, file⟩ | ⟨rfl, file⟩
  · have shows' : (s.visit v).2.file.Shows c' := file ▸ kept c' filed
    obtain ⟨c'', sound', next⟩ := of_shows ahead shows'
    exact ⟨c'', sound', by rwa [next]⟩
  · have same := file sound.file.steady
    have holds : (s.visit v).2.Holds c' :=
      Holds.of_file_eq ⟨sound.file.steady, sound.loaded⟩ same
    exact ⟨c', ⟨same ▸ sound.file, holds.loaded, ahead⟩, more⟩

theorem visitAll (sound : s.Sound log c) (visits : List Visit)
    (room : ∀ e ∈ (s.visitAll visits).1, ∀ i, e.created? = some i → i < Int64.maxValue)
    (kept : ∀ c' ∈ s.filings visits, (s.medium c').Shows c') :
    (s.visitAll visits).2.medium = s.medium ∧
      ∃ c', (s.visitAll visits).2.Sound (log ++ (s.visitAll visits).1) c' ∧
        c.nextId.toInt ≤ c'.nextId.toInt := by
  induction visits generalizing s log c with
  | nil =>
    rw [Shelf.visitAll, List.append_nil]
    exact ⟨rfl, c, sound, Int.le_refl _⟩
  | cons v visits ih =>
    have split : log ++ (s.visitAll (v :: visits)).1
        = log ++ [(s.visit v).1] ++ ((s.visit v).2.visitAll visits).1 := by
      simp [Shelf.visitAll]
    have medium := (visit_effect sound.loaded v).1
    obtain ⟨c', sound', more⟩ := sound.visit v (room _ List.mem_cons_self)
      fun c' filed => kept c' (mem_filings_cons.mpr (.inl filed))
    obtain ⟨medium', c'', sound'', more'⟩ :=
      ih sound' (fun e member => room e (List.mem_cons_of_mem _ member))
        fun c' filed => medium ▸ kept c' (mem_filings_cons.mpr (.inr filed))
    rw [split]
    exact ⟨medium'.trans medium, c'', sound'', Int.le_trans more more'⟩

end Sound

/-- After some of the visits, and after the others. -/
theorem exists_sound {earlier later : List Visit} (start : s.file.WellFormed)
    (room : ∀ e ∈ (s.visitAll (earlier ++ later)).1, ∀ i, e.created? = some i →
      i < Int64.maxValue)
    (kept : ∀ c ∈ s.filings (earlier ++ later), (s.medium c).Shows c) :
    ∃ c, (s.visitAll earlier).2.Sound (s.visitAll earlier).1 c ∧
      ∃ c', (s.visitAll (earlier ++ later)).2.load = .ok c' ∧
        c.nextId.toInt ≤ c'.nextId.toInt := by
  obtain ⟨first, sound⟩ := sound_of_wellFormed start
  rw [visitAll_append] at room ⊢
  rw [filings_append] at kept
  obtain ⟨medium, c, between, -⟩ := sound.visitAll earlier
    (fun e member => room e (List.mem_append_left _ member))
    fun c filed => kept c (List.mem_append_left _ filed)
  obtain ⟨-, c', after, more⟩ := between.visitAll later
    (fun e member => room e (List.mem_append_right _ member))
    fun c filed => medium ▸ kept c (List.mem_append_right _ filed)
  exact ⟨c, between, c', after.loaded, more⟩

/-- From a well-formed file on, or from none, whatever is asked and whichever requests fail: the
file is well-formed at every point and its next number never falls, and a record that is created has
a number from one on that is above those of all records there and above all that were given out
before. All this as long as the last number is not given out, and the file shows the numbers of
every catalogue that is written to it. -/
theorem created_ids_increase {s' : Shelf} {visits : List Visit} (start : s.file.WellFormed)
    (held : s.visitAll visits = (log, s'))
    (room : ∀ e ∈ log, ∀ i, e.created? = some i → i < Int64.maxValue)
    (kept : ∀ c ∈ s.filings visits, (s.medium c).Shows c) :
    (∀ earlier later, visits = earlier ++ later →
      let between := (s.visitAll earlier).2
      between.file.WellFormed ∧ ∃ c c', between.load = .ok c ∧ s'.load = .ok c' ∧
        c.nextId.toInt ≤ c'.nextId.toInt) ∧
    ∀ earlier v later, visits = earlier ++ v :: later →
      let between := (s.visitAll earlier).2
      ∀ id, (between.visit v).1.created? = some id →
        1 ≤ id.toInt ∧ (∀ i ∈ between.ids, i.toInt < id.toInt) ∧
        ∀ e ∈ (s.visitAll earlier).1, ∀ i, e.created? = some i → i.toInt < id.toInt := by
  obtain ⟨rfl, rfl⟩ := Prod.mk.inj held
  refine ⟨?_, ?_⟩
  · rintro earlier later rfl
    obtain ⟨c, between, c', loaded, more⟩ := exists_sound start room kept
    exact ⟨between.file, c, c', between.loaded, loaded, more⟩
  · rintro earlier v later rfl between id created
    obtain ⟨c, sound, -⟩ := exists_sound start room kept
    obtain ⟨-, c', effect, -⟩ := visit_effect sound.loaded v
    obtain rfl := eq_nextId_of_created effect created
    refine ⟨sound.ahead.positive, fun i member => ?_, sound.ahead.given⟩
    rw [ids, sound.loaded] at member
    exact sound.ahead.below i member

/-- The numbers given out, listed entry by entry. -/
theorem room_of_created {ids : List (Option Int64)} (created : log.map Entry.created? = ids)
    (below : ids.all (·.all (· < Int64.maxValue)) = true) :
    ∀ e ∈ log, ∀ i, e.created? = some i → i < Int64.maxValue := by
  intro e member i given
  have among : some i ∈ ids := by
    rw [← created, ← given]
    exact List.mem_map_of_mem member
  simpa using List.all_eq_true.mp below (some i) among

/-- A file without a next number, whose numbers do not ascend: the largest number is given out,
deleted, and not given out again. -/
theorem created_ids_increase_after_deletion :
    let records : List Record := [⟨5, "b", "x", 60, 60, 0, 0⟩, ⟨-2, "a", "y", 120, 120, 0, 0⟩]
    let s : Shelf := { file := .catalog { nextId := 0, records }, clock := { time := fun n => n } }
    let earlier : List Visit := [{ request := .create "c" "x" }, { request := .delete 6 }]
    let last : Visit := { request := .create "d" "y" }
    (s.visitAll (earlier ++ [last])).1.map Entry.created? = [some 6, none, some 7] ∧
      (s.visitAll earlier).2.ids = [5, -2] ∧
      ((s.visitAll earlier).2.visit last).1.created? = some 7 ∧
      ∀ e ∈ (s.visitAll earlier).1, ∀ i, e.created? = some i → i.toInt < 7 := by
  intro records s earlier last
  have ids : ({ nextId := 0, records } : Catalog).ids = [5, -2] := rfl
  have start : s.file.WellFormed := by
    refine ⟨?_, ?_, fun usable => absurd usable (by decide)⟩
    · rw [ids]
      decide
    · rw [ids]
      simp only [List.forall_mem_cons, List.not_mem_nil, false_implies, implies_true, and_true]
      decide
  have held : s.visitAll (earlier ++ [last])
      = ((s.visitAll (earlier ++ [last])).1, (s.visitAll (earlier ++ [last])).2) := rfl
  have created : (s.visitAll (earlier ++ [last])).1.map Entry.created?
      = [some 6, none, some 7] := by decide +kernel
  have room := room_of_created created (by decide)
  have seventh : ((s.visitAll earlier).2.visit last).1.created? = some 7 := by decide +kernel
  have kept : ∀ c ∈ s.filings (earlier ++ [last]), (s.medium c).Shows c := fun c _ => ⟨rfl, rfl⟩
  refine ⟨created, by decide +kernel, seventh, ?_⟩
  exact ((created_ids_increase start held room kept).2 earlier last [] rfl 7 seventh).2.2

/-! ## A file that is lost -/

/-- A shelf without a file, and what its files will be kept on. -/
def vacant (medium : Catalog → ShelfFile) (clock : Clock) : Shelf where
  file := .absent
  medium := medium
  clock := clock

/-- There is no file yet. It will be kept as text. -/
def textual : Shelf :=
  vacant Catalog.filed { time := fun n => 1767323045 + 60 * n }

/-- A visit that creates a record whose code begins with an empty line. -/
def leadingBreak : Visit where
  request := .create "a" "\nDébut\nFin\n"

theorem file_leadingBreak : (textual.visit leadingBreak).2.file = .garbled := by
  decide +kernel

/-- A record whose code begins with an empty line is created under the first number, and the file
that should show the number cannot be read. -/
theorem create_garbles_file :
    textual.file.WellFormed ∧ (textual.visit leadingBreak).1.created? = some 1 ∧
      ¬(textual.visit leadingBreak).2.file.WellFormed := by
  refine ⟨trivial, by decide +kernel, ?_⟩
  rw [file_leadingBreak]
  exact id

end Shelf

end Pseudocode
