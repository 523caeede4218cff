import Pseudocode.Proofs.Catalog.Numbers

/-!
# The newest record of a name

Records are listed newest first: by the time they were created, then by number, and in the order of
the file where both are the same (`NewestFirst`). A name is looked up in that list, so it stands for
the newest record that has it (`Shelf.find_newest_named`).

* What can be in a catalogue after a request was there before, or was created or changed by the
  request (`Shelf.origin_of_effect`). Names are trimmed before they are checked, and codes are
  checked, on both ways into the catalogue, so every record is valid (`Record.Valid`). The name of a
  record is its own trimmed name (`Text.trim_trim`), and is found.
* A record that was just created has the largest number. If the clock does not go backwards, it has
  the latest time as well, and is first of its name (`Catalog.findName?_insert`).

The text of a catalogue does not keep everything: a record whose code begins with an empty line is
not found after it was created (`Shelf.find_loses_leading_break`).
-/

namespace Pseudocode

/-! ## Trimmed texts -/

namespace Text

theorem dropBlanks_of_head? {cs : List Char} (head : ∀ c, cs.head? = some c → isBlank c = false) :
    dropBlanks cs = cs := by
  cases cs with
  | nil => rfl
  | cons c cs => simp [dropBlanks, head c rfl]

theorem trimChars_trimChars (cs : List Char) : trimChars (trimChars cs) = trimChars cs := by
  -- what is trimmed begins like the text without the blanks in front
  have front : dropBlanks (trimChars cs) = trimChars cs := by
    refine dropBlanks_of_head? fun c head => head?_dropBlanks cs c ?_
    obtain ⟨blanks, split⟩ : ∃ blanks, trimChars cs ++ blanks = dropBlanks cs := by
      have suffix := List.dropWhile_suffix isBlank (l := (dropBlanks cs).reverse)
      obtain ⟨blanks, split⟩ := suffix
      refine ⟨blanks.reverse, ?_⟩
      rw [trimChars, ← List.reverse_append, dropBlanks, split, List.reverse_reverse]
    rw [← split, List.head?_append, head]
    rfl
  have back : dropBlanks (trimChars cs).reverse = (trimChars cs).reverse := by
    rw [trimChars, List.reverse_reverse]
    exact dropBlanks_of_head? (head?_dropBlanks _)
  rw [trimChars.eq_1 (trimChars cs), front, back, List.reverse_reverse]

theorem trim_trim (s : String) : trim (trim s) = trim s := by
  rw [trim, trim, String.toList_ofList, trimChars_trimChars]

end Text

/-! ## Valid records -/

/-- A record as it may be saved: its name is trimmed, not empty and not too long, and its code is
not blank. -/
structure Record.Valid (r : Record) : Prop where
  trimmed : Text.trim r.name = r.name
  named : r.name ≠ ""
  short : r.name.length ≤ 255
  coded : Text.isBlankText r.code = false

theorem checkName_eq_ok {name : String} (checked : checkName name = .ok ()) :
    name ≠ "" ∧ name.length ≤ 255 := by
  unfold checkName at checked
  split at checked
  · cases checked
  · rename_i filled
    split at checked
    · cases checked
    · rename_i short
      refine ⟨?_, Nat.le_of_not_lt short⟩
      rintro rfl
      exact filled rfl

theorem checkCode_eq_ok {code : String} (checked : checkCode code = .ok ()) :
    Text.isBlankText code = false := by
  unfold checkCode at checked
  split at checked
  · cases checked
  · rename_i filled
    simpa using filled

theorem Record.valid_of_checks {r : Record} {name : String} (trimmed : r.name = Text.trim name)
    (named : checkName (Text.trim name) = .ok ()) (coded : checkCode r.code = .ok ()) :
    r.Valid := by
  obtain ⟨filled, short⟩ := checkName_eq_ok named
  refine ⟨?_, ?_, ?_, checkCode_eq_ok coded⟩
  · rw [trimmed, Text.trim_trim]
  · rwa [trimmed]
  · rwa [trimmed]

theorem checkPatch_named (name : String) (code : Option String) :
    Shelf.checkPatch { name := some name, code }
      = (checkName name).bind fun _ => Shelf.checkPatch { code } :=
  rfl

theorem Patch.Valid.parts {p : Patch} (valid : p.Valid) :
    (∀ name, p.name = some name → checkName (Text.trim name) = .ok ()) ∧
      ∀ code, p.code = some code → checkCode code = .ok () := by
  obtain ⟨name, code⟩ := p
  have coded (valid : Shelf.checkPatch { code } = .ok ()) :
      ∀ code', code = some code' → checkCode code' = .ok () := by
    rintro code' rfl
    exact valid
  unfold Patch.Valid at valid
  cases name with
  | none => exact ⟨nofun, coded valid⟩
  | some name =>
    simp only [Option.map_some, checkPatch_named] at valid
    cases checked : checkName (Text.trim name) with
    | error e =>
      rw [checked] at valid
      cases valid
    | ok =>
      rw [checked] at valid
      refine ⟨fun name' same => ?_, coded valid⟩
      cases same
      exact checked

/-- A change that may be made leaves a record valid. -/
theorem Record.Valid.patched {r : Record} (valid : r.Valid) {p : Patch} (patch : p.Valid)
    (now : Text.Moment) : (r.patched p now).Valid := by
  obtain ⟨named, coded⟩ := patch.parts
  obtain ⟨name, code⟩ := p
  refine ⟨?_, ?_, ?_, ?_⟩
  · cases name with
    | none => exact valid.trimmed
    | some name => exact Text.trim_trim name
  · cases name with
    | none => exact valid.named
    | some name => exact (checkName_eq_ok (named name rfl)).1
  · cases name with
    | none => exact valid.short
    | some name => exact (checkName_eq_ok (named name rfl)).2
  · cases code with
    | none => exact valid.coded
    | some code => exact checkCode_eq_ok (coded code rfl)

/-! ## Newest first -/

/-- One record may be listed before another: it was created later, or at the same time and its
number is not below the other's. -/
def Record.Precedes (a b : Record) : Prop :=
  b.creation.total < a.creation.total ∨
    a.creation.total = b.creation.total ∧ b.id.toInt ≤ a.id.toInt

/-- A list of some records with the newest first, where records of the same time and number stay in
their order. -/
structure NewestFirst (records list : List Record) : Prop where
  perm : list.Perm records
  sorted : list.Pairwise Record.Precedes
  stable : ∀ created id, list.filter (fun r => r.creation.total = created ∧ r.id = id)
    = records.filter (fun r => r.creation.total = created ∧ r.id = id)

namespace Catalog

variable {c : Catalog} {name code : String} {now : Text.Moment}

theorem newer_iff {a b : Record} : newer a b = true ↔ a.Precedes b := by
  simp [newer, Record.Precedes, Int64.le_iff_toInt_le]

theorem newer_trans (a b d : Record) (first : newer a b = true) (second : newer b d = true) :
    newer a d = true := by
  rw [newer_iff, Record.Precedes] at *
  omega

theorem newer_total (a b : Record) : (newer a b || newer b a) = true := by
  rw [Bool.or_eq_true, newer_iff, newer_iff, Record.Precedes, Record.Precedes]
  omega

theorem newestFirst_spec (c : Catalog) : NewestFirst c.records c.newestFirst := by
  have perm : c.newestFirst.Perm c.records := List.mergeSort_perm ..
  refine ⟨perm, ?_, fun created id => ?_⟩
  · exact (List.pairwise_mergeSort newer_trans newer_total c.records).imp newer_iff.mp
  · -- records of one time and number are in order already, so sorting keeps them as they are
    let tied := fun r : Record => decide (r.creation.total = created ∧ r.id = id)
    have ordered : (c.records.filter tied).Pairwise fun a b => newer a b = true := by
      refine List.pairwise_of_forall_mem_list fun a first b second => ?_
      have a' := of_decide_eq_true (List.mem_filter.mp first).2
      have b' := of_decide_eq_true (List.mem_filter.mp second).2
      rw [newer_iff, Record.Precedes, a'.1, b'.1, a'.2, b'.2]
      omega
    have kept : (c.records.filter tied).Sublist c.newestFirst :=
      List.sublist_mergeSort newer_trans newer_total ordered List.filter_sublist
    have both : (c.records.filter tied).Sublist (c.newestFirst.filter tied) := by
      have again := kept.filter tied
      rwa [List.filter_filter, show (fun r => tied r && tied r) = tied by funext r; simp] at again
    exact (both.eq_of_length (perm.filter tied).length_eq.symm).symm

theorem findName?_eq_some_iff {r : Record} :
    c.findName? name = some r ↔ ∃ before after, c.newestFirst = before ++ r :: after ∧
      r.name = name ∧ ∀ r' ∈ before, r'.name ≠ name := by
  rw [findName?, List.find?_eq_some_iff_append]
  constructor
  · rintro ⟨named, before, after, split, others⟩
    exact ⟨before, after, split, by simpa using named, by simpa using others⟩
  · rintro ⟨before, after, split, named, others⟩
    exact ⟨by simpa using named, before, after, split, by simpa using others⟩

theorem findName?_normalize (c : Catalog) (name : String) :
    c.normalize.findName? name = c.findName? name := by
  rw [normalize]
  split <;> rfl

/-- A new record is the newest of its name if no record is dated later and none has a number that is
not below. -/
theorem findName?_insert (dated : ∀ r ∈ c.records, r.creation.total ≤ now.total)
    (below : ∀ r ∈ c.records, r.id.toInt < c.nextId.toInt) :
    (c.insert name code now).2.findName? name = some (c.insert name code now).1 := by
  have list := newestFirst_spec (c.insert name code now).2
  have records : (c.insert name code now).2.records
      = c.records ++ [(c.insert name code now).1] := rfl
  have among : (c.insert name code now).1 ∈ (c.insert name code now).2.newestFirst := by
    rw [list.perm.mem_iff, records]
    exact List.mem_append_right _ (List.mem_singleton_self _)
  cases found : (c.insert name code now).2.findName? name with
  | none =>
    have others := findName?_eq_none_iff.mp found _ (list.perm.mem_iff.mp among)
    exact absurd rfl others
  | some r =>
    obtain ⟨before, after, split, named, others⟩ := findName?_eq_some_iff.mp found
    rw [split] at among
    rcases List.mem_append.mp among with first | here
    · exact absurd rfl (others _ first)
    rcases List.mem_cons.mp here with same | later
    · rw [same]
    -- a record of the name that is listed before the new one is dated later or has a larger number
    have sorted := list.sorted
    rw [split] at sorted
    have precedes : r.Precedes (c.insert name code now).1 :=
      (List.pairwise_cons.mp (List.pairwise_append.mp sorted).2.1).1 _ later
    have member := (mem_of_findName? found).1
    rw [records] at member
    rcases List.mem_append.mp member with old | new
    · have earlier := dated r old
      have smaller := below r old
      rcases precedes with after | ⟨-, larger⟩
      · exact absurd after (Int.not_lt.mpr earlier)
      · exact absurd smaller (Int.not_lt.mpr larger)
    · rw [List.mem_singleton.mp new]

end Catalog

/-! ## Where records come from -/

theorem Catalog.mem_of_modifyFirst {id : Int64} {f : Record → Record} {records : List Record}
    {r : Record} (member : r ∈ modifyFirst id f records) :
    r ∈ records ∨ ∃ r' ∈ records, r = f r' := by
  induction records with
  | nil => cases member
  | cons first rest ih =>
    rw [modifyFirst] at member
    split at member
    · rcases List.mem_cons.mp member with rfl | later
      · exact .inr ⟨first, List.mem_cons_self, rfl⟩
      · exact .inl (List.mem_cons_of_mem _ later)
    · rcases List.mem_cons.mp member with rfl | later
      · exact .inl List.mem_cons_self
      · rcases ih later with old | ⟨r', old, same⟩
        · exact .inl (List.mem_cons_of_mem _ old)
        · exact .inr ⟨r', List.mem_cons_of_mem _ old, same⟩

/-- The times of a clock do not go backwards. -/
def Clock.Forward (k : Clock) : Prop :=
  ∀ m n, m ≤ n → (k.moment m).total ≤ (k.moment n).total

namespace Shelf

variable {s : Shelf} {c c' : Catalog} {now : Text.Moment} {request : Request} {reply : Reply}

/-- A record of the catalogue that a request leaves was there before, is one that was there with the
changes asked for, or was created by the request. -/
theorem origin_of_effect (effect : Effect c now request reply c') {r : Record}
    (member : r ∈ c'.records) :
    r ∈ c.records ∨
      (∃ id p, request = .update id p ∧ reply.isOk = true ∧
        ∃ r' ∈ c.records, r = r'.patched p now) ∨
      ∃ name code, request = .create name code ∧ checkName (Text.trim name) = .ok () ∧
        checkCode code = .ok () ∧ r = (c.insert (Text.trim name) code now).1 := by
  cases effect with
  | @created name code named coded =>
    rcases List.mem_append.mp member with old | new
    · exact .inl old
    · exact .inr (.inr ⟨name, code, rfl, named, coded, List.mem_singleton.mp new⟩)
  | @updated id p _ found =>
    rcases Catalog.mem_of_modifyFirst member with old | changed
    · exact .inl old
    · exact .inr (.inl ⟨id, p, rfl, rfl, changed⟩)
  | deleted found => exact .inl (Catalog.eraseFirst_sublist.subset member)
  | left idle => exact .inl member

theorem valid_of_update {id : Int64} {p : Patch} (done : (s.update id p).1.isOk = true) :
    p.Valid := by
  cases valid : checkPatch { p with name := p.name.map Text.trim } with
  | ok => exact valid
  | error e =>
    rw [update, valid] at done
    cases done

/-! ## Clocks -/

theorem clock_commit {α : Type} (s : Shelf) (c : Catalog) (answer : α) :
    (s.commit c answer).2.clock = s.clock := by
  cases free : s.blocked with
  | none => rw [commit_free free]; rfl
  | some e => rw [commit_blocked free]; rfl

/-- A request reads the clock once at most. -/
theorem clock_serve (s : Shelf) (request : Request) :
    (s.serve request).2.clock = s.clock ∨ (s.serve request).2.clock = s.clock.read.2 := by
  cases request with
  | get | find | list => exact .inl rfl
  | create name code =>
    simp only [serve, create]
    split
    · exact .inl rfl
    · exact .inr (clock_commit ..)
  | update id p =>
    simp only [serve, update]
    split
    · exact .inl rfl
    · split
      · exact .inl rfl
      · exact .inr (clock_commit ..)
  | delete id =>
    simp only [serve, delete]
    split
    · exact .inl rfl
    · split
      · exact .inl rfl
      · exact .inl (clock_commit ..)

theorem clock_visit (s : Shelf) (v : Visit) :
    (s.visit v).2.clock.moment = s.clock.moment ∧
      s.clock.readings ≤ (s.visit v).2.clock.readings := by
  have cases : (s.visit v).2.clock = s.clock ∨ (s.visit v).2.clock = s.clock.read.2 :=
    clock_serve { s with blocked := v.blocked } v.request
  rcases cases with same | read
  · rw [same]
    exact ⟨rfl, Nat.le_refl _⟩
  · rw [read]
    exact ⟨rfl, Nat.le_succ _⟩

/-! ## Shelves with valid records -/

/-- The records that are loaded are valid, and, if the clock does not go backwards, dated no later
than any record will be. -/
structure Stocked (s : Shelf) (c : Catalog) : Prop extends s.Holds c where
  valid : ∀ r ∈ c.records, r.Valid
  dated : s.clock.Forward → ∀ r ∈ c.records, ∀ n, s.clock.readings < n →
    r.creation.total ≤ (s.clock.moment n).total

theorem stocked_vacant (medium : Catalog → ShelfFile) (clock : Clock) :
    (vacant medium clock).Stocked { nextId := 1 } :=
  ⟨⟨rfl, rfl⟩, by simp, by simp⟩

theorem records_normalize (c : Catalog) : c.normalize.records = c.records := by
  rw [Catalog.normalize]
  split <;> rfl

namespace Stocked

theorem visit (stocked : s.Stocked c) (v : Visit)
    (kept : ∀ c' ∈ s.filing? v, s.medium c' = .catalog c') :
    ∃ c', (s.visit v).2.Stocked c' := by
  obtain ⟨-, c', effect, outcome⟩ := visit_effect stocked.loaded v
  obtain ⟨time, readings⟩ := clock_visit s v
  have valid : ∀ r ∈ c'.records, r.Valid := by
    intro r member
    rcases origin_of_effect effect member with
      old | ⟨id, p, asked, done, r', old, rfl⟩ | ⟨name, code, asked, named, coded, rfl⟩
    · exact stocked.valid r old
    · rw [Shelf.visit, asked] at done
      exact (stocked.valid r' old).patched (valid_of_update done) _
    · exact Record.valid_of_checks rfl named coded
  have dated : s.clock.Forward → ∀ r ∈ c'.records, ∀ n, (s.visit v).2.clock.readings < n →
      r.creation.total ≤ (s.clock.moment n).total := by
    intro forward r member n later
    have later' : s.clock.readings < n := Nat.lt_of_le_of_lt readings later
    rcases origin_of_effect effect member with
      old | ⟨id, p, asked, done, r', old, rfl⟩ | ⟨name, code, asked, named, coded, rfl⟩
    · exact stocked.dated forward r old n later'
    · exact stocked.dated forward r' old n later'
    · exact forward _ _ later'
  obtain ⟨c'', holds, records⟩ :
      ∃ c'', (s.visit v).2.Holds c'' ∧ c''.records = c'.records := by
    rcases outcome with ⟨filed, file⟩ | ⟨rfl, file⟩
    · rw [kept c' filed] at file
      exact ⟨c'.normalize, ⟨by rw [file]; rfl, by rw [load, file]⟩, records_normalize c'⟩
    · exact ⟨c', stocked.of_file_eq (file stocked.steady), rfl⟩
  refine ⟨c'', holds, records ▸ valid, fun forward => ?_⟩
  rw [Clock.Forward, time] at forward
  rw [records, time]
  exact dated forward

theorem visitAll (stocked : s.Stocked c) (visits : List Visit)
    (kept : ∀ c' ∈ s.filings visits, s.medium c' = .catalog c') :
    (s.visitAll visits).2.medium = s.medium ∧
      (s.visitAll visits).2.clock.moment = s.clock.moment ∧ ∃ c', (s.visitAll visits).2.Stocked c' := by
  induction visits generalizing s c with
  | nil => exact ⟨rfl, rfl, c, stocked⟩
  | cons v visits ih =>
    have medium := (visit_effect stocked.loaded v).1
    obtain ⟨c', stocked'⟩ := stocked.visit v
      fun c' filed => kept c' (mem_filings_cons.mpr (.inl filed))
    obtain ⟨medium', time, stocked''⟩ := ih stocked'
      fun c' filed => medium ▸ kept c' (mem_filings_cons.mpr (.inr filed))
    exact ⟨medium'.trans medium, time.trans (clock_visit s v).1, stocked''⟩

end Stocked

/-! ## Lists and names -/

theorem list_eq (loaded : s.load = .ok c) : s.list = .ok c.newestFirst := by
  rw [list, loaded]
  rfl

theorem find_eq_ok_iff (loaded : s.load = .ok c) {raw : String} {r : Record} :
    s.find raw = .ok r ↔ c.findName? (Text.trim raw) = some r := by
  rw [find_eq loaded]
  cases c.findName? (Text.trim raw) <;> simp

theorem find_eq_notFound_iff (loaded : s.load = .ok c) {raw : String} :
    s.find raw = .error (.notFound (Text.trim raw)) ↔
      ∀ r ∈ c.newestFirst, r.name ≠ Text.trim raw := by
  have members : (∀ r ∈ c.newestFirst, r.name ≠ Text.trim raw) ↔
      ∀ r ∈ c.records, r.name ≠ Text.trim raw := by
    simp only [(Catalog.newestFirst_spec c).perm.mem_iff]
  rw [members, ← Catalog.findName?_eq_none_iff, find_eq loaded]
  cases c.findName? (Text.trim raw) <;> simp

/-- The name of a record that is there is found. -/
theorem Stocked.find_name (stocked : s.Stocked c) {r : Record} (member : r ∈ c.records) :
    ∃ r', s.find r.name = .ok r' ∧ r'.name = r.name := by
  have trimmed := (stocked.valid r member).trimmed
  cases found : c.findName? (Text.trim r.name) with
  | none =>
    rw [trimmed] at found
    exact absurd rfl (Catalog.findName?_eq_none_iff.mp found r member)
  | some r' =>
    have named := (Catalog.mem_of_findName? found).2
    exact ⟨r', (find_eq_ok_iff stocked.loaded).mpr found, named.trans trimmed⟩

/-- A record that was just created is found, if the clock does not go backwards. -/
theorem find_created {log : List Entry} (stocked : s.Stocked c) (sound : s.Sound log c)
    (forward : s.clock.Forward) {v : Visit} {name code : String} {r : Record}
    (asked : v.request = .create name code) (done : (s.visit v).1.reply = .record (.ok r))
    (kept : ∀ c' ∈ s.filing? v, s.medium c' = .catalog c') :
    (s.visit v).2.find name = .ok r := by
  obtain ⟨-, c', effect, outcome⟩ := visit_effect stocked.loaded v
  rw [asked, done] at effect
  cases effect with
  | left idle => rcases idle with reads | failed <;> contradiction
  | created named coded =>
    rcases outcome with ⟨filed, file⟩ | ⟨same, -⟩
    · have loaded : (s.visit v).2.load
          = .ok (c.insert (Text.trim name) code s.clock.read.1).2.normalize := by
        rw [load, file, kept _ filed]
      rw [find_eq_ok_iff loaded, Catalog.findName?_normalize]
      refine Catalog.findName?_insert (fun r old => ?_) fun r old => ?_
      · exact stocked.dated forward r old _ (Nat.lt_succ_self _)
      · exact sound.ahead.below r.id (List.mem_map_of_mem old)
    · have longer := congrArg (fun c => c.records.length) same
      simp [Catalog.insert] at longer

/-- Lists and names agree on what is newest. Whatever a readable file holds, its records are listed
newest first, and a name, trimmed, stands for the first of the list that has it; it is not found
exactly if none has.

From an empty shelf on, whatever is asked and whichever requests fail, every record is valid, so the
name of each that is listed is found; and if the clock does not go backwards and the last number is
not given out, a record that was just created is the one found under its name. All this as long as
the medium keeps every catalogue that is written. -/
theorem find_newest_named {medium : Catalog → ShelfFile} {clock : Clock} {visits : List Visit}
    {log : List Entry} (held : (vacant medium clock).visitAll visits = (log, s))
    (kept : ∀ c ∈ (vacant medium clock).filings visits, medium c = .catalog c) :
    (∀ (t : Shelf) (c : Catalog), t.load = .ok c → ∃ list, t.list = .ok list ∧
      NewestFirst c.records list ∧
      (∀ raw r, t.find raw = .ok r ↔ ∃ before after, list = before ++ r :: after ∧
        r.name = Text.trim raw ∧ ∀ r' ∈ before, r'.name ≠ Text.trim raw) ∧
      ∀ raw, t.find raw = .error (.notFound (Text.trim raw)) ↔
        ∀ r ∈ list, r.name ≠ Text.trim raw) ∧
    (∃ c list, s.load = .ok c ∧ s.list = .ok list ∧ (∀ r ∈ c.records, r.Valid) ∧
      ∀ r ∈ list, ∃ r', s.find r.name = .ok r' ∧ r'.name = r.name) ∧
    (clock.Forward → (∀ e ∈ log, ∀ i, e.created? = some i → i < Int64.maxValue) →
      ∀ earlier v later, visits = earlier ++ v :: later →
        let between := ((vacant medium clock).visitAll earlier).2
        ∀ name code r, v.request = .create name code →
          (between.visit v).1.reply = .record (.ok r) → (between.visit v).2.find name = .ok r) := by
  obtain ⟨rfl, rfl⟩ := Prod.mk.inj held
  refine ⟨fun t c loaded => ?_, ?_, ?_⟩
  · refine ⟨c.newestFirst, list_eq loaded, c.newestFirst_spec, fun raw r => ?_,
      fun raw => find_eq_notFound_iff loaded⟩
    rw [find_eq_ok_iff loaded, Catalog.findName?_eq_some_iff]
  · obtain ⟨-, -, c, stocked⟩ := (stocked_vacant medium clock).visitAll visits kept
    refine ⟨c, _, stocked.loaded, list_eq stocked.loaded, stocked.valid, fun r member => ?_⟩
    exact stocked.find_name (c.newestFirst_spec.perm.mem_iff.mp member)
  · rintro forward room earlier v later rfl between name code r asked done
    obtain ⟨c, sound, -⟩ := exists_sound (s := vacant medium clock) trivial room fun c filed => by
      rw [show (vacant medium clock).medium c = .catalog c from kept c filed]
      exact ⟨rfl, rfl⟩
    rw [filings_append] at kept
    obtain ⟨keeps, time, c', stocked⟩ := (stocked_vacant medium clock).visitAll earlier
      fun c filed => kept c (List.mem_append_left _ filed)
    obtain rfl := Except.ok.inj (stocked.loaded.symm.trans sound.loaded)
    refine find_created stocked sound ?_ asked done fun c filed => ?_
    · rw [Clock.Forward, time]
      exact forward
    · rw [keeps]
      exact kept c (List.mem_append_right _ (mem_filings_cons.mpr (.inl filed)))

/-- A clock that stands still, and two records of one name: the second, which has the larger number,
is the one found, also by a name with blanks around it. -/
theorem find_newest_named_tie :
    let clock : Clock := { time := fun _ => 60 }
    let earlier : List Visit := [{ request := .create " a" "x" }, { request := .create "b" " " }]
    let last : Visit := { request := .create "a " "y" }
    let between := ((vacant .catalog clock).visitAll earlier).2
    clock.Forward ∧
      (between.visit last).1.reply = .record (.ok ⟨2, "a", "y", 60, 60, 0, 0⟩) ∧
      (between.visit last).2.find "a " = .ok ⟨2, "a", "y", 60, 60, 0, 0⟩ := by
  intro clock earlier last between
  have held : (vacant .catalog clock).visitAll (earlier ++ [last])
      = (((vacant .catalog clock).visitAll (earlier ++ [last])).1,
        ((vacant .catalog clock).visitAll (earlier ++ [last])).2) := rfl
  have forward : clock.Forward := fun _ _ _ => Int.le_refl _
  have created : ((vacant .catalog clock).visitAll (earlier ++ [last])).1.map Entry.created?
      = [some 1, none, some 2] := by decide +kernel
  have done : (between.visit last).1.reply = .record (.ok ⟨2, "a", "y", 60, 60, 0, 0⟩) := by
    with_unfolding_all rfl
  obtain ⟨-, -, found⟩ := find_newest_named held fun _ _ => rfl
  refine ⟨forward, done, ?_⟩
  exact found forward (room_of_created created (by decide)) earlier last [] rfl _ _ _ rfl done

/-- A record whose code begins with an empty line is created, and cannot be found under its name
right after that. -/
theorem find_loses_leading_break :
    (textual.visit leadingBreak).1.created? = some 1 ∧ textual.clock.Forward ∧
      (textual.visit leadingBreak).2.find "a" = .error .unreadable := by
  refine ⟨by decide +kernel, fun m n before => ?_, ?_⟩
  · show (1767323045 + 60 * m : Int) * 1000000000 + (0 : Nat)
      ≤ (1767323045 + 60 * n) * 1000000000 + (0 : Nat)
    omega
  · rw [find, load, file_leadingBreak]
    rfl

end Shelf

end Pseudocode
