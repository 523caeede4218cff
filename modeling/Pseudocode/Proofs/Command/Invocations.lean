import Pseudocode.Command.Run
import Pseudocode.Proofs.Catalog.Requests

/-!
# What the command does to saved algorithms

An invocation of the command may save a text, delete a record or list the records. This module opens
it once: `Effect` lists what an invocation that found the catalogue `c` can come to, and
`run_effect` says that the list is complete. What is printed about a record names its number first,
so that the number can be read off it (`Announces.unique`). An invocation that fails leaves the file
as it was, unless a failed attempt to write spoils it (`file_run_of_failed`).
-/

namespace Pseudocode.Command

/-! ## Announcements -/

/-- A number that is not negative starts with a digit. -/
theorem repr_ne_minus (m : Nat) (s : String) : m.repr ≠ "-" ++ s := by
  intro same
  have chars : Nat.toDigits 10 m = '-' :: s.toList := by
    simpa using congrArg String.toList same
  have digit : '-'.isDigit = true :=
    Nat.isDigit_of_mem_toDigits (by decide) (by decide) (chars ▸ List.mem_cons_self)
  cases digit

theorem toString_int_inj {i j : Int} (same : toString i = toString j) : i = j := by
  have reads {m n : Nat} (same : m.repr = n.repr) : m = n := by
    have digits : Nat.toDigits 10 m = Nat.toDigits 10 n := String.ofList_injective same
    rw [← Nat.ofDigitChars_ten_toDigits (n := m), digits, Nat.ofDigitChars_ten_toDigits]
  cases i with
  | ofNat m =>
    cases j with
    | ofNat n => exact congrArg Int.ofNat (reads same)
    | negSucc n => exact absurd same (repr_ne_minus m _)
  | negSucc m =>
    cases j with
    | ofNat n => exact absurd same.symm (repr_ne_minus n _)
    | negSucc n =>
      have same : m + 1 = n + 1 := reads (String.append_right_inj "-" |>.mp same)
      rw [Nat.succ.inj same]

theorem space_notMem_toString (i : Int) : ' ' ∉ (toString i).toList := by
  have noDigit {n : Nat} (member : ' ' ∈ n.repr.toList) : False := by
    rw [Nat.toList_repr] at member
    have digit : ' '.isDigit = true :=
      Nat.isDigit_of_mem_toDigits (by decide) (by decide) member
    cases digit
  cases i with
  | ofNat n => exact noDigit
  | negSucc n =>
    intro member
    rcases List.mem_append.mp (String.toList_append ▸ member) with sign | digits
    · exact absurd sign (by decide)
    · exact noDigit digits

/-- What is printed about the record of a number names the number first. -/
def Announces (text : String) (id : Int64) : Prop :=
  ∃ rest, text = "algorithme " ++ toString id.toInt ++ " " ++ rest

theorem announces_append (id : Int64) (what name : String) :
    Announces ("algorithme " ++ toString id.toInt ++ (" " ++ what) ++ name ++ ")\n") id :=
  ⟨what ++ name ++ ")\n", by simp only [String.append_assoc]⟩

/-- A text announces one number at most, the one before its second space. -/
theorem Announces.unique {text : String} {i j : Int64} (first : Announces text i)
    (second : Announces text j) : i = j := by
  have before (i : Int) (rest : List Char) :
      ((toString i).toList ++ ' ' :: rest).takeWhile (· ≠ ' ') = (toString i).toList := by
    rw [List.takeWhile_append_of_pos]
    · simp
    · intro c member
      have other : c ≠ ' ' := fun same => space_notMem_toString i (same ▸ member)
      simpa using other
  obtain ⟨rest, rfl⟩ := first
  obtain ⟨rest', same⟩ := second
  have chars : (toString i.toInt).toList ++ ' ' :: rest.toList
      = (toString j.toInt).toList ++ ' ' :: rest'.toList := by
    have chars := congrArg String.toList same
    simp only [String.toList_append, List.append_assoc] at chars
    exact List.append_cancel_left chars
  have numerals := congrArg (List.takeWhile (· ≠ ' ')) chars
  rw [before, before] at numerals
  exact Int64.toInt_inj.mp (toString_int_inj (String.toList_injective numerals))

/-! ## Invocations -/

/-- The options ask for a text to be saved. -/
def Options.AsksSave (o : Options) : Prop :=
  o.examples = false ∧ o.list = false ∧ o.delete = 0 ∧ o.save ≠ ""

/-- The options ask for nothing but a saved algorithm, under a name that is not trimmed yet. -/
def Options.OnlyLoads (o : Options) (raw : String) : Prop :=
  o.file = "" ∧ o.builtIn = "" ∧ o.load = raw ∧ raw ≠ ""

/-- An invocation for saved algorithms: what is asked, the files that can be read, why the catalogue
cannot be written, if it cannot, and the examples that the command knows. -/
structure Invocation where
  options : Options
  readText : String → Except FileError String
  blocked : Option CatalogError := none
  examples : Examples := {}

namespace Invocation

/-- The name, trimmed, and the text that are to be saved, if the file with the text can be read. -/
def saving? (i : Invocation) : Option (String × String) :=
  let o := i.options
  if o.examples ∨ o.list ∨ o.delete ≠ 0 ∨ o.save = "" ∨ o.file = "" then none
  else
    match i.readText o.file with
    | .ok code => some (Text.trim o.save, code)
    | .error _ => none

/-- The number whose record is to be deleted. -/
def deleting? (i : Invocation) : Option Int64 :=
  let o := i.options
  if o.examples ∨ o.list ∨ o.delete = 0 then none else some o.delete

/-- The catalogue file as the invocation finds it. -/
def shelf (i : Invocation) (s : Shelf) : Shelf :=
  { s with blocked := i.blocked }

/-- Does what is asked. -/
def run (i : Invocation) (s : Shelf) : Handled × Shelf :=
  manage i.options i.readText (i.shelf s) i.examples

/-- Whether a name and a text may be saved by this invocation. -/
def Allows (i : Invocation) (name code : String) : Prop :=
  checkName name = .ok () ∧ checkCode code = .ok () ∧ i.blocked = none

end Invocation

/-- Whether a command did what was asked. -/
def Handled.succeeded : Handled → Bool
  | printed _ => true
  | no => false
  | failed _ => false

theorem Handled.eq_printed {result : Handled} (success : result.succeeded = true) :
    ∃ text, result = .printed text := by
  cases result with
  | printed text => exact ⟨text, rfl⟩
  | no | failed => cases success

/-- What an invocation that finds the catalogue `c` comes to, and the catalogue that it leaves. -/
inductive Effect (c : Catalog) (now : Text.Moment) (i : Invocation) : Handled → Catalog → Prop
  | created {name code text : String} (saving : i.saving? = some (name, code))
      (absent : c.findName? name = none) (allowed : i.Allows name code)
      (announced : Announces text c.nextId) :
      Effect c now i (.printed text) (c.insert name code now).2
  | updated {name code text : String} {r : Record} (saving : i.saving? = some (name, code))
      (found : c.findName? name = some r) (coded : checkCode code = .ok ())
      (free : i.blocked = none) (announced : Announces text r.id) :
      Effect c now i (.printed text)
        { c with
          records := Catalog.modifyFirst r.id (·.patched { code := some code } now) c.records }
  | deleted {id : Int64} {r : Record} {text : String} (deleting : i.deleting? = some id)
      (found : c.find? id = some r) :
      Effect c now i (.printed text) { c with records := Catalog.eraseFirst id c.records }
  | refused {result : Handled} (failed : result.succeeded = false)
      (why : ∀ name code, i.saving? = some (name, code) → ¬i.Allows name code) :
      Effect c now i result c
  | other {result : Handled} (saving : i.saving? = none) (deleting : i.deleting? = none) :
      Effect c now i result c

variable {c c' : Catalog} {s : Shelf} {i : Invocation} {name code : String} {now : Text.Moment}

namespace Invocation

theorem run_of_saving (saving : i.saving? = some (name, code)) (s : Shelf) :
    i.run s = saveAs (i.shelf s) i.options.save code ∧
      Text.trim i.options.save = name := by
  simp only [saving?] at saving
  split at saving
  · cases saving
  · rename_i asked
    simp only [not_or, Bool.not_eq_true, Classical.not_not] at asked
    obtain ⟨noExamples, noList, noDelete, named, filed⟩ := asked
    split at saving
    · rename_i read
      obtain ⟨rfl, rfl⟩ := Prod.mk.inj (Option.some.inj saving)
      refine ⟨?_, rfl⟩
      simp [run, manage, noExamples, noList, noDelete, named, filed, read]
    · cases saving

theorem run_of_deleting {id : Int64} (deleting : i.deleting? = some id) (s : Shelf) :
    i.saving? = none ∧ (i.run s).2 = ((i.shelf s).delete id).2 ∧
      (i.run s).1.succeeded = ((i.shelf s).delete id).1.isOk := by
  simp only [deleting?] at deleting
  split at deleting
  · cases deleting
  · rename_i asked
    simp only [not_or, Bool.not_eq_true] at asked
    obtain ⟨noExamples, noList, asks⟩ := asked
    obtain rfl := Option.some.inj deleting
    refine ⟨by simp [saving?, asks], ?_⟩
    rw [run, manage, if_neg (by simp [noExamples]), if_neg (by simp [noList]), if_pos asks]
    generalize (i.shelf s).delete i.options.delete = answer
    obtain ⟨_ | _, s'⟩ := answer
    · exact ⟨rfl, rfl⟩
    · exact ⟨rfl, rfl⟩

/-- Without a text that can be read nothing is saved. -/
theorem run_of_unread (asks : i.options.AsksSave) (saving : i.saving? = none) (s : Shelf) :
    (i.run s).1.succeeded = false ∧ (i.run s).2 = i.shelf s := by
  obtain ⟨noExamples, noList, noDelete, named⟩ := asks
  rw [run, manage, if_neg (by simp [noExamples]), if_neg (by simp [noList]),
    if_neg (by simp [noDelete]), if_pos named]
  split
  · exact ⟨rfl, rfl⟩
  · rename_i filed
    split
    · exact ⟨rfl, rfl⟩
    · rename_i read
      simp [saving?, noExamples, noList, noDelete, named, filed, read] at saving

theorem run_of_other (saving : i.saving? = none) (deleting : i.deleting? = none) (s : Shelf) :
    (i.run s).2 = i.shelf s := by
  by_cases examples : i.options.examples = true
  · rw [run, manage, if_pos examples]
    split <;> rfl
  by_cases list : i.options.list = true
  · rw [run, manage, if_neg examples, if_pos list]
    split <;> rfl
  have noDelete : i.options.delete = 0 := by simpa [deleting?, examples, list] using deleting
  by_cases named : i.options.save = ""
  · rw [run, manage, if_neg examples, if_neg list, if_neg (by simp [noDelete]),
      if_neg (by simp [named])]
  · have asks : i.options.AsksSave :=
      ⟨by simpa using examples, by simpa using list, noDelete, named⟩
    exact (run_of_unread asks saving s).2

end Invocation

/-! ## What an invocation does -/

/-- A new text is all that a patch sets, so it is all that is checked. -/
theorem valid_code_iff : Patch.Valid { code := some code } ↔ checkCode code = .ok () :=
  Iff.rfl

/-- A text under a new name gets a record. -/
theorem run_of_absent (saving : i.saving? = some (name, code)) (loaded : s.load = .ok c)
    (absent : c.findName? name = none) (allowed : i.Allows name code) :
    ∃ text, i.run s
        = (.printed text, (i.shelf s).later.written (c.insert name code s.clock.read.1).2) ∧
      Announces text c.nextId := by
  obtain ⟨run, rfl⟩ := Invocation.run_of_saving saving s
  obtain ⟨named, coded, free⟩ := allowed
  have loaded' : (i.shelf s).load = .ok c := loaded
  refine ⟨_, ?_, announces_append _ "enregistré (" (Text.trim i.options.save)⟩
  rw [run, saveAs, Shelf.find_eq loaded', absent]
  simp only
  rw [Shelf.create_of_allowed loaded' named coded free]
  rfl

/-- A text under a name that has a record becomes the text of the record. -/
theorem run_of_found (saving : i.saving? = some (name, code)) (loaded : s.load = .ok c)
    {used : Nat} (numbered : c.Numbered used) {r : Record} (found : c.findName? name = some r)
    (coded : checkCode code = .ok ()) (free : i.blocked = none) :
    ∃ text, i.run s = (.printed text, (i.shelf s).later.written { c with
        records := Catalog.modifyFirst r.id (·.patched { code := some code } s.clock.read.1)
          c.records }) ∧ Announces text r.id := by
  obtain ⟨run, rfl⟩ := Invocation.run_of_saving saving s
  have loaded' : (i.shelf s).load = .ok c := loaded
  refine ⟨_, ?_, announces_append _ "mis à jour (" r.name⟩
  rw [run, saveAs, Shelf.find_eq loaded', found]
  simp only
  rw [Shelf.update_of_allowed loaded' (valid_code_iff.mpr coded)
    (Catalog.find?_of_findName? numbered.nodup found) free]
  rfl

/-- What is to be saved gets a record, or a text for its record, or is refused. -/
theorem effect_of_saving (loaded : s.load = .ok c) {used : Nat} (numbered : c.Numbered used)
    (saving : i.saving? = some (name, code)) :
    ∃ c', Effect c s.clock.read.1 i (i.run s).1 c' ∧ s.Leaves (i.run s).2 c c' := by
  have refused (e : CatalogError) (s' : Shelf) (run : i.run s = (.failed (.catalog e), s'))
      (why : ¬i.Allows name code) (leaves : s.Leaves s' c c) :
      ∃ c', Effect c s.clock.read.1 i (i.run s).1 c' ∧ s.Leaves (i.run s).2 c c' := by
    rw [run]
    refine ⟨c, .refused rfl fun name' code' saving' => ?_, leaves⟩
    obtain ⟨rfl, rfl⟩ := Prod.mk.inj (Option.some.inj (saving.symm.trans saving'))
    exact why
  have loaded' : (i.shelf s).load = .ok c := loaded
  cases found : c.findName? name with
  | none =>
    by_cases allowed : i.Allows name code
    · obtain ⟨text, run, announced⟩ := run_of_absent saving loaded found allowed
      rw [run]
      exact ⟨_, .created saving found allowed announced, Shelf.leaves_written (i.shelf s).later ..⟩
    · obtain ⟨run, rfl⟩ := Invocation.run_of_saving saving s
      obtain ⟨e, s', fails, leaves⟩ := Shelf.create_of_refused loaded' allowed
      refine refused e s' ?_ allowed leaves
      rw [run, saveAs, Shelf.find_eq loaded', found]
      simp only
      rw [fails]
  | some r =>
    by_cases allowed : checkCode code = .ok () ∧ i.blocked = none
    · obtain ⟨text, run, announced⟩ := run_of_found saving loaded numbered found allowed.1 allowed.2
      rw [run]
      exact ⟨_, .updated saving found allowed.1 allowed.2 announced,
        Shelf.leaves_written (i.shelf s).later ..⟩
    · obtain ⟨run, rfl⟩ := Invocation.run_of_saving saving s
      obtain ⟨e, s', fails, leaves⟩ : ∃ e s',
          (i.shelf s).update r.id { code := some code } = (.error e, s') ∧ s.Leaves s' c c :=
        Shelf.update_of_refused loaded' fun all => allowed ⟨valid_code_iff.mp all.1, all.2.1⟩
      refine refused e s' ?_ (fun all => allowed all.2) leaves
      rw [run, saveAs, Shelf.find_eq loaded', found]
      simp only
      rw [fails]

/-- Every invocation has one of the effects. -/
theorem run_effect (loaded : s.load = .ok c) {used : Nat} (numbered : c.Numbered used)
    (i : Invocation) :
    ∃ c', Effect c s.clock.read.1 i (i.run s).1 c' ∧ s.Leaves (i.run s).2 c c' := by
  cases saving : i.saving? with
  | some what => exact effect_of_saving loaded numbered saving
  | none =>
    cases deleting : i.deleting? with
    | some id =>
      obtain ⟨-, left, success⟩ := Invocation.run_of_deleting deleting s
      obtain ⟨c', effect, leaves⟩ := Shelf.effect_delete (s := i.shelf s) loaded id
      rw [left]
      refine ⟨c', ?_, leaves⟩
      generalize (Shelf.delete _ id).1 = answer at effect success
      cases effect with
      | deleted found =>
        obtain ⟨text, printed⟩ := Handled.eq_printed success
        rw [printed]
        exact .deleted deleting found
      | left idle =>
        have failed : (i.run s).1.succeeded = false := success.trans (idle.resolve_left nofun)
        exact .refused failed fun name code saving' => nomatch saving.symm.trans saving'
    | none =>
      refine ⟨c, .other saving deleting, ?_⟩
      rw [Invocation.run_of_other saving deleting]
      exact Shelf.leaves_refl s c

/-! ## Writing -/

/-- What saving a text under a name makes of a shelf. Only one of the two requests can come to
writing, since a name is looked up without it. -/
theorem yields_saveAs (s : Shelf) (name code : String) :
    s.Yields (saveAs s name code).1.succeeded (saveAs s name code).2 := by
  rw [saveAs]
  split
  · rename_i existing _
    have yields := s.yields_update existing.id { code := some code }
    generalize s.update existing.id { code := some code } = answer at yields ⊢
    obtain ⟨_ | _, s'⟩ := answer
    · exact yields
    · exact yields
  · have yields := s.yields_create name code
    generalize s.create name code = answer at yields ⊢
    obtain ⟨_ | _, s'⟩ := answer
    · exact yields
    · exact yields
  · exact .left _

/-- What a command about saved algorithms makes of a shelf. -/
theorem yields_manage (o : Options) (readText : String → Except FileError String) (s : Shelf)
    (examples : Examples) :
    s.Yields (manage o readText s examples).1.succeeded (manage o readText s examples).2 := by
  rw [manage]
  by_cases listsExamples : o.examples = true
  · rw [if_pos listsExamples]
    split <;> exact .left _
  rw [if_neg listsExamples]
  by_cases lists : o.list = true
  · rw [if_pos lists]
    split <;> exact .left _
  rw [if_neg lists]
  by_cases deletes : o.delete ≠ 0
  · rw [if_pos deletes]
    have yields := s.yields_delete o.delete
    generalize s.delete o.delete = answer at yields ⊢
    obtain ⟨_ | _, s'⟩ := answer
    · exact yields
    · exact yields
  rw [if_neg deletes]
  by_cases saves : o.save ≠ ""
  · rw [if_pos saves]
    split
    · exact .left _
    · split
      · exact .left _
      · exact yields_saveAs s o.save _
  · rw [if_neg saves]
    exact .left _

/-- A command that does not do what was asked leaves the file as it was, if a failed attempt to
write does. -/
theorem file_run_of_failed (failed : (i.run s).1.succeeded = false) (steady : s.file.Steady) :
    (i.run s).2.file = s.file := by
  have yields : (i.shelf s).Yields (i.run s).1.succeeded (i.run s).2 :=
    yields_manage i.options i.readText (i.shelf s) i.examples
  rw [failed] at yields
  exact yields.file_eq steady

end Pseudocode.Command
