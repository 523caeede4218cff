import Pseudocode.Catalog.Text
import Pseudocode.Proofs.Command.Invocations

/-!
# Saving under a name

Nothing in a catalogue keeps two records from having one name. That no two have comes from the
command, which gives a record of the name a new text if there is one, and makes a record only if
there is none. After any invocations, whichever of them failed and whatever the clock says, a name
stands for what was last saved under it, unless the number announced then was deleted since
(`save_upserts_by_name`).

This needs that the file gives back what is written to it. The text of a catalogue does not always:
a code that begins with an empty line is saved, as the command says, and cannot be read again
(`save_loses_leading_break`).
-/

namespace Pseudocode.Command

/-! ## What was saved last -/

/-- An invocation, what it came to, and the catalogue file that it left. -/
structure Execution where
  invocation : Invocation
  result : Handled
  left : Shelf

namespace Execution

/-- The name and the text that were saved. -/
def saved? (e : Execution) : Option (String × String) :=
  if e.result.succeeded then e.invocation.saving? else none

/-- The number whose record was deleted. -/
def deleted? (e : Execution) : Option Int64 :=
  if e.result.succeeded then e.invocation.deleting? else none

/-- The catalogue that was written. -/
def written? (e : Execution) : Option Catalog :=
  if e.saved?.isSome ∨ e.deleted?.isSome then e.left.attempt else none

/-- A text was saved under a name, and the number of its record announced. -/
def Saves (e : Execution) (name : String) (id : Int64) (code : String) : Prop :=
  e.saved? = some (name, code) ∧ ∃ text, e.result = .printed text ∧ Announces text id

/-- Nothing was saved under a name, nor was the record of a number deleted. -/
def Spares (e : Execution) (name : String) (id : Int64) : Prop :=
  (∀ code, e.saved? ≠ some (name, code)) ∧ e.deleted? ≠ some id

end Execution

/-- Does what an invocation asks. -/
def Invocation.execute (i : Invocation) (s : Shelf) : Execution :=
  ⟨i, (i.run s).1, (i.run s).2⟩

/-- A text was the last to be saved under a name, and the number announced then was not deleted
since. -/
def LastSave (log : List Execution) (name : String) (id : Int64) (code : String) : Prop :=
  ∃ before e after, log = before ++ e :: after ∧ e.Saves name id code ∧
    ∀ e' ∈ after, e'.Spares name id

variable {c c' : Catalog} {s : Shelf} {i : Invocation} {name code : String} {now : Text.Moment}
variable {log : List Execution} {e : Execution} {id : Int64} {left : Shelf} {text : String}

theorem lastSave_nil : ¬LastSave [] name id code := by
  rintro ⟨before, e, after, split, -⟩
  simp at split

theorem lastSave_concat :
    LastSave (log ++ [e]) name id code ↔
      e.Saves name id code ∨ (LastSave log name id code ∧ e.Spares name id) := by
  constructor
  · -- the save is the last execution, or comes before it
    rintro ⟨before, e', after, split, saves, spared⟩
    rcases List.eq_nil_or_concat after with rfl | ⟨after', last, rfl⟩
    · obtain ⟨-, same⟩ := List.append_inj' split rfl
      obtain rfl := List.singleton_inj.mp same
      exact .inl saves
    · rw [List.concat_eq_append] at split spared
      rw [← List.cons_append, ← List.append_assoc] at split
      obtain ⟨rfl, same⟩ := List.append_inj' split rfl
      obtain rfl := List.singleton_inj.mp same
      refine .inr ⟨⟨before, e', after', rfl, saves, fun e' member => ?_⟩, ?_⟩
      · exact spared e' (List.mem_append_left _ member)
      · exact spared e (List.mem_append_right _ (List.mem_singleton_self e))
  · rintro (saves | ⟨⟨before, e', after, rfl, saves, spared⟩, spares⟩)
    · exact ⟨log, e, [], rfl, saves, by simp⟩
    · refine ⟨before, e', after ++ [e], by simp, saves, fun e'' member => ?_⟩
      rcases List.mem_append.mp member with earlier | last
      · exact spared e'' earlier
      · exact List.mem_singleton.mp last ▸ spares

namespace Execution

variable {name' code' : String} {id' : Int64}

theorem saves_iff (saving : i.saving? = some (name, code)) (announced : Announces text id) :
    Saves ⟨i, .printed text, left⟩ name' id' code' ↔ name' = name ∧ id' = id ∧ code' = code := by
  have saved : saved? ⟨i, .printed text, left⟩ = some (name, code) := saving
  rw [Saves, saved]
  constructor
  · rintro ⟨same, text', printed, announced'⟩
    obtain ⟨rfl, rfl⟩ := Prod.mk.inj (Option.some.inj same)
    obtain rfl := Handled.printed.inj printed
    exact ⟨rfl, announced'.unique announced, rfl⟩
  · rintro ⟨rfl, rfl, rfl⟩
    exact ⟨rfl, text, rfl, announced⟩

theorem spares_iff_of_saving (saving : i.saving? = some (name, code)) :
    Spares ⟨i, .printed text, left⟩ name' id' ↔ name' ≠ name := by
  have saved : saved? ⟨i, .printed text, left⟩ = some (name, code) := saving
  have deleted : deleted? ⟨i, .printed text, left⟩ = none := by
    cases deleting : i.deleting? with
    | none => exact deleting
    | some id => exact nomatch saving.symm.trans (Invocation.run_of_deleting deleting left).1
  rw [Spares, saved, deleted]
  constructor
  · rintro ⟨other, -⟩ rfl
    exact other code rfl
  · intro other
    refine ⟨fun code' same => ?_, nofun⟩
    exact other (Prod.mk.inj (Option.some.inj same)).1.symm

end Execution

/-- The catalogue holds exactly what was saved last under each name. -/
structure Upholds (c : Catalog) (log : List Execution) : Prop where
  numbered : ∃ used, used ≤ log.length ∧ c.Numbered used
  named : ∀ r ∈ c.records, checkName r.name = .ok ()
  distinct : (c.records.map Record.name).Nodup
  saves : ∀ name id code, LastSave log name id code ↔
    ∃ r ∈ c.records, r.name = name ∧ r.id = id ∧ r.code = code

theorem upholds_empty : Upholds { nextId := 1 } [] :=
  ⟨⟨0, Nat.le_refl 0, Catalog.numbered_empty⟩, by simp, .nil, fun name id code =>
    ⟨fun last => absurd last lastSave_nil, by simp⟩⟩

namespace Upholds

/-- An execution that saved and deleted nothing leaves what was saved last. -/
theorem unchanged (upholds : Upholds c log) (saved : e.saved? = none)
    (deleted : e.deleted? = none) : Upholds c (log ++ [e]) := by
  obtain ⟨used, fits, numbered⟩ := upholds.numbered
  refine ⟨⟨used, ?_, numbered⟩, upholds.named, upholds.distinct, fun name id code => ?_⟩
  · rw [List.length_append]
    omega
  · rw [lastSave_concat, upholds.saves, Execution.Saves, Execution.Spares, saved, deleted]
    simp

theorem created (upholds : Upholds c log) (room : log.length + 2 < 2 ^ 63)
    (saving : i.saving? = some (name, code)) (absent : c.findName? name = none)
    (named : checkName name = .ok ()) (announced : Announces text c.nextId) :
    Upholds (c.insert name code now).2 (log ++ [⟨i, .printed text, left⟩]) := by
  obtain ⟨used, fits, numbered⟩ := upholds.numbered
  have others := Catalog.findName?_eq_none_iff.mp absent
  refine ⟨⟨used + 1, ?_, numbered.insert (by omega) ..⟩, ?_, ?_, fun name' id code' => ?_⟩
  · rw [List.length_append]
    exact Nat.succ_le_succ fits
  · intro r member
    rcases List.mem_append.mp member with old | new
    · exact upholds.named r old
    · exact List.mem_singleton.mp new ▸ named
  · show ((c.records ++ [(c.insert name code now).1]).map Record.name).Nodup
    rw [List.map_append]
    refine List.nodup_append.mpr ⟨upholds.distinct, List.pairwise_singleton .., ?_⟩
    intro name' old new member same
    obtain ⟨r, member', rfl⟩ := List.mem_map.mp old
    exact others r member' (same.trans (List.mem_singleton.mp member))
  · show _ ↔ ∃ r ∈ c.records ++ [(c.insert name code now).1], _
    rw [lastSave_concat, upholds.saves, Execution.saves_iff saving announced,
      Execution.spares_iff_of_saving saving]
    constructor
    · rintro (⟨rfl, rfl, rfl⟩ | ⟨⟨r, member, same⟩, -⟩)
      · exact ⟨_, List.mem_append_right _ (List.mem_singleton_self _), rfl, rfl, rfl⟩
      · exact ⟨r, List.mem_append_left _ member, same⟩
    · rintro ⟨r, member, rfl, rfl, rfl⟩
      rcases List.mem_append.mp member with old | new
      · exact .inr ⟨⟨r, old, rfl, rfl, rfl⟩, others r old⟩
      · obtain rfl := List.mem_singleton.mp new
        exact .inl ⟨rfl, rfl, rfl⟩

theorem updated (upholds : Upholds c log) (saving : i.saving? = some (name, code)) {r : Record}
    (found : c.findName? name = some r) (announced : Announces text r.id) :
    Upholds { c with
        records := Catalog.modifyFirst r.id (·.patched { code := some code } now) c.records }
      (log ++ [⟨i, .printed text, left⟩]) := by
  obtain ⟨used, fits, numbered⟩ := upholds.numbered
  obtain ⟨member, rfl⟩ := Catalog.mem_of_findName? found
  have ids : ∀ r : Record, (r.patched { code := some code } now).id = r.id := fun _ => rfl
  have names : ∀ r : Record, (r.patched { code := some code } now).name = r.name := fun _ => rfl
  refine ⟨⟨used, ?_, numbered.replace ?_⟩, ?_, ?_, fun name' id code' => ?_⟩
  · rw [List.length_append]
    omega
  · rw [Catalog.map_modifyFirst ids]
    exact List.Sublist.refl _
  · intro r' member'
    have name : r'.name ∈ c.records.map Record.name :=
      Catalog.map_modifyFirst names ▸ List.mem_map_of_mem member'
    obtain ⟨old, member'', same⟩ := List.mem_map.mp name
    exact same ▸ upholds.named old member''
  · rw [Catalog.map_modifyFirst names]
    exact upholds.distinct
  · rw [lastSave_concat, upholds.saves, Execution.saves_iff saving announced,
      Execution.spares_iff_of_saving saving]
    simp only [Catalog.mem_modifyFirst numbered.nodup]
    -- the record of the name is the only one with its number, and the only one with the name
    constructor
    · rintro (⟨rfl, rfl, rfl⟩ | ⟨⟨r', member', rfl, rfl, rfl⟩, other⟩)
      · exact ⟨_, .inr ⟨r, member, rfl, rfl⟩, rfl, rfl, rfl⟩
      · refine ⟨r', .inl ⟨member', fun same => other ?_⟩, rfl, rfl, rfl⟩
        rw [Catalog.eq_of_nodup_map numbered.nodup member' member same]
    · rintro ⟨r', ⟨member', other⟩ | ⟨old, member', same, rfl⟩, rfl, rfl, rfl⟩
      · refine .inr ⟨⟨r', member', rfl, rfl, rfl⟩, fun same => other ?_⟩
        rw [Catalog.eq_of_nodup_map upholds.distinct member' member same]
      · obtain rfl := Catalog.eq_of_nodup_map numbered.nodup member' member same
        exact .inl ⟨rfl, rfl, rfl⟩

theorem deleted (upholds : Upholds c log) (deleting : i.deleting? = some id) :
    Upholds { c with records := Catalog.eraseFirst id c.records }
      (log ++ [⟨i, .printed text, left⟩]) := by
  obtain ⟨used, fits, numbered⟩ := upholds.numbered
  have fewer : (Catalog.eraseFirst id c.records).Sublist c.records := Catalog.eraseFirst_sublist
  have saved : Execution.saved? ⟨i, .printed text, left⟩ = none :=
    (Invocation.run_of_deleting deleting left).1
  have deleted : Execution.deleted? ⟨i, .printed text, left⟩ = some id := deleting
  refine ⟨⟨used, ?_, numbered.replace (fewer.map _)⟩, fun r member => ?_, ?_,
    fun name id' code => ?_⟩
  · rw [List.length_append]
    omega
  · exact upholds.named r (fewer.subset member)
  · exact (fewer.map Record.name).nodup upholds.distinct
  · rw [lastSave_concat, upholds.saves, Execution.Saves, Execution.Spares, saved, deleted]
    simp only [Catalog.mem_eraseFirst numbered.nodup]
    constructor
    · rintro (⟨none, -⟩ | ⟨⟨r, member, rfl, rfl, rfl⟩, -, other⟩)
      · cases none
      · exact ⟨r, ⟨member, fun same => other (congrArg some same.symm)⟩, rfl, rfl, rfl⟩
    · rintro ⟨r, ⟨member, other⟩, rfl, rfl, rfl⟩
      refine .inr ⟨⟨r, member, rfl, rfl, rfl⟩, nofun, fun same => ?_⟩
      exact other (Option.some.inj same).symm

/-- What one invocation does keeps to what was saved last. -/
theorem effect {result : Handled} (upholds : Upholds c log) (room : log.length + 2 < 2 ^ 63)
    (effect : Effect c now i result c') (left : Shelf) :
    Upholds c' (log ++ [⟨i, result, left⟩]) := by
  cases effect with
  | created saving absent allowed announced =>
    exact upholds.created room saving absent allowed.1 announced
  | updated saving found coded free announced => exact upholds.updated saving found announced
  | deleted deleting found => exact upholds.deleted deleting
  | refused failed why =>
    exact upholds.unchanged (by simp [Execution.saved?, failed])
      (by simp [Execution.deleted?, failed])
  | other saving deleting =>
    exact upholds.unchanged (by simp [Execution.saved?, saving])
      (by simp [Execution.deleted?, deleting])

end Upholds

/-- What an invocation leaves is loaded next, if the medium keeps what is written. -/
theorem holds_execute (holds : s.Holds c)
    (effect : Effect c s.clock.read.1 i (i.run s).1 c') (leaves : s.Leaves (i.run s).2 c c')
    (normal : c'.normalize = c')
    (keeps : ∀ c ∈ (i.execute s).written?, s.medium c = .catalog c) :
    (i.execute s).left.Holds c' := by
  have unchanged (same : (i.run s).2.file = s.file) : (i.run s).2.Holds c :=
    holds.of_file_eq same
  have changed (writes : (i.execute s).saved?.isSome ∨ (i.execute s).deleted?.isSome) :
      (i.run s).2.Holds c' := by
    rw [Execution.written?, if_pos writes] at keeps
    exact leaves.holds (keeps c') normal holds
  show (i.run s).2.Holds c'
  generalize answer : (i.run s).1 = result at effect
  cases effect with
  | created saving | updated saving =>
    refine changed (.inl ?_)
    simp [Execution.saved?, Invocation.execute, answer, saving, Handled.succeeded]
  | deleted deleting =>
    refine changed (.inr ?_)
    simp [Execution.deleted?, Invocation.execute, answer, deleting, Handled.succeeded]
  | refused failed => exact unchanged (file_run_of_failed (answer ▸ failed) holds.steady)
  | other saving deleting =>
    refine unchanged ?_
    rw [Invocation.run_of_other saving deleting]
    rfl

/-! ## Runs -/

/-- Does what is asked in order, each invocation on the file that the one before it left. -/
def runAll (s : Shelf) : List Invocation → List Execution × Shelf
  | [] => ([], s)
  | i :: is =>
    let (log, s') := runAll (i.execute s).left is
    (i.execute s :: log, s')

theorem Upholds.execute (holds : s.Holds c) (upholds : Upholds c log)
    (room : log.length + 2 < 2 ^ 63)
    (keeps : ∀ c ∈ (i.execute s).written?, s.medium c = .catalog c) :
    (i.execute s).left.medium = s.medium ∧
      ∃ c', (i.execute s).left.Holds c' ∧ Upholds c' (log ++ [i.execute s]) := by
  obtain ⟨used, -, numbered⟩ := upholds.numbered
  obtain ⟨c', effect, leaves⟩ := run_effect holds.loaded numbered i
  have upholds' : Upholds c' (log ++ [i.execute s]) := upholds.effect room effect (i.run s).2
  obtain ⟨used', -, numbered'⟩ := upholds'.numbered
  exact ⟨leaves.1, c', holds_execute holds effect leaves numbered'.normalize keeps, upholds'⟩

theorem Upholds.runAll (holds : s.Holds c) (upholds : Upholds c log) (is : List Invocation)
    (room : log.length + is.length + 1 < 2 ^ 63)
    (keeps : ∀ e ∈ (runAll s is).1, ∀ c ∈ e.written?, s.medium c = .catalog c) :
    ∃ c', (Command.runAll s is).2.Holds c' ∧ Upholds c' (log ++ (Command.runAll s is).1) := by
  induction is generalizing s log c with
  | nil =>
    rw [Command.runAll, List.append_nil]
    exact ⟨c, holds, upholds⟩
  | cons i is ih =>
    rw [List.length_cons] at room
    obtain ⟨medium, c', holds', upholds'⟩ :=
      upholds.execute holds (by omega) (keeps _ (List.mem_cons_self ..))
    have split : log ++ (Command.runAll s (i :: is)).1
        = log ++ [i.execute s] ++ (Command.runAll (i.execute s).left is).1 := by
      rw [List.append_assoc]
      rfl
    have room' : (log ++ [i.execute s]).length + is.length + 1 < 2 ^ 63 := by
      rw [List.length_append, List.length_singleton]
      omega
    rw [split]
    refine ih holds' upholds' room' fun e member => ?_
    rw [medium]
    exact keeps e (List.mem_cons_of_mem _ member)

/-- A name under which something was saved last is found. -/
theorem Upholds.find_of_lastSave (loaded : s.load = .ok c) (upholds : Upholds c log) {raw : String}
    (last : LastSave log (Text.trim raw) id code) :
    ∃ r, s.find raw = .ok r ∧ r.id = id ∧ r.name = Text.trim raw ∧ r.code = code := by
  obtain ⟨r, member, named, numbered, coded⟩ := (upholds.saves ..).mp last
  rw [Shelf.find_eq loaded]
  cases found : c.findName? (Text.trim raw) with
  | none => exact absurd named (Catalog.findName?_eq_none_iff.mp found r member)
  | some r' =>
    obtain ⟨member', named'⟩ := Catalog.mem_of_findName? found
    obtain rfl :=
      Catalog.eq_of_nodup_map upholds.distinct member member' (named.trans named'.symm)
    exact ⟨r, rfl, numbered, named, coded⟩

theorem Upholds.find_of_not_lastSave (loaded : s.load = .ok c) (upholds : Upholds c log)
    {raw : String} (none : ∀ id code, ¬LastSave log (Text.trim raw) id code) :
    s.find raw = .error (.notFound (Text.trim raw)) := by
  have absent : c.findName? (Text.trim raw) = .none :=
    Catalog.findName?_eq_none_iff.mpr fun r member named =>
      none r.id r.code ((upholds.saves ..).mpr ⟨r, member, named, rfl, rfl⟩)
  rw [Shelf.find_eq loaded, absent]

/-- A text is saved if it can be read, is not blank, has a valid name, and the file can be
written. -/
theorem Upholds.succeeded_iff (loaded : s.load = .ok c) (upholds : Upholds c log)
    (asks : i.options.AsksSave) :
    (i.run s).1.succeeded = true ↔
      ∃ name code, i.saving? = some (name, code) ∧ i.Allows name code := by
  cases saving : i.saving? with
  | none => simp [(Invocation.run_of_unread asks saving s).1]
  | some what =>
    obtain ⟨used, -, numbered⟩ := upholds.numbered
    obtain ⟨c', effect, -⟩ := run_effect loaded numbered i
    generalize (i.run s).1 = result at effect
    cases effect with
    | created saving' absent allowed announced =>
      exact iff_of_true rfl ⟨_, _, saving.symm.trans saving', allowed⟩
    | updated saving' found coded free announced =>
      obtain ⟨member, rfl⟩ := Catalog.mem_of_findName? found
      have named := upholds.named _ member
      exact iff_of_true rfl ⟨_, _, saving.symm.trans saving', named, coded, free⟩
    | deleted deleting =>
      exact nomatch saving.symm.trans (Invocation.run_of_deleting deleting s).1
    | refused failed why =>
      refine iff_of_false (by simp [failed]) ?_
      rintro ⟨name, code, same, allowed⟩
      exact why name code (saving.trans same) allowed
    | other none => exact nomatch saving.symm.trans none

theorem source_of_onlyLoads {o : Options} {raw : String} (only : o.OnlyLoads raw)
    (readText : String → Except FileError String) (s : Shelf) (examples : Examples) :
    source o readText s examples = match s.find raw with
      | .ok r => .ok { name := r.name, code := r.code, answers := o.answers }
      | .error e => .error (.inContext "load algorithm" (.catalog e)) := by
  obtain ⟨noFile, noBuiltIn, rfl, named⟩ := only
  cases found : s.find o.load with
  | ok r => simp [source, noFile, noBuiltIn, named, found]
  | error e => simp [source, noFile, noBuiltIn, named, found]

/-! ## A first save -/

theorem runAll_cons {result : Handled} {s' : Shelf} (run : i.run s = (result, s'))
    (is : List Invocation) :
    runAll s (i :: is) = (⟨i, result, s'⟩ :: (runAll s' is).1, (runAll s' is).2) := by
  rw [runAll, Invocation.execute, run]

/-- The invocation that saves a text under a name. -/
def Invocation.save (name code : String) : Invocation where
  options := { save := name, file := "algo.txt" }
  readText := fun _ => .ok code

/-- A catalogue file that was not written yet, and a clock that goes backwards. -/
def unwritten (medium : Catalog → ShelfFile) : Shelf where
  file := .absent
  medium := medium
  clock := { time := fun n => 1767323045 - 60 * n }

/-- The catalogue in which a text was saved as the first. -/
def firstCatalog (code : String) : Catalog :=
  (Catalog.insert { nextId := 1 } "a" code { seconds := 1767323045 - 60 * 1 }).2

theorem saving?_spaced : (Invocation.save " a " code).saving? = some ("a", code) := by
  have trimmed : Text.trim " a " = "a" := by decide +kernel
  rw [← trimmed]
  rfl

theorem allows_spaced (coded : Text.isBlankText code = false) :
    (Invocation.save " a " code).Allows "a" code := by
  refine ⟨?_, ?_, rfl⟩
  · rw [checkName, if_neg (by decide +kernel), if_neg (by decide +kernel)]
  · rw [checkCode, if_neg (by simp [coded])]

theorem run_unwritten (medium : Catalog → ShelfFile) (code : String)
    (coded : Text.isBlankText code = false) :
    ∃ text, (Invocation.save " a " code).run (unwritten medium)
        = (.printed text, (unwritten medium).later.written (firstCatalog code)) ∧
      Announces text 1 := by
  have absent : Catalog.findName? { nextId := 1 } "a" = none :=
    Catalog.findName?_eq_none_iff.mpr (by simp)
  have loaded : (unwritten medium).load = .ok { nextId := 1 } := rfl
  exact run_of_absent saving?_spaced loaded absent (allows_spaced coded)

theorem find_written_of_garbled (lost : s.medium c = .garbled) (name : String) :
    (s.written c).find name = .error .unreadable := by
  rw [Shelf.find, Shelf.load, Shelf.written, lost]
  rfl

/-! ## Saving under a name -/

/-- Whatever is saved, deleted and listed, whatever the clock says and whichever commands fail: no
two records have one name, and a name stands for the text that was last saved under it, unless the
number announced then was deleted since; without such a text it is not found. A text is saved if
nothing speaks against it, and a command that fails leaves the file as it was. All this as long as
the medium keeps every catalogue that is written. -/
theorem save_upserts_by_name {medium : Catalog → ShelfFile} {clock : Clock}
    {invocations : List Invocation}
    (held : runAll { file := .absent, medium, clock } invocations = (log, s))
    (few : invocations.length < 2 ^ 63 - 1)
    (keeps : ∀ e ∈ log, ∀ c ∈ e.written?, medium c = .catalog c) :
    (∃ c, s.load = .ok c ∧ (c.records.map Record.name).Nodup) ∧
    (∀ raw id code, LastSave log (Text.trim raw) id code →
      (∃ r, s.find raw = .ok r ∧ r.id = id ∧ r.name = Text.trim raw ∧ r.code = code) ∧
      ∀ (o : Options) readText examples, o.OnlyLoads raw →
        source o readText s examples
          = .ok { name := Text.trim raw, code, answers := o.answers }) ∧
    (∀ raw, (∀ id code, ¬LastSave log (Text.trim raw) id code) →
      s.find raw = .error (.notFound (Text.trim raw)) ∧
      ∀ (o : Options) readText examples, o.OnlyLoads raw →
        source o readText s examples
          = .error (.inContext "load algorithm" (.catalog (.notFound (Text.trim raw))))) ∧
    (∀ i : Invocation, i.options.AsksSave → ((i.run s).1.succeeded = true ↔
      ∃ name code, i.saving? = some (name, code) ∧ i.Allows name code)) ∧
    ∀ i : Invocation, (i.run s).1.succeeded = false → (i.run s).2.file = s.file := by
  obtain ⟨c, ⟨steady, loaded⟩, upholds⟩ : ∃ c, s.Holds c ∧ Upholds c log := by
    have run := upholds_empty.runAll (s := { file := .absent, medium, clock }) ⟨rfl, rfl⟩ invocations
    simp only [held, List.nil_append, List.length_nil, Nat.zero_add] at run
    exact run (by omega) keeps
  refine ⟨⟨c, loaded, upholds.distinct⟩, fun raw id code last => ?_, fun raw none => ?_,
    fun i asks => upholds.succeeded_iff loaded asks, fun i failed => file_run_of_failed failed steady⟩
  · obtain ⟨r, found, numbered, named, coded⟩ := upholds.find_of_lastSave loaded last
    refine ⟨⟨r, found, numbered, named, coded⟩, fun o readText examples only => ?_⟩
    rw [source_of_onlyLoads only, found, ← named, ← coded]
  · have missing := upholds.find_of_not_lastSave loaded none
    refine ⟨missing, fun o readText examples only => ?_⟩
    rw [source_of_onlyLoads only, missing]

/-- A second text under the name takes the place of the first. -/
theorem save_upserts_by_name_twice :
    let invocations : List Invocation :=
      [.save " a " "Début\nFin\n", .save " a " "Début\nÉcrire 2\nFin\n"]
    let run := runAll (unwritten .catalog) invocations
    invocations.length < 2 ^ 63 - 1 ∧
      (∀ e ∈ run.1, ∀ c ∈ e.written?, ShelfFile.catalog c = .catalog c) ∧
      LastSave run.1 "a" 1 "Début\nÉcrire 2\nFin\n" ∧
      ∃ r, run.2.find "a" = .ok r ∧ r.id = 1 ∧ r.code = "Début\nÉcrire 2\nFin\n" := by
  intro invocations run
  obtain ⟨text, first, -⟩ := run_unwritten .catalog "Début\nFin\n" (by decide +kernel)
  have loaded : ((unwritten .catalog).later.written (firstCatalog "Début\nFin\n")).load
      = .ok (firstCatalog "Début\nFin\n") := rfl
  have numbered : (firstCatalog "Début\nFin\n").Numbered 1 :=
    Catalog.numbered_empty.insert (by decide) ..
  have found : (firstCatalog "Début\nFin\n").findName? "a"
      = some (Catalog.insert { nextId := 1 } "a" "Début\nFin\n"
          { seconds := 1767323045 - 60 * 1 }).1 := by
    simp [Catalog.findName?, Catalog.newestFirst, firstCatalog, Catalog.insert]
  have allowed : (Invocation.save " a " "Début\nÉcrire 2\nFin\n").Allows "a" _ :=
    allows_spaced (by decide +kernel)
  obtain ⟨text', second, announced⟩ :=
    run_of_found saving?_spaced loaded numbered found allowed.2.1 rfl
  have held : runAll (unwritten .catalog) invocations = (run.1, run.2) := rfl
  have few : invocations.length < 2 ^ 63 - 1 := by decide
  have last : LastSave run.1 "a" 1 "Début\nÉcrire 2\nFin\n" := by
    show LastSave (runAll _ _).1 _ _ _
    rw [runAll_cons first, runAll_cons second]
    refine ⟨[_], _, [], rfl, ?_, by simp⟩
    exact (Execution.saves_iff saving?_spaced announced).mpr ⟨rfl, rfl, rfl⟩
  have trimmed : Text.trim "a" = "a" := by decide +kernel
  obtain ⟨⟨r, found, numbered, -, coded⟩, -⟩ :=
    (save_upserts_by_name held few fun _ _ _ _ => rfl).2.1 "a" 1 _ (trimmed.symm ▸ last)
  exact ⟨few, fun _ _ _ _ => rfl, last, r, found, numbered, coded⟩

-- The text of a catalogue keeps a code whose first line starts with a letter.
example : (firstCatalog "Début\nFin\n").filed = .catalog (firstCatalog "Début\nFin\n") := by
  decide +kernel

/-- A text that begins with an empty line is saved under a name, as the command says, and after that
the file cannot be read. -/
theorem save_loses_leading_break :
    let run := runAll (unwritten Catalog.filed) [.save " a " "\nDébut\nFin\n"]
    LastSave run.1 "a" 1 "\nDébut\nFin\n" ∧ run.2.find "a" = .error .unreadable := by
  obtain ⟨text, run, announced⟩ :=
    run_unwritten Catalog.filed "\nDébut\nFin\n" (by decide +kernel)
  have lost :
      (unwritten Catalog.filed).later.medium (firstCatalog "\nDébut\nFin\n") = .garbled := by
    decide +kernel
  rw [runAll_cons run]
  refine ⟨⟨[], _, [], rfl, ?_, by simp⟩, find_written_of_garbled lost "a"⟩
  exact (Execution.saves_iff saving?_spaced announced).mpr ⟨rfl, rfl, rfl⟩

end Pseudocode.Command
