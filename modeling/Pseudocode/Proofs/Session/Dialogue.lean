import Pseudocode.Proofs.Machine.Invariant
import Pseudocode.Proofs.Tree.Succession
import Pseudocode.Session.Dialogue

/-!
# A dialogue prints every output once

Every answer of a dialogue runs the program again from the top, and only a count of what is printed
tells the old outputs from the new ones. That this is enough rests on three facts: a session always
shows what one run with all answers so far returns (`Session.Shows`), such runs only extend each
other's output (`Machine.run_output_prefix`), and a run that neither waits nor fails is completed
(`Machine.completed_of_free`). By induction on the answers that are left, a dialogue tells what the
runs with more and more answers return, up to the first that does not wait (`Transcript.Tells`).
-/

namespace Pseudocode

/-! ## Runs with a positive budget -/

namespace Machine

variable {m m' : Machine} {p : Program}

/-- What a run returns depends on the budget and the answers. -/
theorem run_congr (limited : 0 < m.budget) (budget : m'.budget = m.budget)
    (history : m'.history = m.history) : (m'.run (some p)).2 = (m.run (some p)).2 := by
  obtain ⟨n, d, drives, response⟩ := exists_drives_run limited p
  have supply : m'.supply = m.supply := by rw [Machine.supply, budget, history]; rfl
  rw [response]
  exact run_of_drives (supply ▸ drives) (by omega)

/-- With more answers behind the same ones a run extends the output. -/
theorem run_output_prefix (limited : 0 < m.budget) (budget : m'.budget = m.budget)
    (history : m.history.toList <+: m'.history.toList) :
    (m.run (some p)).2.snapshot.output.toList
      <+: (m'.run (some p)).2.snapshot.output.toList := by
  obtain ⟨n, d, drives, response⟩ := exists_drives_run limited p
  obtain ⟨n', d', drives', response'⟩ := exists_drives_run (m := m') (budget ▸ limited) p
  rw [response, response']
  exact (drives.extend ⟨budget, history⟩ drives').2

/-- A run that fails neither waits nor is completed. -/
theorem going_of_fault (limited : 0 < m.budget) {fault : Fault}
    (failed : (m.run (some p)).2.fault = some fault) :
    (m.run (some p)).2.snapshot.pending = none ∧
      (m.run (some p)).2.snapshot.completed = false := by
  obtain ⟨n, d, drives, response⟩ := exists_drives_run limited p
  rw [response] at failed ⊢
  rcases drives.reached_or_failed with ⟨u, rfl, -⟩ | ⟨u, error, rfl, going⟩
  · cases failed
  · obtain ⟨open', free⟩ := Control.open_of_going going
    exact ⟨congrArg (Option.map Prompt.name) free, open'⟩

/-- A run that does not fail and does not wait is completed. -/
theorem completed_of_free (limited : 0 < m.budget) (returns : (m.run (some p)).2.fault = none)
    (free : (m.run (some p)).2.snapshot.pending = none) :
    (m.run (some p)).2.snapshot.completed = true := by
  obtain ⟨n, d, drives, response⟩ := exists_drives_run limited p
  rw [response] at returns free ⊢
  rcases drives.reached_or_failed with ⟨u, rfl, halted⟩ | ⟨u, error, rfl, -⟩
  · have free : u.control.pending = none := Option.map_eq_none_iff.mp free
    rwa [Control.halted, free, Option.isSome_none, Bool.or_false] at halted
  · cases returns

/-- A run that waits is not completed. -/
theorem open_of_waiting {name : String}
    (waits : (m.run (some p)).2.snapshot.pending = some name) :
    (m.run (some p)).2.snapshot.completed = false := by
  have apart := (keeps_drive (m := m) (fun _ halted => halted) (Task.coherent_ofProgram p _)).apart
  rw [← run_eq_drive, waits] at apart
  simpa using apart

/-- A run leaves the budget and the answers, and the variables that it returns. -/
theorem run_leaves (m : Machine) (p : Program) :
    (m.run (some p)).1.budget = m.budget ∧ (m.run (some p)).1.history = m.history ∧
      (m.run (some p)).1.memory.vars = (m.run (some p)).2.snapshot.vars := by
  rw [run_eq_drive, drive_eq_conclude]
  refine ⟨budget_conclude m _, history_conclude m _, ?_⟩
  generalize Task.drive m.supply Control.halted (m.fuel (.ofProgram p)) (.ofProgram p) = d
  cases d <;> rfl

/-- A new machine that was given answers. -/
def given (budget : Int) (answers : List String) : Machine :=
  (withBudget budget).provideAll answers

theorem budget_given (budget : Int) (answers : List String) :
    (given budget answers).budget = budget.toNat :=
  budget_provideAll ..

theorem limited_given {budget : Int} (positive : 0 < budget) (answers : List String) :
    0 < (given budget answers).budget := by
  rw [budget_given]
  omega

theorem history_given (budget : Int) (answers : List String) :
    (given budget answers).history = (answers.map Value.ofAnswer).toArray := by
  rw [given, history_provideAll]
  exact Array.empty_append

end Machine

/-! ## Sessions -/

/-- The session was just run with the answers `given`. -/
structure Session.Shows (s : Session) (budget : Int) (p : Program) (given : List String) :
    Prop where
  program : s.program = some p
  mode : s.mode ≠ .step
  limit : s.machine.budget = budget.toNat
  history : s.machine.history = (given.map Value.ofAnswer).toArray
  last : s.last = ((Machine.given budget given).run (some p)).2.snapshot
  fault : s.fault = ((Machine.given budget given).run (some p)).2.fault
  vars : s.machine.memory.vars = s.last.vars

namespace Session

variable {s : Session} {budget : Int} {p : Program} {given : List String}

theorem exists_of_waiting (s : Session) (waiting : s.waiting = true) :
    s.fault = none ∧ ∃ name, s.last.pending = some name := by
  obtain ⟨returns, waits⟩ := Bool.and_eq_true_iff.mp waiting
  exact ⟨Option.isNone_iff_eq_none.mp returns, Option.isSome_iff_exists.mp waits⟩

theorem run_of_program (program : s.program = some p) :
    s.run = record { s with machine := (s.machine.run (some p)).1, mode := .run }
      (s.machine.run (some p)).2 := by
  rw [run, withProgram]
  simp only [program]

theorem mode_record_ne_step (r : Response) (h : s.mode ≠ .step) : (s.record r).mode ≠ .step := by
  unfold record
  split
  · nofun
  · exact h

/-- A session whose machine has the answers `given` runs as a new machine with these answers. -/
theorem shows_run (positive : 0 < budget) (program : s.program = some p)
    (limit : s.machine.budget = budget.toNat)
    (history : s.machine.history = (given.map Value.ofAnswer).toArray) :
    s.run.Shows budget p given := by
  have response : (s.machine.run (some p)).2 = ((Machine.given budget given).run (some p)).2 :=
    Machine.run_congr (Machine.limited_given positive given)
      (limit.trans (Machine.budget_given ..).symm) (history.trans (Machine.history_given ..).symm)
  obtain ⟨sameLimit, sameHistory, vars⟩ := s.machine.run_leaves p
  rw [run_of_program program]
  refine ⟨program, mode_record_ne_step _ nofun, sameLimit.trans limit, sameHistory.trans history,
    ?_, ?_, vars⟩
  · exact congrArg Response.snapshot response
  · exact congrArg Response.fault response

theorem shows_start (positive : 0 < budget) {source : SourceText}
    (parsed : Source.program source.code = .ok p) :
    (start source budget).run.Shows budget p source.answers := by
  let s : Session := { start source budget with program := some p }
  have run_eq : (start source budget).run = s.run := by
    show withProgram _ _ = _
    rw [withProgram]
    simp only [start, parsed]
    rfl
  rw [run_eq]
  exact shows_run positive rfl (Machine.budget_given ..) (Machine.history_given ..)

/-- An answer runs the program again with one more answer. -/
theorem shows_provide (positive : 0 < budget) (h : s.Shows budget p given) (x : String) :
    (s.provide x).Shows budget p (given ++ [x]) := by
  rw [provide, if_neg h.mode]
  refine shows_run positive h.program h.limit ?_
  show s.machine.history.push _ = _
  rw [h.history]
  simp

end Session

/-! ## Transcripts -/

namespace Transcript

/-- The lines printed. -/
def lines (t : Transcript) : List String :=
  t.events.filterMap fun
    | .print line => some line
    | _ => none

theorem printed_eq_join (t : Transcript) :
    t.printed = String.join (t.lines.map fun line => line ++ "\n") := by
  rcases t with ⟨events, fault, session⟩
  unfold printed lines
  induction events with
  | nil => rfl
  | cons e es ih => cases e <;> simpa using ih

/-- The dialogue shows what the runs with more and more of `answers` show, from that with none up to
that with `used`, the first that does not wait if there is one: their questions, the outputs of the
last one but those already printed, and the variables at its end. -/
structure Tells (t : Transcript) (shown : List String → Snapshot) (answers used : List String)
    (printed : Nat) (showVars : Bool) : Prop where
  part : used <+: answers
  waits : ∀ i < used.length, (shown (answers.take i)).pending ≠ none
  stops : used ≠ answers → (shown used).pending = none
  questions : ∀ i, t.questions[i]? =
    if i ≤ used.length then (shown (answers.take i)).pending.map Dialogue.question else none
  lines : t.lines = ((shown used).output.toList.drop printed).map Value.toText ++
    if showVars && (shown used).completed then Dialogue.tableLines (shown used).vars else []

end Transcript

namespace Dialogue

open Transcript

variable {s : Session} {answers : List String} {printed : Nat} {showVars : Bool} {ending : Ending}

theorem lines_prints (ls : List String) (es : List Event) (fault : Option Fault) (s : Session) :
    lines ⟨prints ls ++ es, fault, s⟩ = ls ++ lines ⟨es, fault, s⟩ := by
  rw [lines, prints, List.filterMap_append, List.filterMap_map]
  exact congrArg (· ++ _) List.filterMap_some

theorem questions_prints (ls : List String) (es : List Event) (fault : Option Fault)
    (s : Session) : questions ⟨prints ls ++ es, fault, s⟩ = questions ⟨es, fault, s⟩ := by
  simp [questions, prints]

/-- What an answered question adds to a dialogue: it is asked, and the answer may be kept. -/
theorem lines_exchange (q a : String) (es : List Event) (fault : Option Fault) (s : Session) :
    lines ⟨.ask q :: (if Text.isBlankText a then [] else [.remember a]) ++ es, fault, s⟩
      = lines ⟨es, fault, s⟩ := by
  cases Text.isBlankText a <;> rfl

theorem questions_exchange (q a : String) (es : List Event) (fault : Option Fault) (s : Session) :
    questions ⟨.ask q :: (if Text.isBlankText a then [] else [.remember a]) ++ es, fault, s⟩
      = q :: questions ⟨es, fault, s⟩ := by
  cases Text.isBlankText a <;> rfl

theorem goOn_of_fault {f : Fault} (failed : s.fault = some f) :
    goOn showVars ending s printed answers = ⟨newOutputs s printed ++ [], some f, s⟩ := by
  cases answers <;> simp [goOn, failed]

theorem goOn_of_free (returns : s.fault = none) (free : s.last.pending = none) :
    goOn showVars ending s printed answers = ⟨newOutputs s printed ++
      prints (if showVars then tableLines s.machine.memory.vars else []), none, s⟩ := by
  cases answers <;> cases showVars <;> simp [goOn, returns, free, prints]

theorem goOn_of_waiting_nil {name : String} (returns : s.fault = none)
    (waits : s.last.pending = some name) :
    ∃ fault, goOn showVars ending s printed []
      = ⟨newOutputs s printed ++ [.ask (question name)], fault, s⟩ := by
  cases ending with
  | interrupted => exact ⟨some (.interrupted s.last.line), by simp [goOn, returns, waits]⟩
  | failed reason => exact ⟨some (.unanswered reason), by simp [goOn, returns, waits]⟩

theorem goOn_of_waiting_cons {name a : String} (returns : s.fault = none)
    (waits : s.last.pending = some name) :
    goOn showVars ending s printed (a :: answers)
      = let t := goOn showVars ending (s.provide a) (max printed s.last.output.size) answers
        ⟨newOutputs s printed ++
          (.ask (question name) :: (if Text.isBlankText a then [] else [.remember a]) ++ t.events),
          t.fault, t.session⟩ := by
  simp [goOn, returns, waits]

/-- A dialogue that takes no answer: the first run does not wait, or there is none to take. -/
theorem tells_nil {shown : List String → Snapshot} {t : Transcript}
    (stops : answers ≠ [] → (shown []).pending = none)
    (questions : t.questions = ((shown []).pending.map question).toList)
    (lines : t.lines = ((shown []).output.toList.drop printed).map Value.toText ++
      if showVars && (shown []).completed then tableLines (shown []).vars else []) :
    t.Tells shown answers [] printed showVars where
  part := List.nil_prefix
  waits i below := absurd below (Nat.not_lt_zero i)
  stops more := stops more.symm
  questions i := by
    rw [questions]
    cases waits : (shown []).pending <;> cases i <;> simp [waits]
  lines := lines

/-- A dialogue that begins with an answered question. -/
theorem tells_cons {shown : List String → Snapshot} {t t' : Transcript} {name a : String}
    {used : List String} {size : Nat} (waits : (shown []).pending = some name)
    (all : size = (shown []).output.size) (within : printed ≤ size)
    (grows : (shown []).output.toList <+: (shown (a :: used)).output.toList)
    (rest : t'.Tells (fun xs => shown (a :: xs)) answers used size showVars)
    (questions : t.questions = question name :: t'.questions)
    (lines : t.lines = ((shown []).output.toList.drop printed).map Value.toText ++ t'.lines) :
    t.Tells shown (a :: answers) (a :: used) printed showVars where
  part := List.cons_prefix_cons.mpr ⟨rfl, rest.part⟩
  waits i below := by
    cases i with
    | zero => simp [waits]
    | succ i => exact rest.waits i (Nat.lt_of_succ_lt_succ below)
  stops more := rest.stops fun same => more (congrArg (a :: ·) same)
  questions i := by
    rw [questions]
    cases i with
    | zero => simp [waits]
    | succ i => simpa using rest.questions i
  lines := by
    -- what is new in the first run, and then what is new behind all of it
    obtain ⟨later, split⟩ := grows
    have within' : printed ≤ (shown []).output.toList.length :=
      Nat.le_trans within (Nat.le_of_eq all)
    have behind : (shown (a :: used)).output.toList.drop size = later := by
      rw [← split, all]
      exact List.drop_left
    have new : (shown (a :: used)).output.toList.drop printed
        = (shown []).output.toList.drop printed ++ later := by
      rw [← split, List.drop_append_of_le_length within']
    rw [lines, rest.lines, behind, new, List.map_append, List.append_assoc]

/-- What a new machine shows that was given answers. -/
def replay (budget : Int) (p : Program) (given : List String) : Snapshot :=
  ((Machine.given budget given).run (some p)).2.snapshot

variable {budget : Int} {p : Program} {given : List String}

theorem replay_grows (positive : 0 < budget) (p : Program) (given more : List String) :
    (replay budget p given).output.toList <+: (replay budget p (given ++ more)).output.toList := by
  refine Machine.run_output_prefix (Machine.limited_given positive given) ?_ ?_
  · rw [Machine.budget_given, Machine.budget_given]
  · rw [Machine.history_given, Machine.history_given]
    simp

theorem replay_of_shows (shows : s.Shows budget p given) :
    replay budget p (given ++ []) = s.last := by
  rw [List.append_nil, shows.last, replay]

/-- The transcript `t` tells what runs of `p` show that have the answers `given` and more, and the
session it leaves was given those and `used`. -/
structure Follows (budget : Int) (p : Program) (given answers used : List String) (printed : Nat)
    (showVars : Bool) (t : Transcript) : Prop where
  tells : t.Tells (fun xs => replay budget p (given ++ xs)) answers used printed showVars
  history : t.session.machine.history = ((given ++ used).map Value.ofAnswer).toArray

/-- A session that failed or is completed ends the dialogue. -/
theorem follows_stopped (positive : 0 < budget) (shows : s.Shows budget p given)
    (stopped : s.waiting = false) :
    Follows budget p given answers [] printed showVars
      (goOn showVars ending s printed answers) := by
  have limited := Machine.limited_given positive given
  have last := replay_of_shows shows
  have history : s.machine.history = ((given ++ []).map Value.ofAnswer).toArray := by
    rw [List.append_nil, shows.history]
  cases failed : s.fault with
  | some f =>
    obtain ⟨free, open'⟩ := Machine.going_of_fault limited (shows.fault.symm.trans failed)
    rw [← shows.last] at free open'
    rw [goOn_of_fault failed, newOutputs]
    refine ⟨tells_nil (fun _ => by rw [last, free]) ?_ ?_, history⟩
    · rw [questions_prints, last, free]
      rfl
    · rw [lines_prints, last, open', Bool.and_false]
      rfl
  | none =>
    have free : s.last.pending = none := by simpa [Session.waiting, failed] using stopped
    have completed : s.last.completed = true := by
      rw [shows.last]
      exact Machine.completed_of_free limited (shows.fault.symm.trans failed)
        (by rw [← shows.last, free])
    rw [goOn_of_free failed free, newOutputs]
    refine ⟨tells_nil (fun _ => by rw [last, free]) ?_ ?_, history⟩
    · rw [questions_prints, ← List.append_nil (prints _), questions_prints, last, free]
      rfl
    · rw [lines_prints, ← List.append_nil (prints _), lines_prints, last, completed,
        Bool.and_true, shows.vars]
      simp [lines]

/-- A question without an answer ends the dialogue. -/
theorem follows_unanswered {name : String} (shows : s.Shows budget p given)
    (returns : s.fault = none) (waits : s.last.pending = some name) :
    Follows budget p given [] [] printed showVars (goOn showVars ending s printed []) := by
  have last := replay_of_shows shows
  have open' : s.last.completed = false := by
    rw [shows.last]
    exact Machine.open_of_waiting (by rw [← shows.last, waits])
  obtain ⟨fault, unfolded⟩ := goOn_of_waiting_nil returns waits
  rw [unfolded, newOutputs]
  refine ⟨tells_nil (fun more => absurd rfl more) ?_ ?_, ?_⟩
  · rw [questions_prints, last, waits]
    rfl
  · rw [lines_prints, last, open', Bool.and_false]
    rfl
  · rw [List.append_nil, shows.history]

/-- A question with an answer is told before what comes after the answer. -/
theorem follows_cons {name a : String} {used : List String} (positive : 0 < budget)
    (shows : s.Shows budget p given) (within : printed ≤ s.last.output.size)
    (returns : s.fault = none) (waits : s.last.pending = some name)
    (rest : Follows budget p (given ++ [a]) answers used s.last.output.size showVars
      (goOn showVars ending (s.provide a) s.last.output.size answers)) :
    Follows budget p given (a :: answers) (a :: used) printed showVars
      (goOn showVars ending s printed (a :: answers)) := by
  have last := replay_of_shows shows
  have grows := replay_grows positive p given (a :: used)
  have tells := rest.tells
  have history := rest.history
  simp only [List.append_assoc, List.singleton_append] at tells history
  rw [goOn_of_waiting_cons returns waits, Nat.max_eq_right within]
  refine ⟨tells_cons (by rw [last, waits]) (by rw [last]) within ?_ tells ?_ ?_, history⟩
  · simpa using grows
  · rw [newOutputs, questions_prints, questions_exchange]
  · rw [newOutputs, lines_prints, lines_exchange, last]

/-- A dialogue that goes on with a session tells what the runs with more answers show. The induction
is on the answers that are left. -/
theorem follows_goOn (positive : 0 < budget) (ending : Ending) (showVars : Bool)
    (answers : List String) (shows : s.Shows budget p given)
    (within : printed ≤ s.last.output.size) :
    ∃ used, Follows budget p given answers used printed showVars
      (goOn showVars ending s printed answers) := by
  induction answers generalizing s given printed with
  | nil =>
    cases waiting : s.waiting with
    | false => exact ⟨[], follows_stopped positive shows waiting⟩
    | true =>
      obtain ⟨returns, name, waits⟩ := s.exists_of_waiting waiting
      exact ⟨[], follows_unanswered shows returns waits⟩
  | cons a answers ih =>
    cases waiting : s.waiting with
    | false => exact ⟨[], follows_stopped positive shows waiting⟩
    | true =>
      obtain ⟨returns, name, waits⟩ := s.exists_of_waiting waiting
      have shows' := Session.shows_provide positive shows a
      -- the next run repeats all that this one has printed
      have within' : s.last.output.size ≤ (s.provide a).last.output.size := by
        rw [shows.last, shows'.last]
        exact (replay_grows positive p given [a]).length_le
      obtain ⟨used, rest⟩ := ih shows' within'
      exact ⟨a :: used, follows_cons positive shows within returns waits rest⟩

/-- A source that cannot be parsed ends the dialogue at once. -/
theorem follows_unparsed {source : SourceText} {e : Fault}
    (unparsed : Source.program source.code = .error e) (budget : Int) (ending : Ending)
    (showVars : Bool) (answers : List String) :
    let t := hold (.start source budget) answers ending showVars
    t.Tells (fun _ => {}) answers [] 0 showVars ∧
      t.session.machine.history = (source.answers.map Value.ofAnswer).toArray := by
  have ran : (Session.start source budget).run
      = (Session.start source budget).record { snapshot := {}, fault := some e } := by
    rw [Session.run, Session.withProgram]
    simp only [Session.start, unparsed]
  have failed : ((Session.start source budget).record
      { snapshot := {}, fault := some e }).fault = some e := rfl
  intro t
  show (goOn _ _ _ _ _).Tells _ _ _ _ _ ∧ (goOn _ _ _ _ _).session.machine.history = _
  rw [ran, goOn_of_fault failed]
  refine ⟨tells_nil (fun _ => rfl) rfl ?_, Machine.history_given ..⟩
  rw [Bool.and_false]
  rfl

/-- A dialogue prints every output once. Let a source with its own answers be run as a dialogue
under a positive budget, with a reader who gives `answers` and then stops. The dialogue takes the
shortest part of the answers with which the source does not wait, or all of them if there is none;
its questions are those at which the source waits with fewer answers; and it prints the outputs of
the source with the answers taken, each once and in order, and after them the variables, in the
order of their names, if they are asked for and the source is completed. -/
theorem hold_prints_each_output_once (source : SourceText) (budget : Int) (positive : 0 < budget)
    (answers : List String) (ending : Ending) (showVars : Bool) :
    let shown (xs : List String) : Snapshot :=
      (Source.run source.code (source.answers ++ xs) (.withBudget budget)).snapshot
    let t := hold (.start source budget) answers ending showVars
    ∃ used, used <+: answers ∧
      (∀ i < used.length, (shown (answers.take i)).pending ≠ none) ∧
      (used ≠ answers → (shown used).pending = none) ∧
      t.session.machine.history = ((source.answers ++ used).map Value.ofAnswer).toArray ∧
      (∀ i, t.questions[i]? =
        if i ≤ used.length then (shown (answers.take i)).pending.map question else none) ∧
      t.lines = (shown used).output.toList.map Value.toText ++
        (if showVars && (shown used).completed then tableLines (shown used).vars else []) ∧
      Ascending (shown used).vars.bindings ∧
      t.printed = String.join (t.lines.map fun line => line ++ "\n") := by
  intro shown t
  obtain ⟨used, tells, history⟩ : ∃ used, t.Tells shown answers used 0 showVars ∧
      t.session.machine.history = ((source.answers ++ used).map Value.ofAnswer).toArray := by
    cases parsed : Source.program source.code with
    | error e =>
      have shown_eq : shown = fun _ => {} := by
        funext xs
        simp only [shown, Source.run, parsed]
      obtain ⟨tells, history⟩ := follows_unparsed parsed budget ending showVars answers
      rw [shown_eq]
      exact ⟨[], tells, by rw [List.append_nil]; exact history⟩
    | ok p =>
      have shown_eq : shown = fun xs => replay budget p (source.answers ++ xs) := by
        funext xs
        simp only [shown, Source.run, parsed]
        rfl
      have shows := Session.shows_start positive parsed
      obtain ⟨used, tells, history⟩ :=
        follows_goOn positive ending showVars answers shows (Nat.zero_le _)
      rw [shown_eq]
      exact ⟨used, tells, history⟩
  exact ⟨used, tells.part, tells.waits, tells.stops, history, tells.questions, tells.lines,
    (shown used).vars.ascending, t.printed_eq_join⟩

/-- A source that asks for a name and gives it back. -/
def greeting : SourceText :=
  { name := "salut", code := "Début Écrire \"nom\" Lire x Écrire x Fin" }

/-- The program of the greeting. -/
def greetingProgram : Program :=
  { statements := [.write (.str "nom") 1, .read "x" 1, .write (.ident "x" 1) 1] }

set_option maxRecDepth 4000 in
theorem program_greeting : Source.program greeting.code = .ok greetingProgram := by
  let ts : List Token :=
    [{ kind := .debut, text := "Début", line := 1, column := 1 },
      { kind := .ecrire, text := "Écrire", line := 1, column := 7 },
      { kind := .string, text := "nom", line := 1, column := 14 },
      { kind := .lire, text := "Lire", line := 1, column := 20 },
      { kind := .identifier, text := "x", line := 1, column := 25 },
      { kind := .ecrire, text := "Écrire", line := 1, column := 27 },
      { kind := .identifier, text := "x", line := 1, column := 34 },
      { kind := .fin, text := "Fin", line := 1, column := 36 }]
  let final : Token := { kind := .eof, line := 1, column := 39 }
  have scanned : Source.tokens greeting.code = .ok (ts ++ [final]) := by with_unfolding_all rfl
  have literal {t : Token} {e : Expr} (h : Grammar.Primary [t] e) : Grammar.Expression [t] e :=
    .one (.one (.one (.one (.one h))))
  have isWhole : Grammar.Whole ts greetingProgram.statements :=
    .intro rfl (.cons (.write rfl (literal (.string rfl)))
      (.cons (.read rfl rfl) (.cons (.write rfl (literal (.name rfl))) .nil))) rfl
  have parsed : (Parse.Stream.ofTokens (ts ++ [final])).parse
      = (.ok greetingProgram, { rest := [], final }) :=
    Parse.Stream.parse_eq_ok_iff.mpr ⟨rfl, ts, isWhole, rfl⟩
  rw [Source.program, scanned]
  show Source.programOfTokens _ = _
  rw [Source.programOfTokens, parsed]

theorem hold_prints_each_output_once_greeting :
    let t := hold (.start greeting 10) ["Ada"] .interrupted true
    t.lines = ["nom", "Ada", "--", "x = Ada"] ∧ t.questions[0]? = some "x ? " := by
  intro t
  obtain ⟨used, part, -, stops, -, questions, lines, -⟩ :=
    hold_prints_each_output_once greeting 10 (by decide) ["Ada"] .interrupted true
  have shown (xs : List String) :
      (Source.run greeting.code (greeting.answers ++ xs) (.withBudget 10)).snapshot
        = replay 10 greetingProgram xs := by
    rw [Source.run, program_greeting]
    rfl
  simp only [shown] at stops questions lines
  cases used with
  | nil => cases stops nofun
  | cons answer later =>
    obtain ⟨rfl, nothing⟩ := List.cons_prefix_cons.mp part
    obtain rfl := List.prefix_nil.mp nothing
    exact ⟨lines, questions 0⟩

end Dialogue

end Pseudocode
