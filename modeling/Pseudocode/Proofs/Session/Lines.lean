import Pseudocode.Session.Basic
import Pseudocode.Proofs.Machine.Fitting
import Pseudocode.Proofs.Source.Lines

/-!
# Every line that a session reports exists

A session shows a line in three ways: the line of a fault, which for errors of a run is read off
their message; the line at which execution goes on; and no line when the program is completed.
Whatever the operations before, these are lines of the source text
(`reported_lines_exist`).

* A session is sound (`Session.Sound`) if its program is the one of its source and its machine runs
  no other. Every operation keeps this, so every tree that the machine executes has lines of the
  source only.
* A call of the machine then reports such lines (`Machine.Reports`), also one that is refused
  because the machine waits: the question stands on a line of the program.
-/

namespace Pseudocode

open Source (HasLine)

/-! ## Calls -/

namespace Machine

variable {ok : Int → Prop} {m : Machine} {p : Program} {result : Machine × Response}

/-- What a call with the program `p` leaves, and what lines it reports. -/
structure Reports (ok : Int → Prop) (p : Program) (m : Machine) (result : Machine × Response) :
    Prop where
  coherent : result.1.Coherent
  budget : result.1.budget = m.budget
  bound : ∀ c, result.1.control = some c → c.program = p
  placed : result.2.snapshot.Placed ok
  fault : ∀ f, result.2.fault = some f → ∃ e, f = .runtime e ∧ ok e.line

theorem Settles.reports (h : m.Settles ok p result) : m.Reports ok p result where
  coherent := h.coherent
  budget := h.budget
  bound := h.bound
  placed := h.placed
  fault f failed := by
    obtain ⟨-, e, rfl, regular⟩ := h.failed f failed
    exact ⟨e, rfl, regular.2⟩

/-- A step reports a line of the program even if it is refused. -/
theorem reports_step (limited : 0 < m.budget) (kept : m.Coherent) (fits : p.Fits ok)
    (bound : ∀ c, m.control = some c → c.program = p) : m.Reports ok p (m.step (some p)) := by
  cases waits : m.pending? with
  | none => exact (settles_step limited kept fits bound waits).reports
  | some prompt =>
    obtain ⟨here, placed⟩ := placed_of_pending kept fits bound waits
    rw [step_of_pending waits]
    refine ⟨kept, rfl, bound, placed, fun f failed => ?_⟩
    cases failed
    exact ⟨_, rfl, here⟩

theorem coherent_provideAll (kept : m.Coherent) (raws : List String) :
    (m.provideAll raws).Coherent := by
  induction raws generalizing m with
  | nil => exact kept
  | cons raw raws ih => exact ih (coherent_provide kept raw)

end Machine

/-! ## Sessions -/

namespace Session

variable {source : SourceText} {s : Session} {p : Program}

/-- A session whose program is the one of its source, and whose machine runs no other. -/
structure Sound (source : SourceText) (s : Session) : Prop where
  origin : s.source = source
  lines : s.lines = Text.lines source.code
  limited : 0 < s.machine.budget
  coherent : s.machine.Coherent
  parsed : ∀ p, s.program = some p → Source.program source.code = .ok p
  bound : ∀ c, s.machine.control = some c → s.program = some c.program

theorem sound_start {budget : Int} (positive : 0 < budget) (source : SourceText) :
    (start source budget).Sound source where
  origin := rfl
  lines := rfl
  limited := by
    show 0 < ((Machine.withBudget budget).provideAll source.answers).budget
    rw [Machine.budget_provideAll]
    show 0 < budget.toNat
    omega
  coherent := Machine.coherent_provideAll (Machine.coherent_create budget _ _) _
  parsed := nofun
  bound c control := by
    have free := Machine.control_provideAll (m := Machine.withBudget budget) rfl source.answers
    cases free.symm.trans control

/-- The session after a call with the program `p`, made in the given mode. -/
def execute (s : Session) (p : Program) (mode : Mode) (result : Machine × Response) : Session :=
  record { s with program := some p, machine := result.1, mode } result.2

/-- The session after an operation on a source that has no program. -/
def refuse (s : Session) (fault : Fault) : Session :=
  s.record { snapshot := {}, fault := some fault }

namespace Sound

/-- The machine of a sound session runs the program of its source. -/
theorem program_of_bound (sound : s.Sound source) (parsed : Source.program source.code = .ok p) :
    ∀ c, s.machine.control = some c → c.program = p := by
  intro c control
  have same := sound.parsed _ (sound.bound c control)
  rw [parsed] at same
  cases same
  rfl

theorem withProgram_of_ok (sound : s.Sound source) (parsed : Source.program source.code = .ok p)
    (f : Session → Program → Session) : s.withProgram f = f { s with program := some p } p := by
  rw [withProgram]
  split
  · rename_i q program
    have same := sound.parsed q program
    rw [parsed] at same
    cases same
    rw [← program]
  · rw [sound.origin, parsed]

theorem withProgram_of_error (sound : s.Sound source) {fault : Fault}
    (failed : Source.program source.code = .error fault) (f : Session → Program → Session) :
    s.withProgram f = s.refuse fault := by
  rw [withProgram]
  split
  · rename_i q program
    have same := sound.parsed q program
    rw [failed] at same
    cases same
  · rw [sound.origin, failed]
    rfl

theorem run_eq (sound : s.Sound source) (parsed : Source.program source.code = .ok p) :
    s.run = s.execute p .run (s.machine.run (some p)) :=
  sound.withProgram_of_ok parsed _

theorem step_eq (sound : s.Sound source) (parsed : Source.program source.code = .ok p) :
    s.step = s.execute p .step (s.machine.step (some p)) :=
  sound.withProgram_of_ok parsed _

theorem refuse (sound : s.Sound source) (fault : Fault) : (s.refuse fault).Sound source :=
  ⟨sound.origin, sound.lines, sound.limited, sound.coherent, sound.parsed, sound.bound⟩

theorem execute (sound : s.Sound source) (parsed : Source.program source.code = .ok p)
    {result : Machine × Response} {ok : Int → Prop} (reports : s.machine.Reports ok p result)
    (mode : Mode) : (s.execute p mode result).Sound source where
  origin := sound.origin
  lines := sound.lines
  limited := reports.budget ▸ sound.limited
  coherent := reports.coherent
  parsed q program := by
    cases program
    exact parsed
  bound c control := congrArg some (reports.bound c control).symm

/-- An answer to the machine leaves the program where it is. -/
theorem answered (sound : s.Sound source) (raw : String) :
    Sound source { s with machine := (s.machine.provide raw).1 } where
  origin := sound.origin
  lines := sound.lines
  limited := sound.limited
  coherent := Machine.coherent_provide sound.coherent raw
  parsed := sound.parsed
  bound c control := by
    obtain ⟨c', control', rfl⟩ := Option.map_eq_some_iff.mp control
    exact sound.bound c' control'

theorem reset (sound : s.Sound source) : s.reset.Sound source where
  origin := sound.origin
  lines := sound.lines
  limited := by
    show 0 < (s.machine.reset.provideAll s.source.answers).budget
    rw [Machine.budget_provideAll]
    exact sound.limited
  coherent := Machine.coherent_provideAll (Machine.coherent_reset s.machine) _
  parsed := sound.parsed
  bound c control := by
    have free := Machine.control_provideAll (m := s.machine.reset) rfl s.source.answers
    cases free.symm.trans control

end Sound

/-! ## Reported lines -/

/-- The lines that a session reports are lines of its source, with zero for no line at which
execution goes on. -/
structure Lined (source : SourceText) (s : Session) : Prop where
  sound : s.Sound source
  fault : ∀ f, s.fault = some f → HasLine source.code f.errorLine
  last : s.last.line = 0 ∨ HasLine source.code s.last.line

/-- The same after an operation that executes something: if the source has a program, no line is
shown exactly when the program is completed. -/
structure Executed (source : SourceText) (s : Session) : Prop extends Lined source s where
  placed : ∀ p, Source.program source.code = .ok p → s.last.Placed (HasLine source.code)

theorem executed_refuse (sound : s.Sound source) {fault : Fault}
    (failed : Source.program source.code = .error fault) : (s.refuse fault).Executed source := by
  refine ⟨⟨sound.refuse fault, fun f same => ?_, .inl rfl⟩, fun p parsed => ?_⟩
  · cases same
    exact Source.line_of_program_error failed
  · rw [failed] at parsed
    cases parsed

theorem executed_execute (sound : s.Sound source) (parsed : Source.program source.code = .ok p)
    (numbered : (Text.lines source.code).length ≤ maxLine) {result : Machine × Response}
    (reports : s.machine.Reports (HasLine source.code) p result) (mode : Mode) :
    (s.execute p mode result).Executed source := by
  refine ⟨⟨sound.execute parsed reports mode, fun f failed => ?_, ?_⟩, fun _ _ => reports.placed⟩
  · obtain ⟨e, rfl, here⟩ := reports.fault f failed
    obtain ⟨positive, below⟩ := here
    rw [errorLine_runtime (by omega) (by omega)]
    exact ⟨positive, below⟩
  · exact reports.placed.line_eq_zero_or

section Operations

variable (sound : s.Sound source) (numbered : (Text.lines source.code).length ≤ maxLine)

include sound numbered

theorem executed_run : s.run.Executed source := by
  cases result : Source.program source.code with
  | error fault =>
    rw [run, sound.withProgram_of_error result]
    exact executed_refuse sound result
  | ok p =>
    rw [sound.run_eq result]
    have settles := Machine.settles_run sound.limited (Source.program_fits result)
    exact executed_execute sound result numbered settles.reports .run

theorem executed_step : s.step.Executed source := by
  cases result : Source.program source.code with
  | error fault =>
    rw [step, sound.withProgram_of_error result]
    exact executed_refuse sound result
  | ok p =>
    rw [sound.step_eq result]
    have reports := Machine.reports_step sound.limited sound.coherent
      (Source.program_fits result) (sound.program_of_bound result)
    exact executed_execute sound result numbered reports .step

theorem executed_provide (raw : String) : (s.provide raw).Executed source := by
  rw [provide]
  split
  · exact executed_step (sound.answered raw) numbered
  · exact executed_run (sound.answered raw) numbered

end Operations

/-- Every operation but a reset executes something. -/
theorem executed_apply (sound : s.Sound source)
    (numbered : (Text.lines source.code).length ≤ maxLine) {op : SessionOp} (goes : op ≠ .reset) :
    (s.apply op).Executed source := by
  cases op with
  | run => exact executed_run sound numbered
  | step => exact executed_step sound numbered
  | provide raw => exact executed_provide sound numbered raw
  | reset => exact absurd rfl goes

/-- The session after several operations. -/
def applyAll (s : Session) (ops : List SessionOp) : Session :=
  ops.foldl apply s

theorem lined_applyAll (lined : s.Lined source)
    (numbered : (Text.lines source.code).length ≤ maxLine) (ops : List SessionOp) :
    (s.applyAll ops).Lined source := by
  induction ops generalizing s with
  | nil => exact lined
  | cons op ops ih =>
    refine ih (s := s.apply op) ?_
    by_cases goes : op = .reset
    · -- a reset takes the fault back and shows no line
      subst goes
      exact ⟨lined.sound.reset, nofun, .inl rfl⟩
    · exact (executed_apply lined.sound numbered goes).toLined

/-- Every line that a session reports exists. Let a text have no more lines than can be numbered,
and a session on it have a positive budget. After any operations, the line of a fault is one of the
text, and so is the line at which execution goes on, or it is zero; and after an operation that
executes something, if the text has a program, it is zero exactly if the program is completed. -/
theorem reported_lines_exist (source : SourceText) (budget : Int) (positive : 0 < budget)
    (numbered : (Text.lines source.code).length ≤ maxLine) (ops : List SessionOp) :
    let s := (start source budget).applyAll ops
    (s.fault ≠ none → 1 ≤ s.errorLine ∧ s.errorLine ≤ s.lines.length) ∧
      0 ≤ s.last.line ∧ s.last.line ≤ s.lines.length ∧
      ∀ op, op ≠ .reset → (∃ p, Source.program source.code = .ok p) →
        ((s.apply op).last.line = 0 ↔ (s.apply op).last.completed = true) := by
  intro s
  have begins : (start source budget).Lined source := ⟨sound_start positive source, nofun, .inl rfl⟩
  have lined : s.Lined source := lined_applyAll begins numbered ops
  rw [lined.sound.lines]
  refine ⟨fun failed => ?_, ?_, ?_, fun op goes ⟨p, parsed⟩ => ?_⟩
  · obtain ⟨f, fault⟩ := Option.ne_none_iff_exists'.mp failed
    rw [errorLine, fault]
    exact lined.fault f fault
  · rcases lined.last with none | here
    · omega
    · have := here.1
      omega
  · rcases lined.last with none | here
    · omega
    · exact here.2
  · have placed := (executed_apply lined.sound numbered goes).placed p parsed
    refine placed.line_eq_zero_iff fun here => ?_
    have := here.1
    omega

/-- A source that asks one question, on its second line. -/
def question : SourceText :=
  { name := "question", code := "Début\nLire x\nFin" }

set_option maxRecDepth 4000 in
theorem program_question :
    Source.program question.code = .ok { statements := [.read "x" 2] } := by
  let ts : List Token :=
    [{ kind := .debut, text := "Début", line := 1, column := 1 },
      { kind := .newline, text := "\n", line := 1, column := 6 },
      { kind := .lire, text := "Lire", line := 2, column := 1 },
      { kind := .identifier, text := "x", line := 2, column := 6 },
      { kind := .newline, text := "\n", line := 2, column := 7 },
      { kind := .fin, text := "Fin", line := 3, column := 1 },
      { kind := .eof, line := 3, column := 4 }]
  have scanned : Source.tokens question.code = .ok ts := by with_unfolding_all rfl
  have isWhole : Grammar.Whole (ts.filter (·.kind ≠ .newline)).dropLast [.read "x" 2] :=
    .intro rfl (.cons (.read rfl rfl) .nil) rfl
  have parsed : (Parse.Stream.ofTokens ts).parse = (.ok { statements := [.read "x" 2] },
      { rest := [], final := { kind := .eof, line := 3, column := 4 } }) :=
    Parse.Stream.parse_eq_ok_iff.mpr ⟨rfl, _, isWhole, rfl⟩
  rw [Source.program, scanned]
  show Source.programOfTokens ts = _
  rw [Source.programOfTokens, parsed]

/-- A step while the program waits is refused on the line of the question. -/
theorem reported_lines_exist_refused_step :
    let s := (start question 10).applyAll [.run, .step]
    s.fault = some (.runtime (.misuse (.awaitingInput "x") 2)) ∧
      1 ≤ s.errorLine ∧ s.errorLine ≤ s.lines.length ∧ s.last.line ≤ s.lines.length ∧
      ((s.apply (.provide "1")).last.line = 0 ↔
        (s.apply (.provide "1")).last.completed = true) := by
  intro s
  have numbered : (Text.lines question.code).length ≤ maxLine := by decide +kernel
  obtain ⟨fault, -, last, placed⟩ :=
    reported_lines_exist question 10 (by decide) numbered [.run, .step]
  have failed : s.fault = some (.runtime (.misuse (.awaitingInput "x") 2)) := by
    have sound := sound_start (show (0 : Int) < 10 by decide) question
    show (start question 10).run.step.fault = _
    rw [(executed_run sound numbered).sound.step_eq program_question,
      sound.run_eq program_question]
    rfl
  obtain ⟨positive, below⟩ := fault (by rw [failed]; nofun)
  exact ⟨failed, positive, below, last, placed _ nofun ⟨_, program_question⟩⟩

end Session

end Pseudocode
