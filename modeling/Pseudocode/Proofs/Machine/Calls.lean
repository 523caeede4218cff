import Pseudocode.Proofs.Machine.Invariant

/-!
# What a call does

A call of a machine makes a drive, is refused, has nothing to execute, gives an answer or resets the
machine. `Machine.launch?` names the drive by where it stops and where it starts, and
`Machine.Refuses` the two misuses of a machine. `Machine.serves` says that these are all cases, so
what is proved of drives is proved of calls without opening `run` and `step` again.
-/

namespace Pseudocode

/-- A drive that a call makes: where it stops, and the task that it starts from. -/
structure Launch where
  until? : Control → Bool
  task : Task

/-- A drive that is to stop where it starts goes nowhere. -/
theorem Task.Performs.eq_of_done {supply : Supply} {until? : Control → Bool} {t u : Task}
    {log : List Deed} (h : Performs supply until? t log u) (done : until? t.control = true) :
    u = t := by
  induction h with
  | start => rfl
  | tick before going moves ih =>
    rw [ih, done] at going
    cases going

namespace Machine

/-- The drive that a call makes, if it makes one: a run from the top, or a step with a new count
from where the program stands. -/
def launch? (m : Machine) : Call → Option Launch
  | .run program? => (program?.or m.program?).map fun p => ⟨Control.halted, .ofProgram p⟩
  | .step program? =>
    (m.task? program?).bind fun t =>
      if t.control.halted then none else some ⟨stepDone t.control.cursor, t.withSpent 0⟩
  | .provide _ => none
  | .reset => none

/-- The calls that a machine refuses: one that needs a program where none is bound, and a step of a
program that waits for an answer. -/
inductive Refuses (m : Machine) : Call → Misuse → Int → Prop
  | run (unbound : m.program? = none) : Refuses m (.run none) .noProgram 0
  | step (unbound : m.program? = none) : Refuses m (.step none) .noProgram 0
  | waiting {program? : Option Program} {prompt : Prompt} (waits : m.pending? = some prompt) :
      Refuses m (.step program?) (.awaitingInput prompt.name) prompt.line

/-- What a call leaves and returns. -/
inductive Serves (m : Machine) : Call → Machine × Option Response → Prop
  | launched {call : Call} {l : Launch} (launch : m.launch? call = some l) :
      Serves m call ((m.drive l.until? l.task).1, some (m.drive l.until? l.task).2)
  | refused {call : Call} {cause : Misuse} {line : Int} (refuses : m.Refuses call cause line)
      (grounded : m.launch? call = none) : Serves m call (m, some (m.refuse cause line).2)
  /-- A step of a program that is completed, perhaps an empty one that is bound only now. -/
  | completed {program? : Option Program} {t : Task} (chosen : m.task? program? = some t)
      (completed : t.control.completed = true) (grounded : m.launch? (.step program?) = none) :
      Serves m (.step program?) ({ m with memory := t.memory, control := some t.control },
        some { snapshot := t.snapshot })
  | provided {raw : String} : Serves m (.provide raw) ((m.provide raw).1, none)
  | reset : Serves m .reset (m.reset, none)

variable {m : Machine} {call : Call} {l : Launch}

/-- A step goes on with a task, and is refused if there is none. -/
theorem step_eq_of_task? (m : Machine) (program? : Option Program) :
    m.step program? = match m.task? program? with
      | some t => m.stepBound t.control t.memory
      | none => m.refuse .noProgram := by
  unfold step task?
  cases m.control with
  | some c => rfl
  | none => cases program? <;> rfl

theorem pending_of_task? {program? : Option Program} {t : Task} {prompt : Prompt}
    (chosen : m.task? program? = some t) (waits : t.control.pending = some prompt) :
    m.pending? = some prompt := by
  unfold task? at chosen
  split at chosen
  · rename_i c bound
    cases chosen
    rw [pending?, bound]
    exact waits
  · -- a program that is bound only now does not wait
    obtain ⟨p, -, rfl⟩ := Option.map_eq_some_iff.mp chosen
    cases waits

/-- A step of a task that has halted makes no drive. -/
theorem launch?_of_halted {program? : Option Program} {t : Task}
    (chosen : m.task? program? = some t) (halted : t.control.halted = true) :
    m.launch? (.step program?) = none := by
  rw [launch?, chosen, Option.bind_some, if_pos halted]

/-- A step of a task that can go on is a drive with a new count. -/
theorem stepBound_eq_drive {t : Task} (free : t.control.pending = none)
    (open' : ¬t.control.completed = true) :
    m.stepBound t.control t.memory = m.drive (stepDone t.control.cursor) (t.withSpent 0) := by
  rw [stepBound]
  split
  · rename_i prompt waits
    rw [waits] at free
    cases free
  · rw [if_neg open']
    rfl

theorem serves_step (m : Machine) (program? : Option Program) :
    m.Serves (.step program?) (m.serve (.step program?)) := by
  have served : m.serve (.step program?) = ((m.step program?).1, some (m.step program?).2) := rfl
  rw [served, step_eq_of_task?]
  cases chosen : m.task? program? with
  | none =>
    have unbound : m.program? = none ∧ program? = none := by
      unfold task? at chosen
      split at chosen
      · cases chosen
      · rename_i unbound
        exact ⟨by rw [Machine.program?, unbound]; rfl, Option.map_eq_none_iff.mp chosen⟩
    obtain ⟨unbound, rfl⟩ := unbound
    exact .refused (.step unbound) (by rw [launch?, chosen]; rfl)
  | some t =>
    show m.Serves _ ((m.stepBound t.control t.memory).1, some (m.stepBound t.control t.memory).2)
    cases waits : t.control.pending with
    | some prompt =>
      have halted : t.control.halted = true := by simp [Control.halted, waits]
      simp only [stepBound, waits]
      exact .refused (.waiting (pending_of_task? chosen waits)) (launch?_of_halted chosen halted)
    | none =>
      by_cases completed : t.control.completed = true
      · have halted := Task.halted_of_completed completed
        simp only [stepBound, waits, if_pos completed]
        exact .completed chosen completed (launch?_of_halted chosen halted)
      · rw [stepBound_eq_drive waits completed]
        refine .launched (l := ⟨stepDone t.control.cursor, t.withSpent 0⟩) ?_
        have going : t.control.halted ≠ true := by simp [Control.halted, completed, waits]
        rw [launch?, chosen, Option.bind_some, if_neg going]

/-- Every call is one of the cases. -/
theorem serves (m : Machine) (call : Call) : m.Serves call (m.serve call) := by
  cases call with
  | run program? =>
    have served : m.serve (.run program?) = ((m.run program?).1, some (m.run program?).2) := rfl
    rw [served, run]
    cases chosen : program?.or m.program? with
    | none =>
      obtain ⟨rfl, unbound⟩ := Option.or_eq_none_iff.mp chosen
      exact .refused (.run unbound) (by rw [launch?, chosen]; rfl)
    | some p => exact .launched (l := ⟨Control.halted, .ofProgram p⟩) (by rw [launch?, chosen]; rfl)
  | step program? => exact serves_step m program?
  | provide raw => exact .provided
  | reset => exact .reset

/-! ## Drives of calls -/

theorem launch?_step {program? : Option Program} (launch : m.launch? (.step program?) = some l) :
    ∃ t, m.task? program? = some t ∧ t.control.halted = false ∧
      l = ⟨stepDone t.control.cursor, t.withSpent 0⟩ := by
  obtain ⟨t, chosen, started⟩ := Option.bind_eq_some_iff.mp launch
  split at started
  · cases started
  · rename_i going
    cases started
    exact ⟨t, chosen, by simpa using going, rfl⟩

theorem launch?_run {program? : Option Program} (launch : m.launch? (.run program?) = some l) :
    ∃ p, program?.or m.program? = some p ∧ l = ⟨Control.halted, .ofProgram p⟩ := by
  obtain ⟨p, chosen, rfl⟩ := Option.map_eq_some_iff.mp launch
  exact ⟨p, chosen, rfl⟩

/-- A drive of a call stops where the program halts. -/
theorem stops_of_launch? (launch : m.launch? call = some l) :
    ∀ c : Control, c.halted = true → l.until? c = true := by
  cases call with
  | run program? =>
    obtain ⟨p, -, rfl⟩ := launch?_run launch
    exact fun _ halted => halted
  | step program? =>
    obtain ⟨t, -, -, rfl⟩ := launch?_step launch
    exact fun _ => stepDone_of_halted _
  | provide raw => cases launch
  | reset => cases launch

theorem coherent_of_launch? (kept : m.Coherent) (launch : m.launch? call = some l) :
    l.task.Coherent m.history.size := by
  cases call with
  | run program? =>
    obtain ⟨p, -, rfl⟩ := launch?_run launch
    exact Task.coherent_ofProgram p _
  | step program? =>
    obtain ⟨t, chosen, -, rfl⟩ := launch?_step launch
    have kept' := coherent_task? kept chosen
    exact ⟨kept'.stacked, kept'.read, kept'.waiting⟩
  | provide raw => cases launch
  | reset => cases launch

/-- A call that makes a drive leaves and returns what the drive ends with. -/
theorem serve_of_launch? (launch : m.launch? call = some l) :
    m.serve call = ((m.drive l.until? l.task).1, some (m.drive l.until? l.task).2) := by
  have serves := m.serves call
  generalize m.serve call = result at serves
  cases serves with
  | launched launch' =>
    rw [launch] at launch'
    cases launch'
    rfl
  | refused _ grounded => rw [launch] at grounded; cases grounded
  | completed _ _ grounded => rw [launch] at grounded; cases grounded
  | provided => cases launch
  | reset => cases launch

/-- A call makes its ticks where its drive comes to. -/
theorem ticksAt_iff {u : Task} : m.TicksAt call u ↔ ∃ l log, m.launch? call = some l ∧
    l.task.Performs m.supply l.until? log u ∧ l.until? u.control = false := by
  constructor
  · intro ticks
    cases ticks with
    | @run program? p log u chosen performs going =>
      exact ⟨⟨Control.halted, .ofProgram p⟩, log, by rw [launch?, chosen]; rfl, performs, going⟩
    | @step program? t log u chosen performs going =>
      refine ⟨⟨stepDone t.control.cursor, t.withSpent 0⟩, log, ?_, performs, going⟩
      -- a task that has halted makes no tick
      have open' : t.control.halted ≠ true := by
        intro halted
        have done : stepDone t.control.cursor (t.withSpent 0).control = true :=
          stepDone_of_halted _ halted
        rw [performs.eq_of_done done, done] at going
        cases going
      rw [launch?, chosen, Option.bind_some, if_neg open']
  · rintro ⟨l, log, launch, performs, going⟩
    cases call with
    | run program? =>
      obtain ⟨p, chosen, rfl⟩ := launch?_run launch
      exact .run chosen performs going
    | step program? =>
      obtain ⟨t, chosen, -, rfl⟩ := launch?_step launch
      exact .step chosen performs going
    | provide raw => cases launch
    | reset => cases launch

end Machine

end Pseudocode
