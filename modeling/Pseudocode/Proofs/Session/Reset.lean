import Pseudocode.Proofs.Session.Lines
import Pseudocode.Proofs.Machine.Failure

/-!
# A session that is reset is a new one

A reset takes back all that a session has done, but it keeps the parsed program, and it works on a
machine that has served any calls before. Neither can be seen afterwards: whatever operations
follow, each of them shows what it shows on a new session (`reset_starts_over`).

* Nobody listens to the machine of a session, so all that it keeps over a reset are the options that
  it was made with (`Machine.reset_serveAll`). A session that is reset is therefore a new one but
  for the program it holds (`unparsed_reset`).
* The program that a sound session holds is the one that parsing its source would give. Sessions
  that differ in it only (`Alike`) do the same in every operation (`Alike.apply`).
-/

namespace Pseudocode

/-! ## Machines -/

namespace Machine

variable {m : Machine}

/-- What a call leaves for a reset to keep, if nobody listens. -/
theorem reset_serve (kept : m.Coherent) (quiet : m.listening = false) (call : Call) :
    (m.serve call).1.reset = m.reset := by
  have budget : (m.serve call).1.budget = m.budget := budget_serve m call
  have patience : (m.serve call).1.patience = m.patience := patience_serve m call
  have listening : (m.serve call).1.listening = m.listening := listening_serve kept call
  have asked : (m.serve call).1.asked = m.asked := by
    rw [asked_serve kept call, quiet]
    have untold (r : Response) : r.told false = #[] := by
      unfold Response.told
      split <;> rfl
    cases (m.serve call).2 <;> simp [untold]
  rw [reset, budget, patience, listening, asked]
  rfl

theorem reset_serveAll (kept : m.Coherent) (quiet : m.listening = false) (calls : List Call) :
    (m.serveAll calls).reset = m.reset := by
  induction calls generalizing m with
  | nil => rfl
  | cons call calls ih =>
    have quiet' : (m.serve call).1.listening = false := (listening_serve kept call).trans quiet
    exact (ih (coherent_serve kept call) quiet').trans (reset_serve kept quiet call)

/-- A machine that served any calls and is reset is a new one with the same budget. -/
theorem reset_eq_withBudget (budget : Int) (calls : List Call) :
    ((withBudget budget).serveAll calls).reset = withBudget budget :=
  reset_serveAll (coherent_create budget _ _) rfl calls

theorem memory_provideAll (m : Machine) (answers : List String) :
    (m.provideAll answers).memory = m.memory := by
  induction answers generalizing m with
  | nil => rfl
  | cons answer answers ih => exact ih (m.provide answer).1

theorem serveAll_append (m : Machine) (calls calls' : List Call) :
    m.serveAll (calls ++ calls') = (m.serveAll calls).serveAll calls' :=
  List.foldl_append

end Machine

/-! ## Sessions -/

namespace Session

variable {source : SourceText} {s t : Session}

/-- The machine of a session has served some calls since it was `m`. -/
def ServedSince (m : Machine) (s : Session) : Prop :=
  ∃ calls, s.machine = m.serveAll calls

theorem ServedSince.withProgram {m : Machine} {f : Session → Program → Session}
    (served : ServedSince m s)
    (goes : ∀ p, ServedSince s.machine (f { s with program := some p } p)) :
    ServedSince m (s.withProgram f) := by
  obtain ⟨calls, machine⟩ := served
  have goes' (p : Program) : ServedSince m (f { s with program := some p } p) := by
    obtain ⟨calls', machine'⟩ := goes p
    exact ⟨calls ++ calls', by rw [machine', machine, Machine.serveAll_append]⟩
  rw [Session.withProgram]
  split
  · rename_i p program
    have same : s = { s with program := some p } := by rw [← program]
    rw [same]
    exact goes' p
  · split
    · exact ⟨calls, machine⟩
    · exact goes' _

/-- An operation is some calls of the machine. -/
theorem servedSince_apply (s : Session) (op : SessionOp) : ServedSince s.machine (s.apply op) := by
  have run (s : Session) {m : Machine} (served : ServedSince m s) : ServedSince m s.run :=
    served.withProgram fun p => ⟨[.run (some p)], rfl⟩
  have step (s : Session) {m : Machine} (served : ServedSince m s) : ServedSince m s.step :=
    served.withProgram fun p => ⟨[.step (some p)], rfl⟩
  cases op with
  | run => exact run s ⟨[], rfl⟩
  | step => exact step s ⟨[], rfl⟩
  | provide raw =>
    have answered : ServedSince s.machine { s with machine := (s.machine.provide raw).1 } :=
      ⟨[.provide raw], rfl⟩
    show ServedSince s.machine (s.provide raw)
    rw [provide]
    split
    · exact step _ answered
    · exact run _ answered
  | reset =>
    refine ⟨.reset :: s.source.answers.map .provide, ?_⟩
    exact Machine.provideAll_eq_serveAll s.machine.reset s.source.answers

theorem servedSince_applyAll (s : Session) (ops : List SessionOp) :
    ServedSince s.machine (s.applyAll ops) := by
  induction ops generalizing s with
  | nil => exact ⟨[], rfl⟩
  | cons op ops ih =>
    obtain ⟨calls, first⟩ := servedSince_apply s op
    obtain ⟨calls', others⟩ := ih (s.apply op)
    exact ⟨calls ++ calls', by rw [Machine.serveAll_append, ← first]; exact others⟩

/-! ## Soundness -/

/-- Every operation leaves a sound session. -/
theorem Sound.apply (sound : s.Sound source) (op : SessionOp) : (s.apply op).Sound source := by
  have run {s : Session} (sound : s.Sound source) : s.run.Sound source := by
    cases result : Source.program source.code with
    | error fault =>
      rw [Session.run, sound.withProgram_of_error result]
      exact sound.refuse fault
    | ok p =>
      rw [sound.run_eq result]
      have settles := Machine.settles_run sound.limited (Source.program_fits result)
      exact sound.execute result settles.reports .run
  have step {s : Session} (sound : s.Sound source) : s.step.Sound source := by
    cases result : Source.program source.code with
    | error fault =>
      rw [Session.step, sound.withProgram_of_error result]
      exact sound.refuse fault
    | ok p =>
      rw [sound.step_eq result]
      have reports := Machine.reports_step sound.limited sound.coherent
        (Source.program_fits result) (sound.program_of_bound result)
      exact sound.execute result reports .step
  cases op with
  | run => exact run sound
  | step => exact step sound
  | provide raw =>
    show (s.provide raw).Sound source
    rw [provide]
    split
    · exact step (sound.answered raw)
    · exact run (sound.answered raw)
  | reset => exact sound.reset

theorem Sound.applyAll (sound : s.Sound source) (ops : List SessionOp) :
    (s.applyAll ops).Sound source := by
  induction ops generalizing s with
  | nil => exact sound
  | cons op ops ih => exact ih (sound.apply op)

/-! ## The program that a session holds -/

/-- The session without the program that it may hold. -/
def unparsed (s : Session) : Session :=
  { s with program := none }

/-- Sound sessions on one source that differ at most in whether they hold its program. -/
structure Alike (source : SourceText) (s t : Session) : Prop where
  left : s.Sound source
  right : t.Sound source
  same : s.unparsed = t.unparsed

namespace Alike

theorem machine_eq (alike : Alike source s t) : s.machine = t.machine := by
  show s.unparsed.machine = t.unparsed.machine
  rw [alike.same]

theorem execute_eq (alike : Alike source s t) (p : Program) (mode : Mode)
    (result : Machine × Response) : s.execute p mode result = t.execute p mode result := by
  show s.unparsed.execute p mode result = t.unparsed.execute p mode result
  rw [alike.same]

theorem refuse_same (alike : Alike source s t) (fault : Fault) :
    (s.refuse fault).unparsed = (t.refuse fault).unparsed := by
  show s.unparsed.refuse fault = t.unparsed.refuse fault
  rw [alike.same]

theorem run_same (alike : Alike source s t) : s.run.unparsed = t.run.unparsed := by
  cases result : Source.program source.code with
  | error fault =>
    rw [Session.run, Session.run, alike.left.withProgram_of_error result,
      alike.right.withProgram_of_error result]
    exact alike.refuse_same fault
  | ok p =>
    rw [alike.left.run_eq result, alike.right.run_eq result, alike.machine_eq, alike.execute_eq]

theorem step_same (alike : Alike source s t) : s.step.unparsed = t.step.unparsed := by
  cases result : Source.program source.code with
  | error fault =>
    rw [Session.step, Session.step, alike.left.withProgram_of_error result,
      alike.right.withProgram_of_error result]
    exact alike.refuse_same fault
  | ok p =>
    rw [alike.left.step_eq result, alike.right.step_eq result, alike.machine_eq, alike.execute_eq]

theorem answered (alike : Alike source s t) (raw : String) :
    Alike source { s with machine := (s.machine.provide raw).1 }
      { t with machine := (t.machine.provide raw).1 } where
  left := alike.left.answered raw
  right := alike.right.answered raw
  same := congrArg (fun u : Session => { u with machine := (u.machine.provide raw).1 }) alike.same

/-- Whether a session holds the program makes no difference to what an operation does. -/
theorem apply (alike : Alike source s t) (op : SessionOp) :
    Alike source (s.apply op) (t.apply op) := by
  refine ⟨alike.left.apply op, alike.right.apply op, ?_⟩
  cases op with
  | run => exact alike.run_same
  | step => exact alike.step_same
  | provide raw =>
    have mode : s.mode = t.mode := by
      show s.unparsed.mode = t.unparsed.mode
      rw [alike.same]
    simp only [Session.apply, provide, mode]
    split
    · exact (alike.answered raw).step_same
    · exact (alike.answered raw).run_same
  | reset =>
    show s.unparsed.reset = t.unparsed.reset
    rw [alike.same]

end Alike

/-! ## Views -/

/-- What can be seen of a session: what the last operation showed, what went wrong in it, how the
program is made to go on, the variables of the machine, and the answers that it has not read. -/
structure View where
  last : Snapshot
  fault : Option Fault
  mode : Mode
  vars : Env
  unread : List Value

def view (s : Session) : View where
  last := s.last
  fault := s.fault
  mode := s.mode
  vars := s.machine.memory.vars
  unread := s.machine.unread

/-- What can be seen after each of several operations. -/
def views (s : Session) : List SessionOp → List View
  | [] => []
  | op :: ops => (s.apply op).view :: (s.apply op).views ops

theorem Alike.view_eq (alike : Alike source s t) : s.view = t.view := by
  show s.unparsed.view = t.unparsed.view
  rw [alike.same]

theorem Alike.views_eq (alike : Alike source s t) (ops : List SessionOp) :
    s.views ops = t.views ops := by
  induction ops generalizing s t with
  | nil => rfl
  | cons op ops ih =>
    have next := alike.apply op
    rw [views, views, next.view_eq, ih next]

/-! ## Starting over -/

/-- A session that is reset is a new one, but for the program that it may hold. -/
theorem unparsed_reset (source : SourceText) {budget : Int} (positive : 0 < budget)
    (ops : List SessionOp) :
    ((start source budget).applyAll ops).reset.unparsed = start source budget := by
  generalize reached : (start source budget).applyAll ops = s
  have sound : s.Sound source := reached ▸ (sound_start positive source).applyAll ops
  have machine : s.machine.reset = Machine.withBudget budget := by
    obtain ⟨calls, served⟩ := servedSince_applyAll (start source budget) ops
    have since : s.machine
        = (Machine.withBudget budget).serveAll (source.answers.map .provide ++ calls) := by
      rw [Machine.serveAll_append, ← Machine.provideAll_eq_serveAll, ← reached]
      exact served
    rw [since, Machine.reset_eq_withBudget]
  rw [reset, machine, unparsed, sound.origin, sound.lines]
  rfl

/-- A session that is reset starts over. Let a session have done any operations, and be reset. What
can be seen of it is what can be seen of a new session on the same source with the same budget; and
whatever operations follow, each of them shows the same on both. The answers of the source are
queued again, once, and no other answer is known. -/
theorem reset_starts_over (source : SourceText) (budget : Int) (positive : 0 < budget)
    (before after : List SessionOp) :
    let s := ((start source budget).applyAll before).reset
    s.view = (start source budget).view ∧ s.views after = (start source budget).views after ∧
      s.machine.unread = source.answers.map Value.ofAnswer ∧
      s.machine.history.toList = source.answers.map Value.ofAnswer := by
  intro s
  have sound : ((start source budget).applyAll before).Sound source :=
    (sound_start positive source).applyAll before
  have alike : Alike source s (start source budget) :=
    ⟨sound.reset, sound_start positive source, unparsed_reset source positive before⟩
  have history : s.machine.history.toList = source.answers.map Value.ofAnswer := by
    rw [alike.machine_eq, start, Machine.history_provideAll]
    simp [Machine.withBudget]
  have unread : s.machine.unread = s.machine.history.toList := by
    rw [alike.machine_eq, Machine.unread, start, Machine.memory_provideAll]
    rfl
  exact ⟨alike.view_eq, alike.views_eq after, unread.trans history, history⟩

/-- The answer that was given to a session with one queued answer is forgotten, and the queued one
is there again. -/
theorem reset_starts_over_answered :
    let source := { question with answers := ["5"] }
    let s := (start source 10).applyAll [.run, .provide "7"]
    s.machine.history.size = 2 ∧ s.reset.machine.unread = [.ofAnswer "5"] ∧
      s.reset.views [.step, .provide "8"] = (start source 10).views [.step, .provide "8"] := by
  intro source s
  obtain ⟨-, views, unread, -⟩ :=
    reset_starts_over source 10 (by decide) [.run, .provide "7"] [.step, .provide "8"]
  refine ⟨?_, unread, views⟩
  have sound := sound_start (show (0 : Int) < 10 by decide) source
  have parsed : Source.program source.code = .ok { statements := [.read "x" 2] } := program_question
  show ((start source 10).run.provide "7").machine.history.size = 2
  rw [sound.run_eq parsed]
  rfl

end Session

end Pseudocode
