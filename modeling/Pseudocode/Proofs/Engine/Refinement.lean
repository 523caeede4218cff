import Pseudocode.Proofs.Engine.Lockstep
import Pseudocode.Proofs.Machine.Failure

/-!
# The engine refines the machine

After the same calls an engine and a machine hold the same (`Engine.Agrees`), and what the one
returns shows what the other does (`Engine.Shows`). A call of the engine may go on for ever and a
machine without a budget gives a drive up, so neither can be said to do what the other does; but

* a call that returns on the engine returns the same on a machine with enough patience
  (`Agrees.serve`), and so it is after all calls (`Reaches.refines`);
* a call that the machine does not give up returns on the engine
  (`Agrees.exists_returned_of_finished`).

A loop of ticks keeps step with a drive (`ends_drive`): where the drive stands is a task of which all
is kept (`Task.Coherent`), so no index of the engine lies outside of its list and no tick crashes. What
is shown of an engine is read off its registers (`Stands.result?_eq`).
-/

namespace Pseudocode

namespace Engine

/-! ## What is seen -/

/-- What is seen of a machine, as an engine shows it. -/
def Result.ofSnapshot (s : Snapshot) : Result where
  output := s.output
  vars := s.vars
  suspended := s.pending.isSome
  pendingName := s.pending.getD ""
  completed := s.completed
  cursor := s.cursor
  line := s.line

section Seen

variable {e : Engine} {c : Control} {memory : Memory}

namespace Stands

theorem length_frames (h : e.Stands c) : e.frames.length = c.inner.length + 1 := by
  have length := congrArg List.length h.frames
  rw [List.length_map, Control.frames, List.length_append, List.length_singleton] at length
  exact length

/-- The outermost block is the program, at the statement to be started next. -/
theorem exists_outermost (h : e.Stands c) : ∃ b, e.frames.getLast? = some b ∧ b.InRange ∧
    b.frame = ⟨.branch, c.program.statements, c.rest⟩ ∧ b.pc = c.started := by
  have last := congrArg List.getLast? h.frames
  rw [List.getLast?_map, Control.frames, List.getLast?_concat] at last
  obtain ⟨b, found, frame⟩ := Option.map_eq_some_iff.mp last
  have range : b.InRange := h.range b (List.mem_of_getLast? found)
  refine ⟨b, found, range, frame, ?_⟩
  rw [← Block.pc_frame range, frame]
  rfl

/-- The outermost block is the only one if no frame is open inside the program. -/
theorem only?_eq_some (h : e.Stands c) {b : Block} (last : e.frames.getLast? = some b)
    (inner : c.inner = []) : e.only? = some b := by
  have length := h.length_frames
  rw [inner] at length
  obtain ⟨b', frames⟩ := List.length_eq_one_iff.mp length
  rw [frames, List.getLast?_singleton] at last
  simp only [only?, frames, last]

theorem only?_eq_none (h : e.Stands c) (opened : c.inner ≠ []) : e.only? = none := by
  have length := h.length_frames
  have := List.length_pos_iff.mpr opened
  unfold only?
  split
  · rename_i b frames
    rw [frames, List.length_singleton] at length
    omega
  · rfl

theorem completed_eq (h : e.Stands c) : e.completed = c.completed := by
  by_cases inner : c.inner = []
  · obtain ⟨b, last, range, frame, -⟩ := h.exists_outermost
    rw [Engine.completed, h.only?_eq_some last inner, Option.any_some, Control.completed, inner,
      List.isEmpty_nil, Bool.true_and, Bool.eq_iff_iff, decide_eq_true_iff,
      Block.length_le_pc_iff range, frame, List.head?_eq_none_iff, List.isEmpty_iff]
  · rw [Engine.completed, h.only?_eq_none inner, Option.any_none, Control.completed,
      List.isEmpty_eq_false_iff.mpr inner, Bool.false_and]

theorem halted_eq (h : e.Stands c) : e.halted = c.halted := by
  rw [Engine.halted, Control.halted, h.completed_eq, h.suspended_eq]

theorem stepCursor_eq (h : e.Stands c) (stacked : Stacked c.frames) :
    e.stepCursor = c.cursor := by
  obtain ⟨b, last, -, -, pc⟩ := h.exists_outermost
  have length := h.length_frames
  rw [Engine.stepCursor, last]
  show (if 1 < e.frames.length then b.pc - 1 else b.pc) = c.cursor
  cases inner : c.inner with
  | nil =>
    rw [inner] at length
    rw [if_neg (by rw [length, List.length_nil]; omega), pc, Control.cursor_of_outermost inner]
  | cons f outer =>
    have opened : c.inner ≠ [] := by rw [inner]; nofun
    have started := Control.started_pos stacked opened
    rw [inner] at length
    rw [if_pos (by rw [length, List.length_cons]; omega), pc, Control.cursor_of_opened opened]
    omega

end Stands

/-- Execution goes on at the line of the innermost block that has one. -/
theorem currentLine?_eq {blocks : List Block} (range : ∀ b ∈ blocks, b.InRange) :
    currentLine? blocks = some (((blocks.map Block.frame).findSome? Frame.line?).getD 0) := by
  induction blocks with
  | nil => rfl
  | cons b outer ih =>
    obtain ⟨inRange, range⟩ := List.forall_mem_cons.mp range
    rw [currentLine?, List.map_cons, List.findSome?_cons, Block.elementAt?_pc inRange, Frame.line?]
    cases next : b.frame.rest.head? with
    | some s =>
      have more : b.pc < b.statements.length := by
        rw [← Int.not_le, Block.length_le_pc_iff inRange, next]
        nofun
      rw [if_pos more]
      rfl
    | none =>
      have all : ¬b.pc < b.statements.length := by
        rw [Int.not_lt, Block.length_le_pc_iff inRange, next]
      rw [if_neg all, ih range]
      obtain ⟨kind, statements, pc, line, test, name, counter, last⟩ := b
      cases kind <;> rfl

theorem line_eq_findSome? (c : Control) :
    c.line = (c.frames.findSome? Frame.line?).getD 0 := by
  rw [Control.line, Control.frames, List.findSome?_append]
  cases c.inner.findSome? Frame.line? with
  | some line => rfl
  | none => cases c.rest <;> rfl

theorem Stands.currentLine?_eq (h : e.Stands c) : currentLine? e.frames = some c.line := by
  rw [Engine.currentLine?_eq h.range, h.frames, line_eq_findSome?]

/-- What is seen of an engine is what is seen of the task that it holds. -/
theorem Stands.result?_eq (h : e.Stands c) (remembers : e.Remembers memory)
    (stacked : Stacked c.frames) :
    e.result? = some (.ofSnapshot (Task.snapshot ⟨c, memory⟩)) := by
  have completed : (e.program.isSome && e.completed) = c.completed := by
    rw [h.program, h.completed_eq, Option.isSome_some, Bool.true_and]
  rw [Engine.result?, completed, h.currentLine?_eq, h.stepCursor_eq stacked, remembers.vars,
    remembers.output]
  rw [h.suspended_eq, h.pendingName_eq, h.pendingLine_eq, Task.snapshot]
  cases c.pending with
  | some prompt => rfl
  | none =>
    by_cases done : c.completed = true
    · simp only [done, Control.line_of_completed done]
      rfl
    · simp only [done]
      rfl

end Seen

/-! ## Drives -/

/-- A loop of ticks ends as a drive does. -/
inductive Ends (m : Machine) : Ending → Drive → Prop
  | stopped {e : Engine} {t : Task} (tracks : Tracks m e t) (kept : t.Coherent m.history.size) :
      Ends m (.stopped e) (.reached t)
  | raised {e : Engine} {t : Task} {error : RuntimeError} (tracks : Tracks m e t)
      (kept : t.Coherent m.history.size) (going : t.control.halted = false) :
      Ends m (.raised e error) (.failed t error)
  | running {e : Engine} {t : Task} (tracks : Tracks m e t) (kept : t.Coherent m.history.size) :
      Ends m (.running e) (.outOfFuel t)

section Drives

variable {m : Machine} {e : Engine} {t : Task} {done : Engine → Bool} {until? : Control → Bool}

theorem ends_drive (agree : ∀ e c, Stands e c → done e = until? c)
    (stops : ∀ c : Control, c.halted = true → until? c = true) (tracks : Tracks m e t)
    (counted : e.Counted t) (kept : t.Coherent m.history.size) (n : Nat) :
    Ends m (drive done n e) (t.drive m.supply until? n) := by
  induction n generalizing e t with
  | zero => exact .running tracks kept
  | succ n ih =>
    rw [drive, Task.drive, agree e t.control tracks.stands]
    cases going : until? t.control with
    | true => exact .stopped tracks kept
    | false =>
      have going' := Control.not_halted_of_going stops going
      have locks := tracks.tick counted going'
      simp only [Bool.false_eq_true, if_false]
      generalize e.tick = o at locks
      generalize ticks : t.tick m.supply = k at locks
      cases locks with
      | ok tracks' counted' =>
        have free := (Control.open_of_going going').2
        exact ih tracks' counted' ((Task.tick_eq_ok_iff.mp ticks).coherent kept free)
      | raised tracks' =>
        have fails := Task.tick_eq_failed_iff.mp ticks
        refine .raised tracks' (fails.coherent kept) ?_
        cases fails <;> exact going'

end Drives

/-! ## Machines -/

/-- No program is bound. -/
structure Unbound (e : Engine) : Prop where
  program : e.program = none
  frames : e.frames = []
  question : (e.suspended, e.pendingName, e.pendingLine) = questionRegisters none

/-- The registers hold the place where a program is bound, and are cleared where none is. -/
def Placed (e : Engine) : Option Control → Prop
  | some c => e.Stands c
  | none => e.Unbound

/-- Between calls: an engine holds what the machine does. -/
structure Agrees (e : Engine) (m : Machine) : Prop where
  placed : e.Placed m.control
  remembers : e.Remembers m.memory
  shares : e.Shares m
  asked : e.asked = m.asked

/-- What a call of an engine returns is what the call of the machine does. -/
def Shows : Option (Result × Option RuntimeError) → Option Response → Prop
  | none, none => True
  | some (r, error), some response =>
    r = .ofSnapshot response.snapshot ∧ error.map Fault.runtime = response.fault
  | _, _ => False

/-- What a call of an engine comes to when the drive of the machine comes to `d`. -/
inductive Meets (m : Machine) : Reply → Drive → Prop
  | returned {e : Engine} {shown : Option (Result × Option RuntimeError)} {d : Drive}
      (agrees : Agrees e (m.conclude d)) (shows : Shows shown (some d.response))
      (finished : ∀ t, d ≠ .outOfFuel t) : Meets m (.returned e shown) d
  | running {e : Engine} {t : Task} (tracks : Tracks m e t) (kept : t.Coherent m.history.size) :
      Meets m (.running e) (.outOfFuel t)

section Machines

variable {m : Machine} {e : Engine} {t : Task}

/-- The program that is bound, in the engine and in the machine. -/
theorem Agrees.program_eq (h : Agrees e m) : e.program = m.program? := by
  have placed := h.placed
  unfold Machine.program?
  cases bound : m.control with
  | none =>
    rw [bound] at placed
    exact placed.program
  | some c =>
    rw [bound] at placed
    exact placed.program

theorem Agrees.stands (h : Agrees e m) {c : Control} (bound : m.control = some c) :
    e.Stands c := by
  have placed := h.placed
  rw [bound] at placed
  exact placed

theorem Agrees.unbound (h : Agrees e m) (unbound : m.control = none) : e.Unbound := by
  have placed := h.placed
  rw [unbound] at placed
  exact placed

theorem Agrees.tracks_start (h : Agrees e m) (p : Program) :
    Tracks m (e.start p) (.ofProgram p) where
  stands :=
    { program := rfl
      frames := rfl
      range := List.forall_mem_singleton.mpr (Block.inRange_start rfl)
      question := rfl }
  remembers := ⟨rfl, rfl, rfl⟩
  shares := ⟨h.shares.history, h.shares.budget, h.shares.listening⟩
  asked := h.asked

/-- What is seen of an engine is what is seen of the machine. -/
theorem Agrees.result?_eq (h : Agrees e m) (kept : m.Coherent) :
    e.result? = some (.ofSnapshot m.snapshot) := by
  rw [Machine.snapshot]
  cases bound : m.control with
  | some c => exact (h.stands bound).result?_eq h.remembers (kept.task c bound).stacked
  | none =>
    obtain ⟨program, frames, question⟩ := h.unbound bound
    obtain ⟨suspended, question⟩ := Prod.mk.inj question
    obtain ⟨name, line⟩ := Prod.mk.inj question
    simp only [Engine.result?, program, frames, suspended, name, stepCursor, currentLine?,
      h.remembers.vars, h.remembers.output]
    rfl

theorem Tracks.agrees (h : Tracks m e t) : Agrees e (m.conclude (.reached t)) where
  placed := h.stands
  remembers := h.remembers
  shares := ⟨h.shares.history.trans (Machine.history_announce m t).symm,
    h.shares.budget.trans (Machine.budget_announce m t).symm,
    h.shares.listening.trans (Machine.listening_announce m t).symm⟩
  asked := h.asked

/-- A call that fails leaves the variables and the output, and no program. -/
theorem Tracks.agrees_unbind (h : Tracks m e t) (going : t.control.halted = false)
    (error : RuntimeError) : Agrees e.unbind (m.conclude (.failed t error)) where
  placed := ⟨rfl, rfl, rfl⟩
  remembers := ⟨h.remembers.vars, h.remembers.output, h.remembers.cursor⟩
  shares := ⟨h.shares.history, h.shares.budget, h.shares.listening⟩
  asked := by
    have asked := h.asked
    rw [Machine.announce, (Control.open_of_going going).2] at asked
    exact asked

theorem Tracks.result?_eq (h : Tracks m e t) (kept : t.Coherent m.history.size) :
    e.result? = some (.ofSnapshot t.snapshot) :=
  h.stands.result?_eq h.remembers kept.stacked

/-- A call makes of its loop what the machine makes of its drive. -/
theorem Ends.conclude {ending : Ending} {d : Drive} (h : Ends m ending d) :
    Meets m ending.conclude d := by
  cases h with
  | @stopped e t tracks kept =>
    rw [Ending.conclude, report, tracks.result?_eq kept]
    exact .returned tracks.agrees ⟨rfl, rfl⟩ nofun
  | @raised e t error tracks kept going =>
    have open' : t.snapshot.completed = false := (Control.open_of_going going).1
    rw [Ending.conclude, fail, tracks.result?_eq kept]
    refine .returned (tracks.agrees_unbind going error) ⟨?_, rfl⟩ nofun
    show { Result.ofSnapshot t.snapshot with completed := false } = Result.ofSnapshot t.snapshot
    rw [← open']
    rfl
  | running tracks kept => exact .running tracks kept

/-- A loop of ticks of an engine that tracks a task, concluded. -/
theorem Tracks.drive (h : Tracks m e t) (counted : e.Counted t) (kept : t.Coherent m.history.size)
    {done : Engine → Bool} {until? : Control → Bool}
    (agree : ∀ e c, Stands e c → done e = until? c)
    (stops : ∀ c : Control, c.halted = true → until? c = true) (n : Nat) :
    Meets m (Engine.drive done n e).conclude (t.drive m.supply until? n) :=
  (ends_drive agree stops h counted kept n).conclude

end Machines

/-! ## Steps -/

section Steps

variable {m : Machine} {e : Engine} {t : Task} {c : Control}

/-- A step is over at the same places. -/
theorem Stands.stepDone_eq (h : e.Stands c) (k : Nat) :
    stepDone k e = Machine.stepDone k c := by
  have passed : (e.only?.any fun b => decide ((k : Int) < b.pc))
      = (c.inner.isEmpty && decide (k < c.started)) := by
    by_cases inner : c.inner = []
    · obtain ⟨b, last, -, -, pc⟩ := h.exists_outermost
      simp [h.only?_eq_some last inner, inner, pc]
    · simp [h.only?_eq_none inner, inner]
  rw [stepDone, Machine.stepDone, Control.halted, h.suspended_eq, h.completed_eq, passed,
    Bool.or_comm c.pending.isSome]

/-- A step is not over where it starts. -/
theorem stepDone_cursor (going : c.halted = false) : Machine.stepDone c.cursor c = false := by
  rw [Machine.stepDone, going, Bool.false_or]
  cases inner : c.inner with
  | nil => simp [Control.cursor_of_outermost inner]
  | cons f outer => rfl

theorem Tracks.stepBound (h : Tracks m e t) (kept : t.Coherent m.history.size)
    (going : t.control.halted = false) (n : Nat) :
    Meets m (e.stepBound n)
      ((t.withSpent 0).drive m.supply (Machine.stepDone t.control.cursor) (n + 1)) := by
  obtain ⟨b, last, -, -, pc⟩ := h.stands.exists_outermost
  obtain ⟨open', free⟩ := Control.open_of_going going
  have restarted : Tracks m { e with steps := 0 } (t.withSpent 0) :=
    h.keep (h.stands.keep rfl rfl rfl ⟨rfl, rfl, rfl⟩)
      ⟨h.remembers.vars, h.remembers.output, h.remembers.cursor⟩ ⟨rfl, rfl, rfl⟩ rfl rfl
  have start : (if 1 < e.frames.length then b.pc - 1 else b.pc) = t.control.cursor := by
    have cursor := h.stands.stepCursor_eq kept.stacked
    rw [Engine.stepCursor, last] at cursor
    exact cursor
  have live : stepDone t.control.cursor { e with steps := 0 } = false := by
    rw [restarted.stands.stepDone_eq]
    exact stepDone_cursor going
  have looped : e.stepBound n
      = (Engine.drive (stepDone t.control.cursor) (n + 1) { e with steps := 0 }).conclude := by
    have free' : ¬e.suspended = true := by rw [h.stands.suspended_eq, free]; nofun
    have open'' : ¬e.completed = true := by rw [h.stands.completed_eq, open']; nofun
    simp only [Engine.drive, live, Engine.stepBound, if_neg free', if_neg open'', last, start]
    cases ({ e with steps := 0 } : Engine).tick <;> rfl
  rw [looped]
  exact restarted.drive (.zero rfl rfl) ⟨kept.stacked, kept.read, kept.waiting⟩
    (fun e c stands => stands.stepDone_eq _) (fun _ => Machine.stepDone_of_halted _) (n + 1)

end Steps

/-! ## Calls -/

section Calls

variable {m : Machine} {e : Engine} {call : Call} {l : Launch}

/-- A step goes on with the bound program, or with one that is bound only now. -/
theorem Agrees.step_eq_of_task? (h : Agrees e m) {program? : Option Program} {t : Task}
    (chosen : m.task? program? = some t) (n : Nat) :
    ∃ e' : Engine, e.step n program? = e'.stepBound n ∧
      Agrees e' { m with memory := t.memory, control := some t.control } := by
  unfold Machine.task? at chosen
  cases bound : m.control with
  | some c =>
    rw [bound] at chosen
    cases chosen
    have stands := h.stands bound
    refine ⟨e, ?_, stands, h.remembers,
      ⟨h.shares.history, h.shares.budget, h.shares.listening⟩, h.asked⟩
    simp only [step, stands.program]
  | none =>
    rw [bound] at chosen
    obtain ⟨p, rfl, rfl⟩ := Option.map_eq_some_iff.mp chosen
    have tracks := h.tracks_start p
    refine ⟨e.start p, ?_, tracks.stands, tracks.remembers,
      ⟨h.shares.history, h.shares.budget, h.shares.listening⟩, h.asked⟩
    simp only [step, (h.unbound bound).program]

/-- A call that makes a drive comes to what that drive comes to. The first tick of a step is made
before its loop. -/
theorem Agrees.meets_of_launch? (h : Agrees e m) (kept : m.Coherent)
    (launch : m.launch? call = some l) (n : Nat) :
    ∃ k, n ≤ k ∧ k ≤ n + 1 ∧
      Meets m (e.serve n call) (l.task.drive m.supply l.until? k) := by
  cases call with
  | run program? =>
    obtain ⟨p, chosen, rfl⟩ := Machine.launch?_run launch
    refine ⟨n, Nat.le_refl _, Nat.le_succ _, ?_⟩
    rw [serve, run, h.program_eq, chosen]
    exact (h.tracks_start p).drive (.zero rfl rfl) (Task.coherent_ofProgram p _)
      (fun e c stands => stands.halted_eq) (fun _ halted => halted) n
  | step program? =>
    obtain ⟨t, chosen, going, rfl⟩ := Machine.launch?_step launch
    refine ⟨n + 1, Nat.le_succ _, Nat.le_refl _, ?_⟩
    obtain ⟨e', steps, agrees⟩ := h.step_eq_of_task? chosen n
    have free := (Control.open_of_going going).2
    have tracks : Tracks m e' t := by
      refine ⟨agrees.placed, agrees.remembers,
        ⟨agrees.shares.history, agrees.shares.budget, agrees.shares.listening⟩, ?_⟩
      rw [Machine.announce, free]
      exact agrees.asked
    rw [serve, steps]
    exact tracks.stepBound (Machine.coherent_task? kept chosen) going n
  | provide raw => cases launch
  | reset => cases launch

theorem Agrees.provide (h : Agrees e m) (raw : String) : Agrees (e.provide raw) (m.provide raw).1 where
  placed := by
    show Placed (e.provide raw) (m.control.map Control.resume)
    cases bound : m.control with
    | some c =>
      have stands := h.stands bound
      exact ⟨stands.program, stands.frames, stands.range, rfl⟩
    | none =>
      have unbound := h.unbound bound
      exact ⟨unbound.program, unbound.frames, rfl⟩
  remembers := ⟨h.remembers.vars, h.remembers.output, h.remembers.cursor⟩
  shares := ⟨congrArg (·.push (Value.ofAnswer raw)) h.shares.history, h.shares.budget,
    h.shares.listening⟩
  asked := h.asked

theorem Agrees.reset (h : Agrees e m) : Agrees e.reset m.reset where
  placed := ⟨rfl, rfl, rfl⟩
  remembers := ⟨rfl, rfl, rfl⟩
  shares := ⟨rfl, h.shares.budget, h.shares.listening⟩
  asked := h.asked

/-- An engine that only reports shows what is seen of the machine. -/
theorem Agrees.report_eq (h : Agrees e m) (kept : m.Coherent) (error : Option RuntimeError) :
    e.report error = .returned e (some (.ofSnapshot m.snapshot, error)) := by
  rw [Engine.report, h.result?_eq kept]

theorem Agrees.serve_of_refuses (h : Agrees e m) (kept : m.Coherent) {cause : Misuse} {line : Int}
    (refuses : m.Refuses call cause line) (n : Nat) :
    e.serve n call
      = .returned e (some (.ofSnapshot m.snapshot, some (.misuse cause line))) := by
  rw [← h.report_eq kept]
  cases refuses with
  | run unbound =>
    rw [serve, run, h.program_eq, unbound]
    rfl
  | step unbound =>
    simp only [serve, step, h.program_eq, unbound]
  | @waiting program? prompt waits =>
    obtain ⟨c, bound, pending⟩ := Option.bind_eq_some_iff.mp waits
    have stands := h.stands bound
    have suspended : e.suspended = true := by rw [stands.suspended_eq, pending]; rfl
    simp only [serve, step, stands.program]
    rw [stepBound, if_pos suspended, stands.pendingName_eq, stands.pendingLine_eq, pending]
    rfl

/-- A call that makes no drive returns what it returns on the machine. -/
theorem Agrees.serve_of_grounded (h : Agrees e m) (kept : m.Coherent)
    (grounded : m.launch? call = none) (n : Nat) :
    ∃ e' shown, e.serve n call = .returned e' shown ∧ Agrees e' (m.serve call).1 ∧
      Shows shown (m.serve call).2 := by
  have serves := m.serves call
  generalize m.serve call = result at serves
  cases serves with
  | launched launch =>
    rw [launch] at grounded
    cases grounded
  | refused refuses _ => exact ⟨e, _, h.serve_of_refuses kept refuses n, h, rfl, rfl⟩
  | @completed program? t chosen completed _ =>
    obtain ⟨e', steps, agrees⟩ := h.step_eq_of_task? chosen n
    have kept' := Machine.coherent_task? kept chosen
    have stands : e'.Stands t.control := agrees.placed
    have completed' : e'.completed = true := by rw [stands.completed_eq, completed]
    have free : t.control.pending = none := by
      cases waits : t.control.pending with
      | none => rfl
      | some prompt =>
        rw [Task.completed_of_next (kept'.waiting prompt waits).1] at completed
        cases completed
    have free' : ¬e'.suspended = true := by rw [stands.suspended_eq, free]; nofun
    refine ⟨e', some (.ofSnapshot t.snapshot, none), ?_, agrees, rfl, rfl⟩
    rw [serve, steps, stepBound, if_neg free', if_pos completed']
    exact agrees.report_eq (Machine.coherent_of_task kept' rfl rfl) none
  | provided => exact ⟨_, _, rfl, h.provide _, trivial⟩
  | reset => exact ⟨_, _, rfl, h.reset, trivial⟩

/-- What a call returns is what it returns on the machine. A machine without a budget needs the
patience for it. -/
theorem Agrees.serve (h : Agrees e m) (kept : m.Coherent) {n : Nat} {e' : Engine}
    {shown : Option (Result × Option RuntimeError)} (returned : e.serve n call = .returned e' shown)
    (patient : n < m.patience) : Agrees e' (m.serve call).1 ∧ Shows shown (m.serve call).2 := by
  cases launch : m.launch? call with
  | none =>
    obtain ⟨_, _, returned', agrees, shows⟩ := h.serve_of_grounded kept launch n
    rw [returned] at returned'
    cases returned'
    exact ⟨agrees, shows⟩
  | some l =>
    obtain ⟨k, -, le, meets⟩ := h.meets_of_launch? kept launch n
    rw [returned] at meets
    generalize ended : l.task.drive m.supply l.until? k = d at meets
    cases meets with
    | returned agrees shows finished =>
      obtain ⟨j, lt, drives⟩ := drives_of_drive ended finished
      rw [Machine.serve_of_launch? launch,
        Machine.drive_of_drives drives (Machine.stops_of_launch? launch) fun _ => by omega]
      exact ⟨agrees, shows⟩

/-- A call whose drive ends returns as soon as it may make the ticks of the drive. -/
theorem Agrees.returned_of_drives (h : Agrees e m) (kept : m.Coherent)
    (launch : m.launch? call = some l) {j n : Nat} {d : Drive}
    (drives : Drives m.supply l.until? j l.task d) (room : j < n) :
    ∃ e' shown, e.serve n call = .returned e' shown := by
  obtain ⟨k, le, -, meets⟩ := h.meets_of_launch? kept launch n
  rw [drive_of_drives drives (by omega)] at meets
  generalize e.serve n call = reply at meets ⊢
  cases meets with
  | returned => exact ⟨_, _, rfl⟩
  | running => exact absurd rfl drives.ne_outOfFuel

/-- A call that the machine does not give up returns. -/
theorem Agrees.exists_returned_of_finished (h : Agrees e m) (kept : m.Coherent) (call : Call)
    (finished : ∀ r, (m.serve call).2 = some r → r.fault ≠ some .unfinished) :
    ∃ n e' shown, e.serve n call = .returned e' shown := by
  cases launch : m.launch? call with
  | none =>
    obtain ⟨e', shown, returned, -⟩ := h.serve_of_grounded kept launch 0
    exact ⟨0, e', shown, returned⟩
  | some l =>
    rw [Machine.serve_of_launch? launch] at finished
    obtain ⟨j, d, drives, -⟩ := Machine.drives_of_finished (finished _ rfl)
    exact ⟨j + 1, h.returned_of_drives kept launch drives (Nat.lt_succ_self j)⟩

end Calls

/-- A new engine: its limit, and whether someone listens. -/
def create (limit : Int64) (listening : Bool) : Engine :=
  { limit, listening }

/-- The machine that a new engine refines. -/
def model (limit : Int64) (listening : Bool) (patience : Nat) : Machine :=
  .create (create limit listening).budget patience listening

theorem agrees_create (limit : Int64) (listening : Bool) (patience : Nat) :
    Agrees (create limit listening) (model limit listening patience) where
  placed := ⟨rfl, rfl, rfl⟩
  remembers := ⟨rfl, rfl, rfl⟩
  shares := ⟨rfl, (Int.toNat_natCast _).symm, rfl⟩
  asked := rfl

theorem coherent_model (limit : Int64) (listening : Bool) (patience : Nat) (calls : List Call) :
    ((model limit listening patience).serveAll calls).Coherent :=
  Machine.coherent_serveAll (Machine.coherent_create ..) calls

/-- The engine refines the machine: after calls that have returned it holds what the machine holds
after the same calls, if the patience of that is enough. -/
theorem Reaches.refines {limit : Int64} {listening : Bool} {calls : List Call} {e : Engine}
    (h : Reaches (create limit listening) calls e) :
    ∃ enough, ∀ patience ≥ enough,
      Agrees e ((model limit listening patience).serveAll calls) := by
  induction h with
  | start => exact ⟨0, fun patience _ => agrees_create limit listening patience⟩
  | @call calls e e' n call shown before returned ih =>
    obtain ⟨enough, refines⟩ := ih
    refine ⟨max enough (n + 1), fun patience le => ?_⟩
    have agrees := refines patience (by omega)
    have patient : n < ((model limit listening patience).serveAll calls).patience := by
      rw [Machine.patience_serveAll]
      show n < patience
      omega
    have served := agrees.serve (coherent_model ..) returned patient
    rw [Machine.serveAll, List.foldl_append]
    exact served.1

/-- Between calls the engine holds what a machine holds that has as much patience as one likes. -/
theorem Reaches.exists_machine {limit : Int64} {listening : Bool} {calls : List Call} {e : Engine}
    (h : Reaches (create limit listening) calls e) (n : Nat) :
    ∃ m : Machine, Agrees e m ∧ m.Coherent ∧ m.listening = listening ∧
      m.budget = (create limit listening).budget ∧ n < m.patience := by
  obtain ⟨enough, refines⟩ := h.refines
  refine ⟨_, refines (max enough (n + 1)) (Nat.le_max_left ..), coherent_model .., ?_, ?_, ?_⟩
  · exact Machine.listening_serveAll (Machine.coherent_create ..) calls
  · rw [Machine.budget_serveAll]
    exact Int.toNat_natCast _
  · rw [Machine.patience_serveAll]
    show n < max enough (n + 1)
    omega

end Engine

end Pseudocode
