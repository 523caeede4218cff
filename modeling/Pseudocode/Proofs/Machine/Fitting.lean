import Pseudocode.Proofs.Machine.Budget
import Pseudocode.Proofs.Machine.Invariant
import Pseudocode.Proofs.Tree.Fitting

/-!
# Runs of fitting programs

A program that fits goes wrong in four ways only, each on a line of the program: a variable without
a value, a division by zero, operands of the wrong kind, and a spent budget
(`RuntimeError.Regular`). Wherever a call stops, what it shows is a line of the program, or zero if
the program is completed (`Snapshot.Placed`).

No tick is opened again for this. The open blocks of a task are blocks of its program one inside the
other, so all of them fit if the program does (`Stacked.fits`), and a tick changes the program no
more than it changes the stack (`Moves.program_eq`).
-/

namespace Pseudocode

variable {ok : Int → Prop}

/-! ## Errors of evaluation -/

/-- An error of the program itself and not of its use, on a line that is `ok`. -/
def RuntimeError.Regular (ok : Int → Prop) (e : RuntimeError) : Prop :=
  (∀ cause line, e ≠ .misuse cause line) ∧ ok e.line

namespace Value

variable {op : Op} {line : Int} {error : RuntimeError}

theorem arithmetic_regular {f : Float → Float → Except RuntimeError Float} (here : ok line)
    (regular : ∀ x y error, f x y = .error error → error.Regular ok) {a b : Value}
    (failed : arithmetic op line f a b = .error error) : error.Regular ok := by
  unfold arithmetic at failed
  split at failed
  · rename_i x y
    cases result : f x y with
    | ok z => rw [result] at failed; cases failed
    | error e =>
      rw [result] at failed
      cases failed
      exact regular x y _ result
  · cases failed
    exact ⟨nofun, here⟩

theorem ordered_regular (here : ok line) {o : Comparison} {a b : Value}
    (failed : ordered op line o a b = .error error) : error.Regular ok := by
  unfold ordered at failed
  split at failed
  · cases failed
  · cases failed
  · cases failed
    exact ⟨nofun, here⟩

theorem divide_regular (here : ok line) (x y : Float) (error : RuntimeError)
    (failed : divide line x y = .error error) : error.Regular ok := by
  unfold divide at failed
  split at failed
  · cases failed
    exact ⟨nofun, here⟩
  · cases failed

theorem apply_regular (known : op.Known) (here : ok line) {a b : Value}
    (failed : apply op line a b = .error error) : error.Regular ok := by
  cases op with
  | sub => exact arithmetic_regular (f := fun x y => .ok (x - y)) here nofun failed
  | mul => exact arithmetic_regular (f := fun x y => .ok (x * y)) here nofun failed
  | div => exact arithmetic_regular here (divide_regular here) failed
  | gt | lt | ge | le => exact ordered_regular here failed
  | add | eq | and | or => cases failed
  | unknown symbol => exact known.elim

end Value

theorem Expr.eval_regular {e : Expr} (fits : e.Fits ok) {env : Env} {error : RuntimeError}
    (failed : e.eval env = .error error) : error.Regular ok := by
  induction fits generalizing error with
  | num => cases failed
  | str => cases failed
  | ident here =>
    rw [eval] at failed
    split at failed
    · cases failed
    · cases failed
      exact ⟨by simp, here⟩
  | bin known fitsLeft fitsRight here ihLeft ihRight =>
    rw [eval] at failed
    split at failed
    · rename_i left
      cases failed
      exact ihLeft left
    · split at failed
      · rename_i right
        cases failed
        exact ihRight right
      · exact Value.apply_regular known here failed

/-! ## Blocks -/

def FrameKind.Fits (ok : Int → Prop) : FrameKind → Prop
  | branch => True
  | loop test line => test.Fits ok ∧ ok line
  | count _ _ _ line => ok line

structure Frame.Fits (ok : Int → Prop) (f : Frame) : Prop where
  kind : f.kind.Fits ok
  body : ∀ s ∈ f.body, s.Fits ok

theorem Stmt.Opens.fits {s : Stmt} {f : Frame} (opened : s.Opens f.kind f.body)
    (fits : s.Fits ok) : f.Fits ok := by
  rcases f with ⟨kind, body, rest⟩
  cases opened with
  | yes =>
    cases fits with
    | cond _ fitsYes _ _ => exact ⟨trivial, fitsYes⟩
  | no =>
    cases fits with
    | cond _ _ fitsNo _ => exact ⟨trivial, fitsNo⟩
  | loop =>
    cases fits with
    | loop fitsTest fitsBody here => exact ⟨⟨fitsTest, here⟩, fitsBody⟩
  | count =>
    cases fits with
    | count _ _ fitsBody here => exact ⟨here, fitsBody⟩

/-- Blocks one inside the other fit if the outermost one does. -/
theorem Stacked.fits {frames : List Frame} (stack : Stacked frames)
    (bottom : ∀ f, frames.getLast? = some f → f.Fits ok) : ∀ f ∈ frames, f.Fits ok := by
  induction stack with
  | @bottom f part => simpa using bottom f rfl
  | @above f g outer s part passed opened below ih =>
    have outside := ih fun h last => bottom h (by rwa [List.getLast?_cons_cons])
    have fitsStmt : s.Fits ok :=
      (outside g List.mem_cons_self).body s (passed.subset List.mem_cons_self)
    exact List.forall_mem_cons.mpr ⟨opened.fits fitsStmt, outside⟩

theorem Control.frames_fit {c : Control} (stack : Stacked c.frames) (fits : c.program.Fits ok) :
    ∀ f ∈ c.frames, f.Fits ok := by
  refine stack.fits fun f last => ?_
  rw [frames, List.getLast?_concat] at last
  cases last
  exact ⟨trivial, fits⟩

/-! ## Ticks -/

namespace Task

variable {supply : Supply} {until? : Control → Bool} {t t' u v : Task} {given : Nat}

theorem program_advance (t : Task) : t.advance.control.program = t.control.program := by
  rcases t with ⟨⟨program, rest, inner, pending, spent⟩, memory⟩
  cases inner <;> rfl

theorem program_choose (t : Task) (branch : List Stmt) :
    (t.choose branch).control.program = t.control.program := by
  cases branch <;> rfl

theorem program_reenter (t : Task) (test : Expr) (body : List Stmt) (line : Int) (v : Value) :
    (t.reenter test body line v).control.program = t.control.program := by
  unfold reenter
  split <;> rfl

theorem program_iterate (t : Task) (name : String) (body : List Stmt) (line : Int)
    (counter last : Float) :
    (t.iterate name body line counter last).control.program = t.control.program := by
  unfold iterate
  split <;> rfl

theorem Moves.program_eq (h : Moves supply t t') :
    t'.control.program = t.control.program := by
  cases h with
  | assign next pays eval => exact program_advance t.paid
  | write next pays eval => exact program_advance t.paid
  | take next pays answer => exact program_advance t
  | ask next pays unanswered => rfl
  | cond next pays eval => exact (program_choose ..).trans (program_advance t.paid)
  | loop next pays eval => exact (program_reenter ..).trans (program_advance t.paid)
  | count next pays evalFirst evalLast =>
    exact (program_iterate ..).trans (program_advance t.paid)
  | leave next inner kind => rfl
  | again next inner kind pays eval => exact program_reenter ..
  | recount next inner kind pays => exact program_iterate ..
  | idle next inner => rfl

/-- What is kept of a task that runs the fitting program `p`. -/
structure Fits (ok : Int → Prop) (p : Program) (given : Nat) (t : Task) : Prop where
  program : t.control.program = p
  fits : p.Fits ok
  coherent : t.Coherent given

namespace Fits

variable {p : Program}

theorem frame (h : Fits ok p given t) {f : Frame} (member : f ∈ t.control.frames) : f.Fits ok :=
  Control.frames_fit h.coherent.stacked (h.program ▸ h.fits) f member

theorem next (h : Fits ok p given t) {s : Stmt} (next : t.control.next? = some s) : s.Fits ok := by
  obtain ⟨f, outer, frames, top, -⟩ := t.control.exists_innermost
  have member : f ∈ t.control.frames := frames ▸ List.mem_cons_self
  have part : f.rest <:+ f.body := h.coherent.stacked.part_of_mem member
  have head : f.rest.head? = some s := top ▸ next
  exact (h.frame member).body s (part.subset (List.mem_of_head? head))

theorem inner (h : Fits ok p given t) {f : Frame} {outer : List Frame}
    (inner : t.control.inner = f :: outer) : f.Fits ok := by
  refine h.frame ?_
  rw [Control.frames_of_inner inner]
  exact List.mem_cons_self

/-- What is counted is counted on a line of the program. -/
theorem toll (h : Fits ok p given t) {line : Int} (toll : t.toll? = some line) : ok line := by
  unfold toll? at toll
  split at toll
  · rename_i s _ next
    cases toll
    exact (h.next next).line
  · rename_i f _ next inner
    have kind := (h.inner inner).kind
    unfold Frame.loopLine? at toll
    split at toll <;> rename_i shape <;> rw [shape] at kind
    · cases toll
    · cases toll
      exact kind.2
    · cases toll
      exact kind
  · cases toll

/-- A fitting program fails with an error of its own, on one of its lines. -/
theorem regular (h : Fits ok p given t) {error : RuntimeError} (fails : t.Fails supply t' error) :
    error.Regular ok := by
  cases fails with
  | spent toll broke => exact ⟨nofun, h.toll toll⟩
  | @operand s e _ next pays operand eval =>
    have fits : e.Fits ok := by
      have whole := h.next next
      cases whole <;> cases operand <;> assumption
    exact Expr.eval_regular fits eval
  | last next pays evalFirst evalLast =>
    cases h.next next with
    | count _ fitsLast _ _ => exact Expr.eval_regular fitsLast evalLast
  | mismatch next pays evalFirst evalLast texts => exact ⟨nofun, (h.next next).line⟩
  | unknown next pays =>
    -- no statement of an unknown sort fits
    cases h.next next
  | test next inner kind pays eval =>
    have fits := (h.inner inner).kind
    rw [kind] at fits
    exact Expr.eval_regular fits.1 eval

/-- What is kept is kept by a tick of a task that does not wait. -/
theorem moves (h : Fits ok p supply.answers.size t) (free : t.control.pending = none)
    (moves : t.Moves supply t') : Fits ok p supply.answers.size t' :=
  ⟨moves.program_eq.trans h.program, h.fits, moves.coherent h.coherent free⟩

theorem performs (h : Fits ok p supply.answers.size t) {log : List Deed}
    (stops : ∀ c : Control, c.halted = true → until? c = true)
    (performs : t.Performs supply until? log u) : Fits ok p supply.answers.size u :=
  performs.invariant h fun kept going move => kept.moves (pending_of_going stops going) move

end Fits

end Task

/-! ## What a call shows -/

/-- What is shown is a line that is `ok`, or zero if the program is completed. -/
def Snapshot.Placed (ok : Int → Prop) (s : Snapshot) : Prop :=
  if s.completed then s.line = 0 else ok s.line

theorem Snapshot.Placed.line_eq_zero_or {shown : Snapshot} (placed : shown.Placed ok) :
    shown.line = 0 ∨ ok shown.line := by
  unfold Placed at placed
  split at placed
  · exact .inl placed
  · exact .inr placed

theorem Snapshot.Placed.line_eq_zero_iff {shown : Snapshot} (placed : shown.Placed ok)
    (never : ¬ok 0) : shown.line = 0 ↔ shown.completed = true := by
  unfold Placed at placed
  split at placed
  · rename_i completed
    simp [placed, completed]
  · rename_i going
    constructor
    · intro none
      rw [none] at placed
      exact absurd placed never
    · intro completed
      exact absurd completed going

theorem Control.line_of_completed {c : Control} (completed : c.completed = true) : c.line = 0 := by
  rcases c with ⟨program, rest, inner, pending, spent⟩
  obtain ⟨noBlock, noRest⟩ := Bool.and_eq_true_iff.mp completed
  obtain rfl := List.isEmpty_iff.mp noBlock
  obtain rfl := List.isEmpty_iff.mp noRest
  rfl

namespace Task

variable {supply : Supply} {t t' : Task} {given : Nat} {p : Program}

/-- A task that fails was at a statement or a test that is counted. -/
theorem Fails.toll {error : RuntimeError} (h : Fails supply t t' error) :
    ∃ line, t.toll? = some line := by
  have atStmt : ∀ s, t.control.next? = some s → t.toll? = some s.line := by
    intro s next
    rw [toll?, next]
  cases h with
  | spent toll broke => exact ⟨_, toll⟩
  | operand next pays operand eval => exact ⟨_, atStmt _ next⟩
  | last next pays evalFirst evalLast => exact ⟨_, atStmt _ next⟩
  | mismatch next pays evalFirst evalLast texts => exact ⟨_, atStmt _ next⟩
  | unknown next pays => exact ⟨_, atStmt _ next⟩
  | @test f outer test line error next inner kind pays eval =>
    refine ⟨line, ?_⟩
    simp only [toll?, next, inner, Frame.loopLine?, kind]

theorem completed_of_toll {line : Int} (toll : t.toll? = some line) :
    t.control.completed = false := by
  cases next : t.control.next? with
  | some s => exact completed_of_next next
  | none =>
    cases inner : t.control.inner with
    | nil => simp [toll?, next, inner] at toll
    | cons f outer => simp [Control.completed, inner]

theorem placed_of_line {line : Int} (completed : t.control.completed = false)
    (free : t.control.pending = none) (here : t.control.line = line) (good : ok line) :
    t.snapshot.Placed ok := by
  rw [Snapshot.Placed, snapshot, completed, free]
  simpa [here] using good

/-- Where the program halts, or no block is open, a line of the program is shown, or none if the
program is completed. -/
theorem Fits.placed (h : Fits ok p given t)
    (stopped : t.control.halted = true ∨ t.control.inner = []) : t.snapshot.Placed ok := by
  cases waits : t.control.pending with
  | some prompt =>
    -- the question stands before its own statement
    have next := (h.coherent.waiting prompt waits).1
    have here : ok prompt.line := (h.next next).line
    rw [Snapshot.Placed, snapshot, completed_of_next next, waits]
    simpa using here
  | none =>
    by_cases completed : t.control.completed = true
    · rw [Snapshot.Placed, snapshot, completed, waits]
      simpa using Control.line_of_completed completed
    · have completed : t.control.completed = false := by simpa using completed
      have inner : t.control.inner = [] := by
        rcases stopped with halted | inner
        · simp [Control.halted, completed, waits] at halted
        · exact inner
      cases rest : t.control.rest with
      | nil => simp [Control.completed, inner, rest] at completed
      | cons s ss =>
        have next : t.control.next? = some s := by simp [Control.next?, inner, rest]
        refine placed_of_line completed waits ?_ (h.next next).line
        simp [Control.line, inner, rest]

/-- A task that fails shows the line that it fails on. -/
theorem Fits.placed_of_fails (h : Fits ok p given t) (free : t.control.pending = none)
    {error : RuntimeError} (fails : t.Fails supply t' error) : t'.snapshot.Placed ok := by
  obtain ⟨line, toll⟩ := fails.toll
  have same : t'.snapshot = t.snapshot := by cases fails <;> rfl
  rw [same]
  exact placed_of_line (completed_of_toll toll) free (line_of_toll toll) (h.toll toll)

end Task

/-! ## Calls -/

theorem Drives.ne_outOfFuel {supply : Supply} {until? : Control → Bool} {n : Nat} {t u : Task}
    {d : Drive} (h : Drives supply until? n t d) : d ≠ .outOfFuel u := by
  induction h with
  | reached done => nofun
  | failed going fails => nofun
  | tick going moves rest ih => exact ih

namespace Machine

variable {m : Machine} {p : Program} {until? : Control → Bool} {t : Task}

/-- What a call that executes the program `p` leaves and returns. A call that fails unbinds the
program; any other shows the question that the machine waits on. -/
structure Settles (ok : Int → Prop) (p : Program) (m : Machine) (result : Machine × Response) :
    Prop where
  coherent : result.1.Coherent
  budget : result.1.budget = m.budget
  bound : ∀ c, result.1.control = some c → c.program = p
  placed : result.2.snapshot.Placed ok
  shown : result.2.fault = none → result.2.snapshot.pending = result.1.pending?.map Prompt.name
  failed : ∀ f, result.2.fault = some f →
    result.1.control = none ∧ ∃ e, f = .runtime e ∧ e.Regular ok

/-- A call that leaves a task where it stops. -/
theorem settles_reached {m' : Machine} {given : Nat} (h : Task.Fits ok p given t)
    (stopped : t.control.halted = true ∨ t.control.inner = []) (coherent : m'.Coherent)
    (budget : m'.budget = m.budget) (control : m'.control = some t.control) :
    m.Settles ok p (m', { snapshot := t.snapshot }) where
  coherent := coherent
  budget := budget
  bound := by
    intro c bound
    cases control.symm.trans bound
    exact h.program
  placed := h.placed stopped
  shown := by
    intro _
    show t.control.pending.map Prompt.name = (m'.control.bind Control.pending).map Prompt.name
    rw [control]
    rfl
  failed := by
    intro f fault
    cases fault

theorem settles_drive (limited : 0 < m.budget)
    (stops : ∀ c : Control, c.halted = true → until? c = true)
    (settled : ∀ c : Control, until? c = true → c.halted = true ∨ c.inner = [])
    (h : Task.Fits ok p m.history.size t) : m.Settles ok p (m.drive until? t) := by
  have begins : Task.Performs m.supply until? t [] t := .start
  obtain ⟨log, u, performs, ends⟩ := Task.exists_performs_of_drive begins (m.fuel t)
  have kept : Task.Fits ok p m.history.size u := Task.Fits.performs h stops performs
  have coherent := (keeps_drive stops h.coherent).coherent
  -- a machine with a limit has fuel for every drive, so the drive has come to its end
  have limited' : 0 < m.supply.budget := limited
  obtain ⟨n, enough, d, drives⟩ := exists_drives_of_limited limited' stops t
  have ended : t.drive m.supply until? (m.fuel t) = d := by
    rw [fuel, if_neg (by omega)]
    exact Pseudocode.drive_of_drives drives enough
  rw [drive_eq_conclude, ended] at coherent ⊢
  rw [ended] at ends
  cases ends with
  | reached done =>
    exact settles_reached kept (settled _ done) coherent (budget_conclude m _) rfl
  | @failed v error going fails =>
    have free := Task.pending_of_going stops going
    refine ⟨coherent, rfl, fun c bound => ?_, kept.placed_of_fails free fails, fun done => ?_,
      fun f fault => ?_⟩
    · cases bound
    · cases done
    · cases fault
      exact ⟨rfl, error, rfl, kept.regular fails⟩
  | outOfFuel => exact absurd rfl drives.ne_outOfFuel

theorem settles_run (limited : 0 < m.budget) (fits : p.Fits ok) :
    m.Settles ok p (m.run (some p)) := by
  rw [run_eq_drive]
  exact settles_drive limited (fun _ halted => halted) (fun _ halted => .inl halted)
    ⟨rfl, fits, Task.coherent_ofProgram p _⟩

theorem halted_or_inner_of_stepDone {start : Nat} {c : Control} (done : stepDone start c = true) :
    c.halted = true ∨ c.inner = [] := by
  rcases Bool.or_eq_true_iff.mp done with halted | between
  · exact .inl halted
  · exact .inr (List.isEmpty_iff.mp (Bool.and_eq_true_iff.mp between).1)

theorem settles_stepBound {c : Control} {memory : Memory} (limited : 0 < m.budget)
    (free : c.pending = none) (h : Task.Fits ok p m.history.size ⟨c, memory⟩) :
    m.Settles ok p (m.stepBound c memory) := by
  rw [stepBound, free]
  simp only
  split
  · rename_i completed
    have halted : c.halted = true := Task.halted_of_completed (t := ⟨c, memory⟩) completed
    exact settles_reached h (.inl halted) (coherent_of_task h.coherent rfl rfl) rfl rfl
  · refine settles_drive limited (fun _ => stepDone_of_halted _)
      (fun _ => halted_or_inner_of_stepDone) ?_
    exact ⟨h.program, h.fits, Task.coherent_of_free h.coherent.stacked h.coherent.read rfl⟩

/-- A step of a machine that does not wait. -/
theorem settles_step (limited : 0 < m.budget) (kept : m.Coherent) (fits : p.Fits ok)
    (bound : ∀ c, m.control = some c → c.program = p) (free : m.pending? = none) :
    m.Settles ok p (m.step (some p)) := by
  unfold step
  split
  · rename_i c control
    have free' : c.pending = none := by rwa [pending?, control] at free
    exact settles_stepBound limited free' ⟨bound c control, fits, kept.task c control⟩
  · exact settles_stepBound limited rfl ⟨rfl, fits, Task.coherent_ofProgram p _⟩

/-- A step of a machine that waits is refused on the line of the question. -/
theorem step_of_pending {prompt : Prompt} (waits : m.pending? = some prompt)
    (program? : Option Program) :
    m.step program? = m.refuse (.awaitingInput prompt.name) prompt.line := by
  obtain ⟨c, control, pending⟩ := Option.bind_eq_some_iff.mp waits
  unfold step
  rw [control]
  show m.stepBound c m.memory = _
  rw [stepBound, pending]

/-- The question that a machine waits on stands on a line of its program, and is shown there. -/
theorem placed_of_pending (kept : m.Coherent) (fits : p.Fits ok)
    (bound : ∀ c, m.control = some c → c.program = p) {prompt : Prompt}
    (waits : m.pending? = some prompt) : ok prompt.line ∧ m.snapshot.Placed ok := by
  obtain ⟨c, control, pending⟩ := Option.bind_eq_some_iff.mp waits
  have task : Task.Fits ok p m.history.size ⟨c, m.memory⟩ :=
    ⟨bound c control, fits, kept.task c control⟩
  have next := (task.coherent.waiting prompt pending).1
  refine ⟨(task.next next).line, ?_⟩
  rw [snapshot, control]
  refine task.placed (.inl ?_)
  simp [Control.halted, pending]

end Machine

end Pseudocode
