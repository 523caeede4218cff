import Pseudocode.Proofs.Machine.Language

/-!
# One statement at a time

A step executes one top-level statement. Where it starts, the machine stands before that statement
or, after an answer, inside it at any depth; where it stops without a fault, the machine waits at a
question inside it, or has passed it and has no block open.

* The cursor names the statement: what comes next in the innermost block belongs to the top-level
  statement at the cursor (`Control.exists_current`), because every open block belongs to the
  statement passed last in the block below.
* During a step the machine stands before the statement, inside it or behind it (`Control.At`). A
  tick moves it only in this order (`Moves.keepsAt`), and the step goes on until it is behind.
-/

namespace Pseudocode

/-! ## The statement at the cursor -/

/-- The statement `q` is `s` or stands in a block of it, at any depth. -/
inductive Stmt.Contains : Stmt → Stmt → Prop
  | self {s : Stmt} : Contains s s
  | inside {s r q : Stmt} {kind : FrameKind} {body : List Stmt} (opened : s.Opens kind body)
      (member : r ∈ body) (deeper : Contains r q) : Contains s q

theorem Stmt.Contains.trans {s r q : Stmt} (outer : s.Contains r) (inner : r.Contains q) :
    s.Contains q := by
  induction outer with
  | self => exact inner
  | inside opened member _ ih => exact .inside opened member (ih inner)

/-- All statements of the innermost block belong to the statement that was passed last in the
outermost one. -/
theorem Stacked.exists_passed {f : Frame} {outer : List Frame} (h : Stacked (f :: outer))
    (nonempty : outer ≠ []) :
    ∃ bottom s, outer.getLast? = some bottom ∧ s :: bottom.rest <:+ bottom.body ∧
      ∀ q ∈ f.body, s.Contains q := by
  induction hframes : f :: outer generalizing f outer with
  | nil => cases hframes
  | cons g frames ih =>
    cases hframes
    cases h with
    | bottom => exact absurd rfl nonempty
    | @above _ g outer s part passed opened below =>
      cases outer with
      | nil => exact ⟨g, s, rfl, passed, fun q member => .inside opened member .self⟩
      | cons g' outer =>
        -- `s` itself stands in the block below, so the statement found there contains it
        obtain ⟨bottom, top, last, passed', contains⟩ := ih below (List.cons_ne_nil _ _) rfl
        refine ⟨bottom, top, ?_, passed', fun q member => ?_⟩
        · rw [List.getLast?_cons_cons]
          exact last
        · have inBelow : s ∈ g.body := passed.subset List.mem_cons_self
          exact (contains s inBelow).trans (.inside opened member .self)

/-- What was passed last stands one place before what is to come. -/
theorem getElem?_of_passed {s : Stmt} {rest body : List Stmt} (passed : s :: rest <:+ body) :
    rest.length < body.length ∧ body[body.length - rest.length - 1]? = some s := by
  obtain ⟨before, rfl⟩ := passed
  rw [List.length_append, List.length_cons]
  have place : before.length + (rest.length + 1) - rest.length - 1 = before.length := by omega
  refine ⟨by omega, ?_⟩
  rw [place, List.getElem?_append_right (Nat.le_refl _), Nat.sub_self, List.getElem?_cons_zero]

namespace Control

variable {c : Control}

theorem rest_suffix (h : Stacked c.frames) : c.rest <:+ c.program.statements := by
  have bottom : ⟨.branch, c.program.statements, c.rest⟩ ∈ c.frames := by simp [frames]
  exact h.part_of_mem bottom

/-- With a block open, the top-level statement at the cursor was passed last, and the innermost
block belongs to it. -/
theorem exists_opened (h : Stacked c.frames) {f : Frame} {outer : List Frame}
    (inner : c.inner = f :: outer) :
    ∃ s, s :: c.rest <:+ c.program.statements ∧ ∀ q ∈ f.body, s.Contains q := by
  rw [frames, inner, List.cons_append] at h
  obtain ⟨bottom, s, last, passed, contains⟩ := h.exists_passed (by simp)
  rw [List.getLast?_append, List.getLast?_singleton] at last
  cases last
  exact ⟨s, passed, contains⟩

theorem started_pos (h : Stacked c.frames) (opened : c.inner ≠ []) : 1 ≤ c.started := by
  obtain ⟨f, outer, inner⟩ := List.exists_cons_of_ne_nil opened
  obtain ⟨s, passed, -⟩ := exists_opened h inner
  have below := (getElem?_of_passed passed).1
  unfold started
  omega

/-- What comes next belongs to the top-level statement at the cursor. -/
theorem exists_current (h : Stacked c.frames) {q : Stmt} (next : c.next? = some q) :
    ∃ s, c.program.statements[c.cursor]? = some s ∧ s.Contains q := by
  cases inner : c.inner with
  | nil =>
    refine ⟨q, ?_, .self⟩
    have split : c.rest = c.program.statements.drop c.started :=
      List.suffix_iff_eq_drop.mp (rest_suffix h)
    have head : c.rest.head? = some q := by rw [next?, inner] at next; exact next
    rw [split, List.head?_drop] at head
    rw [cursor, inner]
    exact head
  | cons f outer =>
    obtain ⟨s, passed, contains⟩ := exists_opened h inner
    have head : f.rest.head? = some q := by rw [next?, inner] at next; exact next
    have part : f.rest <:+ f.body := by
      rw [frames_of_inner inner] at h
      exact h.part
    refine ⟨s, ?_, contains q (part.subset (List.mem_of_head? head))⟩
    rw [cursor, inner]
    exact (getElem?_of_passed passed).2

/-! ## Before, inside and behind a statement -/

/-- A control state before the top-level statement `k`, inside it or right behind it. It may wait
before it, which then is a question, or inside it. -/
inductive At (k : Nat) (c : Control) : Prop
  | before (started : c.started = k) (outermost : c.inner = []) (more : c.rest ≠ [])
  | inside (started : c.started = k + 1) (opened : c.inner ≠ [])
  | behind (started : c.started = k + 1) (outermost : c.inner = []) (free : c.pending = none)

variable {k : Nat}

theorem cursor_of_outermost (outermost : c.inner = []) : c.cursor = c.started := by
  simp [cursor, outermost]

theorem cursor_of_opened (opened : c.inner ≠ []) : c.cursor = c.started - 1 := by
  simp [cursor, opened]

theorem completed_of_outermost (outermost : c.inner = []) :
    c.completed = c.rest.isEmpty := by
  simp [completed, outermost]

/-- A program that is not completed stands before or inside the statement at its cursor. -/
theorem at_cursor (h : Stacked c.frames) (open' : c.completed = false) : c.At c.cursor := by
  by_cases outermost : c.inner = []
  · have more : c.rest ≠ [] := by
      rw [completed_of_outermost outermost] at open'
      simpa using open'
    exact .before (cursor_of_outermost outermost).symm outermost more
  · have positive := started_pos h outermost
    have cursor := cursor_of_opened outermost
    exact .inside (by omega) outermost

/-- There is such a statement. -/
theorem At.lt_length (h : c.At k) (stacked : Stacked c.frames) :
    k < c.program.statements.length := by
  have part := (rest_suffix stacked).length_le
  have count : c.started = c.program.statements.length - c.rest.length := rfl
  cases h with
  | before started outermost more =>
    have positive : 0 < c.rest.length := List.length_pos_iff.mpr more
    omega
  | inside started => omega
  | behind started => omega

/-- A step that is not over stands before its statement or inside it, so at its index. -/
theorem At.cursor_of_going (h : c.At k) (going : Machine.stepDone k c = false) :
    c.cursor = k := by
  cases h with
  | before started outermost => rw [cursor_of_outermost outermost, started]
  | inside started opened =>
    have cursor := cursor_of_opened opened
    omega
  | behind started outermost =>
    simp [Machine.stepDone, outermost, started] at going

/-- A step that is over waits before its statement or inside it, or has passed it. -/
theorem At.waits_or_passed (h : c.At k) (done : Machine.stepDone k c = true) :
    (c.pending ≠ none ∧ c.cursor = k) ∨
      (c.pending = none ∧ c.inner = [] ∧ c.cursor = k + 1) := by
  by_cases free : c.pending = none
  · right
    cases h with
    | before started outermost more =>
      simp [Machine.stepDone, halted, completed, outermost, started, free, more] at done
    | inside started opened =>
      simp [Machine.stepDone, halted, completed, opened, free] at done
    | behind started outermost =>
      exact ⟨free, outermost, by rw [cursor_of_outermost outermost, started]⟩
  · left
    cases h with
    | before started outermost => exact ⟨free, by rw [cursor_of_outermost outermost, started]⟩
    | inside started opened =>
      have cursor := cursor_of_opened opened
      exact ⟨free, by omega⟩
    | behind _ _ free' => exact absurd free' free

end Control

/-! ## Ticks -/

namespace Task

variable {supply : Supply} {t t' : Task}

theorem rest_advance (t : Task) : t.advance.control.rest
    = if t.control.inner = [] then t.control.rest.tail else t.control.rest := by
  rcases t with ⟨⟨program, rest, inner, pending, spent⟩, memory⟩
  cases inner <;> rfl

theorem rest_choose (t : Task) (branch : List Stmt) :
    (t.choose branch).control.rest = t.control.rest := by
  cases branch <;> rfl

theorem rest_reenter (t : Task) (test : Expr) (body : List Stmt) (line : Int) (v : Value) :
    (t.reenter test body line v).control.rest = t.control.rest := by
  unfold reenter
  split <;> rfl

theorem rest_iterate (t : Task) (name : String) (body : List Stmt) (line : Int)
    (counter last : Float) :
    (t.iterate name body line counter last).control.rest = t.control.rest := by
  unfold iterate
  split <;> rfl

/-- A tick that does not come to wait passes the next statement of the innermost block or closes
that block, so it moves at the top level exactly if no block is open. -/
theorem Moves.rest_eq (h : Moves supply t t') (free : t'.control.pending = none) :
    t'.control.rest = if t.control.inner = [] then t.control.rest.tail else t.control.rest := by
  cases h with
  | assign next pays eval => exact rest_advance t.paid
  | write next pays eval => exact rest_advance t.paid
  | take next pays answer => exact rest_advance t
  | ask next pays unanswered => cases free
  | cond next pays eval => exact (rest_choose ..).trans (rest_advance t.paid)
  | loop next pays eval => exact (rest_reenter ..).trans (rest_advance t.paid)
  | count next pays evalFirst evalLast => exact (rest_iterate ..).trans (rest_advance t.paid)
  | leave next inner kind =>
    rw [if_neg (by simp [inner])]
    rfl
  | again next inner kind pays eval =>
    rw [if_neg (by simp [inner])]
    exact rest_reenter ..
  | recount next inner kind pays =>
    rw [if_neg (by simp [inner])]
    exact rest_iterate ..
  | idle next inner =>
    -- nothing is left at the top level, so there is nothing to pass
    have empty : t.control.rest = [] := by
      rw [Control.next?, inner] at next
      exact List.head?_eq_none_iff.mp next
    simp [inner, empty]

/-- A task at the statement `k` stays at it while the step is not over. -/
theorem Moves.keepsAt {k : Nat} (h : Moves supply t t') (stacked : Stacked t.control.frames)
    (going : Machine.stepDone k t.control = false) (place : t.control.At k) :
    t'.control.At k := by
  have going' : t.control.halted = false := (Bool.or_eq_false_iff.mp going).1
  rcases h.pending_eq_or_ask with same | ⟨name, line, -, -, rfl⟩
  · have free : t'.control.pending = none := same.trans (Control.open_of_going going').2
    have rest := h.rest_eq free
    have part := (Control.rest_suffix stacked).length_le
    -- once the statement has been started, the task is inside it or has left it
    have settled (started : t'.control.started = k + 1) : t'.control.At k := by
      by_cases outermost : t'.control.inner = []
      · exact .behind started outermost free
      · exact .inside started outermost
    cases place with
    | before started outermost more =>
      apply settled
      have positive : 0 < t.control.rest.length := List.length_pos_iff.mpr more
      rw [if_pos outermost] at rest
      rw [Control.started] at started ⊢
      rw [h.program_eq, rest, List.length_tail]
      omega
    | inside started opened =>
      apply settled
      rw [if_neg opened] at rest
      rw [Control.started, h.program_eq, rest]
      exact started
    | behind started outermost => simp [Machine.stepDone, outermost, started] at going
  · -- a question that is asked moves nothing
    cases place with
    | before started outermost more => exact .before started outermost more
    | inside started opened => exact .inside started opened
    | behind started outermost => simp [Machine.stepDone, outermost, started] at going

/-- What a step of the statement `k` of the program `p` keeps. -/
structure Halfway (t : Task) (k : Nat) (p : Program) (given : Nat) : Prop where
  place : t.control.At k
  program : t.control.program = p
  coherent : t.Coherent given

/-- Wherever a step comes to, the task is at its statement. -/
theorem Performs.halfway {k : Nat} {p : Program} {log : List Deed} {u : Task}
    (h : Performs supply (Machine.stepDone k) t log u)
    (start : t.Halfway k p supply.answers.size) : u.Halfway k p supply.answers.size := by
  refine h.invariant (P := fun u => u.Halfway k p supply.answers.size) start
    fun kept going moves => ?_
  have free := pending_of_going (fun _ => Machine.stepDone_of_halted k) going
  exact ⟨moves.keepsAt kept.coherent.stacked going kept.place,
    moves.program_eq.trans kept.program, moves.coherent kept.coherent free⟩

/-- What a step executes belongs to its statement. -/
theorem Halfway.exists_contains {k given : Nat} {p : Program} (h : t.Halfway k p given)
    (cursor : t.control.cursor = k) {q : Stmt} (next : t.control.next? = some q) :
    ∃ s, p.statements[k]? = some s ∧ s.Contains q := by
  have current := Control.exists_current h.coherent.stacked next
  rw [h.program, cursor] at current
  exact current

end Task

/-! ## Steps -/

namespace Machine

variable {m : Machine} {p : Program} {program? : Option Program}

/-- A bound machine whose program can go on, as a step finds it. -/
theorem halfway_of_bound {c : Control} (kept : m.Coherent) (bound : m.control = some c)
    (open' : c.completed = false) :
    Task.Halfway (Task.withSpent ⟨c, m.memory⟩ 0) c.cursor c.program m.history.size := by
  have kept' := kept.task c bound
  refine ⟨?_, rfl, kept'.stacked, kept'.read, kept'.waiting⟩
  -- the new count changes nothing that tells the place
  cases Control.at_cursor kept'.stacked open' with
  | before started outermost more => exact .before started outermost more
  | inside started opened => exact .inside started opened
  | behind started outermost free => exact .behind started outermost free

/-- A step of a machine that does not wait and whose program is not completed is a drive. -/
theorem step_of_bound {c : Control} (bound : m.control = some c) (free : c.pending = none)
    (open' : c.completed = false) : m.step program?
      = m.drive (stepDone c.cursor) (Task.withSpent ⟨c, m.memory⟩ 0) := by
  unfold step
  rw [bound]
  exact stepBound_eq_drive (t := ⟨c, m.memory⟩) free (by simp [open'])

/-- All that a step executes belongs to the statement that it starts at. -/
theorem contains_of_ticksAt {c : Control} (kept : m.Coherent) (bound : m.control = some c)
    (open' : c.completed = false) {s : Stmt} (current : c.program.statements[c.cursor]? = some s)
    {u : Task} (ticks : m.TicksAt (.step program?) u) {q : Stmt}
    (next : u.control.next? = some q) : s.Contains q := by
  cases ticks with
  | @step _ t log u chosen performs going =>
    have goesOn : m.task? program? = some ⟨c, m.memory⟩ := by rw [task?, bound]
    cases goesOn.symm.trans chosen
    have halfway := performs.halfway (halfway_of_bound kept bound open')
    have cursor := halfway.place.cursor_of_going going
    obtain ⟨s', current', contains⟩ := halfway.exists_contains cursor next
    rw [current] at current'
    cases current'
    exact contains

/-- A step that returns without a fault leaves a task at the statement that it started at, where it
is to stop. -/
theorem exists_halfway_of_step {c : Control} (kept : m.Coherent) (bound : m.control = some c)
    (free : c.pending = none) (open' : c.completed = false)
    (returns : (m.step program?).2.fault = none) :
    ∃ u : Task, u.Halfway c.cursor c.program m.history.size ∧ stepDone c.cursor u.control = true ∧
      m.step program? = (m.conclude (.reached u), { snapshot := u.snapshot }) := by
  have begins : Task.Performs m.supply (stepDone c.cursor) (Task.withSpent ⟨c, m.memory⟩ 0) []
    (Task.withSpent ⟨c, m.memory⟩ 0) := .start
  rw [step_of_bound bound free open', drive_eq_conclude] at returns ⊢
  obtain ⟨log, u, performs, ends⟩ := Task.exists_performs_of_drive begins (m.fuel _)
  generalize Task.drive _ _ _ _ = d at returns ends ⊢
  cases ends with
  | reached done => exact ⟨u, performs.halfway (halfway_of_bound kept bound open'), done, rfl⟩
  | failed | outOfFuel => cases returns

/-- A step of a completed program changes nothing and shows it again. -/
theorem step_of_bound_completed {c : Control} (kept : m.Coherent) (bound : m.control = some c)
    (completed : c.completed = true) : m.step program? = (m, { snapshot := m.snapshot }) := by
  -- a completed program has no question left to wait at
  have free : c.pending = none := by
    cases waits : c.pending with
    | none => rfl
    | some prompt =>
      obtain ⟨next, -⟩ := (kept.task c bound).waiting prompt waits
      have open' := Task.completed_of_next (t := ⟨c, m.memory⟩) next
      rw [completed] at open'
      cases open'
  have shown : m.snapshot = Task.snapshot ⟨c, m.memory⟩ := by rw [snapshot, bound]
  unfold step
  rw [bound]
  simp only [stepBound, free, completed, if_true, shown, ← bound]

/-- A step executes one top-level statement. After any calls on a new machine, let a program `p` be
bound and a step come.

If the machine waits for an answer, the step is refused and changes nothing; if `p` is completed, it
changes nothing and shows the same again. Otherwise let `s` be the top-level statement at the
cursor: everything that the step executes belongs to `s`, and if it returns without a fault, then
either the machine waits at a question that belongs to `s`, with the cursor where it was, or it does
not wait, has no block open above the top level, and the cursor has moved on by one. -/
theorem step_executes_one_statement (budget : Int) (patience : Nat) (listening : Bool)
    (calls : List Call) (program? : Option Program) (p : Program) :
    let m : Machine := (create budget patience listening).serveAll calls
    let m' : Machine := (m.step program?).1
    let r : Response := (m.step program?).2
    m.program? = some p →
      (∀ prompt, m.pending? = some prompt → m' = m ∧
        r = { snapshot := m.snapshot
              fault := some (.runtime (.misuse (.awaitingInput prompt.name) prompt.line)) }) ∧
      (m.snapshot.completed = true → m' = m ∧ r = { snapshot := m.snapshot }) ∧
      (m.pending? = none → m.snapshot.completed = false →
        ∃ s, p.statements[m.snapshot.cursor]? = some s ∧
          (∀ u, m.TicksAt (.step program?) u → ∀ q, u.control.next? = some q → s.Contains q) ∧
          (r.fault = none → m'.program? = some p ∧ r.snapshot = m'.snapshot ∧
            ((∃ prompt, m'.pending? = some prompt ∧ s.Contains (.read prompt.name prompt.line) ∧
                m'.snapshot.cursor = m.snapshot.cursor) ∨
              (m'.pending? = none ∧ m'.frames.length = 1 ∧
                m'.snapshot.cursor = m.snapshot.cursor + 1)))) := by
  intro m m' r hbound
  have kept : m.Coherent := coherent_serveAll (coherent_create ..) calls
  obtain ⟨c, bound, rfl⟩ := Option.map_eq_some_iff.mp hbound
  have shown : m.snapshot = Task.snapshot ⟨c, m.memory⟩ := by rw [snapshot, bound]
  have pending : m.pending? = c.pending := by rw [pending?, bound]; rfl
  refine ⟨fun prompt waits => ?_, fun completed => ?_, fun free open' => ?_⟩
  · have refused : m.step program? = _ := step_of_pending waits program?
    exact ⟨congrArg Prod.fst refused, congrArg Prod.snd refused⟩
  · have completed' : c.completed = true := by rw [shown] at completed; exact completed
    have same : m.step program? = _ := step_of_bound_completed kept bound completed'
    exact ⟨congrArg Prod.fst same, congrArg Prod.snd same⟩
  · rw [pending] at free
    rw [shown] at open' ⊢
    have start := halfway_of_bound kept bound open'
    have inRange := start.place.lt_length start.coherent.stacked
    obtain ⟨s, current⟩ : ∃ s, c.program.statements[c.cursor]? = some s :=
      ⟨_, List.getElem?_eq_getElem inRange⟩
    refine ⟨s, current, fun u ticks q next => ?_, fun returns => ?_⟩
    · exact contains_of_ticksAt kept bound open' current ticks next
    · obtain ⟨u, halfway, done, ended⟩ := exists_halfway_of_step kept bound free open' returns
      have left : m' = m.conclude (.reached u) := congrArg Prod.fst ended
      have returned : r = { snapshot := u.snapshot } := congrArg Prod.snd ended
      rw [left, returned]
      refine ⟨congrArg some halfway.program, rfl, ?_⟩
      rcases halfway.place.waits_or_passed done with ⟨waits, cursor⟩ | ⟨passed, inner, cursor⟩
      · left
        obtain ⟨prompt, waits⟩ := Option.ne_none_iff_exists'.mp waits
        obtain ⟨next, -⟩ := halfway.coherent.waiting prompt waits
        obtain ⟨s', current', contains⟩ := halfway.exists_contains cursor next
        rw [current] at current'
        cases current'
        exact ⟨prompt, waits, contains, cursor⟩
      · right
        refine ⟨passed, ?_, cursor⟩
        show u.control.frames.length = 1
        rw [Control.frames, inner]
        rfl

/-- A run that waits inside a branch inside a loop. After an answer that ends the loop, a step goes
on from there to the end of the loop, which is the second statement. -/
theorem step_executes_one_statement_resumed :
    let p : Program :=
      { statements := [.assign "x" (.str "oui") 2,
          .loop (.ident "x" 3) [.cond (.ident "x" 4) [.read "x" 5] none 4] 3,
          .write (.str "fin") 6] }
    let m : Machine := (create 10 0 false).serveAll [.run (some p), .provide ""]
    let m' : Machine := (m.step none).1
    m.frames.length = 3 ∧ m.snapshot.cursor = 1 ∧ m'.frames.length = 1 ∧
      m'.snapshot.cursor = 2 := by
  intro p m m'
  have cursor : m.snapshot.cursor = 1 := by decide +kernel
  have free : m'.pending? = none := by decide +kernel
  obtain ⟨-, -, goesOn⟩ :=
    step_executes_one_statement 10 0 false [.run (some p), .provide ""] none p rfl
  obtain ⟨s, -, -, returns⟩ := goesOn (by decide +kernel) (by decide +kernel)
  obtain ⟨-, -, ⟨prompt, waits, -⟩ | ⟨-, outermost, moved⟩⟩ :=
    returns (Option.isNone_iff_eq_none.mp (by decide +kernel))
  · rw [free] at waits
    cases waits
  · rw [cursor] at moved
    exact ⟨rfl, cursor, outermost, moved⟩

end Machine

end Pseudocode
