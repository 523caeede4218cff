import Pseudocode.Proofs.Machine.Stepping
import Pseudocode.Proofs.Machine.Trace

/-!
# What a machine keeps

Whatever calls a machine has served, it stands at a place in its program (`Machine.Coherent`): the
open blocks are the program at the bottom and above each block, at the statement that was passed last
there, the body or a branch of that statement; and a machine that waits stands before the question it
waits for, with no answer left.

* The frames of a control state are a stack (`Stacked`), and every tick keeps it one
  (`Moves.stacked`): a tick moves the innermost block on, opens a block of the statement just
  passed, starts the innermost block over, or closes it.
* What is kept of a task (`Task.Coherent`) is kept by every tick of a drive, hence wherever a drive
  comes to, and so by every call (`Machine.Keeps`).
* In the same way every call tells its listener one name if it suspends the program, and none
  otherwise.
-/

namespace Pseudocode

/-! ## Frames -/

/-- A block of the statement `s`: the body of a loop, or one of the branches of a conditional. -/
inductive Stmt.Opens : Stmt → FrameKind → List Stmt → Prop
  | yes {test : Expr} {yes : List Stmt} {no : Option (List Stmt)} {line : Int} :
      Opens (.cond test yes no line) .branch yes
  | no {test : Expr} {yes no : List Stmt} {line : Int} :
      Opens (.cond test yes (some no) line) .branch no
  | loop {test : Expr} {body : List Stmt} {line : Int} :
      Opens (.loop test body line) (.loop test line) body
  | count {name : String} {first last : Expr} {body : List Stmt} {line : Int}
      {counter limit : Float} :
      Opens (.count name first last body line) (.count name counter limit line) body

/-- The index of the statement that comes next in a block. -/
def Frame.pc (f : Frame) : Nat :=
  f.body.length - f.rest.length

/-- The block `above` belongs to the statement that was passed last in the block `below`. -/
def Frame.Within (above below : Frame) : Prop :=
  1 ≤ below.pc ∧ ∃ s, below.body[below.pc - 1]? = some s ∧ s.Opens above.kind above.body

/-- The open blocks of a control state with the program itself as the outermost one, innermost
first. -/
def Control.frames (c : Control) : List Frame :=
  c.inner ++ [{ kind := .branch, body := c.program.statements, rest := c.rest }]

/-- Blocks one inside the other. In each, what is to come is an end of it, and the statement before
that is the one which the block above belongs to. -/
inductive Stacked : List Frame → Prop
  | bottom {f : Frame} (part : f.rest <:+ f.body) : Stacked [f]
  | above {f g : Frame} {outer : List Frame} {s : Stmt} (part : f.rest <:+ f.body)
      (passed : s :: g.rest <:+ g.body) (opened : s.Opens f.kind f.body)
      (below : Stacked (g :: outer)) : Stacked (f :: g :: outer)

namespace Stacked

variable {f g : Frame} {outer : List Frame} {s : Stmt}

theorem part (h : Stacked (f :: outer)) : f.rest <:+ f.body := by
  cases h with
  | bottom part => exact part
  | above part => exact part

/-- The innermost block may stand anywhere in its statements, and may be any block of the statement
that it belongs to. -/
theorem replace (h : Stacked (f :: outer)) {f' : Frame} (part : f'.rest <:+ f'.body)
    (same : ∀ s : Stmt, s.Opens f.kind f.body → s.Opens f'.kind f'.body) :
    Stacked (f' :: outer) := by
  cases h with
  | bottom => exact .bottom part
  | above _ passed opened below => exact .above part passed (same _ opened) below

/-- The innermost block moves on. -/
theorem advance (h : Stacked (f :: outer)) :
    Stacked ({ f with rest := f.rest.tail } :: outer) :=
  h.replace ((List.tail_suffix f.rest).trans h.part) fun _ opened => opened

/-- A block of the statement just passed is opened. -/
theorem enter (h : Stacked (f :: outer)) (next : f.rest.head? = some s) {kind : FrameKind}
    {body : List Stmt} (opened : s.Opens kind body) :
    Stacked (.ofBody kind body :: { f with rest := f.rest.tail } :: outer) := by
  obtain ⟨rest, split⟩ := List.head?_eq_some_iff.mp next
  have passed : s :: f.rest.tail <:+ f.body := by
    rw [split, List.tail_cons, ← split]
    exact h.part
  exact .above List.suffix_rfl passed opened h.advance

theorem close (h : Stacked (f :: outer)) (nonempty : outer ≠ []) : Stacked outer := by
  cases h with
  | bottom => exact absurd rfl nonempty
  | above _ _ _ below => exact below

/-- In every block what is to come is an end of it. -/
theorem part_of_mem {frames : List Frame} (h : Stacked frames) (mem : f ∈ frames) :
    f.rest <:+ f.body := by
  induction h with
  | bottom part =>
    obtain rfl := List.mem_singleton.mp mem
    exact part
  | above part _ _ _ ih =>
    rcases List.mem_cons.mp mem with rfl | mem
    · exact part
    · exact ih mem

theorem within_of_passed (passed : s :: g.rest <:+ g.body) (opened : s.Opens f.kind f.body) :
    f.Within g := by
  obtain ⟨before, split⟩ := passed
  have pc : g.pc = before.length + 1 := by
    rw [Frame.pc, ← split, List.length_append, List.length_cons]
    omega
  refine ⟨by omega, s, ?_, opened⟩
  rw [pc, Nat.add_sub_cancel, ← split]
  simp

theorem nested {frames : List Frame} (h : Stacked frames) {i : Nat} {above below : Frame}
    (upper : frames[i]? = some above) (lower : frames[i + 1]? = some below) :
    above.Within below := by
  induction h generalizing i with
  | bottom => cases lower
  | above _ passed opened _ ih =>
    cases i with
    | zero =>
      cases upper
      cases lower
      exact within_of_passed passed opened
    | succ i => exact ih upper lower

end Stacked

namespace Control

/-- A control state shows its next statement at its innermost block, which is the one that moves. -/
theorem exists_innermost (c : Control) : ∃ f outer, c.frames = f :: outer ∧
    c.next? = f.rest.head? ∧ c.advance.frames = { f with rest := f.rest.tail } :: outer := by
  rcases c with ⟨program, rest, inner, pending, spent⟩
  cases inner with
  | nil => exact ⟨_, [], rfl, rfl, rfl⟩
  | cons f outer => exact ⟨f, _, rfl, rfl, rfl⟩

theorem frames_ne_nil (c : Control) : c.frames ≠ [] :=
  List.append_ne_nil_of_right_ne_nil _ (List.cons_ne_nil _ _)

theorem stacked_ofProgram (p : Program) : Stacked (ofProgram p).frames :=
  .bottom List.suffix_rfl

variable {c : Control} {s : Stmt}

theorem inner_ne_nil_of_going (going : c.halted = false) (next : c.next? = none) :
    c.inner ≠ [] := by
  intro inner
  rw [next?, inner] at next
  have open' := (open_of_going going).1
  simp [Control.completed, inner, List.head?_eq_none_iff.mp next] at open'

theorem stacked_advance (h : Stacked c.frames) : Stacked c.advance.frames := by
  obtain ⟨f, outer, frames, -, moved⟩ := c.exists_innermost
  rw [moved]
  exact (frames ▸ h).advance

theorem stacked_enter (h : Stacked c.frames) (next : c.next? = some s) {kind : FrameKind}
    {body : List Stmt} (opened : s.Opens kind body) :
    Stacked (.ofBody kind body :: c.advance.frames) := by
  obtain ⟨f, outer, frames, top, moved⟩ := c.exists_innermost
  rw [moved]
  exact (frames ▸ h).enter (top ▸ next) opened

/-- A control state with open blocks, as a stack. -/
theorem frames_of_inner {f : Frame} {outer : List Frame} (inner : c.inner = f :: outer) :
    c.frames = f :: Control.frames { c with inner := outer } := by
  rw [frames, inner]
  rfl

end Control

namespace Task

variable {supply : Supply} {t t' : Task}

/-- A loop that is entered or not leaves a stack, if its body may be opened. -/
theorem stacked_reenter (stack : Stacked t.control.frames) {test : Expr} {body : List Stmt}
    {line : Int} (opened : Stacked (.ofBody (.loop test line) body :: t.control.frames))
    (v : Value) : Stacked (t.reenter test body line v).control.frames := by
  unfold reenter
  split
  · exact opened
  · exact stack

theorem stacked_iterate (stack : Stacked t.control.frames) {name : String} {body : List Stmt}
    {line : Int} {counter last : Float}
    (opened : Stacked (.ofBody (.count name counter last line) body :: t.control.frames)) :
    Stacked (t.iterate name body line counter last).control.frames := by
  unfold iterate
  split
  · exact opened
  · exact stack

theorem stacked_choose (stack : Stacked t.control.frames) {branch : List Stmt}
    (opened : branch ≠ [] → Stacked (.ofBody .branch branch :: t.control.frames)) :
    Stacked (t.choose branch).control.frames := by
  cases branch with
  | nil => exact stack
  | cons s ss => exact opened (List.cons_ne_nil s ss)

/-- The branch that a conditional chooses, if it is not empty, is one of its blocks. -/
theorem opens_branch {test : Expr} {yes : List Stmt} {no : Option (List Stmt)} {line : Int}
    {v : Value} (nonempty : (if v.truthy then yes else no.getD []) ≠ []) :
    (Stmt.cond test yes no line).Opens .branch (if v.truthy then yes else no.getD []) := by
  split at nonempty
  · rename_i truthy
    rw [if_pos truthy]
    exact .yes
  · rename_i falsy
    rw [if_neg falsy]
    cases no with
    | none => exact absurd rfl nonempty
    | some no => exact .no

/-- Every tick leaves a stack of blocks. -/
theorem Moves.stacked (h : Moves supply t t') (stack : Stacked t.control.frames) :
    Stacked t'.control.frames := by
  have paid : Stacked t.paid.control.frames := stack
  have advanced : Stacked t.paid.advance.control.frames := Control.stacked_advance paid
  cases h with
  | assign next pays eval => exact advanced
  | write next pays eval => exact advanced
  | take next pays answer => exact Control.stacked_advance stack
  | ask next pays unanswered => exact stack
  | cond next pays eval =>
    refine stacked_choose advanced fun nonempty => ?_
    exact Control.stacked_enter paid next (opens_branch nonempty)
  | loop next pays eval =>
    exact stacked_reenter advanced (Control.stacked_enter paid next .loop) _
  | count next pays evalFirst evalLast =>
    exact stacked_iterate advanced (Control.stacked_enter paid next .count)
  | @leave f outer next inner kind =>
    rw [Control.frames_of_inner inner] at stack
    exact stack.close (Control.frames_ne_nil _)
  | @again f outer test line v next inner kind pays eval =>
    rw [Control.frames_of_inner inner] at stack
    refine stacked_reenter (stack.close (Control.frames_ne_nil _)) ?_ v
    exact stack.replace List.suffix_rfl fun _ opened => kind ▸ opened
  | @recount f outer name counter last line next inner kind pays =>
    -- the block is the same but for the counter, which any number may stand for
    rw [Control.frames_of_inner inner] at stack
    refine stacked_iterate (stack.close (Control.frames_ne_nil _)) ?_
    refine stack.replace List.suffix_rfl fun s opened => ?_
    rw [kind] at opened
    cases opened
    exact .count
  | idle next inner => exact stack

/-! ## Tasks -/

/-- What is kept of a task when `given` answers were given: its blocks are a stack, it has read no
more answers than there are, and if it waits, it stands before its question and has read all. -/
structure Coherent (t : Task) (given : Nat) : Prop where
  stacked : Stacked t.control.frames
  read : t.memory.read ≤ given
  waiting : ∀ prompt, t.control.pending = some prompt →
    t.control.next? = some (.read prompt.name prompt.line) ∧ t.memory.read = given

theorem coherent_of_free {given : Nat} (stacked : Stacked t.control.frames)
    (read : t.memory.read ≤ given) (free : t.control.pending = none) : t.Coherent given :=
  ⟨stacked, read, fun prompt waits => by rw [free] at waits; cases waits⟩

theorem coherent_ofProgram (p : Program) (given : Nat) : (ofProgram p).Coherent given :=
  coherent_of_free (Control.stacked_ofProgram p) (Nat.zero_le _) rfl

/-- A tick reads no more answers than there are. -/
theorem Moves.read_le (h : Moves supply t t') (read : t.memory.read ≤ supply.answers.size) :
    t'.memory.read ≤ supply.answers.size := by
  cases h with
  | take next pays answer => exact (Array.getElem?_eq_some_iff.mp answer).1
  | loop next pays eval => rwa [read_reenter]
  | count next pays evalFirst evalLast => rwa [read_iterate]
  | again next inner kind pays eval => rwa [read_reenter]
  | recount next inner kind pays => rwa [read_iterate]
  | assign | write | ask | cond | leave | idle => exact read

/-- What is kept of a task that does not wait is kept by a tick. -/
theorem Moves.coherent (h : Moves supply t t') (kept : t.Coherent supply.answers.size)
    (free : t.control.pending = none) : t'.Coherent supply.answers.size := by
  have stacked := h.stacked kept.stacked
  have read := h.read_le kept.read
  rcases h.pending_eq_or_ask with same | ⟨name, line, next, unanswered, rfl⟩
  · exact coherent_of_free stacked read (same.trans free)
  · -- the question just asked is the next statement, and there was no answer left for it
    have all : supply.answers.size ≤ t.memory.read := Array.getElem?_eq_none_iff.mp unanswered
    refine ⟨stacked, read, fun prompt waits => ?_⟩
    cases waits
    exact ⟨next, Nat.le_antisymm kept.read all⟩

theorem Fails.coherent {error : RuntimeError} {given : Nat} (h : Fails supply t t' error)
    (kept : t.Coherent given) : t'.Coherent given := by
  cases h with
  | spent => exact kept
  | operand | last | mismatch | unknown | test => exact ⟨kept.stacked, kept.read, kept.waiting⟩

theorem pending_of_going {until? : Control → Bool}
    (stops : ∀ c : Control, c.halted = true → until? c = true)
    (going : until? t.control = false) : t.control.pending = none :=
  (Control.open_of_going (Control.not_halted_of_going stops going)).2

/-- What is kept of a task holds wherever a drive comes to that stops when the program halts. -/
theorem Performs.coherent {until? : Control → Bool} {log : List Deed} {u : Task}
    (h : Performs supply until? t log u)
    (stops : ∀ c : Control, c.halted = true → until? c = true)
    (kept : t.Coherent supply.answers.size) : u.Coherent supply.answers.size :=
  h.invariant kept fun kept going moves => moves.coherent kept (pending_of_going stops going)

/-- A task that waits is not completed. -/
theorem Coherent.apart {given : Nat} (h : t.Coherent given) :
    ¬(t.snapshot.pending.isSome = true ∧ t.snapshot.completed = true) := by
  rintro ⟨waits, completed⟩
  cases pending : t.control.pending with
  | none => simp [snapshot, pending] at waits
  | some prompt =>
    have open' := completed_of_next (h.waiting prompt pending).1
    rw [snapshot, open'] at completed
    cases completed

end Task

/-! ## Machines -/

/-- The names that a call tells a listener: the one asked for, if the call has come to a question.
A call that finds the program waiting is refused, and so returns a fault. -/
def Response.told (r : Response) (listening : Bool) : Array String :=
  match r.fault, r.snapshot.pending with
  | none, some name => if listening then #[name] else #[]
  | _, _ => #[]

namespace Machine

variable {m : Machine}

/-- What is kept of a machine. -/
structure Coherent (m : Machine) : Prop where
  read : m.memory.read ≤ m.history.size
  task : ∀ c, m.control = some c → Task.Coherent ⟨c, m.memory⟩ m.history.size

/-- What a call that executes something leaves and returns. -/
structure Keeps (m : Machine) (result : Machine × Response) : Prop where
  coherent : result.1.Coherent
  apart : ¬(result.2.snapshot.pending.isSome = true ∧ result.2.snapshot.completed = true)
  asked : result.1.asked = m.asked ++ result.2.told m.listening
  listening : result.1.listening = m.listening

theorem coherent_of_task {m' : Machine} {u : Task} (kept : u.Coherent m'.history.size)
    (memory : m'.memory = u.memory) (control : m'.control = some u.control) : m'.Coherent := by
  refine ⟨memory ▸ kept.read, fun c bound => ?_⟩
  rw [control] at bound
  cases bound
  rw [memory]
  exact kept

theorem listening_announce (m : Machine) (t : Task) : (m.announce t).listening = m.listening := by
  unfold announce
  split
  · split <;> rfl
  · rfl

theorem asked_announce (m : Machine) (t : Task) :
    (m.announce t).asked = m.asked ++ (Drive.reached t).response.told m.listening := by
  unfold announce
  cases pending : t.control.pending with
  | none => simp [Response.told, Drive.response, Drive.fault?, Drive.task, Task.snapshot, pending]
  | some prompt =>
    cases listening : m.listening <;>
      simp [Response.told, Drive.response, Drive.fault?, Drive.task, Task.snapshot, pending]

/-- A drive from a task of which all is kept keeps all. -/
theorem keeps_drive {until? : Control → Bool} {t : Task}
    (stops : ∀ c : Control, c.halted = true → until? c = true)
    (kept : t.Coherent m.history.size) : m.Keeps (m.drive until? t) := by
  have begins : Task.Performs m.supply until? t [] t := .start
  obtain ⟨log, u, performs, ends⟩ := Task.exists_performs_of_drive begins (m.fuel t)
  have kept' : u.Coherent m.history.size := performs.coherent stops kept
  rw [drive_eq_conclude]
  generalize t.drive m.supply until? (m.fuel t) = d at ends
  cases ends with
  | reached done =>
    have kept'' : u.Coherent (m.announce u).history.size := by rwa [history_announce]
    exact ⟨coherent_of_task kept'' rfl rfl, kept'.apart, asked_announce m u,
      listening_announce m u⟩
  | @failed v error going fails =>
    -- the program is unbound, and only the memory is left of the task
    have left : Coherent (m.conclude (.failed v error)) :=
      ⟨(fails.coherent kept').read, fun c bound => by cases bound⟩
    exact ⟨left, (fails.coherent kept').apart, (Array.append_empty).symm, rfl⟩
  | outOfFuel =>
    exact ⟨coherent_of_task kept' rfl rfl, kept'.apart, (Array.append_empty).symm, rfl⟩

/-- A refused call changes nothing. -/
theorem keeps_refuse (kept : m.Coherent) (cause : Misuse) (line : Int) :
    m.Keeps (m.refuse cause line) := by
  refine ⟨kept, ?_, (Array.append_empty).symm, rfl⟩
  show ¬(m.snapshot.pending.isSome = true ∧ m.snapshot.completed = true)
  unfold snapshot
  split
  · rename_i c bound
    exact (kept.task c bound).apart
  · simp

theorem keeps_run (kept : m.Coherent) (program? : Option Program) :
    m.Keeps (m.run program?) := by
  rw [run]
  split
  · exact keeps_refuse kept .noProgram 0
  · rename_i p chosen
    exact keeps_drive (fun _ halted => halted) (Task.coherent_ofProgram p _)

theorem keeps_stepBound {c : Control} {memory : Memory} (kept : m.Coherent)
    (kept' : Task.Coherent ⟨c, memory⟩ m.history.size) : m.Keeps (m.stepBound c memory) := by
  rw [stepBound]
  split
  · exact keeps_refuse kept _ _
  · rename_i free
    split
    · refine ⟨coherent_of_task kept' rfl rfl, kept'.apart, ?_, rfl⟩
      simp [Response.told, Task.snapshot, free]
    · refine keeps_drive (fun _ => stepDone_of_halted _) ?_
      exact ⟨kept'.stacked, kept'.read, kept'.waiting⟩

theorem keeps_step (kept : m.Coherent) (program? : Option Program) :
    m.Keeps (m.step program?) := by
  unfold step
  split
  · rename_i c bound
    exact keeps_stepBound kept (kept.task c bound)
  · split
    · exact keeps_refuse kept .noProgram 0
    · rename_i p
      exact keeps_stepBound kept (Task.coherent_ofProgram p _)

theorem coherent_provide (kept : m.Coherent) (raw : String) : (m.provide raw).1.Coherent := by
  have size : (m.provide raw).1.history.size = m.history.size + 1 := Array.size_push ..
  refine ⟨by rw [size]; exact Nat.le_succ_of_le kept.read, fun c bound => ?_⟩
  obtain ⟨c, bound', rfl⟩ := Option.map_eq_some_iff.mp bound
  have kept' := kept.task c bound'
  exact Task.coherent_of_free kept'.stacked (by rw [size]; exact Nat.le_succ_of_le kept'.read) rfl

theorem coherent_reset (m : Machine) : m.reset.Coherent :=
  ⟨Nat.zero_le _, fun c bound => by cases bound⟩

theorem coherent_create (budget : Int) (patience : Nat) (listening : Bool) :
    (create budget patience listening).Coherent :=
  ⟨Nat.zero_le _, fun c bound => by cases bound⟩

/-! ## Calls -/

/-- The machine after several calls. -/
def serveAll (m : Machine) (calls : List Call) : Machine :=
  calls.foldl (fun m call => (m.serve call).1) m

theorem coherent_serve (kept : m.Coherent) (call : Call) : (m.serve call).1.Coherent := by
  cases call with
  | run program? => exact (keeps_run kept program?).coherent
  | step program? => exact (keeps_step kept program?).coherent
  | provide raw => exact coherent_provide kept raw
  | reset => exact coherent_reset m

theorem coherent_serveAll (kept : m.Coherent) (calls : List Call) :
    (m.serveAll calls).Coherent := by
  induction calls generalizing m with
  | nil => exact kept
  | cons call calls ih => exact ih (coherent_serve kept call)

theorem listening_serve (kept : m.Coherent) (call : Call) :
    (m.serve call).1.listening = m.listening := by
  cases call with
  | run program? => exact (keeps_run kept program?).listening
  | step program? => exact (keeps_step kept program?).listening
  | provide raw => rfl
  | reset => rfl

theorem listening_serveAll (kept : m.Coherent) (calls : List Call) :
    (m.serveAll calls).listening = m.listening := by
  induction calls generalizing m with
  | nil => rfl
  | cons call calls ih => exact (ih (coherent_serve kept call)).trans (listening_serve kept call)

/-- What a call that executes something returns does not say both that the program waits and that it
is completed. -/
theorem apart_serve (kept : m.Coherent) {call : Call} {r : Response}
    (returned : (m.serve call).2 = some r) :
    ¬(r.snapshot.pending.isSome = true ∧ r.snapshot.completed = true) := by
  cases call with
  | run program? =>
    cases returned
    exact (keeps_run kept program?).apart
  | step program? =>
    cases returned
    exact (keeps_step kept program?).apart
  | provide raw => cases returned
  | reset => cases returned

/-- The names that a call tells. -/
theorem asked_serve (kept : m.Coherent) (call : Call) : (m.serve call).1.asked
    = m.asked ++ ((m.serve call).2.map fun r => r.told m.listening).getD #[] := by
  cases call with
  | run program? => exact (keeps_run kept program?).asked
  | step program? => exact (keeps_step kept program?).asked
  | provide raw => exact (Array.append_empty).symm
  | reset => exact (Array.append_empty).symm

/-- The task that a step goes on with: the bound one, or the program from the top. -/
def task? (m : Machine) (program? : Option Program) : Option Task :=
  match m.control with
  | some control => some { control, memory := m.memory }
  | none => program?.map Task.ofProgram

/-- The call comes to the task `u` and makes a tick there. -/
inductive TicksAt (m : Machine) : Call → Task → Prop
  | run {program? : Option Program} {p : Program} {log : List Deed} {u : Task}
      (chosen : program?.or m.program? = some p)
      (performs : Task.Performs m.supply Control.halted (.ofProgram p) log u)
      (going : u.control.halted = false) : TicksAt m (.run program?) u
  | step {program? : Option Program} {t : Task} {log : List Deed} {u : Task}
      (chosen : m.task? program? = some t)
      (performs : Task.Performs m.supply (stepDone t.control.cursor) (t.withSpent 0) log u)
      (going : stepDone t.control.cursor u.control = false) : TicksAt m (.step program?) u

theorem coherent_task? (kept : m.Coherent) {program? : Option Program} {t : Task}
    (chosen : m.task? program? = some t) : t.Coherent m.history.size := by
  unfold task? at chosen
  split at chosen
  · rename_i c bound
    cases chosen
    exact kept.task c bound
  · obtain ⟨p, -, rfl⟩ := Option.map_eq_some_iff.mp chosen
    exact Task.coherent_ofProgram p _

/-- The blocks that are open, with the bound program as the outermost one, innermost first. -/
def frames (m : Machine) : List Frame :=
  (m.control.map Control.frames).getD []

end Machine

end Pseudocode
