import Pseudocode.Machine.Engine
import Pseudocode.Proofs.Machine.Cursor

/-!
# The engine in lockstep with the machine

The registers of an engine, read as what they are for, are a task: a block whose index lies in it is
a frame (`Block.frame`), the three registers of a question are a prompt or none, and the memory is
the memory. `Engine.Tracks m e t` says that the engine `e` holds the task `t` of the machine `m`, and
that what no tick touches, and the names told so far, are those of the machine.

Each operation on the registers has its lemma, which says that what is tracked before it is tracked
after it. From these a tick of the engine does what a tick of the task does (`Tracks.tick`): it does
not crash, and fails with the same error. The budget is apart (`Counted`): the counter of the engine
has 64 bits, and is right only while it has not gone beyond the budget. A limit that the counter
cannot go beyond is none, so `Engine.budget` is zero for it.
-/

namespace Pseudocode

theorem elementAt?_natCast {α : Type} (xs : List α) (i : Nat) : elementAt? xs i = xs[i]? := by
  have inside : ¬(i : Int) < 0 := by omega
  rw [elementAt?, if_neg inside, Int.toNat_natCast]

namespace Engine

/-! ## Blocks as frames -/

namespace Block

/-- What a block keeps for its end, as a kind of frame. -/
def frameKind (b : Block) : FrameKind :=
  match b.kind with
  | .plain => .branch
  | .loop => .loop b.test b.line
  | .count => .count b.name b.counter b.last b.line

/-- The frame that a block stands for. -/
def frame (b : Block) : Frame where
  kind := b.frameKind
  body := b.statements
  rest := b.statements.drop b.pc.toNat

/-- The index of a block points at one of its statements, or behind the last one. -/
structure InRange (b : Block) : Prop where
  nonneg : 0 ≤ b.pc
  le_length : b.pc ≤ b.statements.length

theorem inRange_start {b : Block} (start : b.pc = 0) : b.InRange :=
  ⟨by omega, by omega⟩

theorem frame_start {b : Block} (start : b.pc = 0) :
    b.frame = .ofBody b.frameKind b.statements := by
  rw [frame, start]
  rfl

variable {b : Block}

theorem pc_frame (range : b.InRange) : (b.frame.pc : Int) = b.pc := by
  have := range.nonneg
  have := range.le_length
  have pc : b.frame.pc = b.statements.length - (b.statements.length - b.pc.toNat) := by
    rw [Frame.pc, frame, List.length_drop]
  omega

/-- The index points at the statement that comes next. -/
theorem elementAt?_pc (range : b.InRange) : elementAt? b.statements b.pc = b.frame.rest.head? := by
  rw [← Int.toNat_of_nonneg range.nonneg, elementAt?_natCast, frame, List.head?_drop]

theorem length_le_pc_iff (range : b.InRange) :
    b.statements.length ≤ b.pc ↔ b.frame.rest.head? = none := by
  have := range.nonneg
  rw [frame, List.head?_drop, List.getElem?_eq_none_iff]
  omega

theorem frame_next (range : b.InRange) :
    { b with pc := b.pc + 1 }.frame = { b.frame with rest := b.frame.rest.tail } := by
  have next : (b.pc + 1).toNat = b.pc.toNat + 1 := by
    have := range.nonneg
    omega
  simp only [frame, frameKind, next, List.tail_drop]

theorem inRange_next {s : Stmt} (range : b.InRange) (next : b.frame.rest.head? = some s) :
    { b with pc := b.pc + 1 }.InRange := by
  have more : ¬(b.statements.length : Int) ≤ b.pc := by
    rw [length_le_pc_iff range, next]
    nofun
  have := range.nonneg
  exact ⟨by show 0 ≤ b.pc + 1; omega, by show b.pc + 1 ≤ b.statements.length; omega⟩

end Block

/-! ## Places -/

/-- The registers of a question that may be waited on: the flag, the name and the line. -/
def questionRegisters : Option Prompt → Bool × String × Int
  | none => (false, "", 0)
  | some p => (true, p.name, p.line)

/-- The registers of the program, the blocks and the question hold the place `c`. -/
structure Stands (e : Engine) (c : Control) : Prop where
  program : e.program = some c.program
  frames : e.frames.map Block.frame = c.frames
  range : ∀ b ∈ e.frames, b.InRange
  question : (e.suspended, e.pendingName, e.pendingLine) = questionRegisters c.pending

/-- The registers of the memory hold `memory`. -/
structure Remembers (e : Engine) (memory : Memory) : Prop where
  vars : e.vars = memory.vars
  output : e.output = memory.output
  cursor : e.cursor = memory.read

/-- The limit of an engine as a budget. The counter cannot go beyond the greatest of its numbers, so
that one limits nothing. -/
def budget (e : Engine) : Nat :=
  if 0 < e.limit ∧ e.limit < Int64.maxValue then e.limit.toInt.toNat else 0

/-- What no tick changes is that of the machine. -/
structure Shares (e : Engine) (m : Machine) : Prop where
  history : e.history = m.history
  budget : e.budget = m.budget
  listening : e.listening = m.listening

/-- The engine holds the task `t` of the machine, and has told the names that the machine has told
when it comes to `t`. -/
structure Tracks (m : Machine) (e : Engine) (t : Task) : Prop where
  stands : e.Stands t.control
  remembers : e.Remembers t.memory
  shares : e.Shares m
  asked : e.asked = (m.announce t).asked

/-- The counter is right, which it is while the budget is not gone beyond. -/
def Counted (e : Engine) (t : Task) : Prop :=
  0 < e.budget → e.steps.toInt = t.control.spent ∧ t.control.spent ≤ e.budget

namespace Stands

variable {e : Engine} {c : Control} {s : Stmt}

theorem suspended_eq (h : e.Stands c) : e.suspended = c.pending.isSome := by
  have flag : e.suspended = (questionRegisters c.pending).1 := congrArg Prod.fst h.question
  rw [flag]
  cases c.pending <;> rfl

theorem pendingName_eq (h : e.Stands c) :
    e.pendingName = (c.pending.map Prompt.name).getD "" := by
  have name : e.pendingName = (questionRegisters c.pending).2.1 := congrArg (·.2.1) h.question
  rw [name]
  cases c.pending <;> rfl

theorem pendingLine_eq (h : e.Stands c) : e.pendingLine = (c.pending.map Prompt.line).getD 0 := by
  have line : e.pendingLine = (questionRegisters c.pending).2.2 := congrArg (·.2.2) h.question
  rw [line]
  cases c.pending <;> rfl

/-- The innermost block of an engine shows the next statement, and is the one that moves. -/
theorem exists_innermost (h : e.Stands c) : ∃ b below, e.frames = b :: below ∧ b.InRange ∧
    c.frames = b.frame :: below.map Block.frame ∧ c.next? = b.frame.rest.head? ∧
    c.advance.frames = { b.frame with rest := b.frame.rest.tail } :: below.map Block.frame := by
  obtain ⟨f, outer, frames, next, moved⟩ := c.exists_innermost
  have blocks := h.frames.trans frames
  cases split : e.frames with
  | nil =>
    rw [split] at blocks
    cases blocks
  | cons b below =>
    rw [split] at blocks
    cases blocks
    exact ⟨b, below, rfl, h.range b (split ▸ List.mem_cons_self), frames, next, moved⟩

/-- The same place, in an engine with the same registers for it. -/
theorem keep (h : e.Stands c) {e' : Engine} {c' : Control} (program : e'.program = e.program)
    (frames : e'.frames = e.frames) (question : (e'.suspended, e'.pendingName, e'.pendingLine)
      = (e.suspended, e.pendingName, e.pendingLine))
    (same : c'.program = c.program ∧ c'.frames = c.frames ∧ c'.pending = c.pending) :
    e'.Stands c' := by
  obtain ⟨program', frames', pending⟩ := same
  refine ⟨?_, ?_, frames ▸ h.range, ?_⟩
  · rw [program, program', h.program]
  · rw [frames, frames', h.frames]
  · rw [question, pending, h.question]

theorem advance (h : e.Stands c) (next : c.next? = some s) : e.advance.Stands c.advance := by
  obtain ⟨b, below, frames, range, -, top, moved⟩ := h.exists_innermost
  have advanced : e.advance.frames = { b with pc := b.pc + 1 } :: below := by
    simp only [Engine.advance, frames]
  refine ⟨?_, ?_, ?_, ?_⟩
  · exact h.program.trans (congrArg some (Task.program_advance ⟨c, {}⟩).symm)
  · rw [advanced, moved, List.map_cons, Block.frame_next range]
  · rw [advanced, List.forall_mem_cons]
    refine ⟨Block.inRange_next range (top ▸ next), fun b' member => h.range b' ?_⟩
    exact frames ▸ List.mem_cons_of_mem b member
  · exact h.question.trans (congrArg questionRegisters (Task.pending_advance ⟨c, {}⟩).symm)

theorem push (h : e.Stands c) {b : Block} (start : b.pc = 0) :
    (e.push b).Stands (c.enter (.ofBody b.frameKind b.statements)) := by
  refine ⟨h.program, ?_, ?_, h.question⟩
  · show b.frame :: e.frames.map Block.frame = .ofBody b.frameKind b.statements :: c.frames
    rw [h.frames, Block.frame_start start]
  · show ∀ b' ∈ b :: e.frames, b'.InRange
    rw [List.forall_mem_cons]
    exact ⟨Block.inRange_start start, h.range⟩

theorem pop (h : e.Stands c) {f : Frame} {outer : List Frame} (inner : c.inner = f :: outer) :
    e.pop.Stands { c with inner := outer } := by
  refine ⟨h.program, ?_, fun b member => h.range b (List.mem_of_mem_tail member), h.question⟩
  show e.frames.tail.map Block.frame = _
  rw [List.map_tail, h.frames, Control.frames_of_inner inner, List.tail_cons]

end Stands

/-! ## Operations -/

section Operations

variable {m : Machine} {e e' : Engine} {t t' : Task} {s : Stmt}

theorem Counted.keep (h : e.Counted t) (limit : e'.limit = e.limit) (steps : e'.steps = e.steps)
    (spent : t'.control.spent = t.control.spent) : e'.Counted t' := by
  unfold Counted budget at h ⊢
  rw [limit, steps, spent]
  exact h

theorem Counted.zero (steps : e.steps = 0) (spent : t.control.spent = 0) : e.Counted t := by
  intro limited
  rw [steps, spent]
  exact ⟨rfl, Nat.zero_le _⟩

namespace Tracks

/-- What a tick does not touch. -/
theorem keep (h : Tracks m e t) (stands : e'.Stands t'.control)
    (remembers : e'.Remembers t'.memory)
    (settings : e'.history = e.history ∧ e'.limit = e.limit ∧ e'.listening = e.listening)
    (asked : e'.asked = e.asked) (pending : t'.control.pending = t.control.pending) :
    Tracks m e' t' := by
  obtain ⟨history, limit, listening⟩ := settings
  refine ⟨stands, remembers, ⟨history.trans h.shares.history, ?_,
    listening.trans h.shares.listening⟩, ?_⟩
  · rw [← h.shares.budget, budget, budget, limit]
  · rw [asked, h.asked, Machine.announce, Machine.announce, pending]

theorem paid (h : Tracks m e t) : Tracks m e.paid t.paid :=
  h.keep (h.stands.keep rfl rfl rfl ⟨rfl, rfl, rfl⟩)
    ⟨h.remembers.vars, h.remembers.output, h.remembers.cursor⟩ ⟨rfl, rfl, rfl⟩ rfl rfl

theorem advance (h : Tracks m e t) (next : t.control.next? = some s) :
    Tracks m e.advance t.advance :=
  h.keep (h.stands.advance next) ⟨h.remembers.vars, h.remembers.output, h.remembers.cursor⟩
    ⟨rfl, rfl, rfl⟩ rfl (Task.pending_advance t)

theorem push (h : Tracks m e t) {b : Block} (start : b.pc = 0) :
    Tracks m (e.push b) (t.enter (.ofBody b.frameKind b.statements)) :=
  h.keep (h.stands.push start) ⟨h.remembers.vars, h.remembers.output, h.remembers.cursor⟩
    ⟨rfl, rfl, rfl⟩ rfl rfl

theorem pop (h : Tracks m e t) {f : Frame} {outer : List Frame}
    (inner : t.control.inner = f :: outer) : Tracks m e.pop (t.withInner outer) :=
  h.keep (h.stands.pop inner) ⟨h.remembers.vars, h.remembers.output, h.remembers.cursor⟩
    ⟨rfl, rfl, rfl⟩ rfl rfl

theorem assign (h : Tracks m e t) (name : String) (v : Value) :
    Tracks m (e.assign name v) (t.assign name v) := by
  have vars : (e.assign name v).vars = (t.assign name v).memory.vars :=
    congrArg (·.set name v) h.remembers.vars
  exact h.keep (h.stands.keep rfl rfl rfl ⟨rfl, rfl, rfl⟩)
    ⟨vars, h.remembers.output, h.remembers.cursor⟩ ⟨rfl, rfl, rfl⟩ rfl rfl

theorem emit (h : Tracks m e t) (v : Value) : Tracks m (e.emit v) (t.emit v) := by
  have output : (e.emit v).output = (t.emit v).memory.output :=
    congrArg (·.push v) h.remembers.output
  exact h.keep (h.stands.keep rfl rfl rfl ⟨rfl, rfl, rfl⟩)
    ⟨h.remembers.vars, output, h.remembers.cursor⟩ ⟨rfl, rfl, rfl⟩ rfl rfl

theorem take (h : Tracks m e t) (next : t.control.next? = some s) (name : String) (v : Value) :
    Tracks m (e.take.assign name v).advance (t.take name v) := by
  have vars : e.vars.set name v = t.memory.vars.set name v := congrArg (·.set name v) h.remembers.vars
  have cursor : e.cursor + 1 = ((t.memory.read + 1 : Nat) : Int) := by
    rw [h.remembers.cursor]
    rfl
  exact h.keep ((h.stands.advance next).keep rfl rfl rfl ⟨rfl, rfl, rfl⟩)
    ⟨vars, h.remembers.output, cursor⟩ ⟨rfl, rfl, rfl⟩ rfl (Task.pending_advance t)

/-- The engine tells the name at once, the machine when it comes to rest. -/
theorem suspend (h : Tracks m e t) (free : t.control.pending = none) (name : String)
    (line : Int) : Tracks m (e.suspend name line) (t.ask ⟨name, line⟩) := by
  have stands : (e.suspend name line).Stands (t.ask ⟨name, line⟩).control :=
    ⟨h.stands.program, h.stands.frames, h.stands.range, rfl⟩
  refine ⟨stands, ⟨h.remembers.vars, h.remembers.output, h.remembers.cursor⟩,
    ⟨h.shares.history, h.shares.budget, h.shares.listening⟩, ?_⟩
  have asked := h.asked
  simp only [Machine.announce, free] at asked
  show (if e.listening then e.asked.push name else e.asked)
    = (if m.listening then { m with asked := m.asked.push name } else m).asked
  rw [h.shares.listening, asked]
  split <;> rfl

end Tracks

end Operations

/-! ## Ticks -/

/-- A tick of the engine and one of the task do the same. -/
inductive Locks (m : Machine) : Outcome → Tick → Prop
  | ok {e : Engine} {t : Task} (tracks : Tracks m e t) (counted : e.Counted t) :
      Locks m (.ok e) (.ok t)
  | raised {e : Engine} {t : Task} {error : RuntimeError} (tracks : Tracks m e t) :
      Locks m (.raised e error) (.failed t error)

section Ticks

variable {m : Machine} {e : Engine} {t : Task}

theorem Locks.ite {p : Prop} [Decidable p] {o o' : Outcome} {k k' : Tick}
    (yes : p → Locks m o k) (no : ¬p → Locks m o' k') :
    Locks m (if p then o else o') (if p then k else k') := by
  split
  · exact yes ‹p›
  · exact no ‹¬p›

theorem Tracks.evalThen (h : Tracks m e t) (x : Expr) {k : Value → Outcome} {k' : Value → Tick}
    (go : ∀ v, Locks m (k v) (k' v)) : Locks m (e.evalThen x k) (t.evalThen x k') := by
  unfold Engine.evalThen Task.evalThen
  rw [h.remembers.vars]
  cases x.eval t.memory.vars with
  | ok v => exact go v
  | error error => exact .raised h

theorem toInt_maxValue : Int64.maxValue.toInt = 9223372036854775807 := rfl

/-- The counter goes up by one as long as it is below the greatest of its numbers. -/
theorem toInt_paid (below : e.steps < Int64.maxValue) :
    e.paid.steps.toInt = e.steps.toInt + 1 := by
  have below' := Int64.lt_iff_toInt_lt.mp below
  have lower := e.steps.le_toInt
  rw [toInt_maxValue] at below'
  show (e.steps + 1).toInt = e.steps.toInt + 1
  rw [Int64.toInt_add]
  show (e.steps.toInt + 1).bmod (2 ^ 64) = e.steps.toInt + 1
  rw [Int.bmod_eq_of_le] <;> omega

theorem toInt_limit (limited : 0 < e.budget) :
    0 < e.limit.toInt ∧ e.limit < Int64.maxValue ∧ (e.budget : Int) = e.limit.toInt := by
  unfold budget at limited ⊢
  split at limited
  · rename_i bounds
    have positive := Int64.lt_iff_toInt_lt.mp bounds.1
    rw [Int64.toInt_zero] at positive
    rw [if_pos bounds]
    exact ⟨positive, bounds.2, by omega⟩
  · omega

/-- A count that is within the budget can still go up. -/
theorem Counted.toInt_paid (h : e.Counted t) (limited : 0 < e.budget) :
    e.paid.steps.toInt = t.control.spent + 1 := by
  obtain ⟨steps, within⟩ := h limited
  obtain ⟨-, below, limit⟩ := toInt_limit limited
  have below' := Int64.lt_iff_toInt_lt.mp below
  rw [Engine.toInt_paid (Int64.lt_iff_toInt_lt.mpr (by omega)), steps]

/-- The engine goes beyond its limit where the task goes beyond its budget. -/
theorem Counted.exceeds_iff (h : e.Counted t) :
    0 < e.paid.limit ∧ e.paid.limit < e.paid.steps
      ↔ 0 < e.budget ∧ e.budget ≤ t.control.spent := by
  by_cases limited : 0 < e.budget
  · obtain ⟨positive, -, limit⟩ := toInt_limit limited
    have steps := h.toInt_paid limited
    rw [Int64.lt_iff_toInt_lt, Int64.lt_iff_toInt_lt, steps, Int64.toInt_zero]
    show 0 < e.limit.toInt ∧ e.limit.toInt < _ ↔ _
    omega
  · -- the limit is not positive, or the counter cannot go beyond it
    refine ⟨fun ⟨positive, beyond⟩ => ?_, fun ⟨limited', _⟩ => absurd limited' limited⟩
    exfalso
    have unlimited : ¬e.limit < Int64.maxValue := by
      intro below
      apply limited
      have positive' := Int64.lt_iff_toInt_lt.mp positive
      rw [Int64.toInt_zero] at positive'
      rw [budget, if_pos ⟨positive, below⟩]
      show 0 < e.limit.toInt.toNat
      have : 0 < e.limit.toInt := positive'
      omega
    have greatest := e.paid.steps.toInt_le
    rw [Int64.lt_iff_toInt_lt] at unlimited
    have beyond' : e.limit.toInt < e.paid.steps.toInt := Int64.lt_iff_toInt_lt.mp beyond
    omega

theorem Tracks.charged (h : Tracks m e t) (counted : e.Counted t) (line : Int)
    {k : Engine → Outcome} {k' : Task → Tick}
    (go : Tracks m e.paid t.paid → e.paid.Counted t.paid → Locks m (k e.paid) (k' t.paid)) :
    Locks m (e.charged line k) (t.charged m.supply line k') := by
  have same : m.supply.budget = e.budget := h.shares.budget.symm
  by_cases pays : t.Affords m.supply
  · have within : ¬(0 < e.paid.limit ∧ e.paid.limit < e.paid.steps) := by
      rw [counted.exceeds_iff, ← same]
      exact pays
    rw [Task.charged_of_affords pays, Engine.charged, if_neg within]
    refine go h.paid fun limited => ?_
    have limited' : 0 < e.budget := limited
    refine ⟨counted.toInt_paid limited', ?_⟩
    rw [counted.exceeds_iff] at within
    show t.control.spent + 1 ≤ e.budget
    omega
  · have beyond : 0 < e.paid.limit ∧ e.paid.limit < e.paid.steps := by
      rw [counted.exceeds_iff, ← same]
      exact Classical.not_not.mp pays
    have limited := (counted.exceeds_iff.mp beyond).1
    have limit : e.paid.limit.toInt = m.supply.budget := by
      rw [same]
      exact (toInt_limit limited).2.2.symm
    rw [Task.charged_of_not_affords pays, Engine.charged, if_pos beyond, limit]
    exact .raised (h.keep (h.stands.keep rfl rfl rfl ⟨rfl, rfl, rfl⟩)
      ⟨h.remembers.vars, h.remembers.output, h.remembers.cursor⟩ ⟨rfl, rfl, rfl⟩ rfl rfl)

/-- The next answer is read, or waited for. -/
theorem Tracks.readAnswer (h : Tracks m e t) (free : t.control.pending = none) {s : Stmt}
    (next : t.control.next? = some s) (name : String) (line : Int) :
    Locks m (e.readAnswer name line) (.ok (t.readAnswer m.supply name line)) := by
  have history : m.supply.answers = e.history := h.shares.history.symm
  cases answer : m.supply.answers[t.memory.read]? with
  | none =>
    have all : (e.history.size : Int) ≤ e.cursor := by
      have := Array.getElem?_eq_none_iff.mp answer
      rw [h.remembers.cursor, ← history]
      omega
    rw [Task.readAnswer_of_none answer, Engine.readAnswer, if_pos all]
    exact .ok (h.suspend free name line) (.zero rfl rfl)
  | some v =>
    have more : ¬(e.history.size : Int) ≤ e.cursor := by
      have := (Array.getElem?_eq_some_iff.mp answer).1
      rw [h.remembers.cursor, ← history]
      omega
    have given : elementAt? e.history.toList e.cursor = some v := by
      rw [h.remembers.cursor, elementAt?_natCast, Array.getElem?_toList, ← history]
      exact answer
    rw [Task.readAnswer_of_some answer, Engine.readAnswer, if_neg more, given]
    exact .ok (h.take next name v) (.zero rfl rfl)

theorem Tracks.execute (h : Tracks m e t) (counted : e.Counted t) (free : t.control.pending = none)
    {s : Stmt} (next : t.control.next? = some s) :
    Locks m (e.execute s) (t.execute m.supply s) := by
  have advanced : Tracks m e.advance t.advance := h.advance next
  have counted' : e.advance.Counted t.advance := counted.keep rfl rfl (Task.spent_advance t)
  cases s with
  | assign name value line =>
    refine h.evalThen value fun v => ?_
    exact .ok ((h.assign name v).advance next) (counted'.keep rfl rfl rfl)
  | write value line =>
    refine h.evalThen value fun v => ?_
    exact .ok ((h.emit v).advance next) (counted'.keep rfl rfl rfl)
  | read name line => exact h.readAnswer free next name line
  | cond test yes no line =>
    refine h.evalThen test fun v => ?_
    generalize (if v.truthy then yes else no.getD []) = branch
    cases branch with
    | nil => exact .ok advanced counted'
    | cons s ss =>
      exact .ok (advanced.push (b := { statements := s :: ss, line }) rfl)
        (counted'.keep rfl rfl rfl)
  | loop test body line =>
    refine h.evalThen test fun v => .ite (fun _ => ?_) fun _ => .ok advanced counted'
    exact .ok (advanced.push (b := { kind := .loop, statements := body, line, test }) rfl)
      (counted'.keep rfl rfl rfl)
  | count name first last body line =>
    refine h.evalThen first fun a => h.evalThen last fun b => ?_
    cases a with
    | text a => exact .raised h
    | num a =>
      cases b with
      | text b => exact .raised h
      | num b =>
        refine .ite (fun _ => ?_) fun _ => .ok advanced counted'
        exact .ok ((advanced.assign name (.num a)).push
          (b := { kind := .count, statements := body, line, name, counter := a, last := b }) rfl)
          (counted'.keep rfl rfl rfl)
  | unknown label line => exact .raised h

/-- The innermost block is left or started over. -/
theorem Tracks.endOfBlock (h : Tracks m e t) (counted : e.Counted t) {b : Block}
    {outer : List Frame} (inner : t.control.inner = b.frame :: outer) :
    Locks m (e.endOfBlock b) (t.close m.supply b.frame outer) := by
  obtain ⟨kind, statements, pc, line, test, name, counter, last⟩ := b
  cases kind with
  | plain => exact .ok (h.pop inner) (counted.keep rfl rfl rfl)
  | loop =>
    simp only [Engine.endOfBlock, Task.close, Block.frame, Block.frameKind]
    refine h.charged counted line fun h counted => h.evalThen test fun v => ?_
    have left := h.pop inner
    by_cases truthy : v.truthy = true
    · rw [if_pos truthy, if_pos truthy]
      exact .ok (left.push (b := ⟨.loop, statements, 0, line, test, name, counter, last⟩) rfl)
        (counted.keep rfl rfl rfl)
    · rw [if_neg truthy, if_neg truthy]
      exact .ok left (counted.keep rfl rfl rfl)
  | count =>
    simp only [Engine.endOfBlock, Task.close, Block.frame, Block.frameKind]
    refine h.charged counted line fun h counted => .ite (fun _ => ?_) fun _ => ?_
    · have left := (h.assign name (.num (counter + 1))).pop inner
      exact .ok (left.push (b := ⟨.count, statements, 0, line, test, name, counter + 1, last⟩) rfl)
        (counted.keep rfl rfl rfl)
    · exact .ok (h.pop inner) (counted.keep rfl rfl rfl)

/-- A tick of a program that goes on does not crash, and does what the tick of the task does. -/
theorem Tracks.tick (h : Tracks m e t) (counted : e.Counted t) (going : t.control.halted = false) :
    Locks m e.tick (t.tick m.supply) := by
  have free := (Control.open_of_going going).2
  obtain ⟨b, below, blocks, range, frames, top, -⟩ := h.stands.exists_innermost
  cases next : t.control.next? with
  | some s =>
    have more : ¬(b.statements.length : Int) ≤ b.pc := by
      rw [Block.length_le_pc_iff range, ← top, next]
      nofun
    have found : elementAt? b.statements b.pc = some s := by
      rw [Block.elementAt?_pc range, ← top, next]
    simp only [Task.tick_of_next next, Engine.tick, blocks, if_neg more, found]
    exact h.charged counted s.line fun h counted => h.execute counted free next
  | none =>
    have all : (b.statements.length : Int) ≤ b.pc := by
      rw [Block.length_le_pc_iff range, ← top, next]
    obtain ⟨f, outer, inner⟩ := List.exists_cons_of_ne_nil (Control.inner_ne_nil_of_going going next)
    have same : f = b.frame := by
      rw [Control.frames_of_inner inner] at frames
      exact (List.cons.inj frames).1
    subst same
    simp only [Task.tick_of_close next inner, Engine.tick, blocks, if_pos all]
    exact h.endOfBlock counted inner

end Ticks

end Engine
end Pseudocode
