import Pseudocode.Machine.Tick

/-!
# The machine

The machine holds at most one program and executes it from call to call. It never waits: a program
that asks for a value it has not been given is suspended, and the call that got there says so. All
answers ever given are kept and replayed when the program runs again.

`run` starts the bound program over and goes on until it halts; `step` goes on until one top-level
statement is done. A call that fails unbinds the program and leaves the memory for inspection.

A program is bound exactly if there is a place in it, and a place waits or does not: the machine
cannot say otherwise. It counts without a bound, and any number can be its budget. `Engine` is the same
machine over registers that no type relates, with a counter of 64 bits.
-/

namespace Pseudocode

/-- The number of statements that one drive may execute unless a caller says otherwise. -/
def defaultBudget : Nat := 1000000

/-- The machine. -/
structure Machine where
  /-- The number of statements that one drive may execute; zero for no limit. -/
  budget : Nat := defaultBudget
  /-- The number of ticks after which a drive without a limit is given up. -/
  patience : Nat := Nat.pow 2 60
  /-- Whether someone wants to be told the names that are asked for. -/
  listening : Bool := false
  /-- The names told so far. -/
  asked : Array String := #[]
  /-- Every answer given since the last reset. -/
  history : Array Value := #[]
  /-- What the last run did. -/
  memory : Memory := {}
  /-- The bound program and its place. -/
  control : Option Control := none

/-- What can be seen of a machine after a call. -/
structure Snapshot where
  output : Array Value := #[]
  vars : Env := .empty
  /-- The name that is asked for, if the program waits for an answer. -/
  pending : Option String := none
  completed : Bool := false
  /-- The index of the top-level statement that is being executed, or comes next. -/
  cursor : Nat := 0
  /-- The line at which execution goes on, or of the pending question; zero if completed. -/
  line : Int := 0

/-- What a call returns. -/
structure Response where
  snapshot : Snapshot
  fault : Option Fault := none

/-- What can be seen of a running program. -/
def Task.snapshot (t : Task) : Snapshot where
  output := t.memory.output
  vars := t.memory.vars
  pending := t.control.pending.map Prompt.name
  completed := t.control.completed
  cursor := t.control.cursor
  line :=
    match t.control.pending with
    | some p => p.line
    | none => t.control.line

namespace Machine

/-- A machine with a given budget; a budget that is not positive is no limit. -/
def withBudget (budget : Int) : Machine :=
  { budget := budget.toNat }

/-- What can be seen of a machine. -/
def snapshot (m : Machine) : Snapshot :=
  match m.control with
  | some control => Task.snapshot { control, memory := m.memory }
  | none => { output := m.memory.output, vars := m.memory.vars }

/-- The bound program. -/
def program? (m : Machine) : Option Program :=
  m.control.map Control.program

/-- The question that the machine waits on. -/
def pending? (m : Machine) : Option Prompt :=
  m.control.bind Control.pending

/-- The answers that the current run has not read yet. -/
def unread (m : Machine) : List Value :=
  m.history.toList.drop m.memory.read

/-- What a drive of this machine depends on. -/
def supply (m : Machine) : Supply :=
  { budget := m.budget, answers := m.history }

/-- The ticks that a drive may take: as many as a positive budget can need, or the patience. -/
def fuel (m : Machine) (t : Task) : Nat :=
  if m.budget = 0 then m.patience else t.ticksLeft m.supply + 2

/-- Tells a listener the name that is asked for. -/
def announce (m : Machine) (t : Task) : Machine :=
  match t.control.pending with
  | some p => if m.listening then { m with asked := m.asked.push p.name } else m
  | none => m

/-- Drives a task until a condition holds, and keeps what it leaves. -/
def drive (m : Machine) (until? : Control → Bool) (t : Task) : Machine × Response :=
  match t.drive m.supply until? (m.fuel t) with
  | .reached t' =>
    ({ m.announce t' with memory := t'.memory, control := some t'.control },
      { snapshot := t'.snapshot })
  | .failed t' e =>
    ({ m with memory := t'.memory, control := none },
      { snapshot := t'.snapshot, fault := some (.runtime e) })
  | .outOfFuel t' =>
    ({ m with memory := t'.memory, control := some t'.control },
      { snapshot := t'.snapshot, fault := some .unfinished })

/-- Refuses a call. -/
def refuse (m : Machine) (cause : Misuse) (line : Int := 0) : Machine × Response :=
  (m, { snapshot := m.snapshot, fault := some (.runtime (.misuse cause line)) })

/-- Runs a program from the top until it halts; without one, the bound program again. -/
def run (m : Machine) (program? : Option Program) : Machine × Response :=
  match program?.or m.program? with
  | none => m.refuse .noProgram
  | some p => m.drive Control.halted (.ofProgram p)

/-- Whether a step that started with `start` finished top-level statements is over. -/
def stepDone (start : Nat) (c : Control) : Bool :=
  c.halted || (c.inner.isEmpty && decide (start < c.started))

/-- Executes the bound program up to the end of one top-level statement. -/
def stepBound (m : Machine) (c : Control) (memory : Memory) : Machine × Response :=
  match c.pending with
  | some p => m.refuse (.awaitingInput p.name) p.line
  | none =>
    if c.completed then
      ({ m with memory, control := some c }, { snapshot := Task.snapshot { control := c, memory } })
    else m.drive (stepDone c.cursor) { control := { c with spent := 0 }, memory }

/-- Executes one top-level statement, or the rest of one after an answer. A program is bound only if
none is. -/
def step (m : Machine) (program? : Option Program) : Machine × Response :=
  match m.control with
  | some c => m.stepBound c m.memory
  | none =>
    match program? with
    | none => m.refuse .noProgram
    | some p => m.stepBound (.ofProgram p) {}

/-- Gives an answer. It joins the history, and a suspended program may go on. -/
def provide (m : Machine) (raw : String) : Machine × Value :=
  let v := Value.ofAnswer raw
  ({ m with history := m.history.push v, control := m.control.map Control.resume }, v)

/-- Gives several answers in order. -/
def provideAll (m : Machine) (raws : List String) : Machine :=
  raws.foldl (fun m raw => (m.provide raw).1) m

/-- Forgets the program, its memory and all answers. -/
def reset (m : Machine) : Machine :=
  { m with history := #[], memory := {}, control := none }

end Machine

/-- The calls that a machine serves. -/
inductive Call where
  | run (program? : Option Program)
  | step (program? : Option Program)
  | provide (raw : String)
  | reset

/-- The machine after a call, and the response of a call that executes something. -/
def Machine.serve (m : Machine) : Call → Machine × Option Response
  | .run p => (m.run p).map id some
  | .step p => (m.step p).map id some
  | .provide raw => ((m.provide raw).1, none)
  | .reset => (m.reset, none)

end Pseudocode
