import Pseudocode.Machine.Control

/-!
# Ticks

One tick executes the next statement of the innermost block, or closes that block when its
statements are used up. It never blocks: a question without an answer suspends the program. A tick
that fails changes neither the memory nor the place of the program.

Executing a statement and testing a loop again count against the budget; leaving a branch does not.
The count starts again at every answer that is read.
-/

namespace Pseudocode

/-- What a run has done so far: the variables, the output, and the number of answers read. -/
structure Memory where
  vars : Env := .empty
  output : Array Value := #[]
  read : Nat := 0

/-- A running program: its place and its memory. -/
structure Task where
  control : Control
  memory : Memory

/-- What a run depends on: the number of statements allowed, zero for no limit, and the answers
given so far. -/
structure Supply where
  budget : Nat
  answers : Array Value

/-- The outcome of a tick. -/
inductive Tick where
  | ok (task : Task)
  | failed (task : Task) (error : RuntimeError)

namespace Task

/-- A program about to start with an empty memory. -/
def ofProgram (program : Program) : Task :=
  { control := .ofProgram program, memory := {} }

/-- Moves past the next statement. -/
def advance (t : Task) : Task :=
  { t with control := t.control.advance }

/-- Gives a variable a value. -/
def assign (t : Task) (name : String) (value : Value) : Task :=
  { t with memory := { t.memory with vars := t.memory.vars.set name value } }

/-- Adds a value to the output. -/
def emit (t : Task) (value : Value) : Task :=
  { t with memory := { t.memory with output := t.memory.output.push value } }

/-- Opens a block. -/
def enter (t : Task) (f : Frame) : Task :=
  { t with control := t.control.enter f }

/-- Replaces the open blocks. -/
def withInner (t : Task) (inner : List Frame) : Task :=
  { t with control := { t.control with inner } }

/-- Evaluates an expression and goes on with its value, or fails. -/
@[inline] def evalThen (t : Task) (e : Expr) (k : Value → Tick) : Tick :=
  match e.eval t.memory.vars with
  | .ok v => k v
  | .error err => .failed t err

/-- Counts one step against the budget and goes on, or fails if the budget is spent. -/
@[inline] def charged (t : Task) (supply : Supply) (line : Int) (k : Task → Tick) : Tick :=
  if 0 < supply.budget ∧ supply.budget ≤ t.control.spent then
    .failed t (.budgetSpent supply.budget line)
  else k { t with control := { t.control with spent := t.control.spent + 1 } }

/-- Reads the next answer into a variable, or waits for it. -/
def readAnswer (t : Task) (supply : Supply) (name : String) (line : Int) : Task :=
  match supply.answers[t.memory.read]? with
  | some v =>
    let c := t.control.advance
    { control := { c with spent := 0 }
      memory := { t.memory with vars := t.memory.vars.set name v, read := t.memory.read + 1 } }
  | none => { t with control := t.control.suspend ⟨name, line⟩ }

/-- Starts a counted loop. The bounds are numbers; if the first is above the last, or either is no
number to compare, nothing happens, and the variable gets no value. -/
def startCount (t : Task) (name : String) (body : List Stmt) (line : Int) :
    Value → Value → Tick
  | .num first, .num last =>
    let t' := t.advance
    if first ≤ last then
      .ok ((t'.assign name (.num first)).enter (.ofBody (.count name first last line) body))
    else .ok t'
  | first, last => .failed t (.typeMismatch "Pour" first.kind last.kind line)

/-- Executes the next statement. -/
def execute (t : Task) (supply : Supply) : Stmt → Tick
  | .assign name value _ => t.evalThen value fun v => .ok (t.advance.assign name v)
  | .write value _ => t.evalThen value fun v => .ok (t.advance.emit v)
  | .read name line => .ok (t.readAnswer supply name line)
  | .cond test yes no _ =>
    t.evalThen test fun v =>
      let branch := if v.truthy then yes else no.getD []
      .ok { t with control := t.control.advance.enterBranch branch }
  | .loop test body line =>
    t.evalThen test fun v =>
      if v.truthy then .ok (t.advance.enter (.ofBody (.loop test line) body)) else .ok t.advance
  | .count name first last body line =>
    t.evalThen first fun a => t.evalThen last fun b => t.startCount name body line a b
  | .unknown label line => .failed t (.misuse (.unknownStatement label) line)

/-- Goes on after the last statement of the innermost block `f`, with `outer` around it. -/
def close (t : Task) (supply : Supply) (f : Frame) (outer : List Frame) : Tick :=
  match f.kind with
  | .branch => .ok (t.withInner outer)
  | .loop test line =>
    t.charged supply line fun t =>
      t.evalThen test fun v =>
        .ok (t.withInner (if v.truthy then f.restart :: outer else outer))
  | .count name counter last line =>
    t.charged supply line fun t =>
      let counter := counter + 1
      if counter ≤ last then
        let f' := { f.restart with kind := .count name counter last line }
        .ok ((t.assign name (.num counter)).withInner (f' :: outer))
      else .ok (t.withInner outer)

/-- One tick. A completed program stays as it is. -/
def tick (t : Task) (supply : Supply) : Tick :=
  match t.control.next? with
  | some s => t.charged supply s.line fun t => t.execute supply s
  | none =>
    match t.control.inner with
    | [] => .ok t
    | f :: outer => t.close supply f outer

end Task

/-! ## Drives -/

/-- How a drive ends: at the point asked for, at an error, or with its fuel used up. -/
inductive Drive where
  | reached (task : Task)
  | failed (task : Task) (error : RuntimeError)
  | outOfFuel (task : Task)

/-- Ticks until a condition on the control state holds. -/
def Task.drive (supply : Supply) (until? : Control → Bool) : Nat → Task → Drive
  | 0, t => .outOfFuel t
  | fuel + 1, t =>
    if until? t.control then .reached t
    else
      match t.tick supply with
      | .ok t' => t'.drive supply until? fuel
      | .failed t' e => .failed t' e

/-- A bound on the ticks that are left under a positive budget. Every counted tick lowers it by at
least one even if it opens a block, leaving a branch lowers it by one, and an answer read pays for
the new count. -/
def Task.ticksLeft (t : Task) (supply : Supply) : Nat :=
  (supply.answers.size - t.memory.read) * (2 * supply.budget + 2)
    + 2 * (supply.budget - t.control.spent) + t.control.inner.length

end Pseudocode
