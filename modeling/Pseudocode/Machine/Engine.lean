import Pseudocode.Machine.Basic

/-!
# The engine

The machine as registers. What the machine keeps together is spread over fields that nothing in
their types relates: the bound program and a stack of open blocks, each with the index of its next
statement; a flag, a name and a line for the question that is waited on; the index of the next
answer; and a counter of 64 bits for the steps, which wraps around. An index may point outside of its
list, and a call that follows it there crashes. A listener is told a name at the moment when the
engine comes to wait for it.

A call ticks in a loop that ends by itself or not at all. `serve` lets the loop make some ticks and
says whether it is over.
-/

namespace Pseudocode

/-- The element at an index; none if the index lies outside of the list. -/
def elementAt? {α : Type} (xs : List α) (i : Int) : Option α :=
  if i < 0 then none else xs[i.toNat]?

namespace Engine

/-- What is done at the end of an open block. -/
inductive BlockKind where
  | plain
  | loop
  | count
  deriving DecidableEq, Repr

/-- An open block. A loop also keeps what its next round needs. -/
structure Block where
  kind : BlockKind := .plain
  statements : List Stmt
  /-- The index of the next statement. -/
  pc : Int := 0
  /-- The line of the statement that the block belongs to. -/
  line : Int := 0
  test : Expr := .unknown "<nil>"
  name : String := ""
  counter : Float := 0
  last : Float := 0

end Engine

/-- The registers of the machine. -/
structure Engine where
  program : Option Program := none
  vars : Env := .empty
  output : Array Value := #[]
  /-- Every answer given since the last reset. -/
  history : Array Value := #[]
  /-- The index of the next answer. -/
  cursor : Int := 0
  suspended : Bool := false
  pendingName : String := ""
  pendingLine : Int := 0
  /-- The open blocks, innermost first. -/
  frames : List Engine.Block := []
  /-- Whether someone wants to be told the names that are asked for. -/
  listening : Bool := false
  /-- The names told so far. -/
  asked : Array String := #[]
  /-- The most steps that are counted before a drive fails; no limit if it is not positive. -/
  limit : Int64 := 1000000
  steps : Int64 := 0

namespace Engine

/-- The outcome of a tick. -/
inductive Outcome where
  | ok (e : Engine)
  | raised (e : Engine) (error : RuntimeError)
  /-- An index lies outside of its list. -/
  | crashed

/-! ## Registers -/

/-- Opens a block. -/
def push (e : Engine) (b : Block) : Engine :=
  { e with frames := b :: e.frames }

/-- Closes the innermost block. -/
def pop (e : Engine) : Engine :=
  { e with frames := e.frames.tail }

/-- Moves past the next statement of the innermost block. -/
def advance (e : Engine) : Engine :=
  { e with
    frames :=
      match e.frames with
      | [] => []
      | b :: outer => { b with pc := b.pc + 1 } :: outer }

/-- Gives a variable a value. -/
def assign (e : Engine) (name : String) (value : Value) : Engine :=
  { e with vars := e.vars.set name value }

/-- Adds a value to the output. -/
def emit (e : Engine) (value : Value) : Engine :=
  { e with output := e.output.push value }

/-- Counts one step. -/
def paid (e : Engine) : Engine :=
  { e with steps := e.steps + 1 }

/-- Moves past the next answer. The count starts again. -/
def take (e : Engine) : Engine :=
  { e with cursor := e.cursor + 1, steps := 0 }

/-- Waits for an answer, and tells a listener. The count starts again. -/
def suspend (e : Engine) (name : String) (line : Int) : Engine :=
  { e with
    suspended := true
    pendingName := name
    pendingLine := line
    steps := 0
    asked := if e.listening then e.asked.push name else e.asked }

/-! ## Ticks -/

/-- Evaluates an expression and goes on with its value, or fails. -/
def evalThen (e : Engine) (x : Expr) (k : Value → Outcome) : Outcome :=
  match x.eval e.vars with
  | .ok v => k v
  | .error error => .raised e error

/-- Counts one step and goes on, or fails if there were too many. -/
def charged (e : Engine) (line : Int) (k : Engine → Outcome) : Outcome :=
  if 0 < e.paid.limit ∧ e.paid.limit < e.paid.steps then
    .raised e.paid (.budgetSpent e.paid.limit.toInt line)
  else k e.paid

/-- Reads the next answer into a variable, or waits for it. -/
def readAnswer (e : Engine) (name : String) (line : Int) : Outcome :=
  if e.history.size ≤ e.cursor then .ok (e.suspend name line)
  else
    match elementAt? e.history.toList e.cursor with
    | none => .crashed
    | some v => .ok (e.take.assign name v).advance

/-- Executes the next statement. -/
def execute (e : Engine) : Stmt → Outcome
  | .assign name value _ => e.evalThen value fun v => .ok (e.assign name v).advance
  | .write value _ => e.evalThen value fun v => .ok (e.emit v).advance
  | .read name line => e.readAnswer name line
  | .cond test yes no line =>
    e.evalThen test fun v =>
      let branch := if v.truthy then yes else no.getD []
      if branch.isEmpty then .ok e.advance
      else .ok (e.advance.push { statements := branch, line })
  | .loop test body line =>
    e.evalThen test fun v =>
      if v.truthy then .ok (e.advance.push { kind := .loop, statements := body, line, test })
      else .ok e.advance
  | .count name first last body line =>
    e.evalThen first fun a => e.evalThen last fun b =>
      match a, b with
      | .num a, .num b =>
        if a ≤ b then
          let round : Block :=
            { kind := .count, statements := body, line, name, counter := a, last := b }
          .ok ((e.advance.assign name (.num a)).push round)
        else .ok e.advance
      | a, b => .raised e (.typeMismatch "Pour" a.kind b.kind line)
  | .unknown label line => .raised e (.misuse (.unknownStatement label) line)

/-- Goes on after the last statement of the innermost block `b`: leaves it, or starts it over. -/
def endOfBlock (e : Engine) (b : Block) : Outcome :=
  match b.kind with
  | .plain => .ok e.pop
  | .loop =>
    e.charged b.line fun e =>
      e.evalThen b.test fun v =>
        if v.truthy then .ok (e.pop.push { b with pc := 0 }) else .ok e.pop
  | .count =>
    e.charged b.line fun e =>
      let counter := b.counter + 1
      if counter ≤ b.last then
        .ok ((e.assign b.name (.num counter)).pop.push { b with pc := 0, counter })
      else .ok e.pop

/-- One tick. It needs an open block. -/
def tick (e : Engine) : Outcome :=
  match e.frames with
  | [] => .crashed
  | b :: _ =>
    if b.statements.length ≤ b.pc then e.endOfBlock b
    else
      match elementAt? b.statements b.pc with
      | none => .crashed
      | some s => e.charged s.line fun e => e.execute s

/-! ## What is seen -/

/-- What can be seen of an engine after a call. -/
structure Result where
  output : Array Value
  vars : Env
  suspended : Bool
  pendingName : String
  completed : Bool
  /-- The index of the top-level statement that is being executed, or comes next. -/
  cursor : Int
  line : Int

/-- The outermost block, if no other one is open. -/
def only? (e : Engine) : Option Block :=
  match e.frames with
  | [b] => some b
  | _ => none

/-- The program is completed when one block is open and has no statement left. -/
def completed (e : Engine) : Bool :=
  e.only?.any fun b => decide ((b.statements.length : Int) ≤ b.pc)

/-- Execution halts when the program is completed or waits for an answer. -/
def halted (e : Engine) : Bool :=
  e.completed || e.suspended

/-- The index of the top-level statement that is being executed, or comes next. -/
def stepCursor (e : Engine) : Int :=
  match e.frames.getLast? with
  | none => 0
  | some b => if 1 < e.frames.length then b.pc - 1 else b.pc

/-- The line at which execution goes on, unless an index lies outside of its list. -/
def currentLine? : List Block → Option Int
  | [] => some 0
  | b :: outer =>
    if b.pc < b.statements.length then (elementAt? b.statements b.pc).map Stmt.line
    else if b.kind ≠ .plain then some b.line
    else currentLine? outer

/-- What can be seen of an engine, unless an index lies outside of its list. -/
def result? (e : Engine) : Option Result :=
  let completed := e.program.isSome && e.completed
  let shown (line : Int) : Result :=
    { output := e.output, vars := e.vars, suspended := e.suspended, pendingName := e.pendingName
      completed, cursor := e.stepCursor, line }
  if e.suspended then some (shown e.pendingLine)
  else if completed then some (shown 0)
  else (currentLine? e.frames).map shown

/-! ## Calls -/

/-- How a loop of ticks ends, if it is over after the ticks that it was to make. -/
inductive Ending where
  | stopped (e : Engine)
  | raised (e : Engine) (error : RuntimeError)
  | crashed
  | running (e : Engine)

/-- What a call comes to: what it leaves and returns; or it is still running, or has crashed. -/
inductive Reply where
  | returned (e : Engine) (shown : Option (Result × Option RuntimeError))
  | running (e : Engine)
  | crashed

/-- Ticks until the engine is done. -/
def drive (done : Engine → Bool) : Nat → Engine → Ending
  | 0, e => .running e
  | n + 1, e =>
    if done e then .stopped e
    else
      match e.tick with
      | .ok e' => drive done n e'
      | .raised e' error => .raised e' error
      | .crashed => .crashed

/-- Returns what is seen. -/
def report (e : Engine) (error : Option RuntimeError := none) : Reply :=
  match e.result? with
  | some r => .returned e (some (r, error))
  | none => .crashed

/-- Unbinds the program. -/
def unbind (e : Engine) : Engine :=
  { e with program := none, frames := [], suspended := false, pendingName := "", pendingLine := 0 }

/-- Returns an error, and leaves the variables and the output for inspection. -/
def fail (e : Engine) (error : RuntimeError) : Reply :=
  match e.result? with
  | some r => .returned e.unbind (some ({ r with completed := false }, some error))
  | none => .crashed

/-- What a call makes of the end of its loop. -/
def Ending.conclude : Ending → Reply
  | stopped e => e.report
  | raised e error => e.fail error
  | crashed => .crashed
  | running e => .running e

/-- Binds a program, to be executed from the top. -/
def start (e : Engine) (program : Program) : Engine :=
  { e with
    program := some program
    vars := .empty
    output := #[]
    cursor := 0
    suspended := false
    pendingName := ""
    pendingLine := 0
    frames := [{ statements := program.statements }]
    steps := 0 }

/-- Runs a program from the top until it halts; without one, the bound program again. -/
def run (e : Engine) (n : Nat) (program? : Option Program) : Reply :=
  match program?.or e.program with
  | none => e.report (some (.misuse .noProgram 0))
  | some p => (drive halted n (e.start p)).conclude

/-- Whether a step that started at an index of the top level is over. -/
def stepDone (start : Int) (e : Engine) : Bool :=
  e.suspended || e.completed || e.only?.any fun b => decide (start < b.pc)

/-- Executes the bound program up to the end of one top-level statement: ticks once, and then until
the step is over. -/
def stepBound (e : Engine) (n : Nat) : Reply :=
  if e.suspended then e.report (some (.misuse (.awaitingInput e.pendingName) e.pendingLine))
  else if e.completed then e.report
  else
    let e := { e with steps := 0 }
    match e.frames.getLast? with
    | none => .crashed
    | some b =>
      let start := if 1 < e.frames.length then b.pc - 1 else b.pc
      match e.tick with
      | .ok e' => (drive (stepDone start) n e').conclude
      | .raised e' error => e'.fail error
      | .crashed => .crashed

/-- Executes one top-level statement, or the rest of one after an answer. A program is bound only if
none is. -/
def step (e : Engine) (n : Nat) (program? : Option Program) : Reply :=
  match e.program, program? with
  | none, none => e.report (some (.misuse .noProgram 0))
  | none, some p => (e.start p).stepBound n
  | some _, _ => e.stepBound n

/-- Gives an answer. -/
def provide (e : Engine) (raw : String) : Engine :=
  { e with
    history := e.history.push (Value.ofAnswer raw)
    suspended := false
    pendingName := ""
    pendingLine := 0 }

/-- Forgets the program, its memory and all answers. -/
def reset (e : Engine) : Engine :=
  { e with
    program := none
    vars := .empty
    output := #[]
    history := #[]
    cursor := 0
    suspended := false
    pendingName := ""
    pendingLine := 0
    frames := []
    steps := 0 }

/-- What a call comes to when its loop may make `n` ticks. -/
def serve (e : Engine) (n : Nat) : Call → Reply
  | .run program? => e.run n program?
  | .step program? => e.step n program?
  | .provide raw => .returned (e.provide raw) none
  | .reset => .returned e.reset none

/-- After some calls, each of which has returned. -/
inductive Reaches (e : Engine) : List Call → Engine → Prop
  | start : Reaches e [] e
  | call {calls : List Call} {e' e'' : Engine} {n : Nat} {call : Call}
      {shown : Option (Result × Option RuntimeError)} (before : Reaches e calls e')
      (returned : e'.serve n call = .returned e'' shown) : Reaches e (calls ++ [call]) e''

end Engine

end Pseudocode
