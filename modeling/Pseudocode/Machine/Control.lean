import Pseudocode.Value.Eval

/-!
# Control state

Where a bound program stands: the top-level statements still to come, and the open blocks inside the
current one, innermost first. A loop keeps what it needs to start its next iteration, so a program
that stops at a question deep inside nested blocks goes on from there without doing anything twice.

The top level is not a frame. A control state therefore always has a bottom, which is never closed.
-/

namespace Pseudocode

/-- What happens when the statements of an open block are used up. -/
inductive FrameKind where
  /-- A branch of a conditional: it is left. -/
  | branch
  /-- A loop with a test: the test is made again. -/
  | loop (test : Expr) (line : Int)
  /-- A counted loop: the counter goes up by one. It is kept here and not in the variable, which the
  body may change. -/
  | count (name : String) (counter last : Float) (line : Int)

/-- An open block: all its statements, and those still to come. -/
structure Frame where
  kind : FrameKind
  body : List Stmt
  rest : List Stmt

namespace Frame

/-- A block at its first statement. -/
def ofBody (kind : FrameKind) (body : List Stmt) : Frame :=
  { kind, body, rest := body }

/-- A block about to start over. -/
def restart (f : Frame) : Frame :=
  { f with rest := f.body }

/-- The line of the loop that a block belongs to. -/
def loopLine? (f : Frame) : Option Int :=
  match f.kind with
  | .branch => none
  | .loop _ line => some line
  | .count _ _ _ line => some line

/-- The line at which execution goes on inside a block, if that is inside it at all. -/
def line? (f : Frame) : Option Int :=
  (f.rest.head?.map Stmt.line).or f.loopLine?

end Frame

/-- A question that waits for an answer: the variable asked for, and the line of the statement. -/
structure Prompt where
  name : String
  line : Int
  deriving DecidableEq, Repr

/-- Where a bound program stands. -/
structure Control where
  program : Program
  /-- The top-level statements still to come. -/
  rest : List Stmt
  /-- The open blocks, innermost first. -/
  inner : List Frame := []
  /-- The question that execution waits on. -/
  pending : Option Prompt := none
  /-- The statements and loop tests counted against the budget. -/
  spent : Nat := 0

namespace Control

/-- A program about to start. -/
def ofProgram (program : Program) : Control :=
  { program, rest := program.statements }

/-- A program is completed when nothing is left at the top level and no block is open. -/
def completed (c : Control) : Bool :=
  c.inner.isEmpty && c.rest.isEmpty

/-- Execution halts when the program is completed or waits for an answer. -/
def halted (c : Control) : Bool :=
  c.completed || c.pending.isSome

/-- The number of top-level statements that were started. -/
def started (c : Control) : Nat :=
  c.program.statements.length - c.rest.length

/-- The index of the top-level statement that is being executed, or comes next. -/
def cursor (c : Control) : Nat :=
  if c.inner.isEmpty then c.started else c.started - 1

/-- The statement that comes next in the innermost block. -/
def next? (c : Control) : Option Stmt :=
  match c.inner with
  | [] => c.rest.head?
  | f :: _ => f.rest.head?

/-- Moves past the next statement of the innermost block. -/
def advance (c : Control) : Control :=
  match c.inner with
  | [] => { c with rest := c.rest.tail }
  | f :: outer => { c with inner := { f with rest := f.rest.tail } :: outer }

/-- Opens a block. -/
def enter (c : Control) (f : Frame) : Control :=
  { c with inner := f :: c.inner }

/-- Opens a branch, unless it is empty. -/
def enterBranch (c : Control) (body : List Stmt) : Control :=
  if body.isEmpty then c else c.enter (.ofBody .branch body)

/-- Waits for an answer. -/
def suspend (c : Control) (prompt : Prompt) : Control :=
  { c with pending := some prompt, spent := 0 }

/-- No longer waits for an answer. -/
def resume (c : Control) : Control :=
  { c with pending := none }

/-- The line at which execution goes on: the next statement of the innermost block that has one, or
the loop that is to be tested again; zero after the last statement. -/
def line (c : Control) : Int :=
  match c.inner.findSome? Frame.line? with
  | some line => line
  | none =>
    match c.rest with
    | [] => 0
    | s :: _ => s.line

end Control

end Pseudocode
