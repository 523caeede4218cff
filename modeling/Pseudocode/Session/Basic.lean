import Pseudocode.Source
import Pseudocode.Text.Lines

/-!
# Sessions

A session is one source text in the hands of a front end: a machine that runs or steps it, the
answers given so far, and what the last operation showed. The machine never waits, so an operation
is a plain function from session to session.
-/

namespace Pseudocode

/-- A source text ready to be run: its name, its text, and the answers queued before any other. -/
structure SourceText where
  name : String
  code : String
  answers : List String := []

/-- How the program was last made to go on. -/
inductive Mode where
  | idle
  | run
  | step
  deriving DecidableEq, Repr

def Mode.name : Mode → String
  | idle => "idle"
  | run => "run"
  | step => "step"

/-- A session. -/
structure Session where
  source : SourceText
  /-- The lines of the source, for display. -/
  lines : List String
  /-- The parsed program; parsing is tried when it is first needed. -/
  program : Option Program := none
  machine : Machine
  mode : Mode := .idle
  /-- What the last operation showed. -/
  last : Snapshot := {}
  /-- What went wrong in the last operation. -/
  fault : Option Fault := none

namespace Session

/-- A new session. A budget that is not positive is no limit. -/
def start (source : SourceText) (budget : Int) : Session where
  source
  lines := Text.lines source.code
  machine := (Machine.withBudget budget).provideAll source.answers

/-- Records what an operation showed. The session is idle after a failure and at the end. -/
def record (s : Session) (r : Response) : Session :=
  { s with
    last := r.snapshot
    fault := r.fault
    mode := if r.fault.isSome || (r.snapshot.completed && r.snapshot.pending.isNone) then .idle
      else s.mode }

/-- Does something with the parsed program, or records why there is none. -/
def withProgram (s : Session) (f : Session → Program → Session) : Session :=
  match s.program with
  | some p => f s p
  | none =>
    match Source.program s.source.code with
    | .error e => s.record { snapshot := {}, fault := some e }
    | .ok p => f { s with program := some p } p

/-- Runs the program from the top, with all answers given so far. -/
def run (s : Session) : Session :=
  s.withProgram fun s p =>
    let (machine, r) := s.machine.run (some p)
    { s with machine, mode := .run }.record r

/-- Executes one top-level statement. -/
def step (s : Session) : Session :=
  s.withProgram fun s p =>
    let (machine, r) := s.machine.step (some p)
    { s with machine, mode := .step }.record r

/-- Answers the pending question and goes on in the way that led to it. -/
def provide (s : Session) (raw : String) : Session :=
  let s' := { s with machine := (s.machine.provide raw).1 }
  if s.mode = .step then s'.step else s'.run

/-- Starts over: all answers are forgotten, and those of the source are queued again. -/
def reset (s : Session) : Session :=
  { s with
    machine := s.machine.reset.provideAll s.source.answers
    mode := .idle
    last := {}
    fault := none }

/-- The line of the last fault; zero if there is none. -/
def errorLine (s : Session) : Int :=
  (s.fault.map Fault.errorLine).getD 0

/-- Whether the program waits for an answer. -/
def waiting (s : Session) : Bool :=
  s.fault.isNone && s.last.pending.isSome

end Session

/-- The operations on a session. -/
inductive SessionOp where
  | run
  | step
  | provide (raw : String)
  | reset

/-- The session after an operation. -/
def Session.apply (s : Session) : SessionOp → Session
  | .run => s.run
  | .step => s.step
  | .provide raw => s.provide raw
  | .reset => s.reset

end Pseudocode
