import Pseudocode.Proofs.Machine.Invariant
import Pseudocode.Proofs.Tree.Unlined

/-!
# Machines without lines

Lines are for messages only. `unlined` sets every line in a machine to zero, in the bound program,
the open blocks and the pending question, and a call commutes with it: the machine without lines
answers with the response without lines (`serve_unlined`). No branch, no count and no stop of a
drive depends on a line, because every move and every failure of a tick can be made without lines
(`Moves.unlined`, `Fails.unlined`).

Together with what parsing does without lines, texts with the same words have programs that answer
every sequence of calls alike (`lines_are_diagnostic`).
-/

namespace Pseudocode

/-! ## Errors and evaluation -/

namespace RuntimeError

def unlined : RuntimeError → RuntimeError
  | undefinedVariable name _ => undefinedVariable name 0
  | divisionByZero _ => divisionByZero 0
  | typeMismatch operation left right _ => typeMismatch operation left right 0
  | misuse cause _ => misuse cause 0
  | budgetSpent budget _ => budgetSpent budget 0

end RuntimeError

namespace Fault

mutual

def unlined : Fault → Fault
  | unclosedString _ _ => unclosedString 0 0
  | grammar e => grammar e.unlined
  | runtime e => runtime e.unlined
  | interrupted _ => interrupted 0
  | unanswered reason => unanswered reason
  | unfinished => unfinished
  | inContext label inner => inContext label inner.unlined
  | retold text inner => retold text inner.unlined
  | joined text parts => joined text (allUnlined parts)

def allUnlined : List Fault → List Fault
  | [] => []
  | f :: fs => f.unlined :: allUnlined fs

end

end Fault

namespace Value

variable {op : Op} {line : Int}

theorem arithmetic_unlined {f g : Float → Float → Except RuntimeError Float}
    (same : ∀ x y, g x y = (f x y).mapError RuntimeError.unlined) (a b : Value) :
    arithmetic op 0 g a b = (arithmetic op line f a b).mapError RuntimeError.unlined := by
  cases a <;> cases b <;> try rfl
  rename_i x y
  simp only [arithmetic, same]
  cases f x y <;> rfl

theorem ordered_unlined (o : Comparison) (a b : Value) :
    ordered op 0 o a b = (ordered op line o a b).mapError RuntimeError.unlined := by
  cases a <;> cases b <;> rfl

theorem divide_unlined (x y : Float) :
    divide 0 x y = (divide line x y).mapError RuntimeError.unlined := by
  unfold divide
  split <;> rfl

theorem apply_unlined (op : Op) (line : Int) (a b : Value) :
    apply op 0 a b = (apply op line a b).mapError RuntimeError.unlined := by
  cases op with
  | sub => exact arithmetic_unlined (f := fun x y => .ok (x - y)) (fun _ _ => rfl) a b
  | mul => exact arithmetic_unlined (f := fun x y => .ok (x * y)) (fun _ _ => rfl) a b
  | div => exact arithmetic_unlined divide_unlined a b
  | gt | lt | ge | le => exact ordered_unlined _ a b
  | add | eq | and | or | unknown => rfl

end Value

theorem Expr.eval_unlined (env : Env) (e : Expr) :
    e.unlined.eval env = (e.eval env).mapError RuntimeError.unlined := by
  induction e with
  | num x => rfl
  | str s => rfl
  | ident name line =>
    simp only [unlined, eval]
    cases env.get? name <;> rfl
  | bin op left right line ihLeft ihRight =>
    simp only [unlined, eval, ihLeft, ihRight]
    cases left.eval env with
    | error e => rfl
    | ok a =>
      cases right.eval env with
      | error e => rfl
      | ok b => exact Value.apply_unlined op line a b
  | unknown label => rfl

/-! ## Places -/

namespace FrameKind

def unlined : FrameKind → FrameKind
  | branch => branch
  | loop test _ => loop test.unlined 0
  | count name counter last _ => count name counter last 0

end FrameKind

def Frame.unlined (f : Frame) : Frame :=
  { kind := f.kind.unlined, body := unlinedAll f.body, rest := unlinedAll f.rest }

def Prompt.unlined (p : Prompt) : Prompt :=
  { p with line := 0 }

def Control.unlined (c : Control) : Control where
  program := c.program.unlined
  rest := unlinedAll c.rest
  inner := c.inner.map Frame.unlined
  pending := c.pending.map Prompt.unlined
  spent := c.spent

def Task.unlined (t : Task) : Task :=
  { t with control := t.control.unlined }

theorem head?_unlinedAll (ss : List Stmt) : (unlinedAll ss).head? = ss.head?.map Stmt.unlined := by
  cases ss <;> simp [unlinedAll]

theorem tail_unlinedAll (ss : List Stmt) : (unlinedAll ss).tail = unlinedAll ss.tail := by
  cases ss <;> simp [unlinedAll]

theorem isEmpty_unlinedAll (ss : List Stmt) : (unlinedAll ss).isEmpty = ss.isEmpty := by
  cases ss <;> simp [unlinedAll]

theorem length_unlinedAll (ss : List Stmt) : (unlinedAll ss).length = ss.length := by
  induction ss with
  | nil => rw [unlinedAll]
  | cons s ss ih => rw [unlinedAll, List.length_cons, List.length_cons, ih]

namespace Control

@[simp] theorem next?_unlined (c : Control) : c.unlined.next? = c.next?.map Stmt.unlined := by
  rcases c with ⟨program, rest, inner, pending, spent⟩
  cases inner <;> exact head?_unlinedAll _

@[simp] theorem advance_unlined (c : Control) : c.unlined.advance = c.advance.unlined := by
  rcases c with ⟨program, rest, inner, pending, spent⟩
  cases inner <;> simp [advance, unlined, Frame.unlined, tail_unlinedAll]

@[simp] theorem isEmpty_inner_unlined (c : Control) :
    c.unlined.inner.isEmpty = c.inner.isEmpty := by
  simp [unlined]

@[simp] theorem completed_unlined (c : Control) : c.unlined.completed = c.completed := by
  rw [completed, completed, isEmpty_inner_unlined]
  exact congrArg _ (isEmpty_unlinedAll c.rest)

@[simp] theorem halted_unlined (c : Control) : c.unlined.halted = c.halted := by
  rw [halted, halted, completed_unlined]
  simp [unlined]

@[simp] theorem started_unlined (c : Control) : c.unlined.started = c.started := by
  simp [started, unlined, Program.unlined, length_unlinedAll]

@[simp] theorem cursor_unlined (c : Control) : c.unlined.cursor = c.cursor := by
  rw [cursor, cursor, isEmpty_inner_unlined, started_unlined]

end Control

/-! ## Ticks -/

namespace Task

variable {supply : Supply} {t t' : Task}

@[simp] theorem paid_unlined (t : Task) : t.unlined.paid = t.paid.unlined := rfl

@[simp] theorem assign_unlined (t : Task) (name : String) (v : Value) :
    t.unlined.assign name v = (t.assign name v).unlined := rfl

@[simp] theorem emit_unlined (t : Task) (v : Value) : t.unlined.emit v = (t.emit v).unlined := rfl

@[simp] theorem advance_unlined (t : Task) : t.unlined.advance = t.advance.unlined := by
  rw [advance, advance, unlined, unlined, Control.advance_unlined]

@[simp] theorem take_unlined (t : Task) (name : String) (v : Value) :
    t.unlined.take name v = (t.take name v).unlined := by
  simp only [take, unlined, Control.advance_unlined]
  rfl

@[simp] theorem choose_unlined (t : Task) (branch : List Stmt) :
    t.unlined.choose (unlinedAll branch) = (t.choose branch).unlined := by
  rw [choose, choose, Control.enterBranch, Control.enterBranch, isEmpty_unlinedAll]
  split <;> rfl

theorem reenter_unlined (t : Task) (test : Expr) (body : List Stmt) (line : Int)
    (v : Value) : t.unlined.reenter test.unlined (unlinedAll body) 0 v
      = (t.reenter test body line v).unlined := by
  unfold reenter
  split <;> rfl

theorem iterate_unlined (t : Task) (name : String) (body : List Stmt) (line : Int)
    (counter last : Float) : t.unlined.iterate name (unlinedAll body) 0 counter last
      = (t.iterate name body line counter last).unlined := by
  unfold iterate
  split <;> rfl

theorem eval_ok {e : Expr} {env : Env} {v : Value} (eval : e.eval env = .ok v) :
    e.unlined.eval env = .ok v := by
  rw [Expr.eval_unlined, eval]
  rfl

theorem eval_error {e : Expr} {env : Env} {error : RuntimeError}
    (eval : e.eval env = .error error) : e.unlined.eval env = .error error.unlined := by
  rw [Expr.eval_unlined, eval]
  rfl

/-- The next statement without its line is the one that the task without lines executes. -/
theorem next_some {s : Stmt} (next : t.control.next? = some s) :
    t.unlined.control.next? = some s.unlined := by
  show t.control.unlined.next? = some s.unlined
  rw [Control.next?_unlined, next]
  rfl

theorem next_none (next : t.control.next? = none) : t.unlined.control.next? = none := by
  show t.control.unlined.next? = none
  rw [Control.next?_unlined, next]
  rfl

theorem inner_cons {f : Frame} {outer : List Frame} (inner : t.control.inner = f :: outer) :
    t.unlined.control.inner = f.unlined :: outer.map Frame.unlined := by
  show t.control.inner.map Frame.unlined = _
  rw [inner, List.map_cons]

theorem kind_unlined {f : Frame} {k : FrameKind} (kind : f.kind = k) :
    f.unlined.kind = k.unlined := congrArg FrameKind.unlined kind

theorem Moves.unlined (h : Moves supply t t') : Moves supply t.unlined t'.unlined := by
  cases h with
  | assign next pays eval =>
    have move := Moves.assign (next_some next) pays (eval_ok eval)
    simpa using move
  | write next pays eval =>
    have move := Moves.write (next_some next) pays (eval_ok eval)
    simpa using move
  | take next pays answer =>
    have move := Moves.take (t := t.unlined) (next_some next) pays answer
    simpa using move
  | ask next pays unanswered => exact Moves.ask (t := t.unlined) (next_some next) pays unanswered
  | @cond test yes no line v next pays eval =>
    -- which branch is taken depends on the value only
    have branch : unlinedAll (if v.truthy then yes else no.getD [])
        = if v.truthy then unlinedAll yes else (no.map unlinedAll).getD [] := by
      split
      · rfl
      · cases no <;> rfl
    have next' : t.unlined.control.next?
        = some (.cond test.unlined (unlinedAll yes) (no.map unlinedAll) 0) := by
      rw [next_some next]
      cases no <;> rw [Stmt.unlined] <;> rfl
    have move := Moves.cond next' pays (eval_ok eval)
    rw [← branch] at move
    simpa using move
  | @loop test body line v next pays eval =>
    have move := Moves.loop (next_some next) pays (eval_ok eval)
    rw [paid_unlined, advance_unlined, reenter_unlined _ _ _ line] at move
    exact move
  | @count name first last body line a b next pays evalFirst evalLast =>
    have move := Moves.count (next_some next) pays (eval_ok evalFirst) (eval_ok evalLast)
    rw [paid_unlined, advance_unlined, iterate_unlined _ _ _ line] at move
    exact move
  | leave next inner kind =>
    exact Moves.leave (t := t.unlined) (next_none next) (inner_cons inner) (kind_unlined kind)
  | @again f outer test line v next inner kind pays eval =>
    have move := Moves.again (t := t.unlined) (next_none next) (inner_cons inner)
      (kind_unlined kind) pays (eval_ok eval)
    rw [← reenter_unlined]
    exact move
  | @recount f outer name counter last line next inner kind pays =>
    have move := Moves.recount (t := t.unlined) (next_none next) (inner_cons inner)
      (kind_unlined kind) pays
    rw [← iterate_unlined]
    exact move
  | idle next inner =>
    exact Moves.idle (t := t.unlined) (next_none next) (congrArg (List.map Frame.unlined) inner)

theorem operand?_unlined (s : Stmt) : s.unlined.operand? = s.operand?.map Expr.unlined := by
  cases s with
  | cond test yes no line => cases no <;> rw [Stmt.unlined] <;> rfl
  | assign | write | read | loop | count | unknown => rw [Stmt.unlined]; rfl

theorem line_unlined (s : Stmt) : s.unlined.line = 0 := by
  cases s with
  | cond test yes no line => cases no <;> rw [Stmt.unlined] <;> rfl
  | assign | write | read | loop | count | unknown => rw [Stmt.unlined]; rfl

theorem loopLine?_unlined (f : Frame) : f.unlined.loopLine? = f.loopLine?.map fun _ => 0 := by
  rcases f with ⟨kind, body, rest⟩
  cases kind <;> rfl

/-- What is counted is counted, on no line. -/
theorem toll?_unlined (t : Task) : t.unlined.toll? = t.toll?.map fun _ => 0 := by
  cases next : t.control.next? with
  | some s => simp only [toll?, next, next_some next, line_unlined, Option.map_some]
  | none =>
    cases inner : t.control.inner with
    | nil =>
      have empty : t.unlined.control.inner = [] := congrArg (List.map Frame.unlined) inner
      simp only [toll?, next, next_none next, inner, empty, Option.map_none]
    | cons f outer =>
      simp only [toll?, next, next_none next, inner, inner_cons inner, loopLine?_unlined]

theorem Fails.unlined {error : RuntimeError} (h : Fails supply t t' error) :
    Fails supply t.unlined t'.unlined error.unlined := by
  cases h with
  | spent toll broke =>
    have toll' := (toll?_unlined t).trans (congrArg (Option.map fun _ => 0) toll)
    exact Fails.spent (t := t.unlined) toll' broke
  | operand next pays operand eval =>
    have operand' := (operand?_unlined _).trans (congrArg (Option.map Expr.unlined) operand)
    exact Fails.operand (t := t.unlined) (next_some next) pays operand' (eval_error eval)
  | last next pays evalFirst evalLast =>
    exact Fails.last (t := t.unlined) (next_some next) pays (eval_ok evalFirst)
      (eval_error evalLast)
  | mismatch next pays evalFirst evalLast texts =>
    exact Fails.mismatch (t := t.unlined) (next_some next) pays (eval_ok evalFirst)
      (eval_ok evalLast) texts
  | unknown next pays => exact Fails.unknown (t := t.unlined) (next_some next) pays
  | test next inner kind pays eval =>
    exact Fails.test (t := t.unlined) (next_none next) (inner_cons inner) (kind_unlined kind) pays
      (eval_error eval)

end Task

/-! ## Drives and calls -/

def Snapshot.unlined (s : Snapshot) : Snapshot :=
  { s with line := 0 }

def Response.unlined (r : Response) : Response :=
  { snapshot := r.snapshot.unlined, fault := r.fault.map Fault.unlined }

namespace Drive

def unlined : Drive → Drive
  | reached t => reached t.unlined
  | failed t error => failed t.unlined error.unlined
  | outOfFuel t => outOfFuel t.unlined

end Drive

theorem Task.drive_unlined {until? : Control → Bool} (blind : ∀ c, until? c.unlined = until? c)
    (supply : Supply) (fuel : Nat) (t : Task) :
    t.unlined.drive supply until? fuel = (t.drive supply until? fuel).unlined := by
  induction fuel generalizing t with
  | zero => rfl
  | succ fuel ih =>
    rw [drive, drive, show until? t.unlined.control = until? t.control from blind t.control]
    by_cases done : until? t.control = true
    · rw [if_pos done, if_pos done]
      rfl
    · rw [if_neg done, if_neg done]
      rcases moves_or_fails supply t with ⟨t', moves⟩ | ⟨t', error, fails⟩
      · rw [tick_of_moves moves, tick_of_moves moves.unlined]
        exact ih t'
      · rw [tick_of_fails fails, tick_of_fails fails.unlined]
        rfl

theorem Frame.line?_unlined (f : Frame) : f.unlined.line? = f.line?.map fun _ => 0 := by
  rw [line?, line?, Task.loopLine?_unlined]
  show ((unlinedAll f.rest).head?.map Stmt.line).or _ = _
  rw [head?_unlinedAll]
  cases f.rest.head? with
  | none => rfl
  | some s => exact congrArg some (Task.line_unlined s)

/-- Without lines, the line at which execution goes on is zero. -/
theorem Control.line_unlined (c : Control) : c.unlined.line = 0 := by
  -- a block that shows a line before still shows one, now zero
  have inside : c.unlined.inner.findSome? Frame.line?
      = (c.inner.findSome? Frame.line?).map fun _ => 0 := by
    show (c.inner.map Frame.unlined).findSome? Frame.line? = _
    rw [List.findSome?_map, List.map_findSome?]
    exact congrArg (c.inner.findSome? ·) (funext Frame.line?_unlined)
  have outside : c.unlined.rest = unlinedAll c.rest := rfl
  rw [line, inside, outside]
  cases c.inner.findSome? Frame.line? with
  | some l => rfl
  | none =>
    cases c.rest with
    | nil => rw [unlinedAll]; rfl
    | cons s ss => rw [unlinedAll]; exact Task.line_unlined s

theorem Task.snapshot_unlined (t : Task) : t.unlined.snapshot = t.snapshot.unlined := by
  have pending : t.unlined.control.pending = t.control.pending.map Prompt.unlined := rfl
  have line : t.unlined.control.line = 0 := t.control.line_unlined
  have completed : t.unlined.control.completed = t.control.completed := t.control.completed_unlined
  have cursor : t.unlined.control.cursor = t.control.cursor := t.control.cursor_unlined
  simp only [snapshot, Snapshot.unlined, pending, line, completed, cursor, Snapshot.mk.injEq]
  cases t.control.pending <;> exact ⟨rfl, rfl, rfl, trivial, trivial, rfl⟩

namespace Machine

variable {until? : Control → Bool}

def unlined (m : Machine) : Machine :=
  { m with control := m.control.map Control.unlined }

theorem fuel_unlined (m : Machine) (t : Task) : m.unlined.fuel t.unlined = m.fuel t := by
  simp only [fuel, Task.ticksLeft]
  simp [unlined, Task.unlined, Control.unlined, supply]

theorem announce_unlined (m : Machine) (t : Task) :
    m.unlined.announce t.unlined = (m.announce t).unlined := by
  have pending : t.unlined.control.pending = t.control.pending.map Prompt.unlined := rfl
  rw [announce, announce, pending]
  cases t.control.pending with
  | none => rfl
  | some p =>
    show (if m.listening then _ else _) = _
    by_cases told : m.listening = true
    · simp only [if_pos told]
      rfl
    · simp only [if_neg told]

theorem conclude_unlined (m : Machine) (d : Drive) :
    m.unlined.conclude d.unlined = (m.conclude d).unlined := by
  cases d with
  | reached t => rw [Drive.unlined, conclude, conclude, announce_unlined]; rfl
  | failed t error => rfl
  | outOfFuel t => rfl

theorem response_unlined (d : Drive) : d.unlined.response = d.response.unlined := by
  cases d <;> simp only [Drive.unlined, Drive.response, Drive.task, Task.snapshot_unlined] <;> rfl

theorem drive_unlined (blind : ∀ c, until? c.unlined = until? c) (m : Machine) (t : Task) :
    m.unlined.drive until? t.unlined
      = (m.drive until? t).map unlined Response.unlined := by
  have same : m.unlined.supply = m.supply := rfl
  rw [drive_eq_conclude, drive_eq_conclude, fuel_unlined, same, Task.drive_unlined blind,
    conclude_unlined, response_unlined]
  rfl

theorem snapshot_unlined (m : Machine) : m.unlined.snapshot = m.snapshot.unlined := by
  have control : m.unlined.control = m.control.map Control.unlined := rfl
  rw [snapshot, snapshot, control]
  cases m.control with
  | none => rfl
  | some c => exact Task.snapshot_unlined ⟨c, m.memory⟩

theorem refuse_unlined (m : Machine) (cause : Misuse) (line : Int) :
    m.unlined.refuse cause 0 = (m.refuse cause line).map unlined Response.unlined := by
  rw [refuse, refuse, snapshot_unlined]
  rfl

theorem run_unlined (m : Machine) (program? : Option Program) :
    m.unlined.run (program?.map Program.unlined)
      = (m.run program?).map unlined Response.unlined := by
  have bound : (program?.map Program.unlined).or m.unlined.program?
      = (program?.or m.program?).map Program.unlined := by
    simp only [Machine.program?, unlined]
    cases program? <;> cases m.control <;> rfl
  rw [run, run, bound]
  cases program?.or m.program? with
  | none => exact refuse_unlined m .noProgram 0
  | some p => exact drive_unlined Control.halted_unlined m (.ofProgram p)

theorem stepDone_unlined (start : Nat) (c : Control) :
    stepDone start c.unlined = stepDone start c := by
  rw [stepDone, stepDone, Control.halted_unlined, Control.isEmpty_inner_unlined,
    Control.started_unlined]

theorem stepBound_unlined (m : Machine) (c : Control) (memory : Memory) :
    m.unlined.stepBound c.unlined memory
      = (m.stepBound c memory).map unlined Response.unlined := by
  have pending : c.unlined.pending = c.pending.map Prompt.unlined := rfl
  rw [stepBound, stepBound, pending]
  cases c.pending with
  | some p => exact refuse_unlined m (.awaitingInput p.name) p.line
  | none =>
    simp only [Option.map_none, Control.completed_unlined, Control.cursor_unlined]
    by_cases completed : c.completed = true
    · rw [if_pos completed, if_pos completed]
      show (_, Response.mk (Task.unlined ⟨c, memory⟩).snapshot none) = _
      rw [Task.snapshot_unlined]
      rfl
    · rw [if_neg completed, if_neg completed]
      exact drive_unlined (stepDone_unlined c.cursor) m
        ⟨{ c with pending := none, spent := 0 }, memory⟩

theorem step_unlined (m : Machine) (program? : Option Program) :
    m.unlined.step (program?.map Program.unlined)
      = (m.step program?).map unlined Response.unlined := by
  have control : m.unlined.control = m.control.map Control.unlined := rfl
  unfold step
  rw [control]
  cases m.control with
  | some c => exact stepBound_unlined m c m.memory
  | none =>
    cases program? with
    | none => exact refuse_unlined m .noProgram 0
    | some p => exact stepBound_unlined m (.ofProgram p) {}

end Machine

def Call.unlined : Call → Call
  | run program? => run (program?.map Program.unlined)
  | step program? => step (program?.map Program.unlined)
  | provide raw => provide raw
  | reset => reset

namespace Machine

/-- A machine without lines serves a call without lines as the machine serves the call. -/
theorem serve_unlined (m : Machine) (call : Call) :
    m.unlined.serve call.unlined = (m.serve call).map unlined (Option.map Response.unlined) := by
  cases call with
  | run program? => rw [Call.unlined, serve, run_unlined]; rfl
  | step program? => rw [Call.unlined, serve, step_unlined]; rfl
  | provide raw =>
    have control : (m.control.map Control.unlined).map Control.resume
        = (m.control.map Control.resume).map Control.unlined := by
      cases m.control <;> rfl
    simp only [Call.unlined, serve, provide, unlined, control, Prod.map, Option.map_none]
  | reset => rfl

/-- What a machine returns call by call, each time with the names it has asked for so far. -/
def transcript (m : Machine) : List Call → List (Option Response × Array String)
  | [] => []
  | call :: calls =>
    let (m', response?) := m.serve call
    (response?, m'.asked) :: m'.transcript calls

/-- The same but for the lines. -/
def unlinedTranscript (m : Machine) (calls : List Call) : List (Option Response × Array String) :=
  (m.transcript calls).map (Prod.map (Option.map Response.unlined) id)

theorem transcript_unlined (m : Machine) (calls : List Call) :
    m.unlined.transcript (calls.map Call.unlined) = m.unlinedTranscript calls := by
  rw [unlinedTranscript]
  induction calls generalizing m with
  | nil => rfl
  | cons call calls ih =>
    simp only [List.map_cons, transcript, serve_unlined, Prod.map, ih]
    rfl

end Machine

/-! ## Texts with the same words -/

/-- The call with `p` in the place of the program that it names, if it names one. -/
def Call.naming (p : Program) : Call → Call
  | run program? => run (program?.map fun _ => p)
  | step program? => step (program?.map fun _ => p)
  | provide raw => provide raw
  | reset => reset

theorem Call.naming_unlined {p p' : Program} (alike : p.unlined = p'.unlined) (call : Call) :
    (call.naming p).unlined = (call.naming p').unlined := by
  cases call with
  | run program? => cases program? <;> simp [naming, unlined, alike]
  | step program? => cases program? <;> simp [naming, unlined, alike]
  | provide raw => rfl
  | reset => rfl

/-- Two programs that differ in lines only answer every sequence of calls alike. -/
theorem Machine.transcript_alike {p p' : Program} (alike : p.unlined = p'.unlined) (m : Machine)
    (calls : List Call) :
    m.unlinedTranscript (calls.map (·.naming p))
      = m.unlinedTranscript (calls.map (·.naming p')) := by
  rw [← transcript_unlined, ← transcript_unlined, List.map_map, List.map_map]
  congr 2
  funext call
  exact Call.naming_unlined alike call

namespace Source

/-- Lines are for messages only. Let two texts have the same words, line breaks apart. Then both are
rejected with the same syntax error but for its line, or they have the same program but for its
lines, and a machine that is given the one or the other serves every sequence of calls alike: it
returns the same responses but for their lines and those of their faults, and has asked for the same
names. -/
theorem lines_are_diagnostic {source source' : String} {ts ts' : List Token}
    (scanned : tokens source = .ok ts) (scanned' : tokens source' = .ok ts')
    (same : Parse.words ts = Parse.words ts') :
    (∃ e e', program source = .error (.grammar e) ∧ program source' = .error (.grammar e') ∧
        e.unlined = e'.unlined) ∨
      ∃ p p', program source = .ok p ∧ program source' = .ok p' ∧ p.unlined = p'.unlined ∧
        ∀ (m : Machine) (calls : List Call),
          m.unlinedTranscript (calls.map (·.naming p))
            = m.unlinedTranscript (calls.map (·.naming p')) := by
  have parses : program source = programOfTokens ts := by rw [program, scanned]
  have parses' : program source' = programOfTokens ts' := by rw [program, scanned']
  rw [parses, parses']
  rcases programOfTokens_alike same with
    ⟨e, e', failed, failed', alike⟩ | ⟨p, p', parsed, parsed', alike⟩
  · exact .inl ⟨e, e', failed, failed', alike⟩
  · exact .inr ⟨p, p', parsed, parsed', alike, Machine.transcript_alike alike⟩

set_option maxRecDepth 4000 in
/-- A program on one line, and on three with an empty one between and a character that is
skipped. -/
theorem lines_are_diagnostic_two_layouts :
    ∃ p p', program "Début Lire x Fin" = .ok p ∧ program "Début\n\nLire x;\nFin" = .ok p' ∧
      p.statements.map Stmt.line = [1] ∧ p.unlined = p'.unlined ∧
      ∀ (m : Machine) (calls : List Call),
        m.unlinedTranscript (calls.map (·.naming p))
          = m.unlinedTranscript (calls.map (·.naming p')) := by
  let ts : List Token :=
    [{ kind := .debut, text := "Début", line := 1, column := 1 },
      { kind := .lire, text := "Lire", line := 1, column := 7 },
      { kind := .identifier, text := "x", line := 1, column := 12 },
      { kind := .fin, text := "Fin", line := 1, column := 14 }]
  let final : Token := { kind := .eof, line := 1, column := 17 }
  have scanned : tokens "Début Lire x Fin" = .ok (ts ++ [final]) := by with_unfolding_all rfl
  have scanned' : tokens "Début\n\nLire x;\nFin" = .ok
      [{ kind := .debut, text := "Début", line := 1, column := 1 },
        { kind := .newline, text := "\n", line := 1, column := 6 },
        { kind := .newline, text := "\n", line := 2, column := 1 },
        { kind := .lire, text := "Lire", line := 3, column := 1 },
        { kind := .identifier, text := "x", line := 3, column := 6 },
        { kind := .newline, text := "\n", line := 3, column := 8 },
        { kind := .fin, text := "Fin", line := 4, column := 1 },
        { kind := .eof, line := 4, column := 4 }] := by with_unfolding_all rfl
  have isWhole : Grammar.Whole ts [.read "x" 1] := .intro rfl (.cons (.read rfl rfl) .nil) rfl
  have parsed : (Parse.Stream.ofTokens (ts ++ [final])).parse
      = (.ok { statements := [.read "x" 1] }, { rest := [], final }) :=
    Parse.Stream.parse_eq_ok_iff.mpr ⟨rfl, ts, isWhole, rfl⟩
  have here : program "Début Lire x Fin" = .ok { statements := [.read "x" 1] } := by
    rw [program, scanned]
    show programOfTokens _ = _
    rw [programOfTokens, parsed]
  rcases lines_are_diagnostic scanned scanned' rfl with
    ⟨e, e', failed, -⟩ | ⟨p, p', ok, ok', alike⟩
  · rw [here] at failed
    cases failed
  · rw [here] at ok
    cases ok
    exact ⟨_, p', here, ok', rfl, alike⟩

end Source

end Pseudocode
