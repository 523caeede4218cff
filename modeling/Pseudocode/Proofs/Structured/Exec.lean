import Pseudocode.Value.Eval
import Pseudocode.Machine.Control

/-!
# Structured execution

The meaning of statements without frames, places or counts: a relation between what is to be
executed, the store before, and the outcome. A list of statements is executed in order and left at
the first statement that does not end. A loop is executed round by round (`Work.loop`), and so is a
counted loop, whose counter is kept apart from its variable (`Work.rounds`).
-/

namespace Pseudocode.Structured

/-- The variables, the values written so far and the answers still to read. -/
structure Store where
  vars : Env := .empty
  output : List Value := []
  inputs : List Value := []

namespace Store

def assign (σ : Store) (name : String) (v : Value) : Store :=
  { σ with vars := σ.vars.set name v }

def emit (σ : Store) (v : Value) : Store :=
  { σ with output := σ.output ++ [v] }

end Store

/-- How an execution ends. -/
inductive Outcome where
  | done (σ : Store)
  /-- It waits for an answer. -/
  | asks (prompt : Prompt) (σ : Store)
  | fails (error : RuntimeError) (σ : Store)

/-- The execution was left before its end. -/
def Outcome.Left : Outcome → Prop
  | done _ => False
  | asks _ _ => True
  | fails _ _ => True

/-- What can be executed. -/
inductive Work where
  | block (ss : List Stmt)
  | stmt (s : Stmt)
  /-- The rounds of a loop, from its test on. -/
  | loop (test : Expr) (body : List Stmt)
  /-- The rounds of a counted loop from `counter` on. -/
  | rounds (name : String) (body : List Stmt) (counter last : Float)

/-- Executing `w` in the store `σ` ends as `o`. -/
inductive Exec : Work → Store → Outcome → Prop
  | nil {σ : Store} : Exec (.block []) σ (.done σ)
  | cons {s : Stmt} {ss : List Stmt} {σ σ₁ : Store} {o : Outcome}
      (head : Exec (.stmt s) σ (.done σ₁)) (tail : Exec (.block ss) σ₁ o) :
      Exec (.block (s :: ss)) σ o
  | leave {s : Stmt} {ss : List Stmt} {σ : Store} {o : Outcome}
      (head : Exec (.stmt s) σ o) (left : o.Left) : Exec (.block (s :: ss)) σ o
  | assign {name : String} {value : Expr} {line : Int} {σ : Store} {v : Value}
      (eval : value.eval σ.vars = .ok v) :
      Exec (.stmt (.assign name value line)) σ (.done (σ.assign name v))
  | assignFails {name : String} {value : Expr} {line : Int} {σ : Store} {error : RuntimeError}
      (eval : value.eval σ.vars = .error error) :
      Exec (.stmt (.assign name value line)) σ (.fails error σ)
  | write {value : Expr} {line : Int} {σ : Store} {v : Value}
      (eval : value.eval σ.vars = .ok v) : Exec (.stmt (.write value line)) σ (.done (σ.emit v))
  | writeFails {value : Expr} {line : Int} {σ : Store} {error : RuntimeError}
      (eval : value.eval σ.vars = .error error) :
      Exec (.stmt (.write value line)) σ (.fails error σ)
  | read {name : String} {line : Int} {σ : Store} {v : Value} {vs : List Value}
      (inputs : σ.inputs = v :: vs) :
      Exec (.stmt (.read name line)) σ (.done { σ.assign name v with inputs := vs })
  | ask {name : String} {line : Int} {σ : Store} (inputs : σ.inputs = []) :
      Exec (.stmt (.read name line)) σ (.asks ⟨name, line⟩ σ)
  | yes {test : Expr} {yes : List Stmt} {no : Option (List Stmt)} {line : Int} {σ : Store}
      {v : Value} {o : Outcome} (eval : test.eval σ.vars = .ok v) (holds : v.truthy = true)
      (branch : Exec (.block yes) σ o) : Exec (.stmt (.cond test yes no line)) σ o
  | no {test : Expr} {yes : List Stmt} {no : Option (List Stmt)} {line : Int} {σ : Store}
      {v : Value} {o : Outcome} (eval : test.eval σ.vars = .ok v) (holds : v.truthy = false)
      (branch : Exec (.block (no.getD [])) σ o) : Exec (.stmt (.cond test yes no line)) σ o
  | condFails {test : Expr} {yes : List Stmt} {no : Option (List Stmt)} {line : Int} {σ : Store}
      {error : RuntimeError} (eval : test.eval σ.vars = .error error) :
      Exec (.stmt (.cond test yes no line)) σ (.fails error σ)
  | loop {test : Expr} {body : List Stmt} {line : Int} {σ : Store} {o : Outcome}
      (rounds : Exec (.loop test body) σ o) : Exec (.stmt (.loop test body line)) σ o
  | loopEnds {test : Expr} {body : List Stmt} {σ : Store} {v : Value}
      (eval : test.eval σ.vars = .ok v) (holds : v.truthy = false) :
      Exec (.loop test body) σ (.done σ)
  | loopRound {test : Expr} {body : List Stmt} {σ σ₁ : Store} {v : Value} {o : Outcome}
      (eval : test.eval σ.vars = .ok v) (holds : v.truthy = true)
      (round : Exec (.block body) σ (.done σ₁)) (later : Exec (.loop test body) σ₁ o) :
      Exec (.loop test body) σ o
  | loopLeft {test : Expr} {body : List Stmt} {σ : Store} {v : Value} {o : Outcome}
      (eval : test.eval σ.vars = .ok v) (holds : v.truthy = true)
      (round : Exec (.block body) σ o) (left : o.Left) : Exec (.loop test body) σ o
  | loopFails {test : Expr} {body : List Stmt} {σ : Store} {error : RuntimeError}
      (eval : test.eval σ.vars = .error error) : Exec (.loop test body) σ (.fails error σ)
  | count {name : String} {first last : Expr} {body : List Stmt} {line : Int} {σ : Store}
      {a b : Float} {o : Outcome} (evalFirst : first.eval σ.vars = .ok (.num a))
      (evalLast : last.eval σ.vars = .ok (.num b)) (rounds : Exec (.rounds name body a b) σ o) :
      Exec (.stmt (.count name first last body line)) σ o
  | countMismatch {name : String} {first last : Expr} {body : List Stmt} {line : Int} {σ : Store}
      {a b : Value} (evalFirst : first.eval σ.vars = .ok a) (evalLast : last.eval σ.vars = .ok b)
      (texts : a.isText ∨ b.isText) :
      Exec (.stmt (.count name first last body line)) σ
        (.fails (.typeMismatch "Pour" a.kind b.kind line) σ)
  | firstFails {name : String} {first last : Expr} {body : List Stmt} {line : Int} {σ : Store}
      {error : RuntimeError} (evalFirst : first.eval σ.vars = .error error) :
      Exec (.stmt (.count name first last body line)) σ (.fails error σ)
  | lastFails {name : String} {first last : Expr} {body : List Stmt} {line : Int} {σ : Store}
      {a : Value} {error : RuntimeError} (evalFirst : first.eval σ.vars = .ok a)
      (evalLast : last.eval σ.vars = .error error) :
      Exec (.stmt (.count name first last body line)) σ (.fails error σ)
  | roundsEnd {name : String} {body : List Stmt} {counter last : Float} {σ : Store}
      (above : ¬counter ≤ last) : Exec (.rounds name body counter last) σ (.done σ)
  | roundsNext {name : String} {body : List Stmt} {counter last : Float} {σ σ₁ : Store}
      {o : Outcome} (within : counter ≤ last)
      (round : Exec (.block body) (σ.assign name (.num counter)) (.done σ₁))
      (later : Exec (.rounds name body (counter + 1) last) σ₁ o) :
      Exec (.rounds name body counter last) σ o
  | roundsLeft {name : String} {body : List Stmt} {counter last : Float} {σ : Store}
      {o : Outcome} (within : counter ≤ last)
      (round : Exec (.block body) (σ.assign name (.num counter)) o) (left : o.Left) :
      Exec (.rounds name body counter last) σ o
  | unknown {label : String} {line : Int} {σ : Store} :
      Exec (.stmt (.unknown label line)) σ (.fails (.misuse (.unknownStatement label) line) σ)

/-- Goes on with `k` if an execution is done, and ends like it otherwise. -/
def Outcome.andThen (o : Outcome) (k : Store → Outcome → Prop) (o' : Outcome) : Prop :=
  match o with
  | done σ => k σ o'
  | asks prompt σ => o' = asks prompt σ
  | fails error σ => o' = fails error σ

theorem Outcome.andThen_of_left {o : Outcome} (left : o.Left) {k : Store → Outcome → Prop}
    {o' : Outcome} : o.andThen k o' ↔ o' = o := by
  cases o with
  | done σ => exact left.elim
  | asks prompt σ => exact Iff.rfl
  | fails error σ => exact Iff.rfl

/-- An execution is done or left. -/
theorem Outcome.done_or_left (o : Outcome) : (∃ σ, o = done σ) ∨ o.Left := by
  cases o with
  | done σ => exact .inl ⟨σ, rfl⟩
  | asks prompt σ => exact .inr trivial
  | fails error σ => exact .inr trivial

end Pseudocode.Structured
