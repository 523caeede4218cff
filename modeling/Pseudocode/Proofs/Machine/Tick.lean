import Pseudocode.Machine.Basic

/-!
# What a tick can do

A tick is given by a nest of matches. This module opens it once: `Task.Moves` lists the ways in
which a tick can succeed, one rule for each kind of statement and one for each kind of block that
closes, and `Task.Fails` the ways in which it can fail. `tick_eq_ok_iff` and `tick_eq_failed_iff`
say that the lists are exact, and what is proved about runs elsewhere rests on them.

A loop enters its body in two places, at its statement and when the body is used up. Both do the
same to the task (`reenter`, `iterate`), so one rule of a structured semantics answers for both.
-/

namespace Pseudocode

/-- The expression that a statement evaluates before it does anything else. -/
def Stmt.operand? : Stmt → Option Expr
  | assign _ value _ => some value
  | write value _ => some value
  | cond test _ _ _ => some test
  | loop test _ _ => some test
  | count _ first _ _ _ => some first
  | read _ _ => none
  | unknown _ _ => none

namespace Task

/-- The task after one step was counted. -/
def paid (t : Task) : Task :=
  { t with control := { t.control with spent := t.control.spent + 1 } }

/-- The budget allows one more step. -/
def Affords (t : Task) (supply : Supply) : Prop :=
  ¬(0 < supply.budget ∧ supply.budget ≤ t.control.spent)

/-- The line that the next tick is counted on; none if it is not counted. -/
def toll? (t : Task) : Option Int :=
  match t.control.next?, t.control.inner with
  | some s, _ => some s.line
  | none, f :: _ => f.loopLine?
  | none, [] => none

/-- Takes the answer `v` into a variable. The count starts again. -/
def take (t : Task) (name : String) (v : Value) : Task :=
  { control := { t.control.advance with spent := 0 }
    memory := { t.memory with vars := t.memory.vars.set name v, read := t.memory.read + 1 } }

/-- Waits for an answer. The count starts again. -/
def ask (t : Task) (prompt : Prompt) : Task :=
  { t with control := t.control.suspend prompt }

/-- Opens the chosen branch of a conditional. -/
def choose (t : Task) (branch : List Stmt) : Task :=
  { t with control := t.control.enterBranch branch }

/-- Opens the body of a loop whose test gave `v`, if that is true. -/
def reenter (t : Task) (test : Expr) (body : List Stmt) (line : Int) (v : Value) : Task :=
  if v.truthy then t.enter (.ofBody (.loop test line) body) else t

/-- Opens the body of a counted loop for the round `counter`, if there is such a round. -/
def iterate (t : Task) (name : String) (body : List Stmt) (line : Int) (counter last : Float) :
    Task :=
  if counter ≤ last then
    (t.assign name (.num counter)).enter (.ofBody (.count name counter last line) body)
  else t

/-- The ways in which a tick succeeds. -/
inductive Moves (supply : Supply) (t : Task) : Task → Prop
  | assign {name : String} {value : Expr} {line : Int} {v : Value}
      (next : t.control.next? = some (.assign name value line)) (pays : t.Affords supply)
      (eval : value.eval t.memory.vars = .ok v) : Moves supply t (t.paid.advance.assign name v)
  | write {value : Expr} {line : Int} {v : Value}
      (next : t.control.next? = some (.write value line)) (pays : t.Affords supply)
      (eval : value.eval t.memory.vars = .ok v) : Moves supply t (t.paid.advance.emit v)
  | take {name : String} {line : Int} {v : Value}
      (next : t.control.next? = some (.read name line)) (pays : t.Affords supply)
      (answer : supply.answers[t.memory.read]? = some v) : Moves supply t (t.take name v)
  | ask {name : String} {line : Int}
      (next : t.control.next? = some (.read name line)) (pays : t.Affords supply)
      (unanswered : supply.answers[t.memory.read]? = none) :
      Moves supply t (t.ask ⟨name, line⟩)
  | cond {test : Expr} {yes : List Stmt} {no : Option (List Stmt)} {line : Int} {v : Value}
      (next : t.control.next? = some (.cond test yes no line)) (pays : t.Affords supply)
      (eval : test.eval t.memory.vars = .ok v) :
      Moves supply t (t.paid.advance.choose (if v.truthy then yes else no.getD []))
  | loop {test : Expr} {body : List Stmt} {line : Int} {v : Value}
      (next : t.control.next? = some (.loop test body line)) (pays : t.Affords supply)
      (eval : test.eval t.memory.vars = .ok v) :
      Moves supply t (t.paid.advance.reenter test body line v)
  | count {name : String} {first last : Expr} {body : List Stmt} {line : Int} {a b : Float}
      (next : t.control.next? = some (.count name first last body line)) (pays : t.Affords supply)
      (evalFirst : first.eval t.memory.vars = .ok (.num a))
      (evalLast : last.eval t.memory.vars = .ok (.num b)) :
      Moves supply t (t.paid.advance.iterate name body line a b)
  | leave {f : Frame} {outer : List Frame}
      (next : t.control.next? = none) (inner : t.control.inner = f :: outer)
      (kind : f.kind = .branch) : Moves supply t (t.withInner outer)
  | again {f : Frame} {outer : List Frame} {test : Expr} {line : Int} {v : Value}
      (next : t.control.next? = none) (inner : t.control.inner = f :: outer)
      (kind : f.kind = .loop test line) (pays : t.Affords supply)
      (eval : test.eval t.memory.vars = .ok v) :
      Moves supply t ((t.paid.withInner outer).reenter test f.body line v)
  | recount {f : Frame} {outer : List Frame} {name : String} {counter last : Float} {line : Int}
      (next : t.control.next? = none) (inner : t.control.inner = f :: outer)
      (kind : f.kind = .count name counter last line) (pays : t.Affords supply) :
      Moves supply t ((t.paid.withInner outer).iterate name f.body line (counter + 1) last)
  | idle (next : t.control.next? = none) (inner : t.control.inner = []) : Moves supply t t

/-- The ways in which a tick fails. It leaves the task as it was, but for the step that a tick
within the budget was counted for. -/
inductive Fails (supply : Supply) (t : Task) : Task → RuntimeError → Prop
  | spent {line : Int} (toll : t.toll? = some line) (broke : ¬t.Affords supply) :
      Fails supply t t (.budgetSpent supply.budget line)
  | operand {s : Stmt} {e : Expr} {error : RuntimeError}
      (next : t.control.next? = some s) (pays : t.Affords supply) (operand : s.operand? = some e)
      (eval : e.eval t.memory.vars = .error error) : Fails supply t t.paid error
  | last {name : String} {first last : Expr} {body : List Stmt} {line : Int} {a : Value}
      {error : RuntimeError}
      (next : t.control.next? = some (.count name first last body line)) (pays : t.Affords supply)
      (evalFirst : first.eval t.memory.vars = .ok a)
      (evalLast : last.eval t.memory.vars = .error error) : Fails supply t t.paid error
  | mismatch {name : String} {first last : Expr} {body : List Stmt} {line : Int} {a b : Value}
      (next : t.control.next? = some (.count name first last body line)) (pays : t.Affords supply)
      (evalFirst : first.eval t.memory.vars = .ok a) (evalLast : last.eval t.memory.vars = .ok b)
      (texts : a.isText ∨ b.isText) :
      Fails supply t t.paid (.typeMismatch "Pour" a.kind b.kind line)
  | unknown {label : String} {line : Int}
      (next : t.control.next? = some (.unknown label line)) (pays : t.Affords supply) :
      Fails supply t t.paid (.misuse (.unknownStatement label) line)
  | test {f : Frame} {outer : List Frame} {test : Expr} {line : Int} {error : RuntimeError}
      (next : t.control.next? = none) (inner : t.control.inner = f :: outer)
      (kind : f.kind = .loop test line) (pays : t.Affords supply)
      (eval : test.eval t.memory.vars = .error error) : Fails supply t t.paid error

/-! ## Opening the matches -/

variable {supply : Supply} {t t' : Task}

theorem charged_of_affords (pays : t.Affords supply) (line : Int) (k : Task → Tick) :
    t.charged supply line k = k t.paid := by
  unfold charged
  rw [if_neg pays]
  rfl

theorem charged_of_not_affords (broke : ¬t.Affords supply) (line : Int) (k : Task → Tick) :
    t.charged supply line k = .failed t (.budgetSpent supply.budget line) := by
  unfold charged
  rw [if_pos (Classical.not_not.mp broke)]

theorem evalThen_of_ok {e : Expr} {v : Value} (eval : e.eval t.memory.vars = .ok v)
    (k : Value → Tick) : t.evalThen e k = k v := by
  unfold evalThen
  rw [eval]

theorem evalThen_of_error {e : Expr} {error : RuntimeError}
    (eval : e.eval t.memory.vars = .error error) (k : Value → Tick) :
    t.evalThen e k = .failed t error := by
  unfold evalThen
  rw [eval]

theorem take_paid (t : Task) (name : String) (v : Value) : t.paid.take name v = t.take name v := by
  rcases t with ⟨⟨program, rest, inner, pending, spent⟩, memory⟩
  cases inner <;> rfl

theorem readAnswer_of_some {v : Value} (answer : supply.answers[t.memory.read]? = some v)
    (name : String) (line : Int) :
    t.readAnswer supply name line = t.take name v := by
  unfold readAnswer
  rw [answer]
  rfl

theorem readAnswer_of_none (unanswered : supply.answers[t.memory.read]? = none)
    (name : String) (line : Int) :
    t.readAnswer supply name line = t.ask ⟨name, line⟩ := by
  unfold readAnswer
  rw [unanswered]
  rfl

theorem tick_of_next {s : Stmt} (next : t.control.next? = some s) (supply : Supply) :
    t.tick supply = t.charged supply s.line fun t => t.execute supply s := by
  unfold tick
  rw [next]

theorem tick_of_close {f : Frame} {outer : List Frame} (next : t.control.next? = none)
    (inner : t.control.inner = f :: outer) (supply : Supply) :
    t.tick supply = t.close supply f outer := by
  unfold tick
  rw [next]
  simp only [inner]

theorem tick_of_completed (next : t.control.next? = none)
    (inner : t.control.inner = []) (supply : Supply) : t.tick supply = .ok t := by
  unfold tick
  rw [next]
  simp only [inner]

/-! ## The lists are exact -/

theorem tick_of_moves (h : Moves supply t t') :
    t.tick supply = .ok t' := by
  cases h with
  | assign next pays eval =>
    rw [tick_of_next next, charged_of_affords pays]
    exact evalThen_of_ok (t := t.paid) eval _
  | write next pays eval =>
    rw [tick_of_next next, charged_of_affords pays]
    exact evalThen_of_ok (t := t.paid) eval _
  | take next pays answer =>
    -- the answer starts the count again, so the step just counted does not show
    rw [tick_of_next next, charged_of_affords pays, execute,
      readAnswer_of_some (t := t.paid) answer, take_paid]
  | ask next pays unanswered =>
    rw [tick_of_next next, charged_of_affords pays, execute,
      readAnswer_of_none (t := t.paid) unanswered]
    rfl
  | cond next pays eval =>
    rw [tick_of_next next, charged_of_affords pays]
    exact evalThen_of_ok (t := t.paid) eval _
  | @loop test body line v next pays eval =>
    rw [tick_of_next next, charged_of_affords pays, execute,
      evalThen_of_ok (t := t.paid) eval, reenter]
    by_cases hv : v.truthy = true
    · rw [if_pos hv, if_pos hv]
    · rw [if_neg hv, if_neg hv]
  | @count name first last body line a b next pays evalFirst evalLast =>
    rw [tick_of_next next, charged_of_affords pays, execute,
      evalThen_of_ok (t := t.paid) evalFirst, evalThen_of_ok (t := t.paid) evalLast, startCount,
      iterate]
    by_cases hle : a ≤ b
    · rw [if_pos hle, if_pos hle]
    · rw [if_neg hle, if_neg hle]
  | leave next inner kind =>
    rw [tick_of_close next inner, close, kind]
  | @again f outer test line v next inner kind pays eval =>
    rw [tick_of_close next inner, close, kind]
    simp only []
    rw [charged_of_affords pays, evalThen_of_ok (t := t.paid) eval, reenter]
    by_cases hv : v.truthy = true
    · rw [if_pos hv, if_pos hv, Frame.restart, kind]
      rfl
    · rw [if_neg hv, if_neg hv]
  | @recount f outer name counter last line next inner kind pays =>
    rw [tick_of_close next inner, close, kind]
    simp only []
    rw [charged_of_affords pays, iterate]
    by_cases hle : counter + 1 ≤ last
    · rw [if_pos hle, if_pos hle]
      rfl
    · rw [if_neg hle, if_neg hle]
  | idle next inner => exact tick_of_completed next inner supply

theorem tick_of_fails {error : RuntimeError} (h : Fails supply t t' error) :
    t.tick supply = .failed t' error := by
  cases h with
  | @spent line toll broke =>
    -- counted is a statement, or the test or the number of a loop whose body is used up
    cases next : t.control.next? with
    | some s =>
      rw [toll?, next] at toll
      cases toll
      rw [tick_of_next next, charged_of_not_affords broke]
    | none =>
      cases inner : t.control.inner with
      | nil => simp [toll?, next, inner] at toll
      | cons f outer =>
        simp only [toll?, next, inner, Frame.loopLine?] at toll
        rw [tick_of_close next inner, close]
        split <;> rename_i kind <;> rw [kind] at toll
        · cases toll
        · cases toll
          exact charged_of_not_affords broke _ _
        · cases toll
          exact charged_of_not_affords broke _ _
  | @operand s e _ next pays operand eval =>
    rw [tick_of_next next, charged_of_affords pays]
    cases s <;> cases operand <;> exact evalThen_of_error (t := t.paid) eval _
  | last next pays evalFirst evalLast =>
    rw [tick_of_next next, charged_of_affords pays, execute,
      evalThen_of_ok (t := t.paid) evalFirst]
    exact evalThen_of_error (t := t.paid) evalLast _
  | @mismatch _ _ _ _ _ a b next pays evalFirst evalLast texts =>
    rw [tick_of_next next, charged_of_affords pays, execute,
      evalThen_of_ok (t := t.paid) evalFirst, evalThen_of_ok (t := t.paid) evalLast]
    cases a <;> cases b <;> first | rfl | simp [Value.isText, Value.kind] at texts
  | unknown next pays => rw [tick_of_next next, charged_of_affords pays, execute]
  | test next inner kind pays eval =>
    rw [tick_of_close next inner, close, kind]
    simp only []
    rw [charged_of_affords pays, evalThen_of_error (t := t.paid) eval]

/-- A counted tick beyond the budget fails. -/
private theorem fails_of_not_affords {line : Int} (toll : t.toll? = some line)
    (broke : ¬t.Affords supply) :
    (∃ t', Moves supply t t') ∨ ∃ t' error, Fails supply t t' error :=
  .inr ⟨t, _, .spent toll broke⟩

/-- A statement within the budget succeeds or fails, by its kind. -/
private theorem moves_or_fails_of_next {s : Stmt} (next : t.control.next? = some s)
    (pays : t.Affords supply) :
    (∃ t', Moves supply t t') ∨ ∃ t' error, Fails supply t t' error := by
  cases s with
  | assign name value line =>
    cases eval : value.eval t.memory.vars with
    | ok v => exact .inl ⟨_, .assign next pays eval⟩
    | error error => exact .inr ⟨_, _, .operand next pays rfl eval⟩
  | write value line =>
    cases eval : value.eval t.memory.vars with
    | ok v => exact .inl ⟨_, .write next pays eval⟩
    | error error => exact .inr ⟨_, _, .operand next pays rfl eval⟩
  | read name line =>
    cases answer : supply.answers[t.memory.read]? with
    | some v => exact .inl ⟨_, .take next pays answer⟩
    | none => exact .inl ⟨_, .ask next pays answer⟩
  | cond test yes no line =>
    cases eval : test.eval t.memory.vars with
    | ok v => exact .inl ⟨_, .cond next pays eval⟩
    | error error => exact .inr ⟨_, _, .operand next pays rfl eval⟩
  | loop test body line =>
    cases eval : test.eval t.memory.vars with
    | ok v => exact .inl ⟨_, .loop next pays eval⟩
    | error error => exact .inr ⟨_, _, .operand next pays rfl eval⟩
  | count name first last body line =>
    cases evalFirst : first.eval t.memory.vars with
    | error error => exact .inr ⟨_, _, .operand next pays rfl evalFirst⟩
    | ok a =>
      cases evalLast : last.eval t.memory.vars with
      | error error => exact .inr ⟨_, _, .last next pays evalFirst evalLast⟩
      | ok b =>
        cases a with
        | text s => exact .inr ⟨_, _, .mismatch next pays evalFirst evalLast (.inl rfl)⟩
        | num a =>
          cases b with
          | text s => exact .inr ⟨_, _, .mismatch next pays evalFirst evalLast (.inr rfl)⟩
          | num b => exact .inl ⟨_, .count next pays evalFirst evalLast⟩
  | unknown label line => exact .inr ⟨_, _, .unknown next pays⟩

/-- Every tick is one of the moves or one of the failures. -/
theorem moves_or_fails (supply : Supply) (t : Task) :
    (∃ t', Moves supply t t') ∨ ∃ t' error, Fails supply t t' error := by
  cases next : t.control.next? with
  | some s =>
    by_cases pays : t.Affords supply
    · exact moves_or_fails_of_next next pays
    · exact fails_of_not_affords (by rw [toll?, next]) pays
  | none =>
    cases inner : t.control.inner with
    | nil => exact .inl ⟨_, .idle next inner⟩
    | cons f outer =>
      cases kind : f.kind with
      | branch => exact .inl ⟨_, .leave next inner kind⟩
      | loop test line =>
        by_cases pays : t.Affords supply
        · cases eval : test.eval t.memory.vars with
          | ok v => exact .inl ⟨_, .again next inner kind pays eval⟩
          | error error => exact .inr ⟨_, _, .test next inner kind pays eval⟩
        · have toll : t.toll? = some line := by
            simp only [toll?, next, inner, Frame.loopLine?, kind]
          exact fails_of_not_affords toll pays
      | count name counter last line =>
        by_cases pays : t.Affords supply
        · exact .inl ⟨_, .recount next inner kind pays⟩
        · have toll : t.toll? = some line := by
            simp only [toll?, next, inner, Frame.loopLine?, kind]
          exact fails_of_not_affords toll pays

/-- A tick succeeds exactly by one of the moves. -/
theorem tick_eq_ok_iff : t.tick supply = .ok t' ↔ Moves supply t t' := by
  refine ⟨fun h => ?_, tick_of_moves⟩
  rcases moves_or_fails supply t with ⟨u, hu⟩ | ⟨u, error, hu⟩
  · rw [tick_of_moves hu] at h
    cases h
    exact hu
  · rw [tick_of_fails hu] at h
    cases h

/-- A tick fails exactly by one of the failures. -/
theorem tick_eq_failed_iff {error : RuntimeError} :
    t.tick supply = .failed t' error ↔ Fails supply t t' error := by
  refine ⟨fun h => ?_, tick_of_fails⟩
  rcases moves_or_fails supply t with ⟨u, hu⟩ | ⟨u, error, hu⟩
  · rw [tick_of_moves hu] at h
    cases h
  · rw [tick_of_fails hu] at h
    cases h
    exact hu

/-- A tick makes one move. -/
theorem Moves.unique {t₁ t₂ : Task} (h₁ : Moves supply t t₁) (h₂ : Moves supply t t₂) :
    t₁ = t₂ := by
  have h := (tick_of_moves h₁).symm.trans (tick_of_moves h₂)
  cases h
  rfl

/-- A tick fails in one way. -/
theorem Fails.unique {t₁ t₂ : Task} {e₁ e₂ : RuntimeError}
    (h₁ : Fails supply t t₁ e₁) (h₂ : Fails supply t t₂ e₂) : t₁ = t₂ ∧ e₁ = e₂ := by
  have h := (tick_of_fails h₁).symm.trans (tick_of_fails h₂)
  cases h
  exact ⟨rfl, rfl⟩

/-- A tick that fails makes no move. -/
theorem Fails.not_moves {t₁ t₂ : Task} {error : RuntimeError}
    (h₁ : Fails supply t t₁ error) (h₂ : Moves supply t t₂) : False := by
  have h := (tick_of_fails h₁).symm.trans (tick_of_moves h₂)
  cases h

/-- A counted tick that succeeds is within the budget. -/
theorem Moves.affords {line : Int} (h : Moves supply t t') (toll : t.toll? = some line) :
    t.Affords supply :=
  Classical.byContradiction fun broke => (Fails.spent toll broke).not_moves h

/-! ## Halting -/

theorem completed_of_next {s : Stmt} (next : t.control.next? = some s) :
    t.control.completed = false := by
  unfold Control.next? at next
  unfold Control.completed
  cases inner : t.control.inner with
  | cons f outer => rfl
  | nil =>
    rw [inner] at next
    cases rest : t.control.rest with
    | nil => rw [rest] at next; cases next
    | cons s ss => rfl

theorem halted_of_completed (completed : t.control.completed = true) :
    t.control.halted = true := by
  rw [Control.halted, completed, Bool.true_or]

theorem halted_ask (t : Task) (prompt : Prompt) : (t.ask prompt).control.halted = true := by
  simp [ask, Control.halted, Control.suspend]

theorem pending_advance (t : Task) : t.advance.control.pending = t.control.pending := by
  rcases t with ⟨⟨program, rest, inner, pending, spent⟩, memory⟩
  cases inner <;> rfl

theorem pending_choose (t : Task) (branch : List Stmt) :
    (t.choose branch).control.pending = t.control.pending := by
  cases branch <;> rfl

theorem pending_reenter (t : Task) (test : Expr) (body : List Stmt) (line : Int) (v : Value) :
    (t.reenter test body line v).control.pending = t.control.pending := by
  unfold reenter
  split <;> rfl

theorem pending_iterate (t : Task) (name : String) (body : List Stmt) (line : Int)
    (counter last : Float) :
    (t.iterate name body line counter last).control.pending = t.control.pending := by
  unfold iterate
  split <;> rfl

/-- A tick that fails changes neither the variables nor the output. -/
theorem Fails.memory_eq {error : RuntimeError} (h : Fails supply t t' error) :
    t'.memory = t.memory := by
  cases h <;> rfl

/-- Only a question without an answer makes a program wait. -/
theorem Moves.pending_eq_or_ask (h : Moves supply t t') :
    t'.control.pending = t.control.pending ∨
      ∃ name line, t.control.next? = some (.read name line) ∧
        supply.answers[t.memory.read]? = none ∧ t' = t.ask ⟨name, line⟩ := by
  cases h with
  | assign next pays eval => exact .inl (pending_advance t.paid)
  | write next pays eval => exact .inl (pending_advance t.paid)
  | take next pays answer => exact .inl (pending_advance t)
  | ask next pays unanswered => exact .inr ⟨_, _, next, unanswered, rfl⟩
  | cond next pays eval => exact .inl ((pending_choose ..).trans (pending_advance t.paid))
  | loop next pays eval => exact .inl ((pending_reenter ..).trans (pending_advance t.paid))
  | count next pays evalFirst evalLast =>
    exact .inl ((pending_iterate ..).trans (pending_advance t.paid))
  | leave next inner kind => exact .inl rfl
  | again next inner kind pays eval => exact .inl (pending_reenter ..)
  | recount next inner kind pays => exact .inl (pending_iterate ..)
  | idle next inner => exact .inl rfl

end Task

/-- A program that has not halted is not completed and does not wait. -/
theorem Control.open_of_going {c : Control} (going : c.halted = false) :
    c.completed = false ∧ c.pending = none := by
  obtain ⟨open', free⟩ := Bool.or_eq_false_iff.mp going
  exact ⟨open', by simpa using free⟩

/-- Where a drive goes on that stops when the program halts, the program has not halted. -/
theorem Control.not_halted_of_going {until? : Control → Bool}
    (stops : ∀ c : Control, c.halted = true → until? c = true) {c : Control}
    (going : until? c = false) : c.halted = false := by
  cases halted : c.halted with
  | false => rfl
  | true =>
    rw [stops c halted] at going
    cases going

end Pseudocode
