import Pseudocode.Proofs.Machine.Tick

/-!
# The step count

The number of steps counted so far decides only whether a tick is allowed. A task whose count was
set to another number (`withSpent`) makes the same moves with the same effects, as long as it can
afford them, and stays behind if it was behind (`Moves.withSpent`, `Fails.withSpent`). What can be
seen of a task does not show the count.

The count also bounds a run: under a positive budget every tick lowers `ticksLeft`, unless it
suspends the program.
-/

namespace Pseudocode

namespace Task

/-- The task with its count set to `k`. -/
def withSpent (t : Task) (k : Nat) : Task :=
  { t with control := { t.control with spent := k } }

@[simp] theorem spent_withSpent (t : Task) (k : Nat) : (t.withSpent k).control.spent = k := rfl

@[simp] theorem withSpent_withSpent (t : Task) (k j : Nat) :
    (t.withSpent k).withSpent j = t.withSpent j := rfl

/-- What can be seen of a task does not show its count. -/
@[simp] theorem snapshot_withSpent (t : Task) (k : Nat) :
    (t.withSpent k).snapshot = t.snapshot := rfl

/-! ## The operations of a tick commute with setting the count -/

@[simp] theorem paid_withSpent (t : Task) (k : Nat) :
    (t.withSpent k).paid = t.paid.withSpent (k + 1) := rfl

@[simp] theorem assign_withSpent (t : Task) (name : String) (v : Value) (k : Nat) :
    (t.withSpent k).assign name v = (t.assign name v).withSpent k := rfl

@[simp] theorem emit_withSpent (t : Task) (v : Value) (k : Nat) :
    (t.withSpent k).emit v = (t.emit v).withSpent k := rfl

@[simp] theorem withInner_withSpent (t : Task) (inner : List Frame) (k : Nat) :
    (t.withSpent k).withInner inner = (t.withInner inner).withSpent k := rfl

@[simp] theorem advance_withSpent (t : Task) (k : Nat) :
    (t.withSpent k).advance = t.advance.withSpent k := by
  rcases t with ⟨⟨program, rest, inner, pending, spent⟩, memory⟩
  cases inner <;> rfl

@[simp] theorem choose_withSpent (t : Task) (branch : List Stmt) (k : Nat) :
    (t.withSpent k).choose branch = (t.choose branch).withSpent k := by
  cases branch <;> rfl

@[simp] theorem reenter_withSpent (t : Task) (test : Expr) (body : List Stmt) (line : Int)
    (v : Value) (k : Nat) :
    (t.withSpent k).reenter test body line v = (t.reenter test body line v).withSpent k := by
  unfold reenter
  split <;> rfl

@[simp] theorem iterate_withSpent (t : Task) (name : String) (body : List Stmt) (line : Int)
    (counter last : Float) (k : Nat) :
    (t.withSpent k).iterate name body line counter last
      = (t.iterate name body line counter last).withSpent k := by
  unfold iterate
  split <;> rfl

@[simp] theorem take_withSpent (t : Task) (name : String) (v : Value) (k : Nat) :
    (t.withSpent k).take name v = t.take name v := by
  rcases t with ⟨⟨program, rest, inner, pending, spent⟩, memory⟩
  cases inner <;> rfl

@[simp] theorem withSpent_take (t : Task) (name : String) (v : Value) :
    (t.take name v).withSpent 0 = t.take name v := rfl

@[simp] theorem ask_withSpent (t : Task) (prompt : Prompt) (k : Nat) :
    (t.withSpent k).ask prompt = t.ask prompt := rfl

@[simp] theorem withSpent_ask (t : Task) (prompt : Prompt) :
    (t.ask prompt).withSpent 0 = t.ask prompt := rfl

/-! ## The count after an operation -/

@[simp] theorem spent_paid (t : Task) : t.paid.control.spent = t.control.spent + 1 := rfl

@[simp] theorem spent_assign (t : Task) (name : String) (v : Value) :
    (t.assign name v).control.spent = t.control.spent := rfl

@[simp] theorem spent_emit (t : Task) (v : Value) :
    (t.emit v).control.spent = t.control.spent := rfl

@[simp] theorem spent_withInner (t : Task) (inner : List Frame) :
    (t.withInner inner).control.spent = t.control.spent := rfl

@[simp] theorem spent_advance (t : Task) : t.advance.control.spent = t.control.spent := by
  rcases t with ⟨⟨program, rest, inner, pending, spent⟩, memory⟩
  cases inner <;> rfl

@[simp] theorem spent_choose (t : Task) (branch : List Stmt) :
    (t.choose branch).control.spent = t.control.spent := by
  cases branch <;> rfl

@[simp] theorem spent_reenter (t : Task) (test : Expr) (body : List Stmt) (line : Int) (v : Value) :
    (t.reenter test body line v).control.spent = t.control.spent := by
  unfold reenter
  split <;> rfl

@[simp] theorem spent_iterate (t : Task) (name : String) (body : List Stmt) (line : Int)
    (counter last : Float) :
    (t.iterate name body line counter last).control.spent = t.control.spent := by
  unfold iterate
  split <;> rfl

/-! ## Moves and failures with another count -/

/-- A task with a smaller count can afford what the task can afford. -/
theorem Affords.withSpent {t : Task} {supply : Supply} (pays : t.Affords supply) {k : Nat}
    (hk : k ≤ t.control.spent) : (t.withSpent k).Affords supply := by
  intro ⟨hpos, hle⟩
  exact pays ⟨hpos, Nat.le_trans hle hk⟩

/-- Without a limit every tick can be afforded. -/
theorem affords_of_unlimited {supply : Supply} (unlimited : supply.budget = 0) (t : Task) :
    t.Affords supply := by
  intro ⟨hpos, _⟩
  omega

/-- A move can be made with another count that affords it, with the same effect. A count that is
not ahead stays so. -/
theorem Moves.withSpent {supply : Supply} {t t' : Task} (h : Moves supply t t') {k : Nat}
    (afford : t.Affords supply → (t.withSpent k).Affords supply) :
    ∃ k', Moves supply (t.withSpent k) (t'.withSpent k') ∧
      (k ≤ t.control.spent → k' ≤ t'.control.spent) := by
  cases h with
  | assign next pays eval =>
    have move := Moves.assign (t := t.withSpent k) next (afford pays) eval
    exact ⟨k + 1, by simpa using move, by simp⟩
  | write next pays eval =>
    have move := Moves.write (t := t.withSpent k) next (afford pays) eval
    exact ⟨k + 1, by simpa using move, by simp⟩
  | take next pays answer =>
    -- an answer starts the count again, whatever it was before
    have move := Moves.take (t := t.withSpent k) next (afford pays) answer
    exact ⟨0, by simpa using move, by simp⟩
  | ask next pays unanswered =>
    have move := Moves.ask (t := t.withSpent k) next (afford pays) unanswered
    exact ⟨0, by simpa using move, by simp⟩
  | cond next pays eval =>
    have move := Moves.cond (t := t.withSpent k) next (afford pays) eval
    exact ⟨k + 1, by simpa using move, by simp⟩
  | loop next pays eval =>
    have move := Moves.loop (t := t.withSpent k) next (afford pays) eval
    exact ⟨k + 1, by simpa using move, by simp⟩
  | count next pays evalFirst evalLast =>
    have move := Moves.count (t := t.withSpent k) next (afford pays) evalFirst evalLast
    exact ⟨k + 1, by simpa using move, by simp⟩
  | leave next inner kind =>
    exact ⟨k, .leave (t := t.withSpent k) next inner kind, fun hk => hk⟩
  | again next inner kind pays eval =>
    have move := Moves.again (t := t.withSpent k) next inner kind (afford pays) eval
    exact ⟨k + 1, by simpa using move, by simp⟩
  | recount next inner kind pays =>
    have move := Moves.recount (t := t.withSpent k) next inner kind (afford pays)
    exact ⟨k + 1, by simpa using move, by simp⟩
  | idle next inner => exact ⟨k, .idle (t := t.withSpent k) next inner, fun hk => hk⟩

/-- A failure that is not one of the budget happens with every other count that affords the tick. -/
theorem Fails.withSpent {supply : Supply} {t t' : Task} {error : RuntimeError}
    (h : Fails supply t t' error) {k : Nat}
    (afford : t.Affords supply → (t.withSpent k).Affords supply)
    (unspent : ∀ budget line, error ≠ .budgetSpent budget line) :
    ∃ k', Fails supply (t.withSpent k) (t'.withSpent k') error := by
  cases h with
  | spent toll broke => exact absurd rfl (unspent _ _)
  | operand next pays operand eval =>
    exact ⟨k + 1, .operand (t := t.withSpent k) next (afford pays) operand eval⟩
  | last next pays evalFirst evalLast =>
    exact ⟨k + 1, .last (t := t.withSpent k) next (afford pays) evalFirst evalLast⟩
  | mismatch next pays evalFirst evalLast texts =>
    exact ⟨k + 1, .mismatch (t := t.withSpent k) next (afford pays) evalFirst evalLast texts⟩
  | unknown next pays => exact ⟨k + 1, .unknown (t := t.withSpent k) next (afford pays)⟩
  | test next inner kind pays eval =>
    exact ⟨k + 1, .test (t := t.withSpent k) next inner kind (afford pays) eval⟩

/-! ## A positive budget bounds the ticks -/

theorem length_inner_advance (t : Task) :
    t.advance.control.inner.length = t.control.inner.length := by
  rcases t with ⟨⟨program, rest, inner, pending, spent⟩, memory⟩
  cases inner <;> rfl

theorem length_inner_choose_le (t : Task) (branch : List Stmt) :
    (t.choose branch).control.inner.length ≤ t.control.inner.length + 1 := by
  cases branch with
  | nil => exact Nat.le_succ _
  | cons s ss => exact Nat.le_refl _

theorem length_inner_reenter_le (t : Task) (test : Expr) (body : List Stmt) (line : Int)
    (v : Value) :
    (t.reenter test body line v).control.inner.length ≤ t.control.inner.length + 1 := by
  unfold reenter
  split
  · exact Nat.le_refl _
  · exact Nat.le_succ _

theorem length_inner_iterate_le (t : Task) (name : String) (body : List Stmt) (line : Int)
    (counter last : Float) :
    (t.iterate name body line counter last).control.inner.length
      ≤ t.control.inner.length + 1 := by
  unfold iterate
  split
  · exact Nat.le_refl _
  · exact Nat.le_succ _

theorem memory_reenter (t : Task) (test : Expr) (body : List Stmt) (line : Int) (v : Value) :
    (t.reenter test body line v).memory = t.memory := by
  unfold reenter
  split <;> rfl

theorem read_reenter (t : Task) (test : Expr) (body : List Stmt) (line : Int) (v : Value) :
    (t.reenter test body line v).memory.read = t.memory.read := by
  rw [memory_reenter]

theorem read_iterate (t : Task) (name : String) (body : List Stmt) (line : Int)
    (counter last : Float) :
    (t.iterate name body line counter last).memory.read = t.memory.read := by
  unfold iterate
  split <;> rfl

/-- A counted tick within a positive budget lowers the bound, even if it opens a block. -/
theorem ticksLeft_lt_of_counted {supply : Supply} (limited : 0 < supply.budget) {t t' : Task}
    (pays : t.Affords supply) (read : t'.memory.read = t.memory.read)
    (spent : t'.control.spent = t.control.spent + 1)
    (inner : t'.control.inner.length ≤ t.control.inner.length + 1) :
    t'.ticksLeft supply < t.ticksLeft supply := by
  have below : t.control.spent < supply.budget :=
    Nat.lt_of_not_le fun h => pays ⟨limited, h⟩
  unfold ticksLeft
  rw [read, spent]
  omega

/-- An answer that is read lowers the bound by more than the new count can raise it. -/
theorem ticksLeft_take_lt {supply : Supply} {t : Task} {name : String} {v : Value}
    (answer : supply.answers[t.memory.read]? = some v) :
    (t.take name v).ticksLeft supply < t.ticksLeft supply := by
  have below : t.memory.read < supply.answers.size := (Array.getElem?_eq_some_iff.mp answer).1
  -- the answer that is gone was worth a whole new budget
  have pay : (supply.answers.size - (t.memory.read + 1)) * (2 * supply.budget + 2)
      + (2 * supply.budget + 2)
      = (supply.answers.size - t.memory.read) * (2 * supply.budget + 2) := by
    rw [← Nat.succ_mul]
    congr 1
    omega
  show (supply.answers.size - (t.memory.read + 1)) * (2 * supply.budget + 2)
      + 2 * (supply.budget - 0) + t.advance.control.inner.length < t.ticksLeft supply
  rw [length_inner_advance, ticksLeft]
  omega

/-- Under a positive budget, a tick of a program that is not completed lowers the bound, unless it
suspends the program. -/
theorem Moves.ticksLeft_lt {supply : Supply} (limited : 0 < supply.budget) {t t' : Task}
    (h : Moves supply t t') (open' : t.control.completed = false) :
    t'.control.pending.isSome ∨ t'.ticksLeft supply < t.ticksLeft supply := by
  cases h with
  | assign next pays eval =>
    refine .inr (ticksLeft_lt_of_counted limited pays rfl (by simp) ?_)
    exact Nat.le_succ_of_le (Nat.le_of_eq (length_inner_advance t.paid))
  | write next pays eval =>
    refine .inr (ticksLeft_lt_of_counted limited pays rfl (by simp) ?_)
    exact Nat.le_succ_of_le (Nat.le_of_eq (length_inner_advance t.paid))
  | take next pays answer => exact .inr (ticksLeft_take_lt answer)
  | ask next pays unanswered => exact .inl rfl
  | cond next pays eval =>
    refine .inr (ticksLeft_lt_of_counted limited pays rfl (by simp) ?_)
    refine Nat.le_trans (length_inner_choose_le _ _) (Nat.succ_le_succ ?_)
    exact Nat.le_of_eq (length_inner_advance t.paid)
  | loop next pays eval =>
    refine .inr (ticksLeft_lt_of_counted limited pays (read_reenter ..) (by simp) ?_)
    refine Nat.le_trans (length_inner_reenter_le ..) (Nat.succ_le_succ ?_)
    exact Nat.le_of_eq (length_inner_advance t.paid)
  | count next pays evalFirst evalLast =>
    refine .inr (ticksLeft_lt_of_counted limited pays (read_iterate ..) (by simp) ?_)
    refine Nat.le_trans (length_inner_iterate_le ..) (Nat.succ_le_succ ?_)
    exact Nat.le_of_eq (length_inner_advance t.paid)
  | @leave f outer next inner kind =>
    right
    show _ + outer.length < _
    rw [ticksLeft, inner, List.length_cons]
    exact Nat.lt_succ_self _
  | @again f outer test line v next inner kind pays eval =>
    refine .inr (ticksLeft_lt_of_counted limited pays (read_reenter ..) (by simp) ?_)
    refine Nat.le_trans (length_inner_reenter_le ..) (Nat.succ_le_succ ?_)
    rw [inner]
    exact Nat.le_succ _
  | @recount f outer name counter last line next inner kind pays =>
    refine .inr (ticksLeft_lt_of_counted limited pays (read_iterate ..) (by simp) ?_)
    refine Nat.le_trans (length_inner_iterate_le ..) (Nat.succ_le_succ ?_)
    rw [inner]
    exact Nat.le_succ _
  | idle next inner =>
    -- nothing is left to do, so the program is completed
    rw [Control.next?, inner] at next
    simp [Control.completed, inner, List.head?_eq_none_iff.mp next] at open'

end Task

end Pseudocode
