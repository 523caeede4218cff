import Pseudocode.Proofs.Machine.Drive

/-!
# Traces

A drive tick by tick. `Performs supply until? t log u` says that a drive which starts at `t` comes
to `u`, with `log` done on the way; `Ends` says how it may end where it has come to. Every drive
ends where its trace has come to, also one that runs out of fuel (`exists_performs_of_drive`), so
what every tick keeps holds wherever a call stops.
-/

namespace Pseudocode

/-- What a tick does: it executes a statement, tests a loop again, or leaves a branch. -/
inductive Deed where
  | statement (s : Stmt)
  /-- The test of a loop whose body is used up, or its counter, on the line of the loop. -/
  | retest (line : Int)
  | leave

/-- The line that a deed is counted on; none if it is not counted. -/
def Deed.line? : Deed → Option Int
  | statement s => some s.line
  | retest line => some line
  | leave => none

namespace Task

variable {supply : Supply} {until? : Control → Bool} {s t u v : Task} {log : List Deed}

/-- What the next tick does. -/
def deed (t : Task) : Deed :=
  match t.control.next?, t.control.inner with
  | some s, _ => .statement s
  | none, [] => .leave
  | none, f :: _ =>
    match f.loopLine? with
    | some line => .retest line
    | none => .leave

theorem line?_deed (t : Task) : t.deed.line? = t.toll? := by
  unfold deed toll?
  cases t.control.next? with
  | some s => rfl
  | none =>
    cases t.control.inner with
    | nil => rfl
    | cons f outer =>
      simp only
      cases f.loopLine? <;> rfl

/-- A drive from `t` comes to the task `u`, and has done `log` on the way. -/
inductive Performs (supply : Supply) (until? : Control → Bool) (t : Task) : List Deed → Task → Prop
  | start : Performs supply until? t [] t
  | tick {log : List Deed} {u v : Task} (before : Performs supply until? t log u)
      (going : until? u.control = false) (moves : u.Moves supply v) :
      Performs supply until? t (log ++ [u.deed]) v

/-- The ways in which a drive that has come to `u` may end. -/
inductive Ends (supply : Supply) (until? : Control → Bool) (u : Task) : Drive → Prop
  | reached (done : until? u.control = true) : Ends supply until? u (.reached u)
  | failed {v : Task} {error : RuntimeError} (going : until? u.control = false)
      (fails : u.Fails supply v error) : Ends supply until? u (.failed v error)
  | outOfFuel : Ends supply until? u (.outOfFuel u)

/-- A drive ends where its trace has come to. -/
theorem exists_performs_of_drive (before : Performs supply until? s log t) (fuel : Nat) :
    ∃ log' u, Performs supply until? s log' u ∧
      u.Ends supply until? (t.drive supply until? fuel) := by
  induction fuel generalizing t log with
  | zero => exact ⟨log, t, before, .outOfFuel⟩
  | succ fuel ih =>
    rw [drive]
    cases going : until? t.control with
    | true => exact ⟨log, t, before, .reached going⟩
    | false =>
      rcases moves_or_fails supply t with ⟨t', moves⟩ | ⟨t', error, fails⟩
      · rw [tick_of_moves moves]
        exact ih (before.tick going moves)
      · rw [tick_of_fails fails]
        exact ⟨log, t, before, .failed going fails⟩

/-- What holds at the start of a drive and is kept by every tick holds wherever it comes to. -/
theorem Performs.invariant {P : Task → Prop} (h : Performs supply until? t log u) (start : P t)
    (step : ∀ {u v : Task}, P u → until? u.control = false → u.Moves supply v → P v) : P u := by
  induction h with
  | start => exact start
  | tick before going moves ih => exact step ih going moves

end Task

end Pseudocode
