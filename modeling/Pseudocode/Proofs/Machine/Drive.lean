import Pseudocode.Proofs.Machine.Count

/-!
# Drives without fuel

`Task.drive` takes a number of ticks that it may make. `Drives supply until? n t d` says the same
without it: from `t`, after exactly `n` successful ticks, the drive ends as `d`. The two agree as
soon as the fuel exceeds `n` (`drive_of_drives`, `drives_of_drive`), and under a positive budget the
fuel of a machine always does (`exists_drives_of_limited`). A call of a machine is then a drive,
what the machine keeps of its end (`Machine.conclude`) and what it reports of it (`Drive.response`).
-/

namespace Pseudocode

/-- A drive from `t` ends as `d` after `n` successful ticks. -/
inductive Drives (supply : Supply) (until? : Control → Bool) : Nat → Task → Drive → Prop
  | reached {t : Task} (done : until? t.control = true) : Drives supply until? 0 t (.reached t)
  | failed {t t' : Task} {error : RuntimeError} (going : until? t.control = false)
      (fails : t.Fails supply t' error) : Drives supply until? 0 t (.failed t' error)
  | tick {n : Nat} {t t' : Task} {d : Drive} (going : until? t.control = false)
      (moves : t.Moves supply t') (rest : Drives supply until? n t' d) :
      Drives supply until? (n + 1) t d

variable {supply : Supply} {until? : Control → Bool} {n : Nat} {t : Task} {d : Drive}

/-- Enough fuel carries a drive to its end. -/
theorem drive_of_drives (h : Drives supply until? n t d) :
    ∀ {fuel : Nat}, n < fuel → t.drive supply until? fuel = d := by
  induction h with
  | reached done =>
    intro fuel hfuel
    obtain ⟨fuel, rfl⟩ := Nat.exists_eq_succ_of_ne_zero (Nat.ne_of_gt hfuel)
    rw [Task.drive, if_pos done]
  | failed going fails =>
    intro fuel hfuel
    obtain ⟨fuel, rfl⟩ := Nat.exists_eq_succ_of_ne_zero (Nat.ne_of_gt hfuel)
    rw [Task.drive, going, Task.tick_of_fails fails]
    rfl
  | tick going moves rest ih =>
    intro fuel hfuel
    obtain ⟨fuel, rfl⟩ := Nat.exists_eq_succ_of_ne_zero (Nat.ne_of_gt (Nat.zero_lt_of_lt hfuel))
    rw [Task.drive, going, Task.tick_of_moves moves]
    exact ih (Nat.lt_of_succ_lt_succ hfuel)

/-- A drive that does not run out of fuel has ended. -/
theorem drives_of_drive {fuel : Nat} (h : t.drive supply until? fuel = d)
    (ended : ∀ u, d ≠ .outOfFuel u) : ∃ n < fuel, Drives supply until? n t d := by
  induction fuel generalizing t with
  | zero => exact absurd h.symm (ended t)
  | succ fuel ih =>
    rw [Task.drive] at h
    cases going : until? t.control with
    | true =>
      rw [going] at h
      cases h
      exact ⟨0, Nat.succ_pos fuel, .reached going⟩
    | false =>
      rw [going] at h
      rcases Task.moves_or_fails supply t with ⟨t', moves⟩ | ⟨t', error, fails⟩
      · rw [Task.tick_of_moves moves] at h
        obtain ⟨n, hn, rest⟩ := ih h
        exact ⟨n + 1, Nat.succ_lt_succ hn, .tick going moves rest⟩
      · rw [Task.tick_of_fails fails] at h
        cases h
        exact ⟨0, Nat.succ_pos fuel, .failed going fails⟩

/-- A drive ends in one way. -/
theorem Drives.unique {n' : Nat} {d' : Drive} (h : Drives supply until? n t d)
    (h' : Drives supply until? n' t d') : n = n' ∧ d = d' := by
  induction h generalizing n' d' with
  | reached done =>
    cases h' with
    | reached _ => exact ⟨rfl, rfl⟩
    | failed going _ => rw [done] at going; cases going
    | tick going _ _ => rw [done] at going; cases going
  | failed going fails =>
    cases h' with
    | reached done => rw [done] at going; cases going
    | failed _ fails' =>
      obtain ⟨rfl, rfl⟩ := fails.unique fails'
      exact ⟨rfl, rfl⟩
    | tick _ moves' _ => exact (fails.not_moves moves').elim
  | tick going moves rest ih =>
    cases h' with
    | reached done => rw [done] at going; cases going
    | failed _ fails' => exact (fails'.not_moves moves).elim
    | tick _ moves' rest' =>
      obtain rfl := moves.unique moves'
      obtain ⟨hn, hd⟩ := ih rest'
      exact ⟨congrArg (· + 1) hn, hd⟩

/-- A run ends where the program halts, or fails before it does. -/
theorem Drives.reached_or_failed (h : Drives supply Control.halted n t d) :
    (∃ u, d = .reached u ∧ u.control.halted = true) ∨
      ∃ u error, d = .failed u error ∧ u.control.halted = false := by
  induction h with
  | reached done => exact .inl ⟨_, rfl, done⟩
  | failed going fails =>
    refine .inr ⟨_, _, rfl, ?_⟩
    cases fails <;> exact going
  | tick _ _ _ ih => exact ih

/-- Under a positive budget a drive that stops wherever the program halts comes to an end. -/
theorem exists_drives_of_limited (limited : 0 < supply.budget)
    (stops : ∀ c : Control, c.halted = true → until? c = true) (t : Task) :
    ∃ n < t.ticksLeft supply + 2, ∃ d, Drives supply until? n t d := by
  induction hm : t.ticksLeft supply using Nat.strongRecOn generalizing t with
  | ind m ih =>
    cases going : until? t.control with
    | true => exact ⟨0, Nat.succ_pos _, _, .reached going⟩
    | false =>
      rcases Task.moves_or_fails supply t with ⟨t', moves⟩ | ⟨t', error, fails⟩
      · have going' := Control.not_halted_of_going stops going
        have open' := (Control.open_of_going going').1
        -- a tick that suspends the program is the last one, and every other lowers the bound
        rcases moves.ticksLeft_lt limited open' with suspended | lower
        · have done : until? t'.control = true :=
            stops t'.control (by simp [Control.halted, suspended])
          exact ⟨1, by omega, _, .tick going moves (.reached done)⟩
        · obtain ⟨n, hn, d, rest⟩ := ih _ (hm ▸ lower) t' rfl
          exact ⟨n + 1, by omega, d, .tick going moves rest⟩
      · exact ⟨0, Nat.succ_pos _, _, .failed going fails⟩

namespace Drive

/-- The task at the end of a drive. -/
def task : Drive → Task
  | reached t => t
  | failed t _ => t
  | outOfFuel t => t

/-- What a drive ended with, if not where it was asked to stop. -/
def fault? : Drive → Option Fault
  | reached _ => none
  | failed _ error => some (.runtime error)
  | outOfFuel _ => some .unfinished

/-- What a call reports of a drive. -/
def response (d : Drive) : Response :=
  { snapshot := d.task.snapshot, fault := d.fault? }

end Drive

namespace Machine

/-- The machine after a drive. -/
def conclude (m : Machine) : Drive → Machine
  | .reached t => { m.announce t with memory := t.memory, control := some t.control }
  | .failed t _ => { m with memory := t.memory, control := none }
  | .outOfFuel t => { m with memory := t.memory, control := some t.control }

theorem drive_eq_conclude (m : Machine) (until? : Control → Bool) (t : Task) :
    m.drive until? t = (m.conclude (t.drive m.supply until? (m.fuel t)),
      (t.drive m.supply until? (m.fuel t)).response) := by
  unfold drive
  split <;> rename_i heq <;> rw [heq] <;> rfl

/-- A drive of a machine ends as the drive without fuel does, if a machine without a limit has the
patience for it. -/
theorem drive_of_drives {m : Machine} (h : Drives m.supply until? n t d)
    (stops : ∀ c : Control, c.halted = true → until? c = true)
    (patient : m.budget = 0 → n < m.patience) :
    m.drive until? t = (m.conclude d, d.response) := by
  rw [drive_eq_conclude]
  by_cases unlimited : m.budget = 0
  · rw [fuel, if_pos unlimited, Pseudocode.drive_of_drives h (patient unlimited)]
  · -- some drive ends within the fuel of the machine, and a drive ends in one way only
    have limited : 0 < m.supply.budget := Nat.pos_of_ne_zero unlimited
    obtain ⟨n', hn', d', h'⟩ := exists_drives_of_limited limited stops t
    obtain ⟨rfl, rfl⟩ := h.unique h'
    rw [fuel, if_neg unlimited, Pseudocode.drive_of_drives h hn']

/-- A drive of a machine that was not given up has ended. -/
theorem drives_of_finished {m : Machine}
    (finished : (m.drive until? t).2.fault ≠ some .unfinished) :
    ∃ n d, Drives m.supply until? n t d ∧ m.drive until? t = (m.conclude d, d.response) ∧
      (m.budget = 0 → n < m.patience) := by
  rw [drive_eq_conclude] at finished ⊢
  have ended : ∀ u, t.drive m.supply until? (m.fuel t) ≠ .outOfFuel u := by
    intro u hu
    rw [hu] at finished
    exact finished rfl
  obtain ⟨n, hn, h⟩ := Pseudocode.drives_of_drive rfl ended
  refine ⟨n, _, h, rfl, fun unlimited => ?_⟩
  rwa [fuel, if_pos unlimited] at hn

/-- A new machine: its budget, the patience of its drives without a limit, and whether someone
listens. -/
def create (budget : Int) (patience : Nat) (listening : Bool) : Machine :=
  { withBudget budget with patience, listening }

@[simp] theorem budget_announce (m : Machine) (t : Task) : (m.announce t).budget = m.budget := by
  unfold announce
  split
  · split <;> rfl
  · rfl

@[simp] theorem patience_announce (m : Machine) (t : Task) :
    (m.announce t).patience = m.patience := by
  unfold announce
  split
  · split <;> rfl
  · rfl

@[simp] theorem history_announce (m : Machine) (t : Task) :
    (m.announce t).history = m.history := by
  unfold announce
  split
  · split <;> rfl
  · rfl

theorem history_conclude (m : Machine) (d : Drive) : (m.conclude d).history = m.history := by
  cases d with
  | reached t => exact history_announce m t
  | failed t error => rfl
  | outOfFuel t => rfl

theorem budget_conclude (m : Machine) (d : Drive) : (m.conclude d).budget = m.budget := by
  cases d with
  | reached t => exact budget_announce m t
  | failed t error => rfl
  | outOfFuel t => rfl

theorem history_provideAll (m : Machine) (xs : List String) :
    (m.provideAll xs).history = m.history ++ (xs.map Value.ofAnswer).toArray := by
  induction xs generalizing m with
  | nil => simp [provideAll]
  | cons x xs ih =>
    have later := ih (m.provide x).1
    rw [provideAll] at later ⊢
    rw [List.foldl_cons, later]
    simp [provide]

theorem budget_provideAll (m : Machine) (xs : List String) :
    (m.provideAll xs).budget = m.budget := by
  induction xs generalizing m with
  | nil => rfl
  | cons x xs ih => exact ih (m.provide x).1

theorem patience_provideAll (m : Machine) (xs : List String) :
    (m.provideAll xs).patience = m.patience := by
  induction xs generalizing m with
  | nil => rfl
  | cons x xs ih => exact ih (m.provide x).1

theorem control_provideAll {m : Machine} (free : m.control = none) (raws : List String) :
    (m.provideAll raws).control = none := by
  induction raws generalizing m with
  | nil => exact free
  | cons raw raws ih =>
    refine ih (m := (m.provide raw).1) ?_
    show m.control.map Control.resume = none
    rw [free]
    rfl

theorem run_eq_drive (m : Machine) (p : Program) :
    m.run (some p) = m.drive Control.halted (.ofProgram p) := rfl

theorem run_of_drives {m : Machine} {p : Program}
    (drives : Drives m.supply Control.halted n (.ofProgram p) d)
    (patient : m.budget = 0 → n < m.patience) : (m.run (some p)).2 = d.response := by
  rw [run_eq_drive, drive_of_drives drives (fun _ halted => halted) patient]

/-- Under a positive budget every run comes to an end. -/
theorem exists_drives_run {m : Machine} (limited : 0 < m.budget) (p : Program) :
    ∃ n d, Drives m.supply Control.halted n (.ofProgram p) d ∧ (m.run (some p)).2 = d.response := by
  have limited' : 0 < m.supply.budget := limited
  obtain ⟨n, -, d, drives⟩ :=
    exists_drives_of_limited limited' (fun _ halted => halted) (.ofProgram p)
  exact ⟨n, d, drives, run_of_drives drives (by omega)⟩

end Machine

end Pseudocode
