import Pseudocode.Proofs.Machine.Language

/-!
# Failure is clean

A statement that fails has no effect. A tick evaluates before it changes anything, so one that fails
leaves the task as it was, but for the count (`Fails.eq_withSpent`); and a call that comes to such a
tick keeps what the statements before it did, reports it, and unbinds the program
(`serve_of_failed_tick`).

What is left over does not matter to what comes next. A run starts from an empty memory whatever the
machine holds, and so does a step of a machine without a program; both write over all of the memory
and the place (`drive_forgotten`). So the machine goes on as a new one would that has the same
options, listener and answers.
-/

namespace Pseudocode

/-! ## Ticks -/

namespace Task

variable {supply : Supply} {t t' : Task} {error : RuntimeError}

/-- A tick that fails changes nothing but the count. -/
theorem Fails.eq_withSpent (h : Fails supply t t' error) : t' = t.withSpent t'.control.spent := by
  cases h with
  | spent | operand | last | mismatch | unknown | test => rfl

/-- What can be seen after a tick that fails is what could be seen before. -/
theorem Fails.snapshot_eq (h : Fails supply t t' error) : t'.snapshot = t.snapshot := by
  have same := congrArg snapshot h.eq_withSpent
  rwa [snapshot_withSpent] at same

end Task

/-- A drive from where another has come to ends as the rest of that one. -/
theorem Task.Performs.drives {supply : Supply} {until? : Control → Bool} {t u : Task}
    {log : List Deed} (h : Performs supply until? t log u) {n : Nat} {d : Drive}
    (rest : Drives supply until? n u d) : ∃ n', Drives supply until? n' t d := by
  induction h generalizing n with
  | start => exact ⟨n, rest⟩
  | tick before going moves ih => exact ih (.tick going moves rest)

/-! ## Calls that fail -/

namespace Machine

variable {m : Machine} {call : Call} {r : Response}

/-- A call that comes to a tick which fails, and is not given up before, reports the error. It shows
what could be seen before the tick, keeps the memory as the tick found it, and unbinds the
program. -/
theorem serve_of_failed_tick {u u' : Task} {error : RuntimeError} (ticks : m.TicksAt call u)
    (raised : u.tick m.supply = .failed u' error) (returned : (m.serve call).2 = some r)
    (returns : r.fault ≠ some .unfinished) :
    r = { snapshot := u.snapshot, fault := some (.runtime error) } ∧
      (m.serve call).1 = { m with memory := u.memory, control := none } := by
  obtain ⟨l, log, launch, performs, going⟩ := ticksAt_iff.mp ticks
  have fails : u.Fails m.supply u' error := Task.tick_eq_failed_iff.mp raised
  rw [serve_of_launch? launch] at returned ⊢
  cases returned
  -- the drive of the call has ended, and it ends in one way only
  obtain ⟨n, d, drives, served, -⟩ := drives_of_finished returns
  obtain ⟨n', failed⟩ := performs.drives (.failed going fails)
  obtain ⟨-, rfl⟩ := drives.unique failed
  rw [served]
  have memory : u'.memory = u.memory := fails.memory_eq
  have shown : u'.snapshot = u.snapshot := fails.snapshot_eq
  simp only [conclude, Drive.response, Drive.task, Drive.fault?, memory, shown, and_self]

/-- A call that reports a fault was refused and changed nothing, or it came to a tick that failed,
or it was given up. -/
theorem fault_of_serve (returned : (m.serve call).2 = some r) {f : Fault}
    (fault : r.fault = some f) :
    (∃ cause line, m.Refuses call cause line ∧ f = .runtime (.misuse cause line) ∧
      (m.serve call).1 = m) ∨
    (∃ u u' error, m.TicksAt call u ∧ u.tick m.supply = .failed u' error ∧
      f = .runtime error) ∨ f = .unfinished := by
  have serves := m.serves call
  generalize m.serve call = result at serves returned
  cases serves with
  | launched launch =>
    cases returned
    rcases fault_of_drive (stops_of_launch? launch) fault with
      ⟨log, u, u', error, performs, going, raised, rfl⟩ | ⟨rfl, -⟩
    · have ticks : m.TicksAt call u := ticksAt_iff.mpr ⟨_, log, launch, performs, going⟩
      exact .inr (.inl ⟨u, u', error, ticks, raised, rfl⟩)
    · exact .inr (.inr rfl)
  | @refused _ cause line refuses grounded =>
    cases returned
    cases fault
    exact .inl ⟨cause, line, refuses, rfl, rfl⟩
  | completed chosen completed grounded =>
    cases returned
    cases fault
  | provided => cases returned
  | reset => cases returned

/-! ## Starting over -/

/-- The machine without its program and its memory: what is left are its options, its listener and
its answers. -/
def forgotten (m : Machine) : Machine :=
  { m with memory := {}, control := none }

theorem announce_forgotten (m : Machine) (t : Task) :
    m.forgotten.announce t = (m.announce t).forgotten := by
  unfold announce
  cases t.control.pending with
  | none => rfl
  | some prompt =>
    have same : m.forgotten.listening = m.listening := rfl
    simp only [same]
    split <;> rfl

theorem conclude_forgotten (m : Machine) (d : Drive) : m.forgotten.conclude d = m.conclude d := by
  cases d with
  | reached t => rw [conclude, announce_forgotten]; rfl
  | failed t error => rfl
  | outOfFuel t => rfl

/-- A drive writes over the memory and the place that a machine holds. -/
theorem drive_forgotten (m : Machine) (until? : Control → Bool) (t : Task) :
    m.forgotten.drive until? t = m.drive until? t := by
  rw [drive_eq_conclude, drive_eq_conclude, conclude_forgotten]
  rfl

/-- A machine without a program serves a run or a step of a program as if it had forgotten its
memory. -/
theorem serve_of_unbound (unbound : m.control = none) (p : Program) :
    m.serve (.run (some p)) = m.forgotten.serve (.run (some p)) ∧
      m.serve (.step (some p)) = m.forgotten.serve (.step (some p)) := by
  have run : m.run (some p) = m.forgotten.run (some p) := by
    rw [run_eq_drive, run_eq_drive, drive_forgotten]
  have step : m.step (some p) = m.forgotten.step (some p) := by
    have fresh : m.step (some p) = m.stepBound (.ofProgram p) {} := by
      unfold Machine.step
      rw [unbound]
    rw [fresh]
    show m.stepBound (.ofProgram p) {} = m.forgotten.stepBound (.ofProgram p) {}
    -- an empty program is completed at once, any other is driven
    show (if _ then _ else _) = (if _ then _ else _)
    rw [drive_forgotten]
    rfl
  exact ⟨by rw [serve, serve, run], by rw [serve, serve, step]⟩

theorem patience_serve (m : Machine) (call : Call) : (m.serve call).1.patience = m.patience := by
  have serves := m.serves call
  generalize m.serve call = result at serves
  cases serves with
  | @launched _ l launch =>
    rw [drive_eq_conclude]
    cases l.task.drive m.supply l.until? (m.fuel l.task) with
    | reached t => exact patience_announce m t
    | failed t error => rfl
    | outOfFuel t => rfl
  | refused | completed | provided | reset => rfl

theorem patience_serveAll (m : Machine) (calls : List Call) :
    (m.serveAll calls).patience = m.patience := by
  induction calls generalizing m with
  | nil => rfl
  | cons call calls ih => exact (ih (m.serve call).1).trans (patience_serve m call)

/-- A machine that has served calls and forgets its program and its memory is a new one with the
same options, the same listener and the same answers. -/
theorem forgotten_serveAll (budget : Int) (patience : Nat) (listening : Bool)
    (calls : List Call) :
    let m : Machine := (create budget patience listening).serveAll calls
    m.forgotten
      = { create budget patience listening with asked := m.asked, history := m.history } := by
  intro m
  have kept : (create budget patience listening).Coherent := coherent_create ..
  have budget' : m.budget = budget.toNat := budget_serveAll _ calls
  have patience' : m.patience = patience := patience_serveAll _ calls
  have listening' : m.listening = listening := listening_serveAll kept calls
  rw [forgotten, budget', patience', listening']
  rfl

/-- Answers are calls like others. -/
theorem provideAll_eq_serveAll (m : Machine) (answers : List String) :
    m.provideAll answers = m.serveAll (answers.map .provide) := by
  rw [provideAll, serveAll, List.foldl_map]
  rfl

/-- A machine without a program, after calls and further answers, serves a run or a step of a
program as a new one with the same options, the same listener and the same answers does. -/
theorem serve_as_new (budget : Int) (patience : Nat) (listening : Bool) (calls : List Call)
    (answers : List String) (p : Program) :
    let m : Machine := (create budget patience listening).serveAll calls
    let m' : Machine := m.provideAll answers
    let new : Machine :=
      { create budget patience listening with asked := m'.asked, history := m'.history }
    m.control = none → m'.serve (.run (some p)) = new.serve (.run (some p)) ∧
      m'.serve (.step (some p)) = new.serve (.step (some p)) := by
  intro m m' new unbound
  have same : m'.forgotten = new := by
    have served : m' = (create budget patience listening).serveAll
        (calls ++ answers.map .provide) := by
      show m.provideAll answers = _
      rw [provideAll_eq_serveAll, serveAll, serveAll, List.foldl_append]
      rfl
    have forgotten := forgotten_serveAll budget patience listening (calls ++ answers.map .provide)
    rw [← served] at forgotten
    exact forgotten
  rw [← same]
  exact serve_of_unbound (control_provideAll unbound answers) p

/-- Failure is clean. A tick that fails leaves the variables, the output, the answers read, the
place in every open block, the counters of the loops and the question as they were: it changes
nothing but the count.

After any calls on a new machine, let one more call come and return. If it comes to a tick that
fails, it reports the error and shows what could be seen there, when the statements before were
completed; the machine keeps the memory that they left, is otherwise as before the call, and has no
program; and after any further answers it serves a run or a step of a program as a new machine with
the same options, listener and answers does. A call reports a fault in no other way, unless the
machine refuses it, which changes nothing. -/
theorem serve_fails_cleanly (budget : Int) (patience : Nat) (listening : Bool)
    (calls : List Call) (call : Call) :
    (∀ supply t t' error, Task.tick t supply = .failed t' error →
      t' = t.withSpent t'.control.spent) ∧
    let m : Machine := (create budget patience listening).serveAll calls
    ∀ r, (m.serve call).2 = some r → r.fault ≠ some .unfinished →
      (∀ u u' error, m.TicksAt call u → u.tick m.supply = .failed u' error →
        r = { snapshot := u.snapshot, fault := some (.runtime error) } ∧
        (m.serve call).1 = { m with memory := u.memory, control := none } ∧
        ∀ answers p,
          let m' : Machine := (m.serve call).1.provideAll answers
          let new : Machine :=
            { create budget patience listening with asked := m'.asked, history := m'.history }
          m'.serve (.run (some p)) = new.serve (.run (some p)) ∧
            m'.serve (.step (some p)) = new.serve (.step (some p))) ∧
      ∀ f, r.fault = some f →
        (∃ cause line, m.Refuses call cause line ∧ f = .runtime (.misuse cause line) ∧
          (m.serve call).1 = m) ∨
        ∃ u u' error, m.TicksAt call u ∧ u.tick m.supply = .failed u' error ∧
          f = .runtime error := by
  refine ⟨fun supply t t' error raised => ?_, ?_⟩
  · exact (Task.tick_eq_failed_iff.mp raised).eq_withSpent
  · intro m r returned returns
    refine ⟨fun u u' error ticks raised => ?_, fun f fault => ?_⟩
    · obtain ⟨reported, left⟩ := serve_of_failed_tick ticks raised returned returns
      refine ⟨reported, left, fun answers p => ?_⟩
      have served : (create budget patience listening).serveAll (calls ++ [call])
          = (m.serve call).1 := by
        rw [serveAll, List.foldl_append]
        rfl
      have anew := serve_as_new budget patience listening (calls ++ [call]) answers p
      rw [served] at anew
      exact anew (by rw [left])
    · rcases fault_of_serve returned fault with refused | raised | rfl
      · exact .inl refused
      · exact .inr raised
      · exact absurd fault returns

/-- A step that fails inside a branch, in the middle of a statement: what the branch wrote before is
kept, the program is unbound, and any program runs after it as on a new machine. -/
theorem serve_fails_cleanly_in_branch :
    let p : Program :=
      { statements := [.write (.str "a") 2,
          .cond (.str "x") [.write (.str "b") 4, .write (.ident "y" 5) 5] none 3] }
    let m : Machine := (create 10 0 true).serveAll [.provide "1", .step (some p)]
    let m' : Machine := (m.serve (.step none)).1
    m'.memory.output = #[.text "a", .text "b"] ∧ m'.program? = none ∧
      ∀ q, m'.serve (.run (some q))
        = Machine.serve { create 10 0 true with history := #[.ofAnswer "1"] } (.run (some q)) := by
  intro p m m'
  obtain ⟨-, clean⟩ := serve_fails_cleanly 10 0 true [.provide "1", .step (some p)] (.step none)
  obtain ⟨kept, reports⟩ := clean _ rfl nofun
  rcases reports (.runtime (.undefinedVariable "y" 5)) rfl with
    ⟨_, _, _, other, _⟩ | ⟨u, u', error, ticks, raised, -⟩
  · cases other
  · obtain ⟨-, -, anew⟩ := kept u u' error ticks raised
    exact ⟨rfl, rfl, fun q => (anew [] q).1⟩

end Machine

end Pseudocode
