import Pseudocode.Proofs.Machine.Replay
import Pseudocode.Proofs.Machine.Trace

/-!
# The budget does not show

A budget changes nothing but where a run is stopped. Under a looser budget every tick makes the same
move (`Moves.loosen`), so a run that was not stopped ends in the same way (`Drives.loosen`), and one
that was stopped goes on and can only add to the output (`Drives.loosen_prefix`).

A run is stopped at the right place: the count of a task is the number of deeds counted since the
last answer (`Performs.spent_eq`), no run gets beyond its budget (`Performs.spent_le`), and the deed
that is refused is on the line that the run reports (`line_of_toll`).
-/

namespace Pseudocode

/-! ## Looser budgets -/

/-- A supply with the same answers that allows as many steps or more. -/
structure Supply.Loosens (supply' supply : Supply) : Prop where
  budget : supply.budget ≤ supply'.budget ∨ supply'.budget = 0
  answers : supply'.answers = supply.answers

namespace Task

variable {supply supply' : Supply} {t t' : Task}

theorem Affords.loosen (limited : 0 < supply.budget) (looser : supply'.Loosens supply)
    (pays : t.Affords supply) : t.Affords supply' := by
  rintro ⟨limited', spent⟩
  rcases looser.budget with more | unlimited
  · exact pays ⟨limited, Nat.le_trans more spent⟩
  · omega

theorem Moves.loosen (limited : 0 < supply.budget) (looser : supply'.Loosens supply)
    (h : Moves supply t t') : Moves supply' t t' :=
  h.transfer (fun pays => pays.loosen limited looser) fun _ _ _ => by rw [looser.answers]

end Task

variable {supply supply' : Supply} {until? : Control → Bool} {n n' : Nat} {t : Task} {d d' : Drive}

/-- A drive that was not stopped by the budget ends in the same way under a looser one. -/
theorem Drives.loosen (limited : 0 < supply.budget) (looser : supply'.Loosens supply)
    (h : Drives supply until? n t d)
    (unspent : ∀ steps line, d.fault? ≠ some (.runtime (.budgetSpent steps line))) :
    Drives supply' until? n t d := by
  induction h with
  | reached done => exact .reached done
  | failed going fails =>
    rcases fails.transfer (fun pays => pays.loosen limited looser) with
      fails' | ⟨line, -, rfl, -, -⟩
    · exact .failed going fails'
    · exact absurd rfl (unspent _ _)
  | tick going moves rest ih => exact .tick going (moves.loosen limited looser) (ih unspent)

/-- Under a looser budget a drive continues the output, wherever it was stopped. -/
theorem Drives.loosen_prefix (limited : 0 < supply.budget) (looser : supply'.Loosens supply)
    (h : Drives supply until? n t d) (h' : Drives supply' until? n' t d') :
    d.task.memory.output.toList <+: d'.task.memory.output.toList := by
  induction h generalizing n' with
  | reached done => exact h'.output_prefix
  | @failed t t' error going fails =>
    show t'.memory.output.toList <+: _
    rw [fails.memory_eq]
    exact h'.output_prefix
  | tick going moves rest ih =>
    obtain ⟨n'', rest'⟩ := h'.tail going (moves.loosen limited looser)
    exact ih rest'

/-! ## What is counted -/

/-- A question. -/
def Deed.isRead : Deed → Bool
  | statement (.read _ _) => true
  | _ => false

/-- The number of deeds counted since the last question, or since the start if there was none. -/
def countSinceRead (log : List Deed) : Nat :=
  (log.reverse.takeWhile fun deed => !deed.isRead).countP fun deed => deed.line?.isSome

theorem countSinceRead_append (log : List Deed) (deed : Deed) : countSinceRead (log ++ [deed])
    = if deed.isRead then 0 else countSinceRead log + if deed.line?.isSome then 1 else 0 := by
  unfold countSinceRead
  cases read : deed.isRead <;> cases counted : deed.line?.isSome <;> simp [read, counted]

namespace Task

variable {u : Task} {log : List Deed}

theorem deed_of_next {s : Stmt} (next : t.control.next? = some s) : t.deed = .statement s := by
  rw [deed, next]

theorem deed_of_close {f : Frame} {outer : List Frame} (next : t.control.next? = none)
    (inner : t.control.inner = f :: outer) :
    t.deed = (f.loopLine?.map Deed.retest).getD .leave := by
  unfold deed
  rw [next]
  simp only [inner]
  cases f.loopLine? <;> rfl

/-- A tick counts its deed, and a question starts the count again. -/
theorem Moves.spent_eq {t' : Task} (h : Moves supply t t') : t'.control.spent
    = if t.deed.isRead then 0 else t.control.spent + if t.deed.line?.isSome then 1 else 0 := by
  cases h with
  | assign next pays eval => simp [deed_of_next next, Deed.isRead, Deed.line?]
  | write next pays eval => simp [deed_of_next next, Deed.isRead, Deed.line?]
  | take next pays answer => simp [deed_of_next next, Deed.isRead, Task.take]
  | ask next pays unanswered =>
    simp [deed_of_next next, Deed.isRead, Task.ask, Control.suspend]
  | cond next pays eval => simp [deed_of_next next, Deed.isRead, Deed.line?]
  | loop next pays eval => simp [deed_of_next next, Deed.isRead, Deed.line?]
  | count next pays evalFirst evalLast => simp [deed_of_next next, Deed.isRead, Deed.line?]
  | leave next inner kind =>
    simp [deed_of_close next inner, Frame.loopLine?, kind, Deed.isRead, Deed.line?]
  | again next inner kind pays eval =>
    simp [deed_of_close next inner, Frame.loopLine?, kind, Deed.isRead, Deed.line?]
  | recount next inner kind pays =>
    simp [deed_of_close next inner, Frame.loopLine?, kind, Deed.isRead, Deed.line?]
  | idle next inner => simp [deed, next, inner, Deed.isRead, Deed.line?]

/-- A tick stays within a positive budget. -/
theorem Moves.spent_le {t' : Task} (limited : 0 < supply.budget) (h : Moves supply t t')
    (within : t.control.spent ≤ supply.budget) : t'.control.spent ≤ supply.budget := by
  rw [h.spent_eq]
  cases toll : t.toll? with
  | some line =>
    have below : t.control.spent < supply.budget :=
      Nat.lt_of_not_le fun spent => h.affords toll ⟨limited, spent⟩
    split
    · exact Nat.zero_le _
    · split <;> omega
  | none =>
    rw [line?_deed, toll]
    split
    · exact Nat.zero_le _
    · exact within

/-- The count of a task is the number of deeds counted since the last question. -/
theorem Performs.spent_eq (fresh : t.control.spent = 0) (h : Performs supply until? t log u) :
    u.control.spent = countSinceRead log := by
  induction h with
  | start => exact fresh
  | tick before going moves ih => rw [moves.spent_eq, ih, countSinceRead_append]

theorem Performs.spent_le (limited : 0 < supply.budget) (fresh : t.control.spent = 0)
    (h : Performs supply until? t log u) : u.control.spent ≤ supply.budget :=
  h.invariant (by omega) fun within _ moves => moves.spent_le limited within

/-! ## Where a run is stopped -/

/-- What is counted is on the line at which execution goes on. -/
theorem line_of_toll {line : Int} (toll : t.toll? = some line) : t.control.line = line := by
  rcases t with ⟨⟨program, rest, inner, pending, spent⟩, memory⟩
  cases inner with
  | nil =>
    cases rest with
    | nil => cases toll
    | cons s ss =>
      cases toll
      rfl
  | cons f outer =>
    have top : f.line? = some line := by
      unfold Frame.line?
      unfold toll? Control.next? at toll
      cases head : f.rest.head? with
      | some s =>
        simp only [head] at toll
        rw [← toll]
        rfl
      | none =>
        simp only [head] at toll
        exact toll
    simp only [Control.line, List.findSome?_cons, top]

end Task

/-! Evaluation says nothing about the budget. -/

section Evaluation

variable {steps limit : Int}

theorem Value.arithmetic_ne_budgetSpent {f : Float → Float → Except RuntimeError Float}
    (h : ∀ x y, f x y ≠ .error (.budgetSpent steps limit)) (op : Op) (line : Int) (a b : Value) :
    Value.arithmetic op line f a b ≠ .error (.budgetSpent steps limit) := by
  unfold Value.arithmetic
  split
  · rename_i x y
    cases result : f x y with
    | ok z => nofun
    | error error =>
      intro spent
      cases spent
      exact h x y result
  · nofun

theorem Value.ordered_ne_budgetSpent (op : Op) (line : Int) (o : Comparison) (a b : Value) :
    Value.ordered op line o a b ≠ .error (.budgetSpent steps limit) := by
  unfold Value.ordered
  split <;> nofun

theorem Value.divide_ne_budgetSpent (line : Int) (x y : Float) :
    Value.divide line x y ≠ .error (.budgetSpent steps limit) := by
  unfold Value.divide
  split <;> nofun

theorem Value.apply_ne_budgetSpent (op : Op) (line : Int) (a b : Value) :
    Value.apply op line a b ≠ .error (.budgetSpent steps limit) := by
  cases op with
  | sub | mul =>
    refine arithmetic_ne_budgetSpent (fun _ _ => ?_) _ line a b
    nofun
  | div => exact arithmetic_ne_budgetSpent (divide_ne_budgetSpent line) _ line a b
  | gt | lt | ge | le => exact ordered_ne_budgetSpent _ line _ a b
  | add | eq | and | or | unknown => nofun

theorem Expr.eval_ne_budgetSpent (e : Expr) (env : Env) :
    e.eval env ≠ .error (.budgetSpent steps limit) := by
  induction e with
  | num x => nofun
  | str s => nofun
  | ident name line =>
    rw [eval]
    split <;> nofun
  | bin op left right line ihLeft ihRight =>
    rw [eval]
    split
    · rename_i error failed
      rw [← failed]
      exact ihLeft
    · split
      · rename_i error failed
        rw [← failed]
        exact ihRight
      · exact Value.apply_ne_budgetSpent op line _ _
  | unknown label => nofun

end Evaluation

namespace Task

/-- A tick that fails for the budget is one that is counted and that the budget does not allow. -/
theorem Fails.spent_of_budgetSpent {t' : Task} {steps line : Int}
    (h : Fails supply t t' (.budgetSpent steps line)) :
    t' = t ∧ steps = supply.budget ∧ t.toll? = some line ∧ ¬t.Affords supply := by
  cases h with
  | spent toll broke => exact ⟨rfl, rfl, toll, broke⟩
  | operand _ _ _ eval => exact absurd eval (Expr.eval_ne_budgetSpent _ _)
  | last _ _ _ eval => exact absurd eval (Expr.eval_ne_budgetSpent _ _)
  | test _ _ _ _ eval => exact absurd eval (Expr.eval_ne_budgetSpent _ _)

/-- A run from the top that has come to `u`, where the budget stops it before a deed on `line`. Since
the last question, which was answered or the run would have halted there, as many deeds were counted
as the budget allows. -/
structure Stopped (supply : Supply) (p : Program) (log : List Deed) (u : Task) (line : Int) :
    Prop where
  performs : Performs supply Control.halted (.ofProgram p) log u
  going : u.control.halted = false
  refused : u.deed.line? = some line
  counted : countSinceRead log = supply.budget
  fails : u.tick supply = .failed u (.budgetSpent supply.budget line)

theorem stopped_of_fails {p : Program} {log : List Deed} {u v : Task} {steps line : Int}
    (limited : 0 < supply.budget) (performs : Performs supply Control.halted (.ofProgram p) log u)
    (going : u.control.halted = false) (fails : Fails supply u v (.budgetSpent steps line)) :
    v = u ∧ steps = supply.budget ∧ u.Stopped supply p log line := by
  obtain ⟨rfl, rfl, toll, broke⟩ := fails.spent_of_budgetSpent
  have spent := performs.spent_eq rfl
  have within := performs.spent_le limited rfl
  have reached : supply.budget ≤ v.control.spent := (Classical.not_not.mp broke).2
  refine ⟨rfl, rfl, performs, going, ?_, ?_, tick_of_fails fails⟩
  · rw [line?_deed, toll]
  · rw [← spent]
    exact Nat.le_antisymm within reached

/-- The line that is reported is the one of the deed that is refused. -/
theorem Stopped.line_eq {p : Program} {log : List Deed} {u : Task} {line : Int}
    (h : u.Stopped supply p log line) : line = u.snapshot.line := by
  have free : u.control.pending = none := (Control.open_of_going h.going).2
  have toll : u.toll? = some line := line?_deed u ▸ h.refused
  rw [snapshot, free]
  exact (line_of_toll toll).symm

end Task

namespace Machine

variable {m m' : Machine} {p : Program}

/-- A run that fails for the budget was stopped by it. -/
theorem exists_stopped (limited : 0 < m.budget) {steps line : Int}
    (spent : (m.run (some p)).2.fault = some (.runtime (.budgetSpent steps line))) :
    steps = m.budget ∧ ∃ log, ∃ u : Task, u.Stopped m.supply p log line ∧
      (m.run (some p)).2.snapshot = u.snapshot := by
  have begins : Task.Performs m.supply Control.halted (.ofProgram p) [] (.ofProgram p) := .start
  obtain ⟨log, u, performs, ends⟩ :=
    Task.exists_performs_of_drive begins (m.fuel (.ofProgram p))
  rw [run_eq_drive, drive_eq_conclude] at spent ⊢
  generalize Task.drive m.supply Control.halted (m.fuel (.ofProgram p)) (.ofProgram p) = d
    at spent ends
  cases ends with
  | reached => cases spent
  | outOfFuel => cases spent
  | failed going fails =>
    cases spent
    obtain ⟨rfl, rfl, stopped⟩ := Task.stopped_of_fails limited performs going fails
    exact ⟨rfl, log, _, stopped, rfl⟩

theorem loosens (history : m'.history = m.history)
    (budget : m.budget ≤ m'.budget ∨ m'.budget = 0) : m'.supply.Loosens m.supply :=
  ⟨budget, history⟩

/-- The budget does not show. Let a program run on a machine with a positive budget. If the budget
does not stop it, every machine with the same answers and a larger budget, and every one without a
limit that has the patience for it, returns the same. If the budget stops it, then as many deeds as
it allows were counted since the last answer, the refused one is on the line that the run reports,
and machines with a larger budget, or without a limit if they return, continue its output. -/
theorem run_loosen_budget (p : Program) (m : Machine) (limited : 0 < m.budget) :
    ((∀ steps line, (m.run (some p)).2.fault ≠ some (.runtime (.budgetSpent steps line))) →
      (∀ m' : Machine, m'.history = m.history → m.budget ≤ m'.budget →
        (m'.run (some p)).2 = (m.run (some p)).2) ∧
      ∃ enough, ∀ m' : Machine, m'.history = m.history → m'.budget = 0 → enough ≤ m'.patience →
        (m'.run (some p)).2 = (m.run (some p)).2) ∧
    ∀ steps line, (m.run (some p)).2.fault = some (.runtime (.budgetSpent steps line)) →
      steps = m.budget ∧ line = (m.run (some p)).2.snapshot.line ∧
      (∃ log, ∃ u : Task, u.Stopped m.supply p log line ∧
        (m.run (some p)).2.snapshot = u.snapshot) ∧
      ∀ m' : Machine, m'.history = m.history →
        (m.budget ≤ m'.budget ∨
          m'.budget = 0 ∧ (m'.run (some p)).2.fault ≠ some .unfinished) →
        (m.run (some p)).2.snapshot.output.toList
          <+: (m'.run (some p)).2.snapshot.output.toList := by
  obtain ⟨n, d, drives, response⟩ := exists_drives_run limited p
  refine ⟨fun unspent => ?_, fun steps line spent => ?_⟩
  · have loose (m' : Machine) (looser : m'.supply.Loosens m.supply) :
        Drives m'.supply Control.halted n (.ofProgram p) d := by
      refine drives.loosen limited looser fun steps line spent => unspent steps line ?_
      rw [response]
      exact spent
    refine ⟨fun m' history more => ?_, n + 1, fun m' history unlimited patient => ?_⟩
    · rw [response]
      exact run_of_drives (loose m' (loosens history (.inl more))) (by omega)
    · rw [response]
      exact run_of_drives (loose m' (loosens history (.inr unlimited))) fun _ => patient
  · obtain ⟨rfl, log, u, stopped, snapshot⟩ := exists_stopped limited spent
    refine ⟨rfl, snapshot ▸ stopped.line_eq, ⟨log, u, stopped, snapshot⟩, ?_⟩
    intro m' history looser
    -- the looser run ends, under its own limit or because it is said to
    obtain ⟨n', d', drives', response'⟩ : ∃ n' d',
        Drives m'.supply Control.halted n' (.ofProgram p) d' ∧
          (m'.run (some p)).2 = d'.response := by
      rcases looser with more | ⟨-, returns⟩
      · exact exists_drives_run (Nat.lt_of_lt_of_le limited more) p
      · obtain ⟨n', d', drives', run, -⟩ := drives_of_finished returns
        exact ⟨n', d', drives', congrArg Prod.snd run⟩
    rw [response, response']
    exact drives.loosen_prefix limited (loosens history (looser.imp_right And.left)) drives'

/-- A loop of one round: a budget of four stops it when it is to be tested again, and a budget of
five does not. -/
theorem run_loosen_budget_loop :
    let p : Program :=
      { statements := [.assign "x" (.str "a") 2,
          .loop (.ident "x" 3) [.write (.ident "x" 4) 4, .assign "x" (.str "") 5] 3] }
    let m : Machine := .withBudget 4
    let m' : Machine := .withBudget 5
    (m.run (some p)).2.fault = some (.runtime (.budgetSpent 4 3)) ∧
      (m.run (some p)).2.snapshot.line = 3 ∧
      (m.run (some p)).2.snapshot.output.toList
        <+: (m'.run (some p)).2.snapshot.output.toList ∧
      (m'.run (some p)).2.fault = none := by
  intro p m m'
  have limited : 0 < m.budget := by decide
  have spent : (m.run (some p)).2.fault = some (.runtime (.budgetSpent 4 3)) := rfl
  obtain ⟨-, line, -, grows⟩ := (run_loosen_budget p m limited).2 4 3 spent
  exact ⟨spent, line.symm, grows m' rfl (.inl (by decide)), rfl⟩

end Machine

end Pseudocode
