import Pseudocode.Proofs.Machine.Replay

/-!
# Stepping agrees with running

A driver may also step through a program, giving the answers one by one, each at the latest when the
program waits for it. `Settles p r m xs` says of such a driver, at the machine `m` with the answers
`xs` still to give, that it cannot get stuck or go on for ever and that it ends with the response
`r`, whenever it gives its answers.

A step makes the ticks of the run (`Drives.follow`). Its count starts again with every call, so it
is never ahead of the count of the run, and it sees a part of the answers of the run, so it stops at
most early, at a question that the run had an answer for; that question is asked again when the
answer is there. `step_settles_as_run` puts these drives together.
-/

namespace Pseudocode

/-- The response after which a driver stops that has the answers `xs` still to give: the program is
completed, the call failed, or it waits for an answer and none is left. -/
def Response.Last (r : Response) (xs : List String) : Prop :=
  r.snapshot.completed = true ∨ r.fault ≠ none ∨ (r.snapshot.pending ≠ none ∧ xs = [])

/-- A driver steps through `p` on the machine `m` and has the answers `xs` still to give. It may
give the next one at any time, and steps only when the machine does not wait. Whatever it chooses,
it always can do one of both, it comes to a last response, and that is `r`. -/
inductive Settles (p : Program) (r : Response) : Machine → List String → Prop
  | intro {m : Machine} {xs : List String}
      (live : m.pending? = none ∨ xs ≠ [])
      (give : ∀ x rest, xs = x :: rest → Settles p r (m.provide x).1 rest)
      (last : m.pending? = none → (m.step (some p)).2.Last xs → (m.step (some p)).2 = r)
      (more : m.pending? = none → ¬(m.step (some p)).2.Last xs →
        Settles p r (m.step (some p)).1 xs) :
      Settles p r m xs

namespace Task

variable {supply supply' : Supply} {t t' : Task}

/-- The task when an answer was given. -/
def resumed (t : Task) : Task :=
  { t with control := t.control.resume }

theorem resumed_of_free (free : t.control.pending = none) : t.resumed = t := by
  rcases t with ⟨⟨program, rest, inner, pending, spent⟩, memory⟩
  cases free
  rfl

theorem resumed_ask (free : t.control.pending = none) (prompt : Prompt) :
    (t.ask prompt).resumed = t.withSpent 0 := by
  rcases t with ⟨⟨program, rest, inner, pending, spent⟩, memory⟩
  cases free
  rfl

end Task

theorem Machine.stepDone_of_halted (start : Nat) {c : Control} (halted : c.halted = true) :
    Machine.stepDone start c = true := by
  rw [Machine.stepDone, halted, Bool.true_or]

/-! ## One step against the run -/

variable {supply supply' : Supply} {n : Nat} {t : Task} {d : Drive}

theorem Drives.pos_of_going {until? : Control → Bool} {u : Task}
    (h : Drives supply until? n t (.reached u)) (going : until? t.control = false) : 0 < n := by
  cases h with
  | reached done => rw [done] at going; cases going
  | tick => exact Nat.succ_pos _

/-- How the end of a step relates to the end `d` of the run, `j` ticks after it was at a point from
which the run takes `n` more ticks. -/
inductive Follows (supply supply' : Supply) (d : Drive) (n j : Nat) : Drive → Prop
  /-- Both failed. -/
  | failed {t : Task} {error : RuntimeError} {k : Nat} (run : d = .failed t error) :
      Follows supply supply' d n j (.failed (t.withSpent k) error)
  /-- The step paused at a point of the run, `j` ticks later. -/
  | paused {t : Task} {k m : Nat} (rest : Drives supply Control.halted m t d)
      (free : t.control.pending = none) (behind : k ≤ t.control.spent) (ticks : m + j = n) :
      Follows supply supply' d n j (.reached (t.withSpent k))
  /-- The step waits at a question of the run for an answer that it was not given. -/
  | asking {t : Task} {m : Nat} {name : String} {line : Int}
      (rest : Drives supply Control.halted m t d) (free : t.control.pending = none)
      (next : t.control.next? = some (.read name line)) (pays : t.Affords supply)
      (unanswered : supply'.answers[t.memory.read]? = none) (ticks : m ≤ n) :
      Follows supply supply' d n j (.reached (t.ask ⟨name, line⟩))

/-- A step with a part of the answers, and a count that is not ahead, makes the ticks of the run
until it is over. -/
theorem Drives.follow (start : Nat) (part : supply.Extends supply')
    (h : Drives supply Control.halted n t d)
    (unspent : ∀ b line, d.fault? ≠ some (.runtime (.budgetSpent b line)))
    (free : t.control.pending = none) {k : Nat} (behind : k ≤ t.control.spent) :
    ∃ j ≤ n, ∃ d', Drives supply' (Machine.stepDone start) j (t.withSpent k) d' ∧
      Follows supply supply' d n j d' := by
  induction h generalizing k with
  | @reached t done =>
    have paused := Machine.stepDone_of_halted start done
    exact ⟨0, Nat.le_refl _, _, .reached paused, .paused (.reached done) free behind rfl⟩
  | @failed t t' error going fails =>
    cases paused : Machine.stepDone start t.control with
    | true =>
      exact ⟨0, Nat.le_refl _, _, .reached paused, .paused (.failed going fails) free behind rfl⟩
    | false =>
      have allowed : ∀ b line, error ≠ .budgetSpent b line := by
        intro b line heq
        exact unspent b line (by rw [heq]; rfl)
      obtain ⟨k', fails'⟩ := fails.withSpent (fun pays => pays.withSpent behind) allowed
      exact ⟨0, Nat.le_refl _, _, .failed paused (fails'.congr part.budget.symm), .failed rfl⟩
  | @tick n t t' d going moves rest ih =>
    cases paused : Machine.stepDone start t.control with
    | true =>
      exact ⟨0, Nat.zero_le _, _, .reached paused, .paused (.tick going moves rest) free behind rfl⟩
    | false =>
      by_cases waits : ∃ name line, t.control.next? = some (.read name line) ∧
          supply'.answers[t.memory.read]? = none
      · -- the answer is not there yet: the step ends at the question, the run may go on
        obtain ⟨name, line, next, unanswered⟩ := waits
        have toll : t.toll? = some line := by
          rw [Task.toll?, next]
          rfl
        have pays := moves.affords toll
        have asks := Task.Moves.ask (t := t.withSpent k) next
          ((pays.withSpent behind).congr part.budget.symm) unanswered
        rw [Task.ask_withSpent] at asks
        have stop := Machine.stepDone_of_halted start (Task.halted_ask t ⟨name, line⟩)
        exact ⟨1, Nat.succ_le_succ (Nat.zero_le n), _, .tick paused asks (.reached stop),
          .asking (.tick going moves rest) free next pays unanswered (Nat.le_refl _)⟩
      · have answered : ∀ name line, t.control.next? = some (.read name line) →
            ∃ v, supply'.answers[t.memory.read]? = some v ∧
              supply.answers[t.memory.read]? = some v := by
          intro name line next
          cases answer : supply'.answers[t.memory.read]? with
          | none => exact absurd ⟨name, line, next, answer⟩ waits
          | some v => exact ⟨v, rfl, part.answer answer⟩
        have free' : t'.control.pending = none := by
          rcases moves.pending_eq_or_ask with same | ⟨name, line, next, unanswered, -⟩
          · exact same.trans free
          · obtain ⟨v, -, answer⟩ := answered name line next
            rw [answer] at unanswered
            cases unanswered
        obtain ⟨k', moves', ahead⟩ := moves.withSpent (fun pays => pays.withSpent behind)
        have moves'' := moves'.congr part.budget.symm fun name line next => by
          obtain ⟨v, answer', answer⟩ := answered name line next
          exact answer'.trans answer.symm
        obtain ⟨j, hj, d', drive, follows⟩ := ih unspent free' (ahead behind)
        refine ⟨j + 1, Nat.succ_le_succ hj, d', .tick paused moves'' drive, ?_⟩
        cases follows with
        | failed run => exact .failed run
        | paused rest free behind ticks => exact .paused rest free behind (by omega)
        | asking rest free next pays unanswered ticks =>
          exact .asking rest free next pays unanswered (by omega)

/-! ## Machines -/

namespace Machine

/-- The task that a step of `p` goes on with: the bound one, or the program from the top. -/
def task (m : Machine) (p : Program) : Task :=
  match m.control with
  | some control => { control, memory := m.memory }
  | none => .ofProgram p

theorem pending?_eq_task (m : Machine) (p : Program) :
    m.pending? = (m.task p).control.pending := by
  unfold pending? task
  cases m.control <;> rfl

theorem task_provide (m : Machine) (x : String) (p : Program) :
    (m.provide x).1.task p = (m.task p).resumed := by
  rcases m with ⟨budget, patience, listening, asked, history, memory, control⟩
  cases control <;> rfl

theorem task_reached (m : Machine) (t : Task) (p : Program) :
    (m.conclude (.reached t)).task p = t :=
  rfl

theorem step_eq_stepBound (m : Machine) (p : Program) :
    m.step (some p) = m.stepBound (m.task p).control (m.task p).memory := by
  unfold step task
  cases m.control <;> rfl

/-- A step of a completed program repeats what can be seen of it. -/
theorem step_of_completed {m : Machine} {p : Program}
    (free : (m.task p).control.pending = none) (completed : (m.task p).control.completed = true) :
    (m.step (some p)).2 = { snapshot := (m.task p).snapshot } := by
  rw [step_eq_stepBound, stepBound]
  split
  · rename_i prompt waits
    rw [waits] at free
    cases free
  · rw [if_pos completed]

/-- A step of a program that is not completed is a drive with a new count. -/
theorem step_eq_drive {m : Machine} {p : Program}
    (free : (m.task p).control.pending = none) (open' : (m.task p).control.completed = false) :
    m.step (some p)
      = m.drive (stepDone (m.task p).control.cursor) ((m.task p).withSpent 0) := by
  rw [step_eq_stepBound, stepBound]
  split
  · rename_i prompt waits
    rw [waits] at free
    cases free
  · rw [if_neg (Bool.not_eq_true _ ▸ open')]
    rfl

/-- A step that begins has not reached its end. -/
theorem stepDone_cursor {c : Control} (free : c.pending = none) (open' : c.completed = false) :
    stepDone c.cursor c = false := by
  have going : c.halted = false := by rw [Control.halted, open', free]; rfl
  rw [stepDone, going, Control.cursor]
  cases c.inner.isEmpty <;> simp

end Machine

/-- The machine `m`, with the answers `xs` still to give, stands at the task `t` of a run with all
answers; its count is not ahead. -/
structure Tracks (supply : Supply) (patience : Nat) (p : Program) (m : Machine) (xs : List String)
    (t : Task) : Prop where
  budget : m.budget = supply.budget
  patience : m.patience = patience
  answers : m.history.toList ++ xs.map Value.ofAnswer = supply.answers.toList
  task : ∃ k ≤ t.control.spent, m.task p = t.withSpent k
  free : t.control.pending = none

namespace Tracks

variable {patience : Nat} {p : Program} {m : Machine} {xs : List String}

theorem part (h : Tracks supply patience p m xs t) : supply.Extends m.supply :=
  ⟨h.budget.symm, ⟨xs.map Value.ofAnswer, h.answers⟩⟩

theorem pending? (h : Tracks supply patience p m xs t) : m.pending? = none := by
  obtain ⟨k, -, task⟩ := h.task
  rw [Machine.pending?_eq_task m p, task]
  exact h.free

/-- An answer may be given before it is asked for. -/
theorem provide {x : String} (h : Tracks supply patience p m (x :: xs) t) :
    Tracks supply patience p (m.provide x).1 xs t where
  budget := h.budget
  patience := h.patience
  answers := by
    rw [← h.answers]
    simp [Machine.provide]
  task := by
    obtain ⟨k, behind, task⟩ := h.task
    have free : (t.withSpent k).control.pending = none := h.free
    refine ⟨k, behind, ?_⟩
    rw [Machine.task_provide, task, Task.resumed_of_free free]
  free := h.free

/-- A step that pauses leaves the machine at a later task of the run. -/
theorem pause (h : Tracks supply patience p m xs t) {t' : Task} {k : Nat}
    (behind : k ≤ t'.control.spent) (free : t'.control.pending = none) :
    Tracks supply patience p (m.conclude (.reached (t'.withSpent k))) xs t' where
  budget := (Machine.budget_announce ..).trans h.budget
  patience := (Machine.patience_announce ..).trans h.patience
  answers := by
    show (m.announce _).history.toList ++ _ = _
    rw [Machine.history_announce, h.answers]
  task := ⟨k, behind, Machine.task_reached ..⟩
  free := free

/-- A step that waits leaves the machine, once it has its answer, at the task that asked. -/
theorem answer {x : String} (h : Tracks supply patience p m (x :: xs) t) {t' : Task}
    (free : t'.control.pending = none) (prompt : Prompt) :
    Tracks supply patience p ((m.conclude (.reached (t'.ask prompt))).provide x).1 xs t' where
  budget := (Machine.budget_announce ..).trans h.budget
  patience := (Machine.patience_announce ..).trans h.patience
  answers := by
    show ((m.announce _).history.push _).toList ++ _ = _
    rw [Machine.history_announce, ← h.answers]
    simp
  task := by
    refine ⟨0, Nat.zero_le _, ?_⟩
    rw [Machine.task_provide, Machine.task_reached, Task.resumed_ask free]
  free := free

end Tracks

/-- One step of a driver whose machine stands at a task of the run: it is the last one and gives the
response of the run, or it leaves the machine at a later task, or it leaves it waiting for the next
answer at a task from which the run has no longer way to go. -/
inductive Stepped (supply : Supply) (patience : Nat) (p : Program) (d : Drive) (n : Nat)
    (xs : List String) : Machine × Response → Prop
  | last {m : Machine} {r : Response} (last : r.Last xs) (same : r = d.response) :
      Stepped supply patience p d n xs (m, r)
  | paused {m : Machine} {r : Response} {t : Task} {n' : Nat} (more : ¬r.Last xs)
      (track : Tracks supply patience p m xs t) (rest : Drives supply Control.halted n' t d)
      (ticks : n' < n) : Stepped supply patience p d n xs (m, r)
  | waiting {m : Machine} {r : Response} {t : Task} {n' : Nat} (more : ¬r.Last xs)
      (waits : m.pending? ≠ none) (left : xs ≠ [])
      (answer : ∀ x rest, xs = x :: rest → Tracks supply patience p (m.provide x).1 rest t)
      (rest : Drives supply Control.halted n' t d) (ticks : n' ≤ n) :
      Stepped supply patience p d n xs (m, r)

theorem Tracks.step {patience : Nat} {p : Program} {m : Machine} {xs : List String}
    (track : Tracks supply patience p m xs t) (run : Drives supply Control.halted n t d)
    (patient : supply.budget = 0 → n < patience)
    (unspent : ∀ b line, d.fault? ≠ some (.runtime (.budgetSpent b line))) :
    Stepped supply patience p d n xs (m.step (some p)) := by
  obtain ⟨k, behind, task⟩ := track.task
  have free : (m.task p).control.pending = none := by rw [task]; exact track.free
  cases completed : t.control.completed with
  | true =>
    have completed' : (m.task p).control.completed = true := by rw [task]; exact completed
    -- the run has ended here, and the step only repeats what can be seen
    obtain ⟨-, rfl⟩ := run.unique (.reached (Task.halted_of_completed completed))
    have response := Machine.step_of_completed free completed'
    rw [task, Task.snapshot_withSpent] at response
    rw [← Prod.eta (m.step (some p)), response]
    exact .last (.inl completed) rfl
  | false =>
    have open' : (m.task p).control.completed = false := by rw [task]; exact completed
    obtain ⟨j, hj, d', drive, follows⟩ := run.follow (m.task p).control.cursor track.part unspent
      track.free (Nat.zero_le _)
    have patient' : m.budget = 0 → j < m.patience := by
      intro unlimited
      rw [track.patience]
      exact Nat.lt_of_le_of_lt hj (patient (track.budget ▸ unlimited))
    have hstep : m.step (some p) = (m.conclude d', d'.response) := by
      rw [Machine.step_eq_drive free open', task, Task.withSpent_withSpent]
      rw [task] at drive
      exact Machine.drive_of_drives drive (fun _ => Machine.stepDone_of_halted _) patient'
    rw [hstep]
    cases follows with
    | failed run =>
      subst run
      exact .last (.inr (.inl (Option.some_ne_none _))) rfl
    | @paused t' k' n' rest free' behind' ticks =>
      cases completed' : t'.control.completed with
      | true =>
        obtain ⟨-, rfl⟩ := rest.unique (.reached (Task.halted_of_completed completed'))
        exact .last (.inl completed') rfl
      | false =>
        -- a step does not end where it begins, so it has made at least one tick of the run
        have going := Machine.stepDone_cursor free open'
        have started : 0 < j := drive.pos_of_going (by rw [task] at going; rw [task]; exact going)
        have more : ¬(Drive.reached (t'.withSpent k')).response.Last xs := by
          rintro (last | last | ⟨last, -⟩)
          · exact Bool.false_ne_true (completed'.symm.trans last)
          · exact last rfl
          · exact last (congrArg (Option.map Prompt.name) free')
        exact .paused more (track.pause behind' free') rest (by omega)
    | @asking t' n' name line rest free' next pays unanswered ticks =>
      have open' := Task.completed_of_next next
      have going : t'.control.halted = false := by rw [Control.halted, open', free']; rfl
      cases xs with
      | nil =>
        -- the machine has all answers of the run, which therefore waits at the same question
        have unanswered' : supply.answers[t'.memory.read]? = none := by
          rw [← Array.getElem?_toList, ← track.answers, List.map_nil, List.append_nil,
            Array.getElem?_toList]
          exact unanswered
        obtain ⟨-, rfl⟩ := rest.unique
          (.tick going (.ask next pays unanswered') (.reached (Task.halted_ask ..)))
        exact .last (.inr (.inr ⟨Option.some_ne_none _, rfl⟩)) rfl
      | cons x xs =>
        have more : ¬(Drive.reached (t'.ask ⟨name, line⟩)).response.Last (x :: xs) := by
          rintro (last | last | ⟨-, last⟩)
          · exact Bool.false_ne_true (open'.symm.trans last)
          · exact last rfl
          · cases last
        refine .waiting more (Option.some_ne_none _) (List.cons_ne_nil x xs) ?_ rest ticks
        rintro _ _ ⟨⟩
        exact track.answer free' ⟨name, line⟩

/-- A driver whose machine stands at a task of the run ends with the response of the run. The
induction is on the ticks that the run has left and the answers still to give: a step that pauses
lowers the first, and an answer lowers the second. -/
theorem Tracks.settles {patience : Nat} {p : Program} {m : Machine} {xs : List String}
    (track : Tracks supply patience p m xs t) (run : Drives supply Control.halted n t d)
    (patient : supply.budget = 0 → n < patience)
    (unspent : ∀ b line, d.fault? ≠ some (.runtime (.budgetSpent b line))) :
    Settles p d.response m xs := by
  induction size : n + xs.length using Nat.strongRecOn generalizing n t m xs with
  | ind N ih =>
    have stepped := track.step run patient unspent
    generalize hstep : m.step (some p) = outcome at stepped
    refine .intro (.inl track.pending?) ?_ (fun _ last => ?_) (fun _ more => ?_)
    · rintro x rest rfl
      rw [List.length_cons] at size
      exact ih (n + rest.length) (by omega) track.provide run patient rfl
    · rw [hstep] at last ⊢
      cases stepped with
      | last _ same => exact same
      | paused more => exact absurd last more
      | waiting more => exact absurd last more
    · rw [hstep] at more ⊢
      cases stepped with
      | last last => exact absurd last more
      | @paused m' r t' n' _ track' rest ticks =>
        exact ih (n' + xs.length) (by omega) track' rest
          (fun h => Nat.lt_trans ticks (patient h)) rfl
      | @waiting m' r t' n' _ waits left answer rest ticks =>
        -- the machine refuses to step while it waits, so the driver can only give the next answer
        refine .intro (.inr left) ?_ (fun free => absurd free waits) (fun free => absurd free waits)
        rintro x xs rfl
        rw [List.length_cons] at size
        exact ih (n' + xs.length) (by omega) (answer x xs rfl) rest
          (fun h => Nat.lt_of_le_of_lt ticks (patient h)) rfl

/-- Stepping agrees with running. Let `p` run on a new machine that was given all of `xs` before,
and let the run return and not exceed the budget. A driver that steps through `p` on another such
machine and gives `xs` in order, each answer at the latest when the machine waits for it, ends with
the response of the run. -/
theorem step_settles_as_run (p : Program) (xs : List String) (budget : Int) (patience : Nat)
    (listening : Bool) :
    let m : Machine := .create budget patience listening
    let r : Response := ((m.provideAll xs).run (some p)).2
    r.fault ≠ some .unfinished → (∀ b line, r.fault ≠ some (.runtime (.budgetSpent b line))) →
      Settles p r m xs := by
  intro m r returns unspent
  obtain ⟨n, d, run, hrun, patient⟩ := Machine.drives_of_finished returns
  have response : r = d.response := congrArg Prod.snd hrun
  have track : Tracks (m.provideAll xs).supply patience p m xs (.ofProgram p) := by
    refine ⟨(Machine.budget_provideAll m xs).symm, rfl, ?_, ⟨0, Nat.zero_le _, rfl⟩, rfl⟩
    show _ = (m.provideAll xs).history.toList
    rw [Machine.history_provideAll, Array.toList_append]
  have patient' : (m.provideAll xs).supply.budget = 0 → n < patience := by
    intro unlimited
    have within := patient unlimited
    rwa [Machine.patience_provideAll] at within
  rw [response] at unspent ⊢
  exact track.settles run patient' unspent

/-- A question inside a branch, under a budget of two statements for each answer. -/
theorem step_settles_as_run_in_branch :
    let p : Program :=
      { statements := [.read "x" 2,
          .cond (.ident "x" 3) [.read "y" 4, .write (.ident "y" 5) 5] none 3] }
    let m : Machine := .create 2 0 true
    let r : Response := ((m.provideAll ["oui", "non"]).run (some p)).2
    r.snapshot.completed = true ∧ r.fault = none ∧ Settles p r m ["oui", "non"] := by
  intro p m r
  have returns : r.fault = none := by decide +kernel
  have completed : r.snapshot.completed = true := by decide +kernel
  refine ⟨completed, returns, ?_⟩
  exact step_settles_as_run p ["oui", "non"] 2 0 true (by rw [returns]; nofun)
    (by rw [returns]; nofun)

end Pseudocode
