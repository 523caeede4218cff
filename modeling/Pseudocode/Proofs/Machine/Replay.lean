import Pseudocode.Proofs.Machine.Drive

/-!
# Replay with more answers

A run sees its answers only through the questions it asks, in order. With more answers behind the
same ones, every tick is the same until the first question that was not answered before
(`Moves.extend`); there the shorter run is suspended, and the longer one goes on and can only add to
the output. So a run that was not suspended is repeated exactly, and one that was is continued
(`run_replays_history`).
-/

namespace Pseudocode

/-- A supply with the same budget and perhaps more answers behind the same ones. -/
structure Supply.Extends (supply' supply : Supply) : Prop where
  budget : supply'.budget = supply.budget
  answers : supply.answers.toList <+: supply'.answers.toList

theorem Supply.Extends.answer {supply supply' : Supply} (h : supply'.Extends supply) {i : Nat}
    {v : Value} (answer : supply.answers[i]? = some v) : supply'.answers[i]? = some v := by
  rw [← Array.getElem?_toList] at answer ⊢
  obtain ⟨later, hlater⟩ := h.answers
  have inside := (List.getElem?_eq_some_iff.mp answer).1
  rw [← hlater, List.getElem?_append_left inside, answer]

namespace Task

variable {supply supply' : Supply} {t t' : Task}

theorem Affords.congr (budget : supply'.budget = supply.budget) (pays : t.Affords supply) :
    t.Affords supply' := by
  unfold Affords
  rw [budget]
  exact pays

/-- A move can be made with every supply that allows it: it depends on the answers only where it
reads one. -/
theorem Moves.transfer (h : Moves supply t t') (afford : t.Affords supply → t.Affords supply')
    (same : ∀ name line, t.control.next? = some (.read name line) →
      supply'.answers[t.memory.read]? = supply.answers[t.memory.read]?) :
    Moves supply' t t' := by
  cases h with
  | assign next pays eval => exact .assign next (afford pays) eval
  | write next pays eval => exact .write next (afford pays) eval
  | take next pays answer => exact .take next (afford pays) ((same _ _ next).trans answer)
  | ask next pays unanswered =>
    exact .ask next (afford pays) ((same _ _ next).trans unanswered)
  | cond next pays eval => exact .cond next (afford pays) eval
  | loop next pays eval => exact .loop next (afford pays) eval
  | count next pays evalFirst evalLast =>
    exact .count next (afford pays) evalFirst evalLast
  | leave next inner kind => exact .leave next inner kind
  | again next inner kind pays eval => exact .again next inner kind (afford pays) eval
  | recount next inner kind pays => exact .recount next inner kind (afford pays)
  | idle next inner => exact .idle next inner

theorem Moves.congr (budget : supply'.budget = supply.budget) (h : Moves supply t t')
    (same : ∀ name line, t.control.next? = some (.read name line) →
      supply'.answers[t.memory.read]? = supply.answers[t.memory.read]?) :
    Moves supply' t t' :=
  h.transfer (fun pays => pays.congr budget) same

/-- A failure that is not one of the budget happens with every supply that allows the tick; it does
not depend on the answers. -/
theorem Fails.transfer {error : RuntimeError} (h : Fails supply t t' error)
    (afford : t.Affords supply → t.Affords supply') :
    Fails supply' t t' error ∨ ∃ line, t' = t ∧ error = .budgetSpent supply.budget line ∧
      t.toll? = some line ∧ ¬t.Affords supply := by
  cases h with
  | spent toll broke => exact .inr ⟨_, rfl, rfl, toll, broke⟩
  | operand next pays operand eval => exact .inl (.operand next (afford pays) operand eval)
  | last next pays evalFirst evalLast => exact .inl (.last next (afford pays) evalFirst evalLast)
  | mismatch next pays evalFirst evalLast texts =>
    exact .inl (.mismatch next (afford pays) evalFirst evalLast texts)
  | unknown next pays => exact .inl (.unknown next (afford pays))
  | test next inner kind pays eval => exact .inl (.test next inner kind (afford pays) eval)

/-- A failure does not depend on the answers. -/
theorem Fails.congr {error : RuntimeError} (budget : supply'.budget = supply.budget)
    (h : Fails supply t t' error) : Fails supply' t t' error := by
  rcases h.transfer (fun pays => pays.congr budget) with fails | ⟨line, rfl, rfl, toll, broke⟩
  · exact fails
  · rw [← budget]
    exact .spent toll fun pays => broke (pays.congr budget.symm)

/-- With more answers behind the same ones a tick makes the same move, unless it waits for an answer
that it was not given. -/
theorem Moves.extend (more : supply'.Extends supply) (h : Moves supply t t') :
    Moves supply' t t' ∨ ∃ prompt, t' = t.ask prompt := by
  by_cases waits : ∃ name line, t.control.next? = some (.read name line) ∧
      supply.answers[t.memory.read]? = none
  · obtain ⟨name, line, next, unanswered⟩ := waits
    have toll : t.toll? = some line := by
      rw [toll?, next]
      rfl
    exact .inr ⟨_, h.unique (.ask next (h.affords toll) unanswered)⟩
  · refine .inl (h.congr more.budget fun name line next => ?_)
    cases answer : supply.answers[t.memory.read]? with
    | some v => exact more.answer answer
    | none => exact absurd ⟨name, line, next, answer⟩ waits

/-! ## Output only grows -/

theorem output_iterate (t : Task) (name : String) (body : List Stmt) (line : Int)
    (counter last : Float) :
    (t.iterate name body line counter last).memory.output = t.memory.output := by
  unfold iterate
  split <;> rfl

theorem Moves.output_prefix (h : Moves supply t t') :
    t.memory.output.toList <+: t'.memory.output.toList := by
  cases h with
  | @write value line v next pays eval =>
    show t.memory.output.toList <+: (t.memory.output.push v).toList
    rw [Array.toList_push]
    exact List.prefix_append _ _
  | loop next pays eval =>
    rw [memory_reenter]
    exact List.prefix_rfl
  | count next pays evalFirst evalLast =>
    rw [output_iterate]
    exact List.prefix_rfl
  | again next inner kind pays eval =>
    rw [memory_reenter]
    exact List.prefix_rfl
  | recount next inner kind pays =>
    rw [output_iterate]
    exact List.prefix_rfl
  | assign | take | ask | cond | leave | idle => exact List.prefix_rfl

end Task

variable {supply supply' : Supply} {n n' : Nat} {t t' : Task} {d d' : Drive}

/-- Along a drive the output only grows. -/
theorem Drives.output_prefix {until? : Control → Bool} (h : Drives supply until? n t d) :
    t.memory.output.toList <+: d.task.memory.output.toList := by
  induction h with
  | reached done => exact List.prefix_rfl
  | @failed t t' error going fails =>
    have kept : t'.memory = t.memory := fails.memory_eq
    exact ⟨[], by simp [Drive.task, kept]⟩
  | tick going moves rest ih => exact moves.output_prefix.trans ih

/-- A drive past its first tick. -/
theorem Drives.tail {until? : Control → Bool} (h : Drives supply until? n t d)
    (going : until? t.control = false) (moves : t.Moves supply t') :
    ∃ m, Drives supply until? m t' d := by
  cases h with
  | reached done => rw [done] at going; cases going
  | failed _ fails => exact (fails.not_moves moves).elim
  | tick _ moves' rest =>
    obtain rfl := moves.unique moves'
    exact ⟨_, rest⟩

/-- With more answers behind the same ones, a run that did not end by waiting ends in the same way,
and the output of one that did is continued. -/
theorem Drives.extend (more : supply'.Extends supply)
    (h : Drives supply Control.halted n t d) (h' : Drives supply' Control.halted n' t d') :
    (d.task.control.pending = none → d' = d) ∧
      d.task.memory.output.toList <+: d'.task.memory.output.toList := by
  induction h generalizing n' with
  | reached done =>
    obtain ⟨-, rfl⟩ := h'.unique (.reached done)
    exact ⟨fun _ => rfl, List.prefix_rfl⟩
  | failed going fails =>
    obtain ⟨-, rfl⟩ := h'.unique (.failed going (fails.congr more.budget))
    exact ⟨fun _ => rfl, List.prefix_rfl⟩
  | @tick n t t' d going moves rest ih =>
    rcases moves.extend more with moves' | ⟨prompt, rfl⟩
    · obtain ⟨m, rest'⟩ := h'.tail going moves'
      exact ih rest'
    · -- the shorter run waits here, so it ends here; the longer one goes on from the same output
      obtain ⟨-, rfl⟩ := rest.unique (.reached (Task.halted_ask t prompt))
      refine ⟨fun free => ?_, h'.output_prefix⟩
      cases free

/-- Replay only extends. Of two machines with the same budget, let the second have been given more
answers after those of the first, and let the same program return on both, whatever they did before.
If it is not suspended on the first, the second repeats the response; if it is, the second continues
the output. -/
theorem run_replays_history (p : Program) (m m' : Machine) (later : Array Value)
    (budget : m'.budget = m.budget) (history : m'.history = m.history ++ later)
    (returns : (m.run (some p)).2.fault ≠ some .unfinished)
    (returns' : (m'.run (some p)).2.fault ≠ some .unfinished) :
    ((m.run (some p)).2.snapshot.pending = none → (m'.run (some p)).2 = (m.run (some p)).2) ∧
      ((m.run (some p)).2.snapshot.pending ≠ none →
        (m.run (some p)).2.snapshot.output.toList
          <+: (m'.run (some p)).2.snapshot.output.toList) := by
  obtain ⟨n, d, h, hd, -⟩ := Machine.drives_of_finished returns
  obtain ⟨n', d', h', hd', -⟩ := Machine.drives_of_finished returns'
  have more : m'.supply.Extends m.supply := by
    refine ⟨budget, ?_⟩
    show m.history.toList <+: m'.history.toList
    rw [history, Array.toList_append]
    exact List.prefix_append _ _
  obtain ⟨same, grows⟩ := h.extend more h'
  rw [Machine.run_eq_drive, Machine.run_eq_drive, hd, hd']
  refine ⟨fun free => ?_, fun _ => grows⟩
  have free : d.task.control.pending = none := Option.map_eq_none_iff.mp free
  rw [same free]

/-- A question that was not answered, and the same program with an answer. -/
theorem run_replays_history_one_answer :
    let p : Program :=
      { statements := [.write (.str "nom") 2, .read "x" 3, .write (.ident "x" 4) 4] }
    let m : Machine := Machine.withBudget 5
    let m' : Machine := { m with history := #[.text "Ada"] }
    (m.run (some p)).2.snapshot.pending = some "x" ∧
      (m.run (some p)).2.snapshot.output.toList
        <+: (m'.run (some p)).2.snapshot.output.toList := by
  intro p m m'
  have waits : (m.run (some p)).2.snapshot.pending = some "x" := rfl
  have returns : (m.run (some p)).2.fault = none := rfl
  have returns' : (m'.run (some p)).2.fault = none := rfl
  have replay := run_replays_history p m m' #[.text "Ada"] rfl rfl (by simp [returns])
    (by simp [returns'])
  exact ⟨waits, replay.2 (by simp [waits])⟩

end Pseudocode
