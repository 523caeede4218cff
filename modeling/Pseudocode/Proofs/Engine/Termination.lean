import Pseudocode.Proofs.Engine.Refinement

/-!
# Every call returns

A call ticks in a loop that does not count its rounds. Under a limit that the counter can go beyond,
every call that an engine can be given returns, and a number of ticks that is enough for it is known
before (`reaches_returns`): no loop of a program, with or without statements in it, goes on for ever.

No quantity falls by itself. An answer starts the count again, leaving a branch is not counted, and a
loop that starts over goes back in its body. What falls is `Task.ticksLeft`, which gives every unread
answer the worth of a whole budget and every step left in the budget that of two open blocks.

The counter has 64 bits, and no number that it can hold is beyond the greatest of them. As a limit
that one is none, and an empty loop whose test never fails goes on for ever under it
(`greatest_limit_ends_nothing`).
-/

namespace Pseudocode

/-! ## Drives of the machine -/

/-- The bound for a task that has no step counted yet, in terms of the unread answers, the budget
and the open blocks. -/
theorem Task.ticksLeft_of_uncounted {supply : Supply} {t : Task}
    (uncounted : t.control.spent = 0) : t.ticksLeft supply + 2
    = (supply.answers.size - t.memory.read + 1) * (2 * supply.budget + 2)
      + t.control.inner.length := by
  rw [ticksLeft, uncounted, Nat.add_mul]
  omega

namespace Machine

variable {m : Machine} {call : Call} {l : Launch}

/-- A drive starts with a new count. -/
theorem spent_of_launch? (launch : m.launch? call = some l) : l.task.control.spent = 0 := by
  cases call with
  | run program? =>
    obtain ⟨p, -, rfl⟩ := launch?_run launch
    rfl
  | step program? =>
    obtain ⟨t, -, -, rfl⟩ := launch?_step launch
    rfl
  | provide raw => cases launch
  | reset => cases launch

/-- Under a positive budget the drive of a call ends, after no more ticks than the unread answers,
the budget and the open blocks allow. -/
theorem exists_drives_of_launch? (limited : 0 < m.budget) (launch : m.launch? call = some l) :
    ∃ j d, Drives m.supply l.until? j l.task d ∧
      j < (m.history.size - l.task.memory.read + 1) * (2 * m.budget + 2)
        + l.task.control.inner.length := by
  have limited' : 0 < m.supply.budget := limited
  obtain ⟨j, enough, d, drives⟩ :=
    exists_drives_of_limited limited' (stops_of_launch? launch) l.task
  rw [Task.ticksLeft_of_uncounted (spent_of_launch? launch)] at enough
  exact ⟨j, d, drives, enough⟩

end Machine

namespace Engine

/-! ## Loops of ticks -/

section Loops

variable {done : Engine → Bool} {e e' : Engine} {n k : Nat} {call : Call}
  {shown : Option (Result × Option RuntimeError)}

/-- A loop that is over stays over. -/
theorem drive_of_le (ended : ∀ u, drive done n e ≠ .running u) (le : n ≤ k) :
    drive done k e = drive done n e := by
  induction n generalizing e k with
  | zero => exact absurd rfl (ended e)
  | succ n ih =>
    obtain ⟨k, rfl⟩ : ∃ j, k = j + 1 := ⟨k - 1, by omega⟩
    rw [drive] at ended ⊢
    rw [drive]
    by_cases halt : done e = true
    · rw [if_pos halt, if_pos halt]
    · rw [if_neg halt] at ended ⊢
      rw [if_neg halt]
      cases tick : e.tick with
      | ok e' =>
        simp only [tick] at ended
        exact ih ended (by omega)
      | raised e' error => rfl
      | crashed => rfl

/-- A loop that has come to a reply comes to it with more ticks as well. -/
theorem conclude_drive_of_le (returned : (drive done n e).conclude = .returned e' shown)
    (le : n ≤ k) : (drive done k e).conclude = .returned e' shown := by
  rw [drive_of_le _ le, returned]
  intro u running
  rw [running] at returned
  cases returned

theorem stepBound_of_le (returned : e.stepBound n = .returned e' shown) (le : n ≤ k) :
    e.stepBound k = .returned e' shown := by
  unfold stepBound at returned ⊢
  by_cases waits : e.suspended = true
  · rw [if_pos waits] at returned ⊢
    exact returned
  by_cases completed : e.completed = true
  · rw [if_neg waits, if_pos completed] at returned ⊢
    exact returned
  rw [if_neg waits, if_neg completed] at returned ⊢
  cases last : e.frames.getLast? with
  | none =>
    simp only [last] at returned
    cases returned
  | some b =>
    simp only [last] at returned ⊢
    cases tick : ({ e with steps := 0 } : Engine).tick with
    | ok u =>
      simp only [tick] at returned ⊢
      exact conclude_drive_of_le returned le
    | raised u error =>
      simp only [tick] at returned ⊢
      exact returned
    | crashed =>
      simp only [tick] at returned
      cases returned

/-- A call that has returned returns the same with more ticks. -/
theorem serve_of_le (returned : e.serve n call = .returned e' shown) (le : n ≤ k) :
    e.serve k call = .returned e' shown := by
  cases call with
  | run program? =>
    rw [serve, run] at returned ⊢
    cases chosen : program?.or e.program with
    | none =>
      simp only [chosen] at returned ⊢
      exact returned
    | some p =>
      simp only [chosen] at returned ⊢
      exact conclude_drive_of_le returned le
  | step program? =>
    unfold serve step at returned ⊢
    cases bound : e.program with
    | some p =>
      simp only [bound] at returned ⊢
      exact stepBound_of_le returned le
    | none =>
      cases program? with
      | none =>
        simp only [bound] at returned ⊢
        exact returned
      | some p =>
        simp only [bound] at returned ⊢
        exact stepBound_of_le returned le
  | provide raw => exact returned
  | reset => exact returned

end Loops

/-! ## Calls -/

section Calls

variable {m : Machine} {e : Engine} {call : Call} {l : Launch}

/-- A drive starts with no more open blocks than the engine has. -/
theorem Agrees.length_inner_le (h : Agrees e m) (launch : m.launch? call = some l) :
    l.task.control.inner.length ≤ e.frames.length := by
  cases call with
  | run program? =>
    obtain ⟨p, -, rfl⟩ := Machine.launch?_run launch
    exact Nat.zero_le _
  | step program? =>
    obtain ⟨t, chosen, -, rfl⟩ := Machine.launch?_step launch
    unfold Machine.task? at chosen
    split at chosen
    · rename_i c bound
      cases chosen
      rw [(h.stands bound).length_frames]
      exact Nat.le_succ _
    · obtain ⟨p, -, rfl⟩ := Option.map_eq_some_iff.mp chosen
      exact Nat.zero_le _
  | provide raw => cases launch
  | reset => cases launch

/-- Under a positive budget a call returns after as many ticks as any call can need. -/
theorem Agrees.exists_returned (h : Agrees e m) (kept : m.Coherent) (limited : 0 < m.budget)
    (call : Call) {n : Nat}
    (enough : (e.history.size + 1) * (2 * m.budget + 2) + e.frames.length ≤ n) :
    ∃ e' shown, e.serve n call = .returned e' shown := by
  cases launch : m.launch? call with
  | none =>
    obtain ⟨e', shown, returned, -⟩ := h.serve_of_grounded kept launch n
    exact ⟨e', shown, returned⟩
  | some l =>
    obtain ⟨j, d, drives, lt⟩ := Machine.exists_drives_of_launch? limited launch
    have inner := h.length_inner_le launch
    have unread : (m.history.size - l.task.memory.read + 1) * (2 * m.budget + 2)
        ≤ (e.history.size + 1) * (2 * m.budget + 2) := by
      apply Nat.mul_le_mul_right
      rw [h.shares.history]
      omega
    exact h.returned_of_drives kept launch drives (by omega)

end Calls

/-- A limit that the counter can go beyond makes every call return. After any calls on a new engine
with a positive limit below the greatest number of the counter, whatever call comes next returns as
soon as it may make as many ticks as the answers given, the limit and the open blocks allow, and
returns the same however many more it may make. -/
theorem reaches_returns {limit : Int64} (positive : 0 < limit) (below : limit < Int64.maxValue)
    {listening : Bool} {calls : List Call} {e : Engine}
    (reaches : Reaches (create limit listening) calls e) (call : Call) :
    ∃ e' shown, ∀ n ≥ (e.history.size + 1) * (2 * limit.toInt.toNat + 2) + e.frames.length,
      e.serve n call = .returned e' shown := by
  obtain ⟨m, agrees, kept, -, budget, -⟩ := reaches.exists_machine 0
  have same : m.budget = limit.toInt.toNat := by
    rw [budget, Engine.budget]
    exact if_pos ⟨positive, below⟩
  have limited : 0 < m.budget := by
    have positive' := Int64.lt_iff_toInt_lt.mp positive
    rw [Int64.toInt_zero] at positive'
    omega
  obtain ⟨e', shown, returned⟩ := agrees.exists_returned kept limited call (Nat.le_refl _)
  rw [same] at returned
  exact ⟨e', shown, fun n enough => serve_of_le returned enough⟩

/-- An empty loop whose test never fails. -/
def forever : Program :=
  { statements := [.loop (.num 1) [] 2] }

/-- An empty counted loop whose counter has grown so large that adding one leaves it as it is. -/
def stuck : Program :=
  { statements := [.count "i" (.num 9007199254740992) (.num 9007199254740994) [] 2] }

/-- After an answer was given to an engine with a limit of three, sixteen ticks are enough for
each. -/
theorem reaches_returns_empty_loops :
    ∃ e, Reaches (create 3 false) [.provide "12"] e ∧ ∀ p ∈ [forever, stuck], ∃ e' r,
      ∀ n ≥ 16, e.serve n (.run (some p)) = .returned e' (some (r, some (.budgetSpent 3 2))) := by
  have reaches : Reaches (create 3 false) [.provide "12"] _ := .call (n := 0) .start rfl
  refine ⟨_, reaches, fun p member => ?_⟩
  obtain ⟨e', shown, returns⟩ :=
    reaches_returns (by decide) (by decide) reaches (.run (some p))
  have returned := returns 16 (by decide)
  simp only [List.mem_cons, List.not_mem_nil, or_false] at member
  rcases member with rfl | rfl
  · have fails : ((create 3 false).provide "12").serve 16 (.run (some forever))
        = .returned _ (some (_, some (.budgetSpent 3 2))) := rfl
    rw [fails] at returned
    cases returned
    exact ⟨_, _, returns⟩
  · have fails : ((create 3 false).provide "12").serve 16 (.run (some stuck))
        = .returned _ (some (_, some (.budgetSpent 3 2))) := rfl
    rw [fails] at returned
    cases returned
    exact ⟨_, _, returns⟩

/-! ## The greatest limit -/

/-- The engine is in the empty loop, and its counter cannot go beyond its limit. -/
structure Spins (e : Engine) : Prop where
  limit : e.limit = Int64.maxValue
  free : e.suspended = false
  frames : e.frames = [{ kind := .loop, statements := [], line := 2, test := .num 1 },
    { statements := forever.statements, pc := 1 }]

theorem not_maxValue_lt (a : Int64) : ¬Int64.maxValue < a := by
  have := a.toInt_le
  rw [Int64.lt_iff_toInt_lt]
  omega

theorem Spins.tick {e : Engine} (h : Spins e) : ∃ e', e.tick = .ok e' ∧ Spins e' := by
  have within : ¬(0 < e.paid.limit ∧ e.paid.limit < e.paid.steps) := by
    rintro ⟨-, beyond⟩
    rw [show e.paid.limit = Int64.maxValue from h.limit] at beyond
    exact not_maxValue_lt _ beyond
  refine ⟨e.paid.pop.push { kind := .loop, statements := [], line := 2, test := .num 1 }, ?_, ?_⟩
  · simp only [Engine.tick, h.frames, endOfBlock, charged, if_neg within]
    rfl
  · exact ⟨h.limit, h.free, by simp only [push, pop, paid, h.frames, List.tail_cons]⟩

theorem Spins.drive {e : Engine} (h : Spins e) (n : Nat) : ∃ u, drive halted n e = .running u := by
  induction n generalizing e with
  | zero => exact ⟨e, rfl⟩
  | succ n ih =>
    have going : ¬halted e = true := by
      simp [halted, completed, only?, h.frames, h.free]
    obtain ⟨e', tick, spins⟩ := h.tick
    rw [Engine.drive, if_neg going]
    simp only [tick]
    exact ih spins

/-- Under the greatest limit, which is positive, a run of the empty loop goes on for ever. -/
theorem greatest_limit_ends_nothing : 0 < Int64.maxValue ∧
    ∀ n, ∃ u, (create Int64.maxValue false).serve n (.run (some forever)) = .running u := by
  refine ⟨by decide, fun n => ?_⟩
  show ∃ u, (drive halted n ((create Int64.maxValue false).start forever)).conclude = .running u
  cases n with
  | zero => exact ⟨_, rfl⟩
  | succ n =>
    -- the first tick opens the loop
    obtain ⟨e, first, spins⟩ : ∃ e,
        ((create Int64.maxValue false).start forever).tick = .ok e ∧ Spins e :=
      ⟨_, rfl, rfl, rfl, rfl⟩
    have going : ¬halted ((create Int64.maxValue false).start forever) = true := by decide
    obtain ⟨u, running⟩ := spins.drive n
    refine ⟨u, ?_⟩
    rw [Engine.drive, if_neg going]
    simp only [first, running]
    rfl

end Engine

end Pseudocode
