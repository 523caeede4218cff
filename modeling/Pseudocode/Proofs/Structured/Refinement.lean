import Pseudocode.Proofs.Machine.Drive
import Pseudocode.Proofs.Structured.Exec

/-!
# The machine implements structured execution

The machine spreads the meaning of a statement over frames that are opened, started over and closed.
Two arguments tie it to structured execution.

* From execution to machine: by induction on a derivation, a task that stands before some work, at
  any site, is driven to what follows it (`Exec.served`). What follows is a parameter, so that the
  body of a loop can be followed by the loop.
* From machine to execution: a stack of frames stands for the work that is left (`Continues`). A
  tick keeps that meaning, read backwards (`means_of_moves`), so the meaning of the end of a drive
  is that of its start.
-/

namespace Pseudocode.Structured

/-! ## Stores and sites -/

/-- The store that a task amounts to. -/
def storeOf (supply : Supply) (t : Task) : Store where
  vars := t.memory.vars
  output := t.memory.output.toList
  inputs := supply.answers.toList.drop t.memory.read

theorem storeOf_emit (supply : Supply) (t : Task) (v : Value) :
    storeOf supply (t.emit v) = (storeOf supply t).emit v := by
  simp [storeOf, Task.emit, Store.emit]

/-- The answer that is taken is the first of those still to read. -/
theorem inputs_of_some {supply : Supply} {t : Task} {v : Value}
    (answer : supply.answers[t.memory.read]? = some v) (name : String) :
    (storeOf supply t).inputs = v :: (storeOf supply (t.take name v)).inputs := by
  rw [← Array.getElem?_toList] at answer
  obtain ⟨inside, value⟩ := List.getElem?_eq_some_iff.mp answer
  show supply.answers.toList.drop t.memory.read = _
  rw [List.drop_eq_getElem_cons inside, value]
  rfl

theorem inputs_of_none {supply : Supply} {t : Task}
    (unanswered : supply.answers[t.memory.read]? = none) : (storeOf supply t).inputs = [] := by
  rw [← Array.getElem?_toList, List.getElem?_eq_none_iff] at unanswered
  exact List.drop_eq_nil_of_le unanswered

/-- Where statements that are still to come stand: at the top level, or in an open block. -/
inductive Site where
  | top
  /-- In the block of the frame `f`, inside `outer`, before the statements `rest` at the top. -/
  | block (f : Frame) (outer : List Frame) (rest : List Stmt)

/-- The open blocks when `ss` is to come at a site. -/
def Site.inner : Site → List Stmt → List Frame
  | top, _ => []
  | block f outer _, ss => { f with rest := ss } :: outer

/-- The statements to come at the top level when `ss` is to come at a site. -/
def Site.rest : Site → List Stmt → List Stmt
  | top, ss => ss
  | block _ _ rest, _ => rest

/-- A task that does not wait stands at a site before `ss`, with the store `σ`. -/
structure At (supply : Supply) (t : Task) (site : Site) (ss : List Stmt) (σ : Store) : Prop where
  inner : t.control.inner = site.inner ss
  rest : t.control.rest = site.rest ss
  free : t.control.pending = none
  store : storeOf supply t = σ

namespace At

variable {supply : Supply} {t : Task} {site : Site} {s : Stmt} {ss : List Stmt} {σ : Store}

theorem exists_site (supply : Supply) (free : t.control.pending = none) :
    ∃ site ss, At supply t site ss (storeOf supply t) := by
  cases inner : t.control.inner with
  | nil => exact ⟨.top, t.control.rest, inner, rfl, free, rfl⟩
  | cons f outer => exact ⟨.block f outer t.control.rest, f.rest, inner, rfl, free, rfl⟩

theorem next? (h : At supply t site ss σ) : t.control.next? = ss.head? := by
  unfold Control.next?
  rw [h.inner, h.rest]
  cases site <;> rfl

theorem paid (h : At supply t site ss σ) : At supply t.paid site ss σ :=
  ⟨h.inner, h.rest, h.free, h.store⟩

theorem advance (h : At supply t site (s :: ss) σ) : At supply t.advance site ss σ := by
  obtain ⟨inner, rest, free, store⟩ := h
  rcases t with ⟨⟨program, rest', inner', pending, spent⟩, memory⟩
  cases site with
  | top =>
    cases inner
    cases rest
    exact ⟨rfl, rfl, free, store⟩
  | block f outer below =>
    cases inner
    cases rest
    exact ⟨rfl, rfl, free, store⟩

theorem assign (h : At supply t site ss σ) (name : String) (v : Value) :
    At supply (t.assign name v) site ss (σ.assign name v) :=
  ⟨h.inner, h.rest, h.free, by rw [← h.store]; rfl⟩

theorem emit (h : At supply t site ss σ) (v : Value) :
    At supply (t.emit v) site ss (σ.emit v) :=
  ⟨h.inner, h.rest, h.free, by rw [← h.store, storeOf_emit]⟩

/-- A block that was opened stands inside what was there before. -/
theorem enter (h : At supply t site ss σ) (kind : FrameKind) (body : List Stmt) :
    At supply (t.enter (.ofBody kind body))
      (.block (.ofBody kind body) (site.inner ss) (site.rest ss)) body σ := by
  refine ⟨?_, h.rest, h.free, h.store⟩
  show _ :: t.control.inner = _
  rw [h.inner]
  rfl

/-- Leaving a block leads back to what was there before. -/
theorem withInner {f : Frame} {below : List Stmt}
    (h : At supply t (.block f (site.inner ss) (site.rest ss)) below σ) :
    At supply (t.withInner (site.inner ss)) site ss σ :=
  ⟨rfl, h.rest, h.free, h.store⟩

theorem take (h : At supply t site (s :: ss) σ) (name : String) (v : Value) :
    At supply (t.take name v) site ss (storeOf supply (t.take name v)) :=
  ⟨h.advance.inner, h.advance.rest, h.advance.free, rfl⟩

theorem not_halted (h : At supply t site (s :: ss) σ) : t.control.halted = false := by
  rw [Control.halted, Task.completed_of_next h.next?, h.free]
  rfl

theorem not_halted_of_block {f : Frame} {outer : List Frame} {below : List Stmt}
    (h : At supply t (.block f outer below) ss σ) : t.control.halted = false := by
  rw [Control.halted, Control.completed, h.inner, h.free]
  rfl

end At

/-! ## From execution to the machine -/

/-- What the end of a drive amounts to. -/
def outcomeOf (supply : Supply) : Drive → Option Outcome
  | .reached t =>
    match t.control.pending with
    | some prompt => some (.asks prompt (storeOf supply t))
    | none => some (.done (storeOf supply t))
  | .failed t error => some (.fails error (storeOf supply t))
  | .outOfFuel _ => none

/-- Driving `t` until it halts gives the outcome `o`. -/
def Leads (supply : Supply) (t : Task) (o : Outcome) : Prop :=
  ∃ n d, Drives supply Control.halted n t d ∧ outcomeOf supply d = some o

variable {supply : Supply} {t t' u : Task} {site : Site} {s : Stmt} {ss : List Stmt} {σ : Store}
  {o o' : Outcome}

theorem Leads.tick (going : t.control.halted = false) (moves : t.Moves supply t')
    (rest : Leads supply t' o) : Leads supply t o := by
  obtain ⟨n, d, drives, outcome⟩ := rest
  exact ⟨n + 1, d, .tick going moves drives, outcome⟩

theorem Leads.fail {error : RuntimeError} (going : t.control.halted = false)
    (fails : t.Fails supply t' error) (store : storeOf supply t = σ) :
    Leads supply t (.fails error σ) := by
  refine ⟨0, _, .failed going fails, ?_⟩
  rw [outcomeOf, storeOf, fails.memory_eq]
  exact congrArg some (congrArg (Outcome.fails error) store)

/-- What comes after the work at a site leads to an outcome, from every task that stands there. -/
def After (supply : Supply) (site : Site) (ss : List Stmt) (σ : Store) (o : Outcome) : Prop :=
  ∀ t, At supply t site ss σ → Leads supply t o

/-- The next tick of `u` makes the test of a loop, and goes on with the rounds of the loop at the
place of `t`. -/
structure Tests (supply : Supply) (u t : Task) (test : Expr) (body : List Stmt) (line : Int) :
    Prop where
  going : u.control.halted = false
  store : storeOf supply u = storeOf supply t
  moves : ∀ v, test.eval t.memory.vars = .ok v → u.Moves supply (t.reenter test body line v)
  fails : ∀ error, test.eval t.memory.vars = .error error → ∃ u', u.Fails supply u' error

/-- The machine does the work `w`: a task that stands before it in the store `σ` is driven to what
comes after the outcome `o`. -/
def Served (supply : Supply) : Work → Store → Outcome → Prop
  | .block ss, σ, o => ∀ site t o', At supply t site ss σ →
      o.andThen (After supply site []) o' → Leads supply t o'
  | .stmt s, σ, o => ∀ site ss t o', At supply t site (s :: ss) σ →
      o.andThen (After supply site ss) o' → Leads supply t o'
  | .loop test body, σ, o => ∀ site ss line t u o', At supply t site ss σ →
      Tests supply u t test body line → o.andThen (After supply site ss) o' → Leads supply u o'
  | .rounds name body counter last, σ, o => ∀ site ss line t o', At supply t site ss σ →
      o.andThen (After supply site ss) o' →
        Leads supply (t.iterate name body line counter last) o'

theorem At.vars (h : At supply t site ss σ) : t.memory.vars = σ.vars := by
  rw [← h.store]
  rfl

theorem Outcome.andThen.mono {k k' : Store → Outcome → Prop} (h : o.andThen k o')
    (step : ∀ σ, k σ o' → k' σ o') : o.andThen k' o' := by
  cases o with
  | done σ => exact step σ h
  | asks prompt σ => exact h
  | fails error σ => exact h

theorem Exec.done_of_nil (h : Exec (.block []) σ o) : o = .done σ := by
  cases h
  rfl

/-- A branch that was chosen is done at its own site, or not opened if it is empty. -/
theorem leads_choose {branch : List Stmt} (exec : Exec (.block branch) σ o)
    (served : Served supply (.block branch) σ o) (h : At supply t site ss σ)
    (after : o.andThen (After supply site ss) o') : Leads supply (t.choose branch) o' := by
  cases branch with
  | nil =>
    obtain rfl := exec.done_of_nil
    exact after t h
  | cons s' ss' =>
    refine served _ _ o' (h.enter .branch (s' :: ss')) (after.mono fun σ₁ after t' h' => ?_)
    -- the branch is used up: one tick closes it and changes nothing else
    exact .tick h'.not_halted_of_block (.leave h'.next? h'.inner rfl) (after _ h'.withInner)

/-- The rounds of a loop whose test holds: the body at its own site, then the test again. -/
theorem leads_round {test : Expr} {body : List Stmt} {line : Int} (unlimited : supply.budget = 0)
    (served : Served supply (.block body) σ o) (h : At supply t site ss σ)
    (after : o.andThen (fun σ₁ o' => ∀ u t', At supply t' site ss σ₁ →
      Tests supply u t' test body line → Leads supply u o') o') :
    Leads supply (t.enter (.ofBody (.loop test line) body)) o' := by
  refine served _ _ o' (h.enter _ body) (after.mono fun σ₁ after t' h' => ?_)
  have pays := Task.affords_of_unlimited unlimited t'
  refine after t' (t'.paid.withInner (site.inner ss)) h'.paid.withInner
    ⟨h'.not_halted_of_block, rfl, fun v eval => ?_, fun error eval => ?_⟩
  · exact .again h'.next? h'.inner rfl pays eval
  · exact ⟨_, .test h'.next? h'.inner rfl pays eval⟩

/-- The rounds of a counted loop: the body at its own site, then the next number. -/
theorem leads_iterate {name : String} {body : List Stmt} {line : Int} {counter last : Float}
    (unlimited : supply.budget = 0) (within : counter ≤ last)
    (served : Served supply (.block body) (σ.assign name (.num counter)) o)
    (h : At supply t site ss σ)
    (after : o.andThen (fun σ₁ o' => ∀ t', At supply t' site ss σ₁ →
      Leads supply (t'.iterate name body line (counter + 1) last) o') o') :
    Leads supply (t.iterate name body line counter last) o' := by
  rw [Task.iterate, if_pos within]
  refine served _ _ o' ((h.assign name (.num counter)).enter _ body)
    (after.mono fun σ₁ after t' h' => ?_)
  have pays := Task.affords_of_unlimited unlimited t'
  exact .tick h'.not_halted_of_block (.recount h'.next? h'.inner rfl pays)
    (after _ h'.paid.withInner)

/-- Without a limit the machine does all work that structured execution describes. -/
theorem Exec.served {w : Work} (unlimited : supply.budget = 0) (h : Exec w σ o) :
    Served supply w σ o := by
  have pays := Task.affords_of_unlimited unlimited
  induction h with
  | nil =>
    intro site t o' h after
    exact after t h
  | cons _ _ head tail =>
    intro site t o' h after
    exact head site _ t o' h fun t₁ h₁ => tail site t₁ o' h₁ after
  | leave _ left head =>
    intro site t o' h after
    refine head site _ t o' h ?_
    rw [Outcome.andThen_of_left left] at after ⊢
    exact after
  | assign eval =>
    intro site ss t o' h after
    exact .tick h.not_halted (.assign h.next? (pays t) (h.vars ▸ eval))
      (after _ (h.paid.advance.assign _ _))
  | write eval =>
    intro site ss t o' h after
    exact .tick h.not_halted (.write h.next? (pays t) (h.vars ▸ eval))
      (after _ (h.paid.advance.emit _))
  | @read name line σ v vs inputs =>
    intro site ss t o' h after
    -- an answer is left to read exactly if the machine has one at its place
    rw [← h.store] at inputs after
    cases answer : supply.answers[t.memory.read]? with
    | none => rw [inputs_of_none answer] at inputs; cases inputs
    | some v' =>
      rw [inputs_of_some answer name] at inputs
      cases inputs
      exact .tick h.not_halted (.take h.next? (pays t) answer) (after _ (h.take name _))
  | @ask name line σ inputs =>
    rintro site ss t o' h rfl
    cases answer : supply.answers[t.memory.read]? with
    | some v => rw [← h.store, inputs_of_some answer name] at inputs; cases inputs
    | none =>
      refine .tick h.not_halted (.ask h.next? (pays t) answer) ?_
      exact ⟨0, _, .reached (Task.halted_ask ..), congrArg (some ∘ Outcome.asks _) h.store⟩
  | yes eval holds exec branch =>
    intro site ss t o' h after
    refine .tick h.not_halted (.cond h.next? (pays t) (h.vars ▸ eval)) ?_
    rw [if_pos holds]
    exact leads_choose exec branch h.paid.advance after
  | no eval holds exec branch =>
    intro site ss t o' h after
    refine .tick h.not_halted (.cond h.next? (pays t) (h.vars ▸ eval)) ?_
    rw [if_neg (Bool.eq_false_iff.mp holds)]
    exact leads_choose exec branch h.paid.advance after
  | @loop test body line σ o _ rounds =>
    -- the first test is made by the tick of the statement, the others by a tick closing the body
    intro site ss t o' h after
    refine rounds site ss line t.paid.advance t o' h.paid.advance ⟨h.not_halted, ?_, ?_, ?_⟩ after
    · rw [h.store, h.paid.advance.store]
    · intro v eval
      exact .loop h.next? (pays t) eval
    · intro error eval
      exact ⟨_, .operand h.next? (pays t) rfl eval⟩
  | loopEnds eval holds =>
    intro site ss line t u o' h tests after
    have moves := tests.moves _ (h.vars ▸ eval)
    rw [Task.reenter, if_neg (Bool.eq_false_iff.mp holds)] at moves
    exact .tick tests.going moves (after t h)
  | loopRound eval holds _ _ round later =>
    intro site ss line t u o' h tests after
    refine .tick tests.going (tests.moves _ (h.vars ▸ eval)) ?_
    rw [Task.reenter, if_pos holds]
    exact leads_round unlimited round h fun u' t' h' tests' =>
      later site ss line t' u' o' h' tests' after
  | loopLeft eval holds _ left round =>
    intro site ss line t u o' h tests after
    refine .tick tests.going (tests.moves _ (h.vars ▸ eval)) ?_
    rw [Task.reenter, if_pos holds]
    refine leads_round unlimited round h ?_
    rw [Outcome.andThen_of_left left] at after ⊢
    exact after
  | loopFails eval =>
    rintro site ss line t u o' h tests rfl
    obtain ⟨u', fails⟩ := tests.fails _ (h.vars ▸ eval)
    exact .fail tests.going fails (tests.store.trans h.store)
  | count evalFirst evalLast _ rounds =>
    intro site ss t o' h after
    exact .tick h.not_halted (.count h.next? (pays t) (h.vars ▸ evalFirst) (h.vars ▸ evalLast))
      (rounds site ss _ _ o' h.paid.advance after)
  | roundsEnd above =>
    intro site ss line t o' h after
    rw [Task.iterate, if_neg above]
    exact after t h
  | roundsNext within _ _ round later =>
    intro site ss line t o' h after
    exact leads_iterate unlimited within round h fun t' h' => later site ss line t' o' h' after
  | roundsLeft within _ left round =>
    intro site ss line t o' h after
    refine leads_iterate unlimited within round h ?_
    rw [Outcome.andThen_of_left left] at after ⊢
    exact after
  | assignFails eval =>
    rintro site ss t o' h rfl
    exact .fail h.not_halted (.operand h.next? (pays t) rfl (h.vars ▸ eval)) h.store
  | writeFails eval =>
    rintro site ss t o' h rfl
    exact .fail h.not_halted (.operand h.next? (pays t) rfl (h.vars ▸ eval)) h.store
  | condFails eval =>
    rintro site ss t o' h rfl
    exact .fail h.not_halted (.operand h.next? (pays t) rfl (h.vars ▸ eval)) h.store
  | firstFails evalFirst =>
    rintro site ss t o' h rfl
    exact .fail h.not_halted (.operand h.next? (pays t) rfl (h.vars ▸ evalFirst)) h.store
  | lastFails evalFirst evalLast =>
    rintro site ss t o' h rfl
    exact .fail h.not_halted
      (.last h.next? (pays t) (h.vars ▸ evalFirst) (h.vars ▸ evalLast)) h.store
  | countMismatch evalFirst evalLast texts =>
    rintro site ss t o' h rfl
    exact .fail h.not_halted
      (.mismatch h.next? (pays t) (h.vars ▸ evalFirst) (h.vars ▸ evalLast) texts) h.store
  | unknown =>
    rintro site ss t o' h rfl
    exact .fail h.not_halted (.unknown h.next? (pays t)) h.store

/-! ## From the machine to execution -/

/-- What is still to be done of a block when its statements are used up. -/
def Closes (f : Frame) (σ : Store) (o : Outcome) : Prop :=
  match f.kind with
  | .branch => o = .done σ
  | .loop test _ => Exec (.loop test f.body) σ o
  | .count name counter last _ => Exec (.rounds name f.body (counter + 1) last) σ o

/-- What a stack of open blocks and the statements at the top level stand for: the statements of
each block, what is to be done when they are used up, and so on outwards. -/
def Continues : List Frame → List Stmt → Store → Outcome → Prop
  | [], rest, σ, o => Exec (.block rest) σ o
  | f :: outer, rest, σ, o =>
    ∃ o₁, Exec (.block f.rest) σ o₁ ∧
      o₁.andThen (fun σ₁ o => ∃ o₂, Closes f σ₁ o₂ ∧ o₂.andThen (Continues outer rest) o) o

/-- What the place of a task stands for. -/
def Means (t : Task) : Store → Outcome → Prop :=
  Continues t.control.inner t.control.rest

theorem At.means (h : At supply t site ss σ) :
    Means t = Continues (site.inner ss) (site.rest ss) := by
  rw [Means, h.inner, h.rest]

/-- A statement and then what comes after it. -/
theorem continues_cons (exec : Exec (.stmt s) σ o)
    (after : o.andThen (Continues (site.inner ss) (site.rest ss)) o') :
    Continues (site.inner (s :: ss)) (site.rest (s :: ss)) σ o' := by
  rcases o.done_or_left with ⟨σ₁, rfl⟩ | left
  · cases site with
    | top => exact .cons exec after
    | block f outer rest =>
      obtain ⟨o₁, tail, later⟩ := after
      exact ⟨o₁, .cons exec tail, later⟩
  · -- what was left is left by every block around it
    obtain rfl := (Outcome.andThen_of_left left).mp after
    cases site with
    | top => exact .leave exec left
    | block f outer rest => exact ⟨_, .leave exec left, (Outcome.andThen_of_left left).mpr rfl⟩

/-- A block whose statements are used up is closed. -/
theorem continues_close {f : Frame} {outer : List Frame} {rest : List Stmt} (used : f.rest = [])
    (closes : Closes f σ o) (after : o.andThen (Continues outer rest) o') :
    Continues (f :: outer) rest σ o' := by
  refine ⟨.done σ, ?_, o, closes, after⟩
  rw [used]
  exact .nil

/-- A loop that was entered, or not, stands for its rounds and what was there before. -/
theorem means_reenter {test : Expr} {body : List Stmt} {line : Int} {v : Value}
    (eval : test.eval σ.vars = .ok v) (h : Means (t.reenter test body line v) σ o') :
    ∃ o, Exec (.loop test body) σ o ∧ o.andThen (Means t) o' := by
  cases holds : v.truthy with
  | false =>
    rw [Task.reenter, if_neg (Bool.eq_false_iff.mp holds)] at h
    exact ⟨.done σ, .loopEnds eval holds, h⟩
  | true =>
    rw [Task.reenter, if_pos holds] at h
    obtain ⟨o₁, round, later⟩ := h
    rcases o₁.done_or_left with ⟨σ₁, rfl⟩ | left
    · obtain ⟨o₂, rounds, later⟩ := later
      exact ⟨o₂, .loopRound eval holds round rounds, later⟩
    · rw [Outcome.andThen_of_left left] at later
      exact ⟨o₁, .loopLeft eval holds round left, (Outcome.andThen_of_left left).mpr later⟩

/-- A counted loop that was entered, or not, stands for its rounds and what was there before. -/
theorem means_iterate {name : String} {body : List Stmt} {line : Int} {counter last : Float}
    (h : Means (t.iterate name body line counter last)
      (storeOf supply (t.iterate name body line counter last)) o') :
    ∃ o, Exec (.rounds name body counter last) (storeOf supply t) o ∧ o.andThen (Means t) o' := by
  by_cases within : counter ≤ last
  · rw [Task.iterate, if_pos within] at h
    obtain ⟨o₁, round, later⟩ := h
    rcases o₁.done_or_left with ⟨σ₁, rfl⟩ | left
    · obtain ⟨o₂, rounds, later⟩ := later
      exact ⟨o₂, .roundsNext within round rounds, later⟩
    · rw [Outcome.andThen_of_left left] at later
      exact ⟨o₁, .roundsLeft within round left, (Outcome.andThen_of_left left).mpr later⟩
  · rw [Task.iterate, if_neg within] at h
    exact ⟨.done _, .roundsEnd within, h⟩

/-- A branch that was opened, or not, stands for its statements and what was there before. -/
theorem means_choose {branch : List Stmt} (h : Means (t.choose branch) σ o') :
    ∃ o, Exec (.block branch) σ o ∧ o.andThen (Means t) o' := by
  cases branch with
  | nil => exact ⟨.done σ, .nil, h⟩
  | cons s' ss' =>
    obtain ⟨o₁, exec, later⟩ := h
    refine ⟨o₁, exec, later.mono fun σ₁ later => ?_⟩
    obtain ⟨o₂, rfl, later⟩ := later
    exact later

theorem means_take (t : Task) (name : String) (v : Value) :
    Means (t.take name v) = Means t.paid.advance := by
  rcases t with ⟨⟨program, rest, inner, pending, spent⟩, memory⟩
  cases inner <;> rfl

/-- The next statement and then what comes after it. -/
theorem means_of_next (free : t.control.pending = none) (next : t.control.next? = some s)
    (exec : Exec (.stmt s) (storeOf supply t) o)
    (after : o.andThen (Means t.paid.advance) o') : Means t (storeOf supply t) o' := by
  obtain ⟨site, ss, stands⟩ := At.exists_site supply free
  obtain ⟨ss', rfl⟩ := List.head?_eq_some_iff.mp (stands.next?.symm.trans next)
  rw [stands.paid.advance.means] at after
  rw [stands.means]
  exact continues_cons exec after

theorem used_of_next {f : Frame} {outer : List Frame} (inner : t.control.inner = f :: outer)
    (next : t.control.next? = none) : f.rest = [] := by
  rw [Control.next?, inner] at next
  exact List.head?_eq_none_iff.mp next

/-- The innermost block is closed, and then what is around it. -/
theorem means_of_close {f : Frame} {outer : List Frame} (inner : t.control.inner = f :: outer)
    (next : t.control.next? = none) (closes : Closes f σ o)
    (after : o.andThen (Continues outer t.control.rest) o') : Means t σ o' := by
  rw [Means, inner]
  exact continues_close (used_of_next inner next) closes after

/-- A tick keeps what a task stands for: what it stands for after the tick, it stood for before. -/
theorem means_of_moves (free : t.control.pending = none) (h : t.Moves supply t')
    (rest : Means t' (storeOf supply t') o) (free' : t'.control.pending = none) :
    Means t (storeOf supply t) o := by
  cases h with
  | assign next pays eval => exact means_of_next free next (.assign eval) rest
  | write next pays eval =>
    rw [storeOf_emit] at rest
    exact means_of_next free next (.write eval) rest
  | take next pays answer =>
    rw [means_take] at rest
    exact means_of_next free next (.read (inputs_of_some answer _)) rest
  -- the task after the tick does not wait
  | ask next pays unanswered => cases free'
  | @cond test yes no line v next pays eval =>
    obtain ⟨o₁, branch, after⟩ := means_choose rest
    refine means_of_next free next ?_ after
    cases holds : v.truthy with
    | true => exact .yes eval holds (by rwa [if_pos holds] at branch)
    | false => exact .no eval holds (by rwa [if_neg (Bool.eq_false_iff.mp holds)] at branch)
  | loop next pays eval =>
    rw [storeOf, Task.memory_reenter] at rest
    obtain ⟨o₁, rounds, after⟩ := means_reenter eval rest
    exact means_of_next free next (.loop rounds) after
  | count next pays evalFirst evalLast =>
    obtain ⟨o₁, rounds, after⟩ := means_iterate rest
    exact means_of_next free next (.count evalFirst evalLast rounds) after
  | @leave f outer next inner kind =>
    have closes : Closes f (storeOf supply t) (.done (storeOf supply t)) := by rw [Closes, kind]
    exact means_of_close inner next closes rest
  | again next inner kind pays eval =>
    rw [storeOf, Task.memory_reenter] at rest
    obtain ⟨o₁, rounds, after⟩ := means_reenter eval rest
    refine means_of_close inner next ?_ after
    rw [Closes, kind]
    exact rounds
  | recount next inner kind pays =>
    obtain ⟨o₁, rounds, after⟩ := means_iterate rest
    refine means_of_close inner next ?_ after
    rw [Closes, kind]
    exact rounds
  | idle next inner => exact rest

/-- A tick that fails, and not for the budget, is a failing execution of what the task stands
for. -/
theorem means_of_fails {error : RuntimeError} (unlimited : supply.budget = 0)
    (free : t.control.pending = none) (h : t.Fails supply t' error) :
    Means t (storeOf supply t) (.fails error (storeOf supply t)) := by
  cases h with
  | spent toll broke => exact absurd (Task.affords_of_unlimited unlimited t) broke
  | @operand s e _ next pays operand eval =>
    cases s with
    | assign name value line =>
      cases operand
      exact means_of_next free next (.assignFails eval) rfl
    | write value line =>
      cases operand
      exact means_of_next free next (.writeFails eval) rfl
    | cond test yes no line =>
      cases operand
      exact means_of_next free next (.condFails eval) rfl
    | loop test body line =>
      cases operand
      exact means_of_next free next (.loop (.loopFails eval)) rfl
    | count name first last body line =>
      cases operand
      exact means_of_next free next (.firstFails eval) rfl
    | read name line => cases operand
    | unknown label line => cases operand
  | last next pays evalFirst evalLast =>
    exact means_of_next free next (.lastFails evalFirst evalLast) rfl
  | mismatch next pays evalFirst evalLast texts =>
    exact means_of_next free next (.countMismatch evalFirst evalLast texts) rfl
  | unknown next pays => exact means_of_next free next .unknown rfl
  | @test f outer test line _ next inner kind pays eval =>
    have closes : Closes f (storeOf supply t) (.fails error (storeOf supply t)) := by
      rw [Closes, kind]
      exact .loopFails eval
    exact means_of_close inner next closes rfl

/-- The outcome of a drive is an outcome of what its task stands for. -/
theorem means_of_drives {n : Nat} {d : Drive} (unlimited : supply.budget = 0)
    (h : Drives supply Control.halted n t d) (free : t.control.pending = none)
    (outcome : outcomeOf supply d = some o) : Means t (storeOf supply t) o := by
  induction h with
  | @reached t done =>
    rw [Control.halted, free, Option.isSome_none, Bool.or_false, Control.completed,
      Bool.and_eq_true, List.isEmpty_iff, List.isEmpty_iff] at done
    rw [outcomeOf, free] at outcome
    cases outcome
    rw [Means, done.1, done.2]
    exact .nil
  | @failed t t' error going fails =>
    rw [outcomeOf, storeOf, fails.memory_eq] at outcome
    cases outcome
    exact means_of_fails unlimited free fails
  | @tick n t t' d going moves rest ih =>
    rcases moves.pending_eq_or_ask with same | ⟨name, line, next, unanswered, rfl⟩
    · have free' := same.trans free
      exact means_of_moves free moves (ih free' outcome) free'
    · obtain ⟨-, rfl⟩ := rest.unique (.reached (Task.halted_ask ..))
      cases outcome
      exact means_of_next free next (.ask (inputs_of_none unanswered)) rfl

/-! ## Runs -/

/-- The outcome that a call shows: its error, its question or its end, each with the variables, the
output and the answers that were not read. -/
def observe (m : Machine) (r : Response) : Option Outcome :=
  let σ : Store :=
    { vars := r.snapshot.vars, output := r.snapshot.output.toList, inputs := m.unread }
  match r.fault, r.snapshot.pending with
  | some (.runtime error), _ => some (.fails error σ)
  | some _, _ => none
  | none, some name => some (.asks ⟨name, r.snapshot.line⟩ σ)
  | none, none => if r.snapshot.completed then some (.done σ) else none

/-- A call shows the outcome of its drive. -/
theorem observe_conclude {m : Machine} {n : Nat} {d : Drive}
    (h : Drives m.supply Control.halted n t d) :
    observe (m.conclude d) d.response = outcomeOf m.supply d := by
  induction h with
  | @reached t done =>
    have unread : (m.conclude (.reached t)).unread = (storeOf m.supply t).inputs := by
      show (m.announce t).history.toList.drop _ = _
      rw [Machine.history_announce]
      rfl
    cases pending : t.control.pending with
    | some prompt => simp [observe, outcomeOf, Drive.response, Drive.fault?, Drive.task,
        Task.snapshot, pending, unread, storeOf]
    | none =>
      have completed : t.control.completed = true := by
        simpa [Control.halted, pending] using done
      simp [observe, outcomeOf, Drive.response, Drive.fault?, Drive.task, Task.snapshot, pending,
        completed, unread, storeOf]
  | failed going fails => rfl
  | tick going moves rest ih => exact ih

/-- What a run without a limit shows is an outcome of structured execution. -/
theorem exec_of_run {m : Machine} {p : Program} (unlimited : m.budget = 0)
    (shows : observe (m.run (some p)).1 (m.run (some p)).2 = some o) :
    Exec (.block p.statements) { inputs := m.supply.answers.toList } o := by
  have returns : (m.run (some p)).2.fault ≠ some .unfinished := by
    intro unfinished
    simp [observe, unfinished] at shows
  obtain ⟨n, d, drives, result, -⟩ := Machine.drives_of_finished returns
  rw [Machine.run_eq_drive, result, observe_conclude drives] at shows
  exact means_of_drives unlimited drives rfl shows

/-- An outcome of structured execution is reached by the drive of a run without a limit. -/
theorem Exec.leads (supply : Supply) {p : Program} (unlimited : supply.budget = 0)
    (h : Exec (.block p.statements) { inputs := supply.answers.toList } o) :
    Leads supply (.ofProgram p) o := by
  refine h.served unlimited .top (.ofProgram p) o ⟨rfl, rfl, rfl, rfl⟩ ?_
  rcases o.done_or_left with ⟨σ, rfl⟩ | left
  · intro t stands
    have halted : t.control.halted = true := by
      simp [Control.halted, Control.completed, stands.inner, stands.rest, Site.inner, Site.rest]
    refine ⟨0, _, .reached halted, ?_⟩
    rw [outcomeOf, stands.free, stands.store]
  · exact (Outcome.andThen_of_left left).mpr rfl

/-- The machine implements structured execution. With the budget disabled, a run of `p` on a new
machine that was given `xs` returns and shows the outcome `o` exactly if structured execution of `p`
from the empty store with the answers `xs` has the outcome `o`. -/
theorem run_shows_iff_exec (p : Program) (xs : List String) (budget : Int) (disabled : budget ≤ 0)
    (listening : Bool) (o : Outcome) :
    (∃ patience : Nat,
      let result := ((Machine.create budget patience listening).provideAll xs).run (some p)
      observe result.1 result.2 = some o) ↔
    Exec (.block p.statements) { inputs := xs.map Value.ofAnswer } o := by
  -- what a run depends on does not depend on the patience, so the latter can be chosen last
  have supply : ∀ patience : Nat,
      ((Machine.create budget patience listening).provideAll xs).supply
        = ⟨0, (xs.map Value.ofAnswer).toArray⟩ := by
    intro patience
    have zero : (Machine.create budget patience listening).budget = 0 :=
      Int.toNat_eq_zero.mpr disabled
    rw [Machine.supply, Machine.budget_provideAll, Machine.history_provideAll, zero]
    simp [Machine.create, Machine.withBudget]
  constructor
  · rintro ⟨patience, shows⟩
    have exec := exec_of_run (congrArg Supply.budget (supply patience)) shows
    rwa [supply patience] at exec
  · intro exec
    obtain ⟨n, d, drives, outcome⟩ := Exec.leads ⟨0, (xs.map Value.ofAnswer).toArray⟩ rfl exec
    refine ⟨n + 1, ?_⟩
    rw [← supply (n + 1)] at drives outcome
    have within : n < ((Machine.create budget (n + 1) listening).provideAll xs).patience := by
      rw [Machine.patience_provideAll]
      exact Nat.lt_succ_self n
    show observe (Machine.run _ _).1 (Machine.run _ _).2 = some o
    rw [Machine.run_eq_drive, Machine.drive_of_drives drives (fun _ h => h) fun _ => within]
    rw [observe_conclude drives, outcome]

/-- A question inside a branch, with no answer left for it. -/
theorem run_shows_iff_exec_in_branch :
    let p : Program := { statements := [.read "x" 2, .cond (.ident "x" 3) [.read "y" 4] none 3] }
    let σ : Store := { vars := Env.empty.set "x" (.text "oui") }
    (-1 : Int) ≤ 0 ∧ ∃ patience : Nat,
      let result := ((Machine.create (-1) patience false).provideAll ["oui"]).run (some p)
      observe result.1 result.2 = some (.asks ⟨"y", 4⟩ σ) := by
  intro p σ
  refine ⟨by decide, (run_shows_iff_exec p ["oui"] (-1) (by decide) false _).mpr ?_⟩
  have answer : Value.ofAnswer "oui" = .text "oui" := rfl
  have inner : Exec (.block [.read "y" 4]) σ (.asks ⟨"y", 4⟩ σ) := .leave (.ask rfl) trivial
  rw [List.map_cons, answer]
  exact .cons (.read rfl) (.leave (.yes rfl rfl inner) trivial)

end Pseudocode.Structured
