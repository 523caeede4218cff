import Pseudocode.Proofs.Engine.Refinement

/-!
# The representation of an engine

Nothing in the types of the registers relates them: an engine could have blocks open without a
program, an index outside of its block, or a question to wait on that is not the next statement.
Whatever calls it has served, it does not (`Engine.WellFormed`): the registers describe a place in the
bound program. This holds between the ticks of a call as well, so a call never follows an index out
of a list, and it tells a listener a name only if it comes to wait for it.

The registers hold what the machine holds (`Reaches.refines`), and of that a stack of blocks is kept
by every tick (`Task.Coherent`).
-/

namespace Pseudocode

namespace Engine

/-- The block `above` is the body or a branch of the statement passed last in the block `below`. -/
def Block.Within (above below : Block) : Prop :=
  1 ≤ below.pc ∧ ∃ s, elementAt? below.statements (below.pc - 1) = some s ∧
    s.Opens above.frameKind above.statements

/-- The registers describe a place in the bound program, or that none is bound. -/
structure WellFormed (e : Engine) : Prop where
  unbound : e.program = none ↔ e.frames = []
  bottom : ∀ p, e.program = some p →
    ∃ b, e.frames.getLast? = some b ∧ b.kind = .plain ∧ b.statements = p.statements
  nested : ∀ (i : Nat) above below, e.frames[i]? = some above → e.frames[i + 1]? = some below →
    above.Within below
  range : ∀ b ∈ e.frames, 0 ≤ b.pc ∧ b.pc ≤ b.statements.length
  cursor : 0 ≤ e.cursor ∧ e.cursor ≤ e.history.size
  waiting : e.suspended = true → e.cursor = e.history.size ∧ ∃ b below, e.frames = b :: below ∧
    elementAt? b.statements b.pc = some (.read e.pendingName e.pendingLine)
  free : e.suspended = false → e.pendingName = "" ∧ e.pendingLine = 0

/-- The names that are told when the engine comes to wait where it stands now. -/
def telling (e : Engine) : Array String :=
  if e.listening && e.suspended then #[e.pendingName] else #[]

/-- The names that a call tells: the one that it comes to wait for, if it returns without an error
and someone listens. A step that finds the program waiting returns an error. -/
def told (listening : Bool) : Option (Result × Option RuntimeError) → Array String
  | some (r, none) => if listening && r.suspended then #[r.pendingName] else #[]
  | _ => #[]

/-- What a call of the engine `e` may come to. It does not crash. After any number of ticks a program
is bound and the registers describe a place in it; when the call returns, they do so or none is. -/
inductive Sound (e : Engine) : Reply → Prop
  | running {u : Engine} (wellFormed : u.WellFormed) (bound : u.frames ≠ [])
      (asked : u.asked = e.asked ++ u.telling) : Sound e (.running u)
  | returned {e' : Engine} {shown : Option (Result × Option RuntimeError)}
      (wellFormed : e'.WellFormed) (asked : e'.asked = e.asked ++ told e.listening shown)
      (apart : ∀ r error, shown = some (r, error) → ¬(r.suspended = true ∧ r.completed = true)) :
      Sound e (.returned e' shown)

section WellFormed

variable {e : Engine} {c : Control} {memory : Memory} {m : Machine}

theorem Block.within_of_frame {above below : Block} (range : below.InRange)
    (within : above.frame.Within below.frame) : above.Within below := by
  obtain ⟨passed, s, found, opened⟩ := within
  have pc := Block.pc_frame range
  have index : below.pc - 1 = ((below.frame.pc - 1 : Nat) : Int) := by omega
  refine ⟨by omega, s, ?_, opened⟩
  rw [index, elementAt?_natCast]
  exact found

theorem frameKind_eq_branch {b : Block} (branch : b.frameKind = .branch) : b.kind = .plain := by
  unfold Block.frameKind at branch
  split at branch
  · assumption
  · cases branch
  · cases branch

/-- A place that is kept is described well. -/
theorem Stands.wellFormed (h : e.Stands c) (remembers : e.Remembers memory)
    (kept : Task.Coherent ⟨c, memory⟩ e.history.size) : e.WellFormed := by
  obtain ⟨b, below, blocks, range, -, top, -⟩ := h.exists_innermost
  refine ⟨?_, fun p program => ?_, fun i above below upper lower => ?_,
    fun b member => ⟨(h.range b member).nonneg, (h.range b member).le_length⟩, ?_, fun waits => ?_,
    fun free => ?_⟩
  · rw [h.program, blocks]
    exact ⟨nofun, nofun⟩
  · obtain ⟨outermost, last, -, frame, -⟩ := h.exists_outermost
    rw [h.program] at program
    cases program
    exact ⟨outermost, last, frameKind_eq_branch (congrArg Frame.kind frame),
      congrArg Frame.body frame⟩
  · refine Block.within_of_frame (h.range below (List.mem_of_getElem? lower)) ?_
    have upper' : c.frames[i]? = some above.frame := by
      rw [← h.frames, List.getElem?_map, upper]
      rfl
    have lower' : c.frames[i + 1]? = some below.frame := by
      rw [← h.frames, List.getElem?_map, lower]
      rfl
    exact kept.stacked.nested upper' lower'
  · have read : memory.read ≤ e.history.size := kept.read
    rw [remembers.cursor]
    omega
  · rw [h.suspended_eq] at waits
    obtain ⟨prompt, pending⟩ := Option.isSome_iff_exists.mp waits
    obtain ⟨next, read⟩ := kept.waiting prompt pending
    have all : memory.read = e.history.size := read
    refine ⟨by rw [remembers.cursor, all], b, below, blocks, ?_⟩
    rw [Block.elementAt?_pc range, ← top, h.pendingName_eq, h.pendingLine_eq, pending]
    exact next
  · rw [h.suspended_eq, Option.isSome_eq_false_iff, Option.isNone_iff_eq_none] at free
    rw [h.pendingName_eq, h.pendingLine_eq, free]
    exact ⟨rfl, rfl⟩

theorem Unbound.wellFormed (h : e.Unbound) (remembers : e.Remembers memory)
    (read : memory.read ≤ e.history.size) : e.WellFormed := by
  obtain ⟨suspended, question⟩ := Prod.mk.inj h.question
  obtain ⟨name, line⟩ := Prod.mk.inj question
  refine ⟨iff_of_true h.program h.frames, fun p program => ?_, fun i above below upper => ?_,
    fun b member => ?_, ?_, fun waits => ?_, fun _ => ⟨name, line⟩⟩
  · rw [h.program] at program
    cases program
  · rw [h.frames] at upper
    cases upper
  · rw [h.frames] at member
    cases member
  · rw [remembers.cursor]
    omega
  · rw [suspended] at waits
    cases waits

theorem Agrees.wellFormed (h : Agrees e m) (kept : m.Coherent) : e.WellFormed := by
  have history : m.history.size = e.history.size := congrArg Array.size h.shares.history.symm
  cases bound : m.control with
  | some c =>
    have kept' := kept.task c bound
    rw [history] at kept'
    exact (h.stands bound).wellFormed h.remembers kept'
  | none =>
    have read := kept.read
    rw [history] at read
    exact (h.unbound bound).wellFormed h.remembers read

theorem Tracks.wellFormed {t : Task} (h : Tracks m e t) (kept : t.Coherent m.history.size) :
    e.WellFormed := by
  rw [← h.shares.history] at kept
  exact h.stands.wellFormed h.remembers kept

end WellFormed

/-! ## Calls -/

section Calls

variable {e : Engine} {m : Machine}

/-- The engine shows what the machine does, so it tells what the machine tells. -/
theorem told_of_shows {shown : Option (Result × Option RuntimeError)} {response : Option Response}
    (h : Shows shown response) (listening : Bool) :
    told listening shown = (response.map fun r => r.told listening).getD #[] := by
  cases shown with
  | none =>
    cases response with
    | none => rfl
    | some response => cases h
  | some shown =>
    obtain ⟨r, error⟩ := shown
    cases response with
    | none => cases h
    | some response =>
      obtain ⟨rfl, fault⟩ := h
      obtain ⟨snapshot, fault'⟩ := response
      obtain rfl : error.map Fault.runtime = fault' := fault
      cases error with
      | some error => rfl
      | none =>
        cases pending : snapshot.pending <;>
          simp [told, Response.told, Result.ofSnapshot, pending]

/-- An engine in the middle of a call has told the name that it has come to wait for. -/
theorem Tracks.asked_eq {t : Task} (h : Tracks m e t) : e.asked = m.asked ++ e.telling := by
  rw [h.asked, Machine.asked_announce, telling, h.stands.suspended_eq, h.stands.pendingName_eq,
    h.shares.listening]
  cases pending : t.control.pending <;>
    simp [Response.told, Drive.response, Drive.fault?, Drive.task, Task.snapshot, pending]

theorem Agrees.sound_of_returned (h : Agrees e m) (kept : m.Coherent) {call : Call} {n : Nat}
    (patient : n < m.patience) {e' : Engine} {shown : Option (Result × Option RuntimeError)}
    (returned : e.serve n call = .returned e' shown) : e.Sound (.returned e' shown) := by
  obtain ⟨agrees, shows⟩ := h.serve kept returned patient
  refine .returned (agrees.wellFormed (Machine.coherent_serve kept call)) ?_ ?_
  · rw [agrees.asked, Machine.asked_serve kept call, h.asked, h.shares.listening,
      told_of_shows shows]
  · rintro r error rfl
    cases response : (m.serve call).2 with
    | none =>
      rw [response] at shows
      cases shows
    | some response' =>
      rw [response] at shows
      obtain ⟨rfl, -⟩ := shows
      exact Machine.apart_serve kept response

theorem Agrees.sound (h : Agrees e m) (kept : m.Coherent) (call : Call) {n : Nat}
    (patient : n < m.patience) : e.Sound (e.serve n call) := by
  cases launch : m.launch? call with
  | none =>
    obtain ⟨e', shown, returned, -⟩ := h.serve_of_grounded kept launch n
    rw [returned]
    exact h.sound_of_returned kept patient returned
  | some l =>
    obtain ⟨k, -, -, meets⟩ := h.meets_of_launch? kept launch n
    generalize reply : e.serve n call = r at meets ⊢
    generalize l.task.drive m.supply l.until? k = d at meets
    cases meets with
    | returned => exact h.sound_of_returned kept patient reply
    | running tracks kept' =>
      obtain ⟨b, below, blocks, -⟩ := tracks.stands.exists_innermost
      refine .running (tracks.wellFormed kept') ?_ ?_
      · rw [blocks]
        exact List.cons_ne_nil b below
      · rw [tracks.asked_eq, h.asked]

end Calls

/-- The representation of an engine. After any calls on a new engine, each of which has returned, its
registers describe a place in the bound program, or that none is bound; and whatever call comes next,
it is sound, however many ticks it has made. -/
theorem reaches_wellFormed (limit : Int64) (listening : Bool) {calls : List Call} {e : Engine}
    (reaches : Reaches (create limit listening) calls e) :
    e.WellFormed ∧ e.listening = listening ∧
      ∀ (call : Call) (n : Nat), e.Sound (e.serve n call) := by
  obtain ⟨m, agrees, kept, same, -⟩ := reaches.exists_machine 0
  refine ⟨agrees.wellFormed kept, agrees.shares.listening.trans same, fun call n => ?_⟩
  obtain ⟨m', agrees', kept', -, -, patient⟩ := reaches.exists_machine n
  exact agrees'.sound kept' call patient

/-- A step that stops at a question inside a branch, the answer, and a run of the program that asks
for another one: the listener is told both names. -/
theorem reaches_wellFormed_in_branch :
    let p : Program :=
      { statements := [.cond (.str "x") [.write (.str "?") 3, .read "x" 4] none 2, .read "y" 6] }
    ∃ e, Reaches (create 10 true) [.step (some p), .provide "12"] e ∧ e.WellFormed ∧
      e.frames.length = 2 ∧ e.asked = #["x"] ∧
      ∃ e' shown, e.serve 20 (.run none) = .returned e' shown ∧ e'.asked = #["x", "y"] := by
  intro p
  have reaches : Reaches (create 10 true) [.step (some p), .provide "12"] _ :=
    .call (n := 20) (.call (n := 20) .start rfl) rfl
  obtain ⟨wellFormed, -⟩ := reaches_wellFormed 10 true reaches
  exact ⟨_, reaches, wellFormed, rfl, rfl, _, _, rfl, rfl⟩

end Engine

end Pseudocode
