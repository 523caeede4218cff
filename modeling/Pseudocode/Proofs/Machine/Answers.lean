import Pseudocode.Proofs.Machine.Calls

/-!
# No answer is lost

Answers are kept in one list, with one place in it up to which the current run has read. Whatever
calls a machine serves, in whatever order answers, runs and steps come, the list is that of the
texts given since the last reset, the questions completed since the program was bound took its first
values in order, and the rest is unread (`serveAll_reads_in_order`).

The questions are counted by what can be seen of a tick, not by that place: a tick that goes past a
question has completed it, with the value that the variable has then (`Task.answered?`). A tick
either completes no question and leaves the place, or it takes the answer at the place and moves it
on by one (`Moves.answered`).
-/

namespace Pseudocode

/-! ## Ticks and drives -/

namespace Task

variable {supply : Supply} {until? : Control → Bool} {t t' : Task}

/-- The question that a tick from `t` to `t'` completes: the variable asked for, with the value that
it has afterwards. A tick that comes to wait at its question does not complete it. -/
def answered? (t t' : Task) : Option Binding :=
  match t.control.next?, t'.control.pending with
  | some (.read name _), none => (t'.memory.vars.get? name).map (Binding.mk name)
  | _, _ => none

/-- The questions that a drive completes, in order. -/
def answered (supply : Supply) (until? : Control → Bool) : Nat → Task → List Binding
  | 0, _ => []
  | fuel + 1, t =>
    if until? t.control then []
    else
      match t.tick supply with
      | .ok t' => (t.answered? t').toList ++ t'.answered supply until? fuel
      | .failed _ _ => []

theorem answered?_of_next {s : Stmt} (next : t.control.next? = some s)
    (other : ∀ name line, s ≠ .read name line) (t' : Task) : t.answered? t' = none := by
  rw [answered?, next]
  split
  · rename_i name line same _
    cases same
    exact absurd rfl (other name line)
  · rfl

theorem answered?_of_close (next : t.control.next? = none) (t' : Task) :
    t.answered? t' = none := by
  rw [answered?, next]

/-- A tick completes no question, or it completes one with the answer that comes next. -/
theorem Moves.answered (h : Moves supply t t') (free : t.control.pending = none) :
    (t.answered? t' = none ∧ t'.memory.read = t.memory.read) ∨
      ∃ b, t.answered? t' = some b ∧ supply.answers[t.memory.read]? = some b.value ∧
        t'.memory.read = t.memory.read + 1 := by
  cases h with
  | assign next pays eval => exact .inl ⟨answered?_of_next next nofun _, rfl⟩
  | write next pays eval => exact .inl ⟨answered?_of_next next nofun _, rfl⟩
  | @take name line v next pays answer =>
    refine .inr ⟨⟨name, v⟩, ?_, answer, rfl⟩
    have free' : (t.take name v).control.pending = none := (pending_advance t).trans free
    rw [answered?, next, free']
    show ((t.memory.vars.set name v).get? name).map (Binding.mk name) = _
    rw [Env.get?_set_self, Option.map_some]
  | ask next pays unanswered =>
    refine .inl ⟨?_, rfl⟩
    rw [answered?, next]
    rfl
  | cond next pays eval => exact .inl ⟨answered?_of_next next nofun _, rfl⟩
  | loop next pays eval => exact .inl ⟨answered?_of_next next nofun _, read_reenter ..⟩
  | count next pays evalFirst evalLast =>
    exact .inl ⟨answered?_of_next next nofun _, read_iterate ..⟩
  | leave next inner kind => exact .inl ⟨answered?_of_close next _, rfl⟩
  | again next inner kind pays eval => exact .inl ⟨answered?_of_close next _, read_reenter ..⟩
  | recount next inner kind pays => exact .inl ⟨answered?_of_close next _, read_iterate ..⟩
  | idle next inner => exact .inl ⟨answered?_of_close next _, rfl⟩

/-- A drive past its first tick completes the question of that tick and those of the rest. -/
theorem answered_of_moves (going : until? t.control = false) (moves : Moves supply t t')
    (fuel : Nat) : t.answered supply until? (fuel + 1)
      = (t.answered? t').toList ++ t'.answered supply until? fuel := by
  rw [Task.answered, going, tick_of_moves moves]
  rfl

/-- The questions that a drive completes take the answers from its place on, and it leaves the place
behind the last of them. -/
theorem answered_drive (supply : Supply)
    (stops : ∀ c : Control, c.halted = true → until? c = true) (fuel : Nat) (t : Task) :
    (t.drive supply until? fuel).task.memory.read
        = t.memory.read + (t.answered supply until? fuel).length ∧
      ∀ k b, (t.answered supply until? fuel)[k]? = some b →
        supply.answers[t.memory.read + k]? = some b.value := by
  induction fuel generalizing t with
  | zero => exact ⟨rfl, by simp [Task.answered]⟩
  | succ fuel ih =>
    cases going : until? t.control with
    | true =>
      rw [drive, Task.answered, going]
      exact ⟨rfl, by simp⟩
    | false =>
      rcases moves_or_fails supply t with ⟨t', moves⟩ | ⟨t', error, fails⟩
      · have drives : t.drive supply until? (fuel + 1) = t'.drive supply until? fuel := by
          rw [drive, going, tick_of_moves moves]
          rfl
        obtain ⟨place, taken⟩ := ih t'
        rw [drives, answered_of_moves going moves]
        rcases moves.answered (pending_of_going stops going) with
          ⟨nothing, same⟩ | ⟨b, completes, answer, next⟩
        · rw [same] at place taken
          rw [nothing]
          exact ⟨place, taken⟩
        · -- the answer at the place goes to the first question, the later ones to the others
          rw [next] at place taken
          rw [completes, Option.toList_some, List.singleton_append, List.length_cons]
          refine ⟨by omega, fun k b' at_k => ?_⟩
          cases k with
          | zero =>
            cases at_k
            exact answer
          | succ k =>
            have later := taken k b' at_k
            rwa [Nat.add_right_comm] at later
      · rw [drive, Task.answered, going, tick_of_fails fails]
        refine ⟨?_, by simp⟩
        show t'.memory.read = t.memory.read
        rw [fails.memory_eq]

end Task

/-! ## Calls -/

/-- The texts given since the last reset, in order, `before` being those given earlier. -/
def Call.given (before : List String) : List Call → List String
  | [] => before
  | .provide raw :: calls => given (before ++ [raw]) calls
  | .reset :: calls => given [] calls
  | .run _ :: calls => given before calls
  | .step _ :: calls => given before calls

namespace Machine

variable {m : Machine} {call : Call} {l : Launch} {before : List Binding}

/-- Whether questions are counted anew from a call on: it binds a program, be it the one that was
bound before, or it resets the machine. -/
def startsOver (m : Machine) : Call → Bool
  | .run program? => (program?.or m.program?).isSome
  | .step program? => m.control.isNone && program?.isSome
  | .provide _ => false
  | .reset => true

/-- The questions that a call completes, in order. -/
def answered (m : Machine) (call : Call) : List Binding :=
  match m.launch? call with
  | some l => l.task.answered m.supply l.until? (m.fuel l.task)
  | none => []

/-- The questions completed since the program was bound, in order, `before` being those completed
up to now. -/
def answeredSince (m : Machine) (before : List Binding) : List Call → List Binding
  | [] => before
  | call :: calls =>
    let counted := if m.startsOver call then [] else before
    (m.serve call).1.answeredSince (counted ++ m.answered call) calls

/-- The questions `answered` took the first answers of the machine, in order, and the machine has
read these and no more. -/
structure Took (m : Machine) (answered : List Binding) : Prop where
  place : m.memory.read = answered.length
  values : ∀ (k : Nat) (b : Binding), answered[k]? = some b → m.history[k]? = some b.value

theorem memory_of_task? {program? : Option Program} {t : Task}
    (chosen : m.task? program? = some t) :
    t.memory = if m.startsOver (.step program?) then {} else m.memory := by
  unfold task? at chosen
  split at chosen
  · rename_i c bound
    cases chosen
    rw [startsOver, bound]
    rfl
  · rename_i unbound
    obtain ⟨p, rfl, rfl⟩ := Option.map_eq_some_iff.mp chosen
    rw [startsOver, unbound]
    rfl

/-- A drive starts from the memory of the machine, or from an empty one if questions are counted
anew. -/
theorem memory_of_launch? (launch : m.launch? call = some l) :
    l.task.memory = if m.startsOver call then {} else m.memory := by
  cases call with
  | run program? =>
    obtain ⟨p, chosen, rfl⟩ := launch?_run launch
    rw [startsOver, chosen]
    rfl
  | step program? =>
    obtain ⟨t, chosen, -, rfl⟩ := launch?_step launch
    have memory := memory_of_task? chosen
    exact memory
  | provide raw => cases launch
  | reset => cases launch

theorem startsOver_of_refuses {cause : Misuse} {line : Int} (refuses : m.Refuses call cause line) :
    m.startsOver call = false := by
  cases refuses with
  | run unbound => rw [startsOver, Option.none_or, unbound]; rfl
  | step unbound => simp [startsOver]
  | waiting waits =>
    obtain ⟨c, bound, -⟩ := Option.bind_eq_some_iff.mp waits
    rw [startsOver, bound]
    rfl

theorem memory_conclude (m : Machine) (d : Drive) : (m.conclude d).memory = d.task.memory := by
  cases d <;> rfl

theorem took_nil (unread : m.memory.read = 0) : m.Took [] :=
  ⟨unread, nofun⟩

/-- Where questions are counted anew the memory is empty, else it is kept. -/
theorem Took.counted {m' : Machine} (took : m.Took before) {anew : Bool}
    (memory : m'.memory = if anew then {} else m.memory) (history : m'.history = m.history) :
    m'.Took (if anew then [] else before) := by
  cases anew with
  | true => exact took_nil (by rw [memory]; rfl)
  | false => exact ⟨by rw [memory]; exact took.place, by rw [history]; exact took.values⟩

/-- A drive appends the questions that it completes. -/
theorem Took.drive {until? : Control → Bool} {t : Task}
    (stops : ∀ c : Control, c.halted = true → until? c = true)
    (took : Took { m with memory := t.memory } before) :
    (m.drive until? t).1.Took (before ++ t.answered m.supply until? (m.fuel t)) := by
  obtain ⟨place, taken⟩ := Task.answered_drive m.supply stops (m.fuel t) t
  have begins : t.memory.read = before.length := took.place
  rw [drive_eq_conclude]
  refine ⟨?_, fun k b at_k => ?_⟩
  · rw [memory_conclude, place, begins, List.length_append]
  · rw [history_conclude]
    rcases Nat.lt_or_ge k before.length with early | late
    · rw [List.getElem?_append_left early] at at_k
      exact took.values k b at_k
    · rw [List.getElem?_append_right late] at at_k
      have answer := taken (k - before.length) b at_k
      rwa [begins, Nat.add_sub_cancel' late] at answer

theorem Took.serve (took : m.Took before) (call : Call) :
    (m.serve call).1.Took ((if m.startsOver call then [] else before) ++ m.answered call) := by
  have serves := m.serves call
  generalize m.serve call = result at serves
  cases serves with
  | @launched _ l launch =>
    have starts : Took { m with memory := l.task.memory }
        (if m.startsOver call then [] else before) :=
      took.counted (memory_of_launch? launch) rfl
    rw [answered, launch]
    exact starts.drive (stops_of_launch? launch)
  | refused refuses grounded =>
    rw [answered, grounded, startsOver_of_refuses refuses]
    simpa using took
  | completed chosen completed grounded =>
    rw [answered, grounded, List.append_nil]
    exact took.counted (memory_of_task? chosen) rfl
  | @provided raw =>
    show (m.provide raw).1.Took (before ++ [])
    rw [List.append_nil]
    refine ⟨took.place, fun k b at_k => ?_⟩
    have known := took.values k b at_k
    have early := (Array.getElem?_eq_some_iff.mp known).1
    show (m.history.push _)[k]? = _
    rw [Array.getElem?_push_lt early]
    rw [Array.getElem?_eq_getElem early] at known
    exact known
  | reset => exact took_nil rfl

theorem Took.serveAll (took : m.Took before) (calls : List Call) :
    (m.serveAll calls).Took (m.answeredSince before calls) := by
  induction calls generalizing m before with
  | nil => exact took
  | cons call calls ih => exact ih (took.serve call)

/-- The history after a call: answers are added to it, a reset empties it, and no run, step or
failure changes it. -/
theorem history_serve (m : Machine) (call : Call) : (m.serve call).1.history = match call with
    | .provide raw => m.history.push (Value.ofAnswer raw)
    | .reset => #[]
    | .run _ | .step _ => m.history := by
  have serves := m.serves call
  generalize m.serve call = result at serves
  cases serves with
  | @launched _ l launch =>
    have kept : (m.drive l.until? l.task).1.history = m.history := by
      rw [drive_eq_conclude]
      exact history_conclude m _
    cases call with
    | run | step => exact kept
    | provide | reset => cases launch
  | refused refuses grounded => cases refuses <;> rfl
  | completed => rfl
  | provided => rfl
  | reset => rfl

theorem history_serveAll {texts : List String}
    (history : m.history.toList = texts.map Value.ofAnswer) (calls : List Call) :
    (m.serveAll calls).history.toList = (Call.given texts calls).map Value.ofAnswer := by
  induction calls generalizing m texts with
  | nil => exact history
  | cons call calls ih =>
    have after := history_serve m call
    cases call with
    | run program? => exact ih (by rw [after]; exact history)
    | step program? => exact ih (by rw [after]; exact history)
    | provide raw => exact ih (by rw [after]; simp [history])
    | reset => exact ih (by rw [after]; rfl)

/-- No answer is lost, read twice or read out of order. After any calls on a new machine its history
is the values of the texts given since the last reset, in order. The questions completed since the
program was bound gave the variables that they asked for the first values of the history, in order,
and what is unread is the history without these. -/
theorem serveAll_reads_in_order (budget : Int) (patience : Nat) (listening : Bool)
    (calls : List Call) :
    let m : Machine := (create budget patience listening).serveAll calls
    let answered := (create budget patience listening).answeredSince [] calls
    m.history.toList = (Call.given [] calls).map Value.ofAnswer ∧
      answered.map Binding.value = m.history.toList.take answered.length ∧
      m.unread = m.history.toList.drop answered.length := by
  intro m answered
  have took : m.Took answered := (took_nil rfl).serveAll calls
  refine ⟨history_serveAll rfl calls, ?_, ?_⟩
  · refine List.ext_getElem? fun k => ?_
    rw [List.getElem?_map, List.getElem?_take]
    cases at_k : answered[k]? with
    | none =>
      rw [if_neg (Nat.not_lt.mpr (List.getElem?_eq_none_iff.mp at_k))]
      rfl
    | some b =>
      rw [if_pos (List.getElem?_eq_some_iff.mp at_k).1, Array.getElem?_toList,
        took.values k b at_k]
      rfl
  · rw [unread, took.place]

/-- A step that comes to wait completes nothing, and a run from the top completes the questions
again. -/
example :
    let p : Program := { statements := [.read "x" 1, .read "y" 1] }
    let names calls := ((create 5 0 false).answeredSince [] calls).map Binding.name
    names [.step (some p), .provide "1", .step none] = ["x"] ∧
      names [.step (some p), .provide "1", .step none, .step none] = ["x"] ∧
      names [.step (some p), .provide "1", .step none, .provide "2", .run none] = ["x", "y"] := by
  decide +kernel

end Machine

end Pseudocode
