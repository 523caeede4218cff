import Pseudocode.Proofs.Machine.Calls
import Pseudocode.Proofs.Machine.Fitting

/-!
# Parsed programs stay inside the language

A tree put together by hand may hold statements, expressions and operators that the machine does not
know. A program that was parsed holds none (`Source.program_known`), and neither does any block that
a machine opens while it executes one. So whatever calls a machine serves, a statement goes wrong in
four ways only (`RuntimeError.OfProgram`), and the machine is misused in two ways only, neither of
which is a matter of the program (`Machine.Refuses`).

The invariant is that the bound program fits (`Machine.Fluent`). A drive of a fitting program raises
such errors only, at the tick where it stops (`fault_of_drive`), and leaves the program bound that
it started with, or none (`fluent_drive`).
-/

namespace Pseudocode

/-- The errors that executing a statement of the language can raise. -/
inductive RuntimeError.OfProgram : RuntimeError → Prop
  | undefinedVariable (name : String) (line : Int) : OfProgram (.undefinedVariable name line)
  | divisionByZero (line : Int) : OfProgram (.divisionByZero line)
  | typeMismatch (operation : String) (left right : ValueKind) (line : Int) :
      OfProgram (.typeMismatch operation left right line)
  | budgetSpent (budget : Int) (line : Int) : OfProgram (.budgetSpent budget line)

theorem RuntimeError.Regular.ofProgram {ok : Int → Prop} {e : RuntimeError} (h : e.Regular ok) :
    e.OfProgram := by
  cases e with
  | misuse cause line => exact absurd rfl (h.1 cause line)
  | undefinedVariable | divisionByZero | typeMismatch | budgetSpent => constructor

/-- The statements of the program were parsed from a source text. -/
def Program.Parsed (p : Program) : Prop :=
  ∃ source q, Source.program source = .ok q ∧ p.statements = q.statements

/-- The program that a call names, if it names one. -/
def Call.program? : Call → Option Program
  | run program? => program?
  | step program? => program?
  | provide _ => none
  | reset => none

/-- The program holds parts of the language only. -/
def Program.Known (p : Program) : Prop :=
  p.Fits fun _ => True

theorem Source.program_known {source : String} {p : Program} (parsed : program source = .ok p) :
    p.Known := by
  rw [program] at parsed
  split at parsed
  · exact programOfTokens_fits (fun _ _ => trivial) trivial parsed
  · cases parsed

theorem Program.Parsed.known {p : Program} (parsed : p.Parsed) : p.Known := by
  obtain ⟨source, q, accepted, same⟩ := parsed
  intro s member
  rw [same] at member
  exact Source.program_known accepted s member

namespace Machine

variable {m : Machine} {call : Call} {l : Launch}

/-- The bound program holds parts of the language only. -/
structure Fluent (m : Machine) : Prop where
  coherent : m.Coherent
  known : ∀ c, m.control = some c → c.program.Known

/-- A step goes on with a program of the language. -/
theorem Fluent.known_of_task? (kept : m.Fluent) {program? : Option Program}
    (known : ∀ p, program? = some p → p.Known) {t : Task} (chosen : m.task? program? = some t) :
    t.control.program.Known := by
  unfold task? at chosen
  split at chosen
  · rename_i c bound
    cases chosen
    exact kept.known c bound
  · obtain ⟨p, named, rfl⟩ := Option.map_eq_some_iff.mp chosen
    exact known p named

theorem fits_of_launch? (kept : m.Fluent) (known : ∀ p, call.program? = some p → p.Known)
    (launch : m.launch? call = some l) :
    Task.Fits (fun _ => True) l.task.control.program m.history.size l.task := by
  refine ⟨rfl, ?_, coherent_of_launch? kept.coherent launch⟩
  cases call with
  | run program? =>
    obtain ⟨p, chosen, rfl⟩ := launch?_run launch
    rcases Option.or_eq_some_iff.mp chosen with named | ⟨-, bound⟩
    · exact known p named
    · obtain ⟨c, control, rfl⟩ := Option.map_eq_some_iff.mp bound
      exact kept.known c control
  | step program? =>
    obtain ⟨t, chosen, -, rfl⟩ := launch?_step launch
    have goesOn : t.control.program.Known := kept.known_of_task? known chosen
    exact goesOn
  | provide raw => cases launch
  | reset => cases launch

section Drives

variable {until? : Control → Bool} {t : Task} {p : Program}

/-- A drive of a fitting program leaves that program bound, or none. -/
theorem fluent_drive (stops : ∀ c : Control, c.halted = true → until? c = true)
    (fits : Task.Fits (fun _ => True) p m.history.size t) : (m.drive until? t).1.Fluent := by
  refine ⟨(keeps_drive stops fits.coherent).coherent, fun c bound => ?_⟩
  have begins : Task.Performs m.supply until? t [] t := .start
  obtain ⟨log, u, performs, ends⟩ := Task.exists_performs_of_drive begins (m.fuel t)
  have kept : Task.Fits (fun _ => True) p m.history.size u := Task.Fits.performs fits stops performs
  have known : u.control.program.Known := kept.program ▸ fits.fits
  rw [drive_eq_conclude] at bound
  generalize t.drive m.supply until? (m.fuel t) = d at ends bound
  cases ends with
  | reached done =>
    cases bound
    exact known
  | failed going fails => cases bound
  | outOfFuel =>
    cases bound
    exact known

/-- With a limit, a drive is never given up. -/
theorem budget_of_outOfFuel {u : Task} (stops : ∀ c : Control, c.halted = true → until? c = true)
    (out : t.drive m.supply until? (m.fuel t) = .outOfFuel u) : m.budget = 0 := by
  refine Classical.byContradiction fun limited => ?_
  have limited' : 0 < m.supply.budget := Nat.pos_of_ne_zero limited
  obtain ⟨n, enough, d, drives⟩ := exists_drives_of_limited limited' stops t
  rw [fuel, if_neg limited, Pseudocode.drive_of_drives drives enough] at out
  exact drives.ne_outOfFuel out

/-- What a drive reports was raised by the tick where it stopped, unless it was given up. -/
theorem fault_of_drive (stops : ∀ c : Control, c.halted = true → until? c = true) {f : Fault}
    (fault : (m.drive until? t).2.fault = some f) :
    (∃ log u u' e, t.Performs m.supply until? log u ∧ until? u.control = false ∧
      u.tick m.supply = .failed u' e ∧ f = .runtime e) ∨ f = .unfinished ∧ m.budget = 0 := by
  have begins : Task.Performs m.supply until? t [] t := .start
  obtain ⟨log, u, performs, ends⟩ := Task.exists_performs_of_drive begins (m.fuel t)
  rw [drive_eq_conclude] at fault
  generalize ended : t.drive m.supply until? (m.fuel t) = d at ends fault
  cases ends with
  | reached done => cases fault
  | @failed v e going fails =>
    cases fault
    exact .inl ⟨log, u, v, e, performs, going, Task.tick_of_fails fails, rfl⟩
  | outOfFuel =>
    cases fault
    exact .inr ⟨rfl, budget_of_outOfFuel stops ended⟩

end Drives

/-! ## Calls -/

theorem fluent_create (budget : Int) (patience : Nat) (listening : Bool) :
    (create budget patience listening).Fluent :=
  ⟨coherent_create .., fun c bound => by cases bound⟩

theorem fluent_serve (kept : m.Fluent) (known : ∀ p, call.program? = some p → p.Known) :
    (m.serve call).1.Fluent := by
  have serves := m.serves call
  generalize m.serve call = result at serves
  cases serves with
  | launched launch =>
    exact fluent_drive (stops_of_launch? launch) (fits_of_launch? kept known launch)
  | refused refuses grounded => exact kept
  | @completed program? t chosen completed grounded =>
    refine ⟨coherent_of_task (coherent_task? kept.coherent chosen) rfl rfl, fun c bound => ?_⟩
    cases bound
    exact kept.known_of_task? known chosen
  | @provided raw =>
    refine ⟨coherent_provide kept.coherent raw, fun c bound => ?_⟩
    obtain ⟨c, bound', rfl⟩ := Option.map_eq_some_iff.mp bound
    exact kept.known c bound'
  | reset => exact ⟨coherent_reset m, fun c bound => by cases bound⟩

theorem fluent_serveAll (kept : m.Fluent) {calls : List Call}
    (known : ∀ call ∈ calls, ∀ p, call.program? = some p → p.Known) :
    (m.serveAll calls).Fluent := by
  induction calls generalizing m with
  | nil => exact kept
  | cons call calls ih =>
    obtain ⟨first, later⟩ := List.forall_mem_cons.mp known
    exact ih (fluent_serve kept first) later

theorem budget_serve (m : Machine) (call : Call) : (m.serve call).1.budget = m.budget := by
  have serves := m.serves call
  generalize m.serve call = result at serves
  cases serves with
  | launched launch =>
    rw [drive_eq_conclude]
    exact budget_conclude m _
  | refused | completed | provided | reset => rfl

theorem budget_serveAll (m : Machine) (calls : List Call) :
    (m.serveAll calls).budget = m.budget := by
  induction calls generalizing m with
  | nil => rfl
  | cons call calls ih => exact (ih (m.serve call).1).trans (budget_serve m call)

/-- A tick of a fluent machine raises errors of the program only. -/
theorem ofProgram_of_ticksAt (kept : m.Fluent) (known : ∀ p, call.program? = some p → p.Known)
    {u u' : Task} {e : RuntimeError} (ticks : m.TicksAt call u)
    (raised : u.tick m.supply = .failed u' e) : e.OfProgram := by
  obtain ⟨l, log, launch, performs, -⟩ := ticksAt_iff.mp ticks
  have fits := fits_of_launch? kept known launch
  have kept' := Task.Fits.performs fits (stops_of_launch? launch) performs
  exact (kept'.regular (Task.tick_eq_failed_iff.mp raised)).ofProgram

/-- A refused call is one of the misuses. -/
theorem serve_of_refuses {cause : Misuse} {line : Int} (refuses : m.Refuses call cause line) :
    m.serve call = (m, some (m.refuse cause line).2) := by
  cases refuses with
  | run unbound =>
    show ((m.run none).1, some (m.run none).2) = _
    rw [run, Option.none_or, unbound]
    rfl
  | step unbound =>
    have control : m.control = none := Option.map_eq_none_iff.mp unbound
    show ((m.step none).1, some (m.step none).2) = _
    rw [step, control]
    rfl
  | @waiting program? prompt waits =>
    show ((m.step program?).1, some (m.step program?).2) = _
    rw [step_of_pending waits]
    rfl

/-- Parsed programs stay inside the language. After any calls on a new machine, each of which names
a program that was parsed, or none, let one more such call come.

Every error that is raised while it executes a statement is a variable without a value, a division
by zero, an operation on operands of the wrong kind, or a spent budget. If the call reports a fault,
it is an error that was raised in this way, or the machine refuses the call, which it does only for
want of a program or at a step while it waits for an answer; or the call was given up, for want of a
limit. A call that the machine refuses reports so. -/
theorem serveAll_raises_ofProgram (budget : Int) (patience : Nat) (listening : Bool)
    (calls : List Call) (call : Call)
    (parsed : ∀ c ∈ call :: calls, ∀ p, c.program? = some p → p.Parsed) :
    let m : Machine := (create budget patience listening).serveAll calls
    (∀ u u' e, m.TicksAt call u → u.tick m.supply = .failed u' e → e.OfProgram) ∧
      (∀ r f, (m.serve call).2 = some r → r.fault = some f →
        (∃ u u' e, m.TicksAt call u ∧ u.tick m.supply = .failed u' e ∧ e.OfProgram ∧
          f = .runtime e) ∨
        (∃ cause line, m.Refuses call cause line ∧ f = .runtime (.misuse cause line)) ∨
        f = .unfinished ∧ budget ≤ 0) ∧
      ∀ cause line, m.Refuses call cause line →
        ∃ r, (m.serve call).2 = some r ∧ r.fault = some (.runtime (.misuse cause line)) := by
  intro m
  obtain ⟨last, earlier⟩ := List.forall_mem_cons.mp parsed
  have known : ∀ p, call.program? = some p → p.Known := fun p named => (last p named).known
  have kept : m.Fluent := by
    refine fluent_serveAll (fluent_create budget patience listening) fun c member p named => ?_
    exact (earlier c member p named).known
  refine ⟨fun u u' e => ofProgram_of_ticksAt kept known, fun r f returned fault => ?_,
    fun cause line refuses => ?_⟩
  · have serves := m.serves call
    generalize m.serve call = result at serves returned
    cases serves with
    | launched launch =>
      cases returned
      rcases fault_of_drive (stops_of_launch? launch) fault with
        ⟨log, u, u', e, performs, going, raised, rfl⟩ | ⟨rfl, unlimited⟩
      · have ticks : m.TicksAt call u := ticksAt_iff.mpr ⟨_, log, launch, performs, going⟩
        exact .inl ⟨u, u', e, ticks, raised, ofProgram_of_ticksAt kept known ticks raised, rfl⟩
      · rw [show m.budget = budget.toNat from budget_serveAll _ calls] at unlimited
        exact .inr (.inr ⟨rfl, by omega⟩)
    | @refused _ cause line refuses grounded =>
      cases returned
      cases fault
      exact .inr (.inl ⟨cause, line, refuses, rfl⟩)
    | completed chosen completed grounded =>
      cases returned
      cases fault
    | provided => cases returned
    | reset => cases returned
  · rw [serve_of_refuses refuses]
    exact ⟨_, rfl, rfl⟩

/-- A program that reads one variable and writes another. -/
def strangerSource : String := "Début Lire x Écrire y Fin"

def stranger : Program :=
  { statements := [.read "x" 1, .write (.ident "y" 1) 1] }

set_option maxRecDepth 4000 in
theorem program_stranger : Source.program strangerSource = .ok stranger := by
  let ts : List Token :=
    [{ kind := .debut, text := "Début", line := 1, column := 1 },
      { kind := .lire, text := "Lire", line := 1, column := 7 },
      { kind := .identifier, text := "x", line := 1, column := 12 },
      { kind := .ecrire, text := "Écrire", line := 1, column := 14 },
      { kind := .identifier, text := "y", line := 1, column := 21 },
      { kind := .fin, text := "Fin", line := 1, column := 23 }]
  let final : Token := { kind := .eof, line := 1, column := 26 }
  have scanned : Source.tokens strangerSource = .ok (ts ++ [final]) := by with_unfolding_all rfl
  have isWhole : Grammar.Whole ts stranger.statements :=
    .intro rfl (.cons (.read rfl rfl)
      (.cons (.write rfl (.one (.one (.one (.one (.one (.name rfl))))))) .nil)) rfl
  have parsed : (Parse.Stream.ofTokens (ts ++ [final])).parse
      = (.ok stranger, { rest := [], final }) :=
    Parse.Stream.parse_eq_ok_iff.mpr ⟨rfl, ts, isWhole, rfl⟩
  rw [Source.program, scanned]
  show Source.programOfTokens _ = _
  rw [Source.programOfTokens, parsed]

/-- A step that comes to wait, the answer, and a run that fails at the second statement. -/
theorem serveAll_raises_ofProgram_stranger :
    let m : Machine := (create 10 0 false).serveAll [.step (some stranger), .provide "1"]
    ∃ u u' e, m.TicksAt (.run none) u ∧ u.tick m.supply = .failed u' e ∧ e.OfProgram ∧
      e = .undefinedVariable "y" 1 := by
  intro m
  have parsed : ∀ c ∈ [Call.run none, .step (some stranger), .provide "1"],
      ∀ p, c.program? = some p → p.Parsed := by
    intro c member p named
    simp only [List.mem_cons, List.not_mem_nil, or_false] at member
    rcases member with rfl | rfl | rfl <;> cases named
    exact ⟨strangerSource, stranger, program_stranger, rfl⟩
  have failed : (m.serve (.run none)).2.bind Response.fault
      = some (.runtime (.undefinedVariable "y" 1)) := by with_unfolding_all rfl
  obtain ⟨r, returned, fault⟩ := Option.bind_eq_some_iff.mp failed
  obtain ⟨-, reported, -⟩ := serveAll_raises_ofProgram 10 0 false
    [.step (some stranger), .provide "1"] (.run none) parsed
  rcases reported r _ returned fault with
    ⟨u, u', e, ticks, raised, ofProgram, same⟩ | ⟨cause, line, -, same⟩ | ⟨same, -⟩
  · cases same
    exact ⟨u, u', _, ticks, raised, ofProgram, rfl⟩
  · cases same
  · cases same

end Machine

end Pseudocode
