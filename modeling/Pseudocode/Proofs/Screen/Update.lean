import Pseudocode.Screen.Basic
import Pseudocode.Proofs.Session.Lines

/-!
# The screen and its machine in step

Whether the program waits is known in three places: the machine has a pending question, the session
shows one and has no fault, and the field is open. Messages change them in different places, and
they never come apart (`update_in_step`).

* `Session.InStep` is what holds of the session: its fault is never one of its use, and it shows the
  question that its machine waits on. A run restores it from any sound session. A step does so only
  if the machine does not wait, and this is the only time that the screen makes one.
* `Screen.InStep` adds the status and the field, which every operation brings in line. Every message
  keeps it (`inStep_update`), so it holds after all of them (`inStep_updateAll`).
-/

namespace Pseudocode

/-! ## Sessions -/

namespace Session

variable {source : SourceText} {s : Session} {p : Program} {mode : Mode}

/-- The session shows what its machine waits on, and no fault that is the fault of its user. -/
structure InStep (source : SourceText) (s : Session) : Prop where
  sound : s.Sound source
  shown : s.fault = none → s.last.pending = s.machine.pending?.map Prompt.name
  failed : ∀ f, s.fault = some f →
    s.machine.pending? = none ∧ ∀ cause line, f.cause ≠ .runtime (.misuse cause line)
  active : s.machine.pending? ≠ none → s.mode ≠ .idle

theorem InStep.waiting_iff (h : s.InStep source) :
    s.waiting = true ↔ s.machine.pending?.isSome = true := by
  rw [waiting]
  cases fault : s.fault with
  | some f =>
    rw [(h.failed f fault).1]
    simp
  | none =>
    rw [h.shown fault]
    simp

/-- The session after an operation in a mode: in step, and in that mode if the program waits. -/
structure Entered (source : SourceText) (mode : Mode) (s : Session) : Prop extends
    s.InStep source where
  mode : s.machine.pending? ≠ none → s.mode = mode

/-- A source without a program leaves the machine unbound. -/
theorem entered_refuse (sound : s.Sound source) {fault : Fault}
    (failed : Source.program source.code = .error fault) (mode : Mode) :
    (s.refuse fault).Entered source mode := by
  have unbound : s.machine.control = none := by
    cases control : s.machine.control with
    | none => rfl
    | some c =>
      have parsed := sound.parsed _ (sound.bound c control)
      rw [failed] at parsed
      cases parsed
  have free : (s.refuse fault).machine.pending? = none := by
    show s.machine.control.bind Control.pending = none
    rw [unbound]
    rfl
  refine ⟨⟨sound.refuse fault, nofun, fun f same => ⟨free, ?_⟩, ?_⟩, ?_⟩
  · cases same
    exact fun cause line => Source.cause_of_program_error failed _
  · exact fun waits => absurd free waits
  · exact fun waits => absurd free waits

theorem entered_execute {ok : Int → Prop} (sound : s.Sound source)
    (parsed : Source.program source.code = .ok p) {result : Machine × Response}
    (settles : s.machine.Settles ok p result) (going : mode ≠ .idle) :
    (s.execute p mode result).Entered source mode := by
  have kept : result.1.pending? ≠ none → (s.execute p mode result).mode = mode := by
    intro waits
    -- a failure unbinds the program, so there is none, and the question is shown
    cases fault : result.2.fault with
    | some f =>
      have unbound := (settles.failed f fault).1
      simp [Machine.pending?, unbound] at waits
    | none =>
      have shown : result.2.snapshot.pending.isNone = false := by
        rw [settles.shown fault]
        simpa [Option.isSome_iff_ne_none] using waits
      simp [execute, record, fault, shown]
  refine ⟨⟨sound.execute parsed settles.reports mode, settles.shown, fun f failed => ?_, ?_⟩, kept⟩
  · obtain ⟨unbound, e, rfl, regular⟩ := settles.failed f failed
    refine ⟨?_, fun cause line same => ?_⟩
    · show result.1.control.bind Control.pending = none
      rw [unbound]
      rfl
    · cases same
      exact regular.1 _ _ rfl
  · intro waits
    rw [kept waits]
    exact going

theorem entered_run (sound : s.Sound source) : s.run.Entered source .run := by
  cases result : Source.program source.code with
  | error fault =>
    rw [run, sound.withProgram_of_error result]
    exact entered_refuse sound result .run
  | ok p =>
    rw [sound.run_eq result]
    have settles := Machine.settles_run sound.limited (Source.program_fits result)
    exact entered_execute sound result settles (by decide)

theorem entered_step (sound : s.Sound source) (free : s.machine.pending? = none) :
    s.step.Entered source .step := by
  cases result : Source.program source.code with
  | error fault =>
    rw [step, sound.withProgram_of_error result]
    exact entered_refuse sound result .step
  | ok p =>
    rw [sound.step_eq result]
    have settles := Machine.settles_step sound.limited sound.coherent
      (Source.program_fits result) (sound.program_of_bound result) free
    exact entered_execute sound result settles (by decide)

/-- The session with an answer given to its machine. -/
def answer (s : Session) (raw : String) : Session :=
  { s with machine := (s.machine.provide raw).1 }

theorem pending?_answer (s : Session) (raw : String) : (s.answer raw).machine.pending? = none := by
  show (s.machine.control.map Control.resume).bind Control.pending = none
  cases s.machine.control <;> rfl

/-- An answer goes on in the mode of the session. -/
theorem provide_eq (h : s.InStep source) (waits : s.machine.pending? ≠ none) (raw : String) :
    (s.mode = .run ∧ s.provide raw = (s.answer raw).run) ∨
      (s.mode = .step ∧ s.provide raw = (s.answer raw).step) := by
  have active := h.active waits
  rw [provide]
  cases mode : s.mode with
  | idle => exact absurd mode active
  | run => exact .inl ⟨rfl, if_neg (by decide)⟩
  | step => exact .inr ⟨rfl, if_pos rfl⟩

theorem entered_provide (h : s.InStep source) (waits : s.machine.pending? ≠ none) (raw : String) :
    (s.provide raw).Entered source s.mode := by
  have sound : (s.answer raw).Sound source := h.sound.answered raw
  rcases provide_eq h waits raw with ⟨mode, same⟩ | ⟨mode, same⟩ <;> rw [mode, same]
  · exact entered_run sound
  · exact entered_step sound (pending?_answer s raw)

theorem inStep_unbound (sound : s.Sound source) (unbound : s.machine.control = none)
    (fault : s.fault = none) (last : s.last.pending = none) : s.InStep source := by
  have free : s.machine.pending? = none := by
    show s.machine.control.bind Control.pending = none
    rw [unbound]
    rfl
  refine ⟨sound, fun _ => ?_, fun f failed => ?_, fun waits => absurd free waits⟩
  · rw [last, free]
    rfl
  · rw [fault] at failed
    cases failed

theorem inStep_start {budget : Int} (positive : 0 < budget) (source : SourceText) :
    (start source budget).InStep source := by
  have unbound := Machine.control_provideAll (m := Machine.withBudget budget) rfl source.answers
  exact inStep_unbound (sound_start positive source) unbound rfl rfl

theorem inStep_reset (sound : s.Sound source) : s.reset.InStep source := by
  have unbound := Machine.control_provideAll (m := s.machine.reset) rfl s.source.answers
  exact inStep_unbound sound.reset unbound rfl rfl

end Session

/-! ## Screens -/

namespace Screen

variable {source : SourceText} {s : Screen} {mode : Mode}

/-- The session is in step, and the status and the field are in line with it. -/
structure InStep (source : SourceText) (s : Screen) : Prop where
  session : s.session.InStep source
  status : s.status = statusOf s.session
  focused : s.field.focused = s.waiting

theorem inStep_refresh (h : s.session.InStep source) : s.refresh.InStep source :=
  ⟨h, rfl, focused_refresh s⟩

theorem inStep_operate {f : Session → Session} (h : (f s.session).InStep source) :
    (s.operate f).InStep source :=
  inStep_refresh h

theorem InStep.pending (h : s.InStep source) (waits : s.waiting = true) :
    s.session.machine.pending? ≠ none := by
  have some := h.session.waiting_iff.mp waits
  intro none
  rw [none] at some
  cases some

theorem InStep.free (h : s.InStep source) (free : s.waiting = false) :
    s.session.machine.pending? = none := by
  cases pending : s.session.machine.pending? with
  | none => rfl
  | some prompt =>
    have waits : s.waiting = true := h.session.waiting_iff.mpr (by rw [pending]; rfl)
    rw [free] at waits
    cases waits

theorem inStep_answerKey (h : s.InStep source) (waits : s.waiting = true) (k : Key) :
    (s.answerKey k).InStep source := by
  cases k with
  | enter =>
    rw [answerKey]
    apply inStep_operate
    exact (Session.entered_provide h.session (h.pending waits) _).toInStep
  | char c =>
    refine ⟨h.session, h.status, ?_⟩
    show (s.field.type c).focused = s.waiting
    rw [Field.type]
    split <;> exact h.focused
  | backspace | interrupt | other => exact ⟨h.session, h.status, h.focused⟩

theorem inStep_commandKey (h : s.InStep source) (free : s.waiting = false) (k : Key) :
    (s.commandKey k).screen.InStep source := by
  unfold commandKey
  split
  · exact h
  · exact inStep_operate (Session.entered_run h.session.sound).toInStep
  · exact inStep_operate (Session.entered_step h.session.sound (h.free free)).toInStep
  · exact inStep_operate (Session.inStep_reset h.session.sound)
  · exact ⟨h.session, h.status, h.focused⟩
  · exact ⟨h.session, h.status, h.focused⟩
  · exact h

theorem inStep_update (h : s.InStep source) (m : Message) :
    (s.update m).screen.InStep source := by
  unfold update
  split
  · exact inStep_refresh h.session
  · exact h
  · split
    · rename_i waits
      exact inStep_answerKey h waits _
    · rename_i free
      exact inStep_commandKey h (by simpa using free) _

theorem inStep_updateAll (h : s.InStep source) (messages : List Message) :
    (s.updateAll messages).screen.InStep source := by
  have folded : ∀ r : Reaction, r.screen.InStep source →
      (messages.foldl (fun r m => r.screen.update m) r).screen.InStep source := by
    induction messages with
    | nil => exact fun r h => h
    | cons m messages ih => exact fun r h => ih _ (inStep_update h m)
  exact folded _ h

/-! ## Messages while the program waits -/

theorem update_key (s : Screen) {k : Key} (goesOn : k ≠ .interrupt) :
    s.update (.key k) = if s.waiting then { screen := s.answerKey k } else s.commandKey k := by
  cases k with
  | interrupt => exact absurd rfl goesOn
  | char | enter | backspace | other => rfl

/-- While the program waits, only the enter key changes the session, and only the key that breaks
off quits. -/
theorem update_of_waiting (waits : s.waiting = true) {m : Message} (other : m ≠ .key .enter) :
    (s.update m).screen.session = s.session ∧
      ((s.update m).quit = true ↔ m = .key .interrupt) := by
  cases m with
  | resize width height => exact ⟨rfl, nofun, nofun⟩
  | key k =>
    by_cases breaks : k = .interrupt
    · subst breaks
      exact ⟨rfl, fun _ => rfl, fun _ => rfl⟩
    · rw [update_key s breaks, if_pos waits]
      cases k with
      | enter => exact absurd rfl other
      | interrupt => exact absurd rfl breaks
      | char | backspace | other => exact ⟨rfl, nofun, nofun⟩

theorem update_enter (waits : s.waiting = true) :
    (s.update (.key .enter)).screen.session
        = s.session.provide (String.ofList s.field.value) ∧
      (s.update (.key .enter)).quit = false := by
  rw [update_key s (k := .enter) nofun, if_pos waits]
  exact ⟨rfl, rfl⟩

/-- The letter that makes the program go on in a mode. -/
def letter : Mode → Option Char
  | .idle => none
  | .run => some 'r'
  | .step => some 's'

/-- Of the keys that are commands, only the two letters can make the program wait. -/
theorem mode_commandKey (h : s.InStep source) (free : s.waiting = false) {k : Key}
    (waits : (s.commandKey k).screen.waiting = true) :
    ∃ c, k = .char c ∧ letter (s.commandKey k).screen.session.mode = some c := by
  have kept := (inStep_commandKey h free k).pending waits
  have still {t : Screen} (same : t.session = s.session) (waits : t.waiting = true) : False := by
    rw [waiting, same] at waits
    rw [waiting, waits] at free
    cases free
  revert waits kept
  unfold commandKey
  split <;> intro waits kept
  · exact (still rfl waits).elim
  · exact ⟨'r', rfl, congrArg letter ((Session.entered_run h.session.sound).mode kept)⟩
  · have entered := Session.entered_step h.session.sound (h.free free)
    exact ⟨'s', rfl, congrArg letter (entered.mode kept)⟩
  · cases waits
  · exact (still rfl waits).elim
  · exact (still rfl waits).elim
  · exact (still rfl waits).elim

/-- The mode of a program that waits is the one of the letter that made it go on, or, if it waited
before, still the same. -/
theorem mode_of_waiting (h : s.InStep source) {m : Message}
    (waits : (s.update m).screen.waiting = true) :
    if s.waiting then (s.update m).screen.session.mode = s.session.mode
    else ∃ c, m = .key (.char c) ∧ letter (s.update m).screen.session.mode = some c := by
  have kept := (inStep_update h m).pending waits
  by_cases before : s.waiting = true
  · rw [if_pos before]
    by_cases enter : m = .key .enter
    · subst enter
      rw [(update_enter before).1] at kept ⊢
      exact (Session.entered_provide h.session (h.pending before) _).mode kept
    · rw [(update_of_waiting before enter).1]
  · rw [if_neg before]
    have free : s.waiting = false := by simpa using before
    cases m with
    | resize width height => exact absurd waits before
    | key k =>
      by_cases breaks : k = .interrupt
      · subst breaks
        exact absurd waits before
      · rw [update_key s breaks, if_neg before] at waits ⊢
        obtain ⟨c, rfl, mode⟩ := mode_commandKey h free waits
        exact ⟨c, rfl, mode⟩

/-- The screen and its machine stay in step. Let a screen on a source with a positive budget have
got any messages. Then it waits exactly if its machine is suspended, its session has no fault of its
use, and its status and the focus of its field are those of its session. Whatever message comes
next: while the screen waits, the enter key provides the text of the field and goes on in the mode
of the session, any other message leaves the session as it is, and only the key that breaks off
quits; and if the screen waits after it, then in the mode of the letter just typed, or, if it waited
before, still in the same. -/
theorem update_in_step (source : SourceText) (budget : Int) (positive : 0 < budget)
    (messages : List Message) (m : Message) :
    let s := ((start source budget).updateAll messages).screen
    let r := s.update m
    let answered := s.session.answer (String.ofList s.field.value)
    (s.waiting = true ↔ s.session.machine.pending?.isSome = true) ∧
      (∀ f, s.session.fault = some f → ∀ cause line, f.cause ≠ .runtime (.misuse cause line)) ∧
      (s.status = s.refresh.status ∧ s.field.focused = s.refresh.field.focused ∧
        s.field.focused = s.waiting) ∧
      (s.waiting = true → m = .key .enter → r.quit = false ∧
        ((s.session.mode = .run ∧ r.screen.session = answered.run) ∨
          (s.session.mode = .step ∧ r.screen.session = answered.step))) ∧
      (s.waiting = true → m ≠ .key .enter →
        r.screen.session = s.session ∧ (r.quit = true ↔ m = .key .interrupt)) ∧
      (r.screen.waiting = true →
        if s.waiting then r.screen.session.mode = s.session.mode
        else ∃ c, m = .key (.char c) ∧ letter r.screen.session.mode = some c) := by
  intro s r answered
  have begins : (start source budget).InStep source :=
    ⟨Session.inStep_start positive source, rfl, rfl⟩
  have h : s.InStep source := inStep_updateAll begins messages
  refine ⟨h.session.waiting_iff, fun f failed => (h.session.failed f failed).2,
    ⟨h.status, ?_, h.focused⟩, fun waits enter => ?_, fun waits => update_of_waiting waits,
    mode_of_waiting h⟩
  · rw [focused_refresh]
    exact h.focused
  · subst enter
    obtain ⟨session, quit⟩ := update_enter waits
    refine ⟨quit, ?_⟩
    rw [show r.screen.session = _ from session]
    exact Session.provide_eq h.session (h.pending waits) _

/-- A step that comes to a question opens the field, and the enter key goes on with another step. -/
theorem update_in_step_question :
    let s := ((start Session.question 10).updateAll [.key (.char 's')]).screen
    s.waiting = true ∧ s.field.focused = true ∧
      (s.update (.key .enter)).screen.session = (s.session.answer "").step := by
  intro s
  have sound := Session.sound_start (show (0 : Int) < 10 by decide) Session.question
  have session : s.session = (Session.start Session.question 10).step := rfl
  rw [sound.step_eq Session.program_question] at session
  have waits : s.waiting = true := by
    rw [waiting, session]
    rfl
  have value : String.ofList s.field.value = "" := by
    show String.ofList (refresh _).field.value = ""
    unfold refresh
    split <;> rfl
  obtain ⟨-, -, ⟨-, -, focused⟩, entered, -⟩ := update_in_step Session.question 10 (by decide)
    [.key (.char 's')] (.key .enter)
  refine ⟨waits, focused.trans waits, ?_⟩
  rcases (entered waits rfl).2 with ⟨mode, -⟩ | ⟨-, goesOn⟩
  · rw [session] at mode
    cases mode
  · rw [← value]
    exact goesOn

end Screen

end Pseudocode
