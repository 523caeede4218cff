import Pseudocode.Session.Basic

/-!
# Dialogues

Running a program as a dialogue of lines: every output is printed once, each pending question is
asked in turn, and the program is run again with one more answer. A rerun repeats the output so
far, so only what is new is printed.

A dialogue is a pure function of its script, the answers that a reader gives and the way the reader
stops; its transcript says what was printed, asked and worth remembering, in order.
-/

namespace Pseudocode

/-- How a reader stops answering. -/
inductive Ending where
  /-- The input ended, or the reader broke off. -/
  | interrupted
  /-- The answer could not be obtained, for the reason given. -/
  | failed (reason : String)

/-- What happens in a dialogue. -/
inductive Event where
  /-- A line is printed. -/
  | print (line : String)
  /-- A question is asked. -/
  | ask (question : String)
  /-- An answer is kept for the next time. -/
  | remember (answer : String)

/-- A dialogue: what happened, how it failed, if it did, and the session it leaves. -/
structure Transcript where
  events : List Event
  fault : Option Fault
  session : Session

namespace Dialogue

/-- The question that asks for a variable. -/
def question (name : String) : String := name ++ " ? "

/-- The lines of a variable table. -/
def tableLines (env : Env) : List String :=
  "--" :: env.bindings.map fun b => b.name ++ " = " ++ b.value.toText

/-- The events of a list of lines. -/
def prints (lines : List String) : List Event :=
  lines.map .print

/-- The outputs of a session after the first `printed` ones. -/
def newOutputs (s : Session) (printed : Nat) : List Event :=
  prints ((s.last.output.toList.drop printed).map Value.toText)

/-- Goes on with a session that was just run and of whose outputs `printed` are printed. -/
def goOn (showVars : Bool) (ending : Ending) (s : Session) (printed : Nat)
    (answers : List String) : Transcript :=
  let said := newOutputs s printed
  match s.fault, s.last.pending, answers with
  | some f, _, _ => { events := said, fault := some f, session := s }
  | none, none, _ =>
    let table := if showVars then prints (tableLines s.machine.memory.vars) else []
    { events := said ++ table, fault := none, session := s }
  | none, some name, [] =>
    let fault := match ending with
      | .interrupted => .interrupted s.last.line
      | .failed reason => .unanswered reason
    { events := said ++ [.ask (question name)], fault := some fault, session := s }
  | none, some name, answer :: rest =>
    let kept := if Text.isBlankText answer then [] else [.remember answer]
    let t := goOn showVars ending (s.provide answer) (max printed s.last.output.size) rest
    { t with events := said ++ .ask (question name) :: kept ++ t.events }

/-- A whole dialogue. -/
def hold (s : Session) (answers : List String) (ending : Ending) (showVars : Bool) : Transcript :=
  goOn showVars ending s.run 0 answers

end Dialogue

namespace Transcript

/-- What was printed, without the questions. -/
def printed (t : Transcript) : String :=
  String.join (t.events.map fun
    | .print line => line ++ "\n"
    | _ => "")

/-- What a reader sees whose questions appear among the output. -/
def shown (t : Transcript) : String :=
  String.join (t.events.map fun
    | .print line => line ++ "\n"
    | .ask question => question
    | .remember _ => "")

/-- The questions asked. -/
def questions (t : Transcript) : List String :=
  t.events.filterMap fun
    | .ask question => some question
    | _ => none

/-- The answers kept. -/
def remembered (t : Transcript) : List String :=
  t.events.filterMap fun
    | .remember answer => some answer
    | _ => none

end Transcript

end Pseudocode
