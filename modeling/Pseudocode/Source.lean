import Pseudocode.Machine.Basic
import Pseudocode.Token.Scan

/-!
# From source text to result

Scanning, parsing and running as one step each: a source text becomes a program, and a program with
its answers becomes a result.
-/

namespace Pseudocode

namespace Source

/-- The tokens of a source text. -/
def tokens (source : String) : Except Fault (List Token) :=
  match Scan.tokens source with
  | .ok ts => .ok ts
  | .error p => .error (.unclosedString p.line p.column)

/-- The program that a token list spells. -/
def programOfTokens (ts : List Token) : Except Fault Program :=
  match (Parse.Stream.ofTokens ts).parse.1 with
  | .ok p => .ok p
  | .error e => .error (.grammar e)

/-- The program of a source text. -/
def program (source : String) : Except Fault Program :=
  match tokens source with
  | .ok ts => programOfTokens ts
  | .error e => .error e

/-- Runs a source text from the top with answers queued in order. A fault of the run itself is
labelled; one of the text is not. -/
def run (source : String) (answers : List String) (machine : Machine := {}) : Response :=
  match program source with
  | .error e => { snapshot := {}, fault := some e }
  | .ok p =>
    let response := ((machine.provideAll answers).run (some p)).2
    { response with fault := response.fault.map (.inContext "run") }

/-- The results of parsing a token stream several times over: one program after the other, with an
error wherever the next one does not fit. -/
def programs : Nat → Parse.Stream → List (Except Fault Program)
  | 0, _ => []
  | n + 1, s =>
    let (result, s') := s.parse
    result.mapError Fault.grammar :: programs n s'

end Source

end Pseudocode
