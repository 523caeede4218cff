import Pseudocode.Source
import Pseudocode.Text.JsonString

/-!
# Reports

The result of a run as a flat record for callers that only exchange text: outputs and variables as
texts, and the error message with its line. A report is written as one JSON object; parts that have
nothing to say are left out.
-/

namespace Pseudocode

/-- A variable in a report. -/
structure Report.Variable where
  name : String
  value : String
  kind : String

/-- A report. The lists are absent in a report about a request that was never run. -/
structure Report where
  outputs : Option (List String) := none
  vars : Option (List Report.Variable) := none
  suspended : Bool := false
  pending : String := ""
  completed : Bool := false
  line : Int := 0
  error : String := ""
  errorLine : Int := 0

namespace Report

/-- A variable as a report shows it. -/
def Variable.ofBinding (b : Binding) : Variable :=
  { name := b.name, value := b.value.toText, kind := b.value.kind.name }

/-- The report of a result. Its variables are sorted again, whatever order they are found in. -/
def ofResponse (r : Response) : Report where
  outputs := some (r.snapshot.output.toList.map Value.toText)
  vars := some ((Env.sortedBindings r.snapshot.vars.entries).map Variable.ofBinding)
  suspended := r.snapshot.pending.isSome
  pending := r.snapshot.pending.getD ""
  completed := r.snapshot.completed
  line := r.snapshot.line
  error := (r.fault.map Fault.message).getD ""
  errorLine := (r.fault.map Fault.errorLine).getD 0

/-! ## As text -/

def truth (b : Bool) : String := if b then "true" else "false"

/-- A JSON list, or `null` if there is none. -/
def list? {α : Type} (write : α → String) : Option (List α) → String
  | none => "null"
  | some xs => "[" ++ ",".intercalate (xs.map write) ++ "]"

/-- A JSON object of the given fields. -/
def object (fields : List (String × String)) : String :=
  "\x7b" ++ ",".intercalate (fields.map fun (name, value) => Text.Json.string name ++ ":" ++ value)
    ++ "\x7d"

def Variable.json (v : Variable) : String :=
  object [("name", Text.Json.string v.name), ("value", Text.Json.string v.value),
    ("type", Text.Json.string v.kind)]

/-- A field that is left out if its text is empty. -/
def textField (name value : String) : List (String × String) :=
  if value = "" then [] else [(name, Text.Json.string value)]

/-- A field that is left out if its number is zero. -/
def numberField (name : String) (value : Int) : List (String × String) :=
  if value = 0 then [] else [(name, toString value)]

/-- The report as a JSON object. -/
def json (r : Report) : String :=
  object <|
    [("outputs", list? Text.Json.string r.outputs), ("variables", list? Variable.json r.vars),
      ("suspended", truth r.suspended)]
    ++ textField "pending_variable" r.pending
    ++ [("completed", truth r.completed)]
    ++ numberField "line" r.line
    ++ textField "error" r.error
    ++ numberField "error_line" r.errorLine

end Report

/-! ## Requests -/

/-- A request to run a source text: its answers are a JSON list of strings, or blank for none.
Without a budget of its own, a request with a blank source is refused. -/
structure Request where
  source : String
  answers : String
  budget : Option Int := none

/-- The outcome of a request: a report, or the refusal of answers that are no list of strings. -/
inductive Request.Outcome where
  | report (r : Report)
  | badAnswers (r : Report)

namespace Request

/-- The answers of a request, if they can be read. -/
def answers? (r : Request) : Option (List String) :=
  if Text.isBlankText r.answers then some [] else Text.Json.strings? r.answers

/-- Serves a request. The answers are looked at first. -/
def serve (r : Request) : Outcome :=
  match r.answers? with
  | none => .badAnswers { error := "invalid inputs json: not a list of strings" }
  | some answers =>
    match r.budget with
    | some budget => .report (.ofResponse (Source.run r.source answers (.withBudget budget)))
    | none =>
      if Text.isBlankText r.source then .report { error := "no source provided" }
      else .report (.ofResponse (Source.run r.source answers))

end Request

end Pseudocode
