import Pseudocode.Catalog.Shelf
import Pseudocode.Command.Flags
import Pseudocode.Machine.Basic
import Pseudocode.Yaml.Value

/-!
# Options

What a command line asks for. Each setting has the value of the last flag that sets it; four of them
may also come from a configuration file, which counts only where no flag does.
-/

namespace Pseudocode.Command

/-- The name of the command. -/
def commandName : String := "algofr"

/-- The flags of the command. -/
def knownFlags : List Flag :=
  [{ name := "file", kind := .text, help := "pseudocode source file" },
    { name := "example", kind := .text, help := "run a built-in example by slug" },
    { name := "load", kind := .text, help := "run a saved algorithm by name" },
    { name := "save", kind := .text, help := "save -file into the store under this name" },
    { name := "list", kind := .switch, help := "list saved algorithms" },
    { name := "examples", kind := .switch, help := "list built-in examples" },
    { name := "delete", kind := .integer, help := "delete the saved algorithm with this id" },
    { name := "store", kind := .text, help := "saved algorithms file"
      standard := Text.quote Catalog.defaultPath },
    { name := "config", kind := .text, help := "optional YAML configuration file" },
    { name := "plain", kind := .switch, help := "line mode instead of the terminal UI" },
    { name := "inputs", kind := .text, help := "comma separated answers for Lire, in order" },
    { name := "sample", kind := .switch, help := "answer Lire with the example's sample inputs" },
    { name := "max-steps", kind := .integer, help := "statement budget per run (0 disables)"
      standard := toString defaultBudget },
    { name := "vars", kind := .switch, help := "print variables when a plain run ends" }]

/-- What the command is to do. -/
structure Options where
  file : String := ""
  builtIn : String := ""
  load : String := ""
  save : String := ""
  list : Bool := false
  examples : Bool := false
  delete : Int64 := 0
  catalogPath : String := Catalog.defaultPath
  plain : Bool := false
  answers : List String := []
  sample : Bool := false
  budget : Int := defaultBudget
  showVars : Bool := false

/-! ## Flags -/

/-- The value of the last occurrence of a flag. -/
def last? (os : List Occurrence) (name : String) : Option FlagValue :=
  (os.reverse.find? (·.name = name)).map Occurrence.value

/-- The text of the last occurrence of a flag. -/
def lastText? (os : List Occurrence) (name : String) : Option String :=
  match last? os name with
  | some (.text s) => some s
  | _ => none

/-- The state of the last occurrence of a switch. -/
def lastSwitch? (os : List Occurrence) (name : String) : Option Bool :=
  match last? os name with
  | some (.switch b) => some b
  | _ => none

/-- The number of the last occurrence of a flag. -/
def lastInteger? (os : List Occurrence) (name : String) : Option Int :=
  match last? os name with
  | some (.integer i) => some i
  | _ => none

/-- The answers in a comma separated list, each without the white space around it. -/
def splitAnswers (raw : String) : List String :=
  if Text.isBlankText raw then [] else (Text.splitText ',' raw).map Text.trim

/-- The options that flags ask for. -/
def Options.ofFlags (os : List Occurrence) : Options :=
  let text (name : String) : String := Text.trim ((lastText? os name).getD "")
  let switch (name : String) : Bool := (lastSwitch? os name).getD false
  { file := text "file"
    builtIn := text "example"
    load := text "load"
    save := text "save"
    list := switch "list"
    examples := switch "examples"
    delete := Int64.ofInt ((lastInteger? os "delete").getD 0)
    catalogPath := (lastText? os "store").getD Catalog.defaultPath
    plain := switch "plain"
    answers := splitAnswers ((lastText? os "inputs").getD "")
    sample := switch "sample"
    budget := (lastInteger? os "max-steps").getD defaultBudget
    showVars := switch "vars" }

/-! ## Configuration files -/

/-- A configuration file. -/
structure Config where
  catalogPath : String := ""
  budget : Int := 0
  plain : Bool := false
  showVars : Bool := false

/-- The configuration with one more field, or nothing if the field is unknown or of a wrong type. -/
def Config.set? (c : Config) (field : String × Yaml.Node) : Option Config :=
  let n := field.2
  match field.1 with
  | "store" => (n.text? "").map fun catalogPath => { c with catalogPath }
  | "max_steps" => (n.int? 0).map fun budget => { c with budget }
  | "plain" => (n.bool? false).map fun plain => { c with plain }
  | "show_variables" => (n.bool? false).map fun showVars => { c with showVars }
  | _ => none

/-- The configuration that a text spells: a document that is a mapping of known fields, each there
once at most. -/
def Config.parse? (s : String) : Option Config := do
  let fields ← (← (← Yaml.document? s)).fields?
  guard ((fields.map (·.1)).eraseDups.length = fields.length)
  fields.foldlM Config.set? {}

/-- Takes a setting from the configuration unless a flag sets it or the configuration leaves it
open. -/
def Options.withConfig (o : Options) (os : List Occurrence) (c : Config) : Options :=
  let given (name : String) : Bool := os.any (·.name = name)
  { o with
    catalogPath :=
      if given "store" || Text.isBlankText c.catalogPath then o.catalogPath else c.catalogPath
    budget := if given "max-steps" || c.budget = 0 then o.budget else c.budget
    plain := if given "plain" then o.plain else o.plain || c.plain
    showVars := if given "vars" then o.showVars else o.showVars || c.showVars }

/-- The first argument after the flags is the source file if no flag names one. -/
def Options.withPositionals (o : Options) (positionals : List String) : Options :=
  match positionals with
  | [] => o
  | p :: _ => if o.file = "" then { o with file := p } else o

end Pseudocode.Command
