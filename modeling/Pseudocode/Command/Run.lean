import Pseudocode.Command.Options
import Pseudocode.Command.Workspace
import Pseudocode.Session.Dialogue
import Pseudocode.Text.Columns
import Pseudocode.Text.Date

/-!
# The command

One invocation of the command as a function from a workspace, a clock and an argument list to what
is printed and what is left. A few flags only manage saved algorithms; otherwise a source is looked
up and run, in a dialogue of lines or on the screen.
-/

namespace Pseudocode.Command

/-- Why a command fails after its flags were read. -/
inductive Failure where
  | catalog (e : CatalogError)
  | file (e : FileError)
  | saveNeedsFile
  | nothingToRun
  | unknownExample (name : String)
  /-- The examples cannot be listed, for the reason given. -/
  | noExamples (reason : String)
  | inContext (label : String) (inner : Failure)

namespace Failure

def message : Failure → String
  | catalog e => e.message
  | file e => e.message
  | saveNeedsFile => "-save needs -file"
  | nothingToRun => "nothing to run: give -file, -example or -load"
  | unknownExample name => "unknown example " ++ Text.quote name ++ " (see -examples)"
  | noExamples reason => reason
  | inContext label inner => label ++ ": " ++ inner.message

/-- The failure under all labels. -/
def cause : Failure → Failure
  | inContext _ inner => inner.cause
  | f => f

end Failure

/-! ## Reading the command line -/

/-- Why a command line is not accepted. -/
inductive LineError where
  | flag (e : FlagError)
  | configMissing (e : FileError)
  | badConfig

/-- The options of a command line. Flags are checked before the configuration file is read, whose
text a decoder turns into a configuration. -/
def options (readText : String → Except FileError String) (args : List String)
    (decode : String → Option Config := Config.parse?) : Except LineError Options :=
  match parseFlags knownFlags args with
  | .error e => .error (.flag e)
  | .ok (os, positionals) =>
    let o := Options.ofFlags os
    let path := (lastText? os "config").getD ""
    if path = "" then .ok (o.withPositionals positionals)
    else
      match readText path with
      | .error e => .error (if e.problem = .missing then .configMissing e else .badConfig)
      | .ok s =>
        match decode s with
        | none => .error .badConfig
        | some c => .ok ((o.withConfig os c).withPositionals positionals)

/-! ## Examples -/

/-- A program that comes with the command. -/
structure Example where
  slug : String
  title : String
  description : String
  code : String
  /-- Answers to the questions of the program. -/
  answers : List String := []

/-- The programs that come with the command: all of them, unless they cannot be listed, and each by
its name. -/
structure Examples where
  all : Except String (List Example) := .ok []
  lookup : String → Option Example := fun _ => none

/-- The table of examples. -/
def exampleListing (list : List Example) : String :=
  Text.Columns.align <| String.join <| list.map fun e =>
    e.slug ++ "\t" ++ e.title ++ "\t" ++ e.description ++ "\n"

/-! ## Saved algorithms -/

/-- What a command about saved algorithms does: nothing because it is none, or what it prints. -/
inductive Handled where
  | no
  | printed (text : String)
  | failed (e : Failure)

/-- The table of saved algorithms. -/
def listing (records : List Record) : String :=
  if records.isEmpty then "aucun algorithme enregistré\n"
  else
    Text.Columns.align <| String.join <| records.map fun r =>
      toString r.id.toInt ++ "\t" ++ r.name ++ "\t" ++ Text.Date.minute r.updated ++ "\n"

/-- Saves a text under a name: an algorithm of that name gets a new text, else there is a new
one. -/
def saveAs (s : Shelf) (name code : String) : Handled × Shelf :=
  match s.find name with
  | .ok existing =>
    match s.update existing.id { code := some code } with
    | (.ok r, s') =>
      (.printed s!"algorithme {r.id.toInt} mis à jour ({r.name})\n", s')
    | (.error e, s') => (.failed (.catalog e), s')
  | .error (.notFound _) =>
    match s.create name code with
    | (.ok r, s') => (.printed s!"algorithme {r.id.toInt} enregistré ({r.name})\n", s')
    | (.error e, s') => (.failed (.catalog e), s')
  | .error e => (.failed (.catalog e), s)

/-- Does what the options ask of the saved algorithms, if they do, or lists the examples. -/
def manage (o : Options) (readText : String → Except FileError String) (s : Shelf)
    (examples : Examples := {}) : Handled × Shelf :=
  if o.examples then
    match examples.all with
    | .ok list => (.printed (exampleListing list), s)
    | .error reason => (.failed (.noExamples reason), s)
  else if o.list then
    match s.list with
    | .ok records => (.printed (listing records), s)
    | .error e => (.failed (.catalog e), s)
  else if o.delete ≠ 0 then
    match s.delete o.delete with
    | (.ok (), s') => (.printed s!"algorithme {o.delete.toInt} supprimé\n", s')
    | (.error e, s') => (.failed (.catalog e), s')
  else if o.save ≠ "" then
    if o.file = "" then (.failed .saveNeedsFile, s)
    else
      match readText o.file with
      | .error e => (.failed (.file e), s)
      | .ok code => saveAs s o.save code
  else (.no, s)

/-- The source that the options name. Answers of its own count where an example is run on them and
no others are given. -/
def source (o : Options) (readText : String → Except FileError String) (s : Shelf)
    (examples : Examples := {}) : Except Failure SourceText :=
  if o.file ≠ "" then
    match readText o.file with
    | .ok code => .ok { name := baseName o.file, code, answers := o.answers }
    | .error e => .error (.inContext "load file" (.file e))
  else if o.builtIn ≠ "" then
    match examples.lookup o.builtIn with
    | some e =>
      let answers := if o.sample ∧ o.answers = [] then e.answers else o.answers
      .ok { name := e.title, code := e.code, answers }
    | none => .error (.unknownExample o.builtIn)
  else if o.load ≠ "" then
    match s.find o.load with
    | .ok r => .ok { name := r.name, code := r.code, answers := o.answers }
    | .error e => .error (.inContext "load algorithm" (.catalog e))
  else .error .nothingToRun

/-! ## A whole invocation -/

/-- What an invocation comes to. -/
inductive Outcome where
  | badLine (e : LineError)
  /-- The options were read; saved algorithms were managed, or a source was looked up. -/
  | managed (o : Options) (result : Handled)
  | resolved (o : Options) (result : Except Failure SourceText)

/-- Reads the command line, and manages saved algorithms or looks up the source. -/
def prepare (w : Workspace) (clock : Clock) (args : List String) (examples : Examples := {}) :
    Outcome × Workspace × Clock :=
  match options w.text args with
  | .error e => (.badLine e, w, clock)
  | .ok o =>
    let path := Catalog.pathOrDefault o.catalogPath
    let shelf := w.shelf path clock
    match manage o w.text shelf examples with
    | (.no, _) => (.resolved o (source o w.text shelf examples), w, clock)
    | (result, shelf') => (.managed o result, w.putShelf path shelf', shelf'.clock)

/-- What an invocation prints and leaves. -/
structure Printed where
  exitCode : Nat := 0
  out : String := ""
  complaint : String := ""

/-- The file of answers given in earlier dialogues. -/
def historyPath : String := ".algofr_history"

/-- The number of answers that are kept. -/
def historyLimit : Nat := 1000

/-- Adds an answer to the kept ones, unless it repeats the last of them. -/
def keepAnswer (history : List String) (answer : String) : List String :=
  if history.getLast? = some answer then history
  else
    let history := history ++ [answer]
    history.drop (history.length - historyLimit)

/-- The answers in a history file, up to a line that is too long. -/
def readHistory (s : String) : List String :=
  let lines := Text.wholeLines s
  lines.drop (lines.length - historyLimit)

/-- What a finished dialogue comes to: its answers go into the history file, and a fault is reported
after what was shown. -/
def conclude (w : Workspace) (t : Transcript) : Printed × Workspace :=
  let history := match w.text historyPath with
    | .ok s => readHistory s
    | .error _ => []
  let history := t.remembered.foldl keepAnswer history
  let w := w.insert historyPath (.text (String.join (history.map (· ++ "\n"))))
  match t.fault with
  | none => ({ out := t.shown }, w)
  | some f => ({ exitCode := 1, out := t.shown, complaint := f.message }, w)

/-- Holds a dialogue with the lines of an input. -/
def converse (w : Workspace) (o : Options) (src : SourceText) (input : String) :
    Printed × Workspace :=
  conclude w
    (Dialogue.hold (Session.start src o.budget) (Text.inputLines input) .interrupted o.showVars)

/-- What an outcome prints if it does not lead to a run. -/
def announce : Outcome → Printed
  | .badLine (.flag .help) => { complaint := usage commandName knownFlags }
  | .badLine (.flag e) =>
    { exitCode := 2, complaint := e.message ++ "\n" ++ usage commandName knownFlags }
  | .badLine _ => { exitCode := 2 }
  | .managed _ (.failed e) => { exitCode := 1, complaint := "store: " ++ e.message }
  | .managed _ (.printed text) => { out := text }
  | .managed _ .no => {}
  | .resolved _ (.error e) => { exitCode := 2, complaint := e.message }
  | .resolved _ (.ok _) => {}

/-- The source to run and the options for it, if an outcome leads to a run. -/
def Outcome.toRun? : Outcome → Option (Options × SourceText)
  | .resolved o (.ok src) => some (o, src)
  | _ => none

/-- Invokes the command on an input. Without `-plain` a source is shown on the screen, which prints
nothing here. -/
def invoke (w : Workspace) (clock : Clock) (input : String) (args : List String)
    (examples : Examples := {}) : Printed × Workspace × Clock :=
  let (outcome, w, clock) := prepare w clock args examples
  match outcome.toRun? with
  | some (o, src) =>
    if o.plain then
      let (p, w) := converse w o src input
      (p, w, clock)
    else ({}, w, clock)
  | none => (announce outcome, w, clock)

/-! ## The files of an invocation -/

/-- The configuration file that a command line names. -/
def configPath? (args : List String) : Option String :=
  match parseFlags knownFlags args with
  | .ok (os, _) => (lastText? os "config").filter (· ≠ "")
  | .error _ => none

/-- The files that an invocation may read once its options are known: the source and the saved
algorithms. -/
def Options.paths (o : Options) : List String :=
  [o.file, Catalog.pathOrDefault o.catalogPath].filter (· ≠ "")

end Pseudocode.Command
