import Pseudocode.Text.Integer

/-!
# Flags

Reading a command line. A flag starts with one or two dashes; its value follows an equals sign or
is the next argument, except that a switch takes a value only after an equals sign. Flags end at
the first other argument, at a single dash, or after a double one. Nothing is decided here about
what the flags mean: the result is the list of their occurrences, in order.
-/

namespace Pseudocode.Command

/-- What a flag's value is. -/
inductive FlagKind where
  | text
  | switch
  | integer
  deriving DecidableEq, Repr

/-- A flag that a command knows. -/
structure Flag where
  name : String
  kind : FlagKind
  /-- What the flag does, for the usage text. -/
  help : String
  /-- The value without the flag, as the usage text shows it; empty if it is not shown. -/
  standard : String := ""

/-- The value of a flag. -/
inductive FlagValue where
  | text (s : String)
  | switch (b : Bool)
  | integer (i : Int)
  deriving DecidableEq, Repr

/-- A flag as it was given. -/
structure Occurrence where
  name : String
  value : FlagValue
  deriving DecidableEq, Repr

/-- Why a command line is refused. -/
inductive FlagError where
  /-- Help was asked for. -/
  | help
  | undefined (name : String)
  | valueMissing (name : String)
  | malformed (argument : String)
  | badSwitch (value name : String)
  | badInteger (value name : String) (problem : Text.Integer.Problem)
  deriving DecidableEq, Repr

def FlagError.message : FlagError → String
  | help => "help requested"
  | undefined name => "flag provided but not defined: -" ++ name
  | valueMissing name => "flag needs an argument: -" ++ name
  | malformed argument => "bad flag syntax: " ++ argument
  | badSwitch value name =>
    "invalid boolean value " ++ Text.quote value ++ " for -" ++ name ++ ": parse error"
  | badInteger value name problem =>
    "invalid value " ++ Text.quote value ++ " for flag -" ++ name ++ ": "
      ++ match problem with
        | .malformed => "parse error"
        | .outOfRange => "value out of range"

/-- The truth value that a text spells. -/
def truth? (s : String) : Option Bool :=
  if ["1", "t", "T", "TRUE", "true", "True"].contains s then some true
  else if ["0", "f", "F", "FALSE", "false", "False"].contains s then some false
  else none

/-- The value of a flag that was given a text. -/
def FlagKind.read (kind : FlagKind) (name value : String) : Except FlagError FlagValue :=
  match kind with
  | .text => .ok (.text value)
  | .switch =>
    match truth? value with
    | some b => .ok (.switch b)
    | none => .error (.badSwitch value name)
  | .integer =>
    match Text.Integer.parse value with
    | .ok i => .ok (.integer i)
    | .error problem => .error (.badInteger value name problem)

/-- What an argument is by its own look. -/
inductive Argument where
  /-- No flag; flags end here. -/
  | positional
  /-- A double dash; flags end after it. -/
  | stop
  | malformed
  | flag (name : String) (value : Option String)

/-- Cuts the text after the dashes at its first equals sign, which cannot be its first character. -/
def splitValue (cs : List Char) : String × Option String :=
  let name := cs.takeWhile (· ≠ '=')
  match cs.dropWhile (· ≠ '=') with
  | [] => (String.ofList name, none)
  | _ :: value => (String.ofList name, some (String.ofList value))

/-- The look of an argument. -/
def Argument.ofString (s : String) : Argument :=
  match s.toList with
  | ['-'] => .positional
  | ['-', '-'] => .stop
  | '-' :: '-' :: rest => named rest
  | '-' :: rest => named rest
  | _ => .positional
where
  /-- The text after the dashes of a flag. -/
  named (cs : List Char) : Argument :=
    match cs with
    | [] => .malformed
    | c :: _ =>
      if c = '-' ∨ c = '=' then .malformed
      else
        let (name, value) := splitValue cs
        .flag name value

/-- The known flag of a name, or why there is none. -/
def lookup (known : List Flag) (name : String) : Except FlagError Flag :=
  match known.find? (·.name = name) with
  | some f => .ok f
  | none => .error (if name = "help" ∨ name = "h" then .help else .undefined name)

/-- What a flag takes of the command line: its value, and the arguments left. -/
def Flag.take (f : Flag) (value : Option String) (rest : List String) :
    Except FlagError (FlagValue × { left : List String // left.length ≤ rest.length }) :=
  match value, f.kind, rest with
  | some v, kind, rest => (kind.read f.name v).map fun x => (x, ⟨rest, Nat.le_refl _⟩)
  | none, .switch, rest => .ok (.switch true, ⟨rest, Nat.le_refl _⟩)
  | none, _, [] => .error (.valueMissing f.name)
  | none, kind, v :: left => (kind.read f.name v).map fun x => (x, ⟨left, by simp⟩)

/-- Reads the flags of a command line: their occurrences in order, and the arguments after them. -/
def parseFlags (known : List Flag) (args : List String) :
    Except FlagError (List Occurrence × List String) :=
  match args with
  | [] => .ok ([], [])
  | arg :: rest =>
    match Argument.ofString arg with
    | .positional => .ok ([], arg :: rest)
    | .stop => .ok ([], rest)
    | .malformed => .error (.malformed arg)
    | .flag name value => do
      let f ← lookup known name
      let (v, ⟨left, _⟩) ← f.take value rest
      let (more, positionals) ← parseFlags known left
      return (⟨name, v⟩ :: more, positionals)
termination_by args.length
decreasing_by
  simp only [List.length_cons]
  omega

/-- The lines that explain a flag. -/
def Flag.usage (f : Flag) : String :=
  let type := match f.kind with
    | .text => " string"
    | .switch => ""
    | .integer => " int"
  let standard := if f.standard = "" then "" else " (default " ++ f.standard ++ ")"
  "  -" ++ f.name ++ type ++ "\n    \t" ++ f.help ++ standard ++ "\n"

/-- The explanation of all flags, in the order of their names. -/
def usage (command : String) (known : List Flag) : String :=
  "Usage of " ++ command ++ ":\n"
    ++ String.join ((known.mergeSort fun a b => decide (a.name ≤ b.name)).map Flag.usage)

end Pseudocode.Command
