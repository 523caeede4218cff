import Mathlib.Data.List.Nodup
import Pseudocode.Command.Run

/-!
# Flags before the configuration file

A flag of the command can be written in several ways (`Spells`). A command line of such flags,
followed by other arguments, is read as their occurrences in order (`parseFlags_words`).

What the occurrences amount to depends on the last one of each flag only (`Alike`), so they may
change places as long as those of one flag stay in order. The four settings that a configuration
file can have come from their last flag if there is one, whatever its value, then from the file, and
then from what the command does by itself (`flags_before_config`).
-/

namespace Pseudocode.Command

/-! ## Writing flags -/

/-- One dash or two. -/
def Dashes (s : String) : Prop := s = "-" ∨ s = "--"

/-- The arguments in which a flag can be given a value. -/
inductive Spells (f : Flag) : FlagValue → List String → Prop
  | joined {dashes text : String} {value : FlagValue} (isDashes : Dashes dashes)
      (read : f.kind.read f.name text = .ok value) :
      Spells f value [dashes ++ f.name ++ "=" ++ text]
  | apart {dashes text : String} {value : FlagValue} (isDashes : Dashes dashes)
      (valued : f.kind ≠ .switch) (read : f.kind.read f.name text = .ok value) :
      Spells f value [dashes ++ f.name, text]
  | bare {dashes : String} (isDashes : Dashes dashes) (isSwitch : f.kind = .switch) :
      Spells f (.switch true) [dashes ++ f.name]

/-- A flag of the command with a value, as it stands on a command line. -/
structure Given where
  flag : Flag
  value : FlagValue
  words : List String
  known : flag ∈ knownFlags
  spelled : Spells flag value words

/-- The occurrence that is read. -/
def Given.occurrence (g : Given) : Occurrence := ⟨g.flag.name, g.value⟩

/-- Arguments at which flags end, with those of them that are kept. -/
inductive Positionals : List String → List String → Prop
  | none : Positionals [] []
  | plain {arg : String} (rest : List String) (noFlag : arg = "-" ∨ arg.toList.head? ≠ some '-') :
      Positionals (arg :: rest) (arg :: rest)
  | stopped (rest : List String) : Positionals ("--" :: rest) rest

/-! ## Reading flags -/

/-- The names by which a flag is recognised: neither empty nor with an equals sign, and without
another dash in front. -/
def WellNamed (name : List Char) : Prop :=
  name ≠ [] ∧ name.head? ≠ some '-' ∧ '=' ∉ name

theorem wellNamed_of_known {f : Flag} (known : f ∈ knownFlags) : WellNamed f.name.toList := by
  have all : ∀ f ∈ knownFlags, f.name.toList ≠ [] ∧ f.name.toList.head? ≠ some '-' ∧
      '=' ∉ f.name.toList := by decide
  exact all f known

theorem lookup_of_known {f : Flag} (known : f ∈ knownFlags) :
    lookup knownFlags f.name = .ok f := by
  have distinct : (knownFlags.map Flag.name).Nodup := by decide
  have found : knownFlags.find? (fun g => g.name = f.name) = some f := by
    cases result : knownFlags.find? (fun g => g.name = f.name) with
    | none => simpa using List.find?_eq_none.mp result f known
    | some g =>
      have same : g.name = f.name := by simpa using List.find?_some result
      rw [List.inj_on_of_nodup_map distinct (List.mem_of_find?_eq_some result) known same]
  rw [lookup, found]

/-- A name is cut off whole before an equals sign and at the end. -/
theorem splitValue_append {name : List Char} (plain : '=' ∉ name) (tail : List Char)
    (ends : ∀ c, tail.head? = some c → c = '=') :
    splitValue (name ++ tail) = (String.ofList name, tail.tail?.map String.ofList) := by
  have kept : ∀ c ∈ name, decide (c ≠ '=') = true := by
    intro c member
    exact decide_eq_true fun same => plain (same ▸ member)
  rw [splitValue, List.takeWhile_append_of_pos kept, List.dropWhile_append_of_pos kept]
  cases tail with
  | nil => simp
  | cons c value => simp [ends c rfl]

/-- Behind one dash or two, a name makes a flag. -/
theorem ofString_of_dashes {dashes s : String} (isDashes : Dashes dashes) {name tail : List Char}
    (named : WellNamed name) (text : s.toList = dashes.toList ++ (name ++ tail)) :
    Argument.ofString s = .flag (splitValue (name ++ tail)).1 (splitValue (name ++ tail)).2 := by
  obtain ⟨filled, noDash, noEquals⟩ := named
  obtain ⟨c, cs, rfl⟩ := List.exists_cons_of_ne_nil filled
  have first : ¬(c = '-' ∨ c = '=') := by
    rintro (rfl | rfl)
    · exact noDash rfl
    · exact noEquals List.mem_cons_self
  have flag : Argument.ofString.named (c :: cs ++ tail)
      = .flag (splitValue (c :: cs ++ tail)).1 (splitValue (c :: cs ++ tail)).2 := by
    rw [List.cons_append, Argument.ofString.named, if_neg first]
  rw [Argument.ofString, text, ← flag]
  rcases isDashes with rfl | rfl
  · have chars : "-".toList ++ (c :: cs ++ tail) = '-' :: c :: (cs ++ tail) := rfl
    rw [chars]
    split <;> simp_all
  · rfl

theorem ofString_joined {f : Flag} (known : f ∈ knownFlags) {dashes : String}
    (isDashes : Dashes dashes) (text : String) :
    Argument.ofString (dashes ++ f.name ++ "=" ++ text) = .flag f.name (some text) := by
  have named := wellNamed_of_known known
  have chars : (dashes ++ f.name ++ "=" ++ text).toList
      = dashes.toList ++ (f.name.toList ++ '=' :: text.toList) := by
    simp only [String.toList_append, List.append_assoc]
    rfl
  have cut := splitValue_append named.2.2 ('=' :: text.toList) fun c first =>
    (Option.some.inj first).symm
  rw [ofString_of_dashes isDashes named chars, cut]
  simp

theorem ofString_bare {f : Flag} (known : f ∈ knownFlags) {dashes : String}
    (isDashes : Dashes dashes) : Argument.ofString (dashes ++ f.name) = .flag f.name none := by
  have named := wellNamed_of_known known
  have chars : (dashes ++ f.name).toList = dashes.toList ++ (f.name.toList ++ []) := by
    rw [String.toList_append, List.append_nil]
  rw [ofString_of_dashes isDashes named chars, splitValue_append named.2.2 [] nofun]
  simp

/-- An argument that is a flag adds an occurrence to those behind what the flag takes. -/
theorem parseFlags_flag {known : List Flag} {f : Flag} {arg : String} {text : Option String}
    {value : FlagValue} {rest : List String}
    {left : { left : List String // left.length ≤ rest.length }}
    (look : Argument.ofString arg = .flag f.name text) (found : lookup known f.name = .ok f)
    (taken : f.take text rest = .ok (value, left)) :
    parseFlags known (arg :: rest)
      = (parseFlags known left.1).map fun r => (⟨f.name, value⟩ :: r.1, r.2) := by
  rw [parseFlags, look]
  simp only [found, taken, bind, Except.bind]
  cases parseFlags known left.1 <;> rfl

theorem parseFlags_spelled {f : Flag} (known : f ∈ knownFlags) {value : FlagValue}
    {words : List String} (spelled : Spells f value words) (rest : List String) :
    parseFlags knownFlags (words ++ rest)
      = (parseFlags knownFlags rest).map fun r => (⟨f.name, value⟩ :: r.1, r.2) := by
  have found := lookup_of_known known
  cases spelled with
  | @joined dashes text _ isDashes read =>
    have taken : f.take (some text) rest = .ok (value, ⟨rest, Nat.le_refl _⟩) := by
      simp only [Flag.take, read]
      rfl
    exact parseFlags_flag (ofString_joined known isDashes text) found taken
  | @apart dashes text _ isDashes valued read =>
    have taken : f.take none (text :: rest) = .ok (value, ⟨rest, by simp⟩) := by
      cases kind : f.kind with
      | switch => exact absurd kind valued
      | text | integer =>
        rw [kind] at read
        simp only [Flag.take, kind, read]
        rfl
    exact parseFlags_flag (ofString_bare known isDashes) found taken
  | bare isDashes isSwitch =>
    have taken : f.take none rest = .ok (.switch true, ⟨rest, Nat.le_refl _⟩) := by
      rw [Flag.take, isSwitch]
    exact parseFlags_flag (ofString_bare known isDashes) found taken

theorem parseFlags_positionals {args positionals : List String}
    (ends : Positionals args positionals) : parseFlags knownFlags args = .ok ([], positionals) := by
  cases ends with
  | none => rw [parseFlags]
  | @plain arg rest noFlag =>
    have look : Argument.ofString arg = .positional := by
      rcases noFlag with rfl | noDash
      · rfl
      · rw [Argument.ofString]
        split <;> simp_all
    rw [parseFlags, look]
  | stopped rest =>
    have look : Argument.ofString "--" = .stop := rfl
    rw [parseFlags, look]

/-- A command line of flags and other arguments is read as the occurrences of the flags, in
order. -/
theorem parseFlags_words (gs : List Given) {args positionals : List String}
    (ends : Positionals args positionals) :
    parseFlags knownFlags (gs.flatMap Given.words ++ args)
      = .ok (gs.map Given.occurrence, positionals) := by
  induction gs with
  | nil => exact parseFlags_positionals ends
  | cons g gs ih =>
    rw [List.flatMap_cons, List.append_assoc, parseFlags_spelled g.known g.spelled, ih]
    rfl

/-! ## What the flags amount to -/

/-- The value of a flag where it is given last. -/
def lastGiven (gs : List Given) (name : String) : Option FlagValue :=
  (gs.filter (·.flag.name = name)).getLast?.map Given.value

theorem last?_occurrences (gs : List Given) (name : String) :
    last? (gs.map Given.occurrence) name = lastGiven gs name := by
  rw [last?, lastGiven, ← List.map_reverse, List.find?_map, List.getLast?_eq_head?_reverse,
    ← List.filter_reverse, List.head?_filter, Option.map_map]
  rfl

theorem any_name_eq (os : List Occurrence) (name : String) :
    os.any (·.name = name) = (last? os name).isSome := by
  rw [last?, Option.isSome_map, List.isSome_find?, List.any_reverse]

section Alike

variable {os os' : List Occurrence} (alike : ∀ name, last? os' name = last? os name)
include alike

/-- Only the last occurrence of each flag counts. -/
theorem ofFlags_alike : Options.ofFlags os' = Options.ofFlags os := by
  simp only [Options.ofFlags, lastText?, lastSwitch?, lastInteger?, alike]

theorem withConfig_alike (o : Options) (c : Config) : o.withConfig os' c = o.withConfig os c := by
  simp only [Options.withConfig, any_name_eq, alike]

end Alike

/-- The configuration that a command line consults: that of the file which the last `-config` names,
and an empty one if no file is named. -/
inductive Consults (decode : String → Option Config)
    (readText : String → Except FileError String) (gs : List Given) : Config → Prop
  | none (unnamed : lastGiven gs "config" = none ∨ lastGiven gs "config" = some (.text "")) :
      Consults decode readText gs {}
  | file {path text : String} {c : Config} (named : lastGiven gs "config" = some (.text path))
      (filled : path ≠ "") (found : readText path = .ok text)
      (accepted : decode text = some c) : Consults decode readText gs c

theorem withConfig_empty (o : Options) (os : List Occurrence) : o.withConfig os {} = o := by
  have blank : Text.isBlankText "" = true := rfl
  simp [Options.withConfig, blank]

variable {decode : String → Option Config} {readText : String → Except FileError String}
  {gs : List Given} {args positionals : List String}

/-- The options of a command line whose configuration is accepted. -/
theorem options_of_consults (ends : Positionals args positionals) {c : Config}
    (consults : Consults decode readText gs c) :
    options readText (gs.flatMap Given.words ++ args) decode
      = .ok (((Options.ofFlags (gs.map Given.occurrence)).withConfig
          (gs.map Given.occurrence) c).withPositionals positionals) := by
  rw [options, parseFlags_words gs ends]
  simp only [lastText?, last?_occurrences]
  cases consults with
  | none unnamed =>
    rw [withConfig_empty]
    rcases unnamed with unnamed | unnamed
    · rw [unnamed]
      rfl
    · rw [unnamed]
      rfl
  | @file path text c named filled found accepted =>
    simp only [named, Option.getD_some, if_neg filled, found, accepted]

theorem options_alike (ends : Positionals args positionals) {gs' : List Given}
    (alike : ∀ name, lastGiven gs' name = lastGiven gs name) :
    options readText (gs'.flatMap Given.words ++ args) decode
      = options readText (gs.flatMap Given.words ++ args) decode := by
  have same : ∀ name, last? (gs'.map Given.occurrence) name
      = last? (gs.map Given.occurrence) name := by
    intro name
    rw [last?_occurrences, last?_occurrences, alike]
  have path : lastText? (gs'.map Given.occurrence) "config"
      = lastText? (gs.map Given.occurrence) "config" := by
    rw [lastText?, same, lastText?]
  rw [options, options, parseFlags_words gs ends, parseFlags_words gs' ends]
  simp only [path, ofFlags_alike same, withConfig_alike same]

/-! ## The four settings -/

/-- What a flag of a kind can be given. -/
def FlagKind.Carrier : FlagKind → Type
  | text => String
  | switch => Bool
  | integer => Int

/-- The value of a flag of a kind. -/
def FlagKind.value : (kind : FlagKind) → kind.Carrier → FlagValue
  | text, s => .text s
  | switch, b => .switch b
  | integer, i => .integer i

theorem exists_of_read {kind : FlagKind} {name text : String} {value : FlagValue}
    (read : kind.read name text = .ok value) : ∃ a, value = kind.value a := by
  cases kind with
  | text =>
    cases read
    exact ⟨_, rfl⟩
  | switch | integer =>
    rw [FlagKind.read] at read
    split at read
    · cases read
      exact ⟨_, rfl⟩
    · cases read

theorem Spells.exists_value {f : Flag} {value : FlagValue} {words : List String}
    (spelled : Spells f value words) : ∃ a, value = f.kind.value a := by
  cases spelled with
  | joined _ read => exact exists_of_read read
  | apart _ _ read => exact exists_of_read read
  | bare _ isSwitch =>
    rw [isSwitch]
    exact ⟨true, rfl⟩

/-- A flag is given values of its own kind only. -/
theorem exists_lastGiven (gs : List Given) (name : String) (kind : FlagKind)
    (table : ∀ f ∈ knownFlags, f.name = name → f.kind = kind) :
    ∃ last : Option kind.Carrier, lastGiven gs name = last.map kind.value := by
  rw [lastGiven]
  cases last : (gs.filter (·.flag.name = name)).getLast? with
  | none => exact ⟨none, rfl⟩
  | some g =>
    obtain ⟨-, named⟩ := List.mem_filter.mp (List.mem_of_getLast? last)
    obtain rfl := table g.flag g.known (of_decide_eq_true named)
    obtain ⟨a, value⟩ := g.spelled.exists_value
    exact ⟨some a, congrArg some value⟩

/-- Positional arguments settle the source file only. -/
theorem withPositionals_settings (o : Options) (positionals : List String) :
    (o.withPositionals positionals).catalogPath = o.catalogPath ∧
      (o.withPositionals positionals).budget = o.budget ∧
      (o.withPositionals positionals).plain = o.plain ∧
      (o.withPositionals positionals).showVars = o.showVars := by
  unfold Options.withPositionals
  split
  · exact ⟨rfl, rfl, rfl, rfl⟩
  · split <;> exact ⟨rfl, rfl, rfl, rfl⟩

/-- Flags beat the configuration file, in any order. Let a command line have flags of the command
and then other arguments. If the configuration that it consults is accepted by whatever decodes it,
the command line is accepted, and the four settings that a configuration can have are each the value
of the last flag for it, if there is one; else what the configuration says, if that is not blank,
zero or false; else the standard. And flags may change places as long as those of the same name stay
in order: the result is the same, whatever it is. -/
theorem flags_before_config (decode : String → Option Config)
    (readText : String → Except FileError String) (gs : List Given)
    {args positionals : List String} (ends : Positionals args positionals) :
    (∀ c, Consults decode readText gs c →
      ∃ o, options readText (gs.flatMap Given.words ++ args) decode = .ok o ∧
        .text o.catalogPath = (lastGiven gs "store").getD (.text
          (if Text.isBlankText c.catalogPath then Catalog.defaultPath else c.catalogPath)) ∧
        .integer o.budget = (lastGiven gs "max-steps").getD (.integer
          (if c.budget = 0 then defaultBudget else c.budget)) ∧
        .switch o.plain = (lastGiven gs "plain").getD (.switch c.plain) ∧
        .switch o.showVars = (lastGiven gs "vars").getD (.switch c.showVars)) ∧
    ∀ gs' : List Given,
      (∀ name, gs'.filter (·.flag.name = name) = gs.filter (·.flag.name = name)) →
      options readText (gs'.flatMap Given.words ++ args) decode
        = options readText (gs.flatMap Given.words ++ args) decode := by
  refine ⟨fun c consults => ?_, fun gs' reordered => ?_⟩
  · refine ⟨_, options_of_consults ends consults, ?_⟩
    obtain ⟨path, budget, plain, showVars⟩ := withPositionals_settings
      ((Options.ofFlags (gs.map Given.occurrence)).withConfig (gs.map Given.occurrence) c)
      positionals
    rw [path, budget, plain, showVars]
    simp only [Options.withConfig, Options.ofFlags, any_name_eq, lastText?, lastInteger?,
      lastSwitch?, last?_occurrences]
    obtain ⟨store, lastStore⟩ := exists_lastGiven gs "store" .text (by decide)
    obtain ⟨steps, lastSteps⟩ := exists_lastGiven gs "max-steps" .integer (by decide)
    obtain ⟨isPlain, lastPlain⟩ := exists_lastGiven gs "plain" .switch (by decide)
    obtain ⟨vars, lastVars⟩ := exists_lastGiven gs "vars" .switch (by decide)
    rw [lastStore, lastSteps, lastPlain, lastVars]
    refine ⟨?_, ?_, ?_, ?_⟩
    · cases store with
      | none => simp
      | some value => rfl
    · cases steps with
      | none => simp
      | some value => rfl
    · cases isPlain with
      | none => simp
      | some value => rfl
    · cases vars with
      | none => simp
      | some value => rfl
  · exact options_alike ends fun name => by rw [lastGiven, reordered, lastGiven]

/-- Explicit values that say no more than the standard, before and behind the name of a
configuration file that says something else, and a dash that ends the flags. -/
theorem flags_before_config_explicit :
    let readText : String → Except FileError String :=
      fun _ => .ok "store: s.yaml\nmax_steps: 50\nplain: true\n"
    ∃ o, options readText ["--max-steps=0", "-config", "c.yaml", "-plain=F", "-", "x"] = .ok o ∧
      options readText ["-plain=F", "--max-steps=0", "-config", "c.yaml", "-", "x"] = .ok o ∧
      o.catalogPath = "s.yaml" ∧ o.budget = 0 ∧ o.plain = false ∧ o.showVars = false := by
  intro readText
  let budget : Given :=
    { flag := _, value := .integer 0, words := ["--" ++ "max-steps" ++ "=" ++ "0"]
      known := List.mem_of_getElem? (i := 12) rfl
      spelled := .joined (.inr rfl) (by with_unfolding_all rfl) }
  let config : Given :=
    { flag := _, value := .text "c.yaml", words := ["-" ++ "config", "c.yaml"]
      known := List.mem_of_getElem? (i := 8) rfl
      spelled := .apart (.inl rfl) nofun rfl }
  let plain : Given :=
    { flag := _, value := .switch false, words := ["-" ++ "plain" ++ "=" ++ "F"]
      known := List.mem_of_getElem? (i := 9) rfl
      spelled := .joined (.inl rfl) rfl }
  have accepted : Config.parse? "store: s.yaml\nmax_steps: 50\nplain: true\n"
      = some { catalogPath := "s.yaml", budget := 50, plain := true } := by
    with_unfolding_all rfl
  have named : lastGiven [budget, config, plain] "config" = some (.text "c.yaml") := rfl
  have consults : Consults Config.parse? readText [budget, config, plain] _ :=
    .file named (by decide) rfl accepted
  have ends : Positionals ["-", "x"] ["-", "x"] := .plain ["x"] (.inl rfl)
  obtain ⟨settles, moves⟩ := flags_before_config Config.parse? readText [budget, config, plain] ends
  obtain ⟨o, read, path, steps, isPlain, vars⟩ := settles _ consults
  have again := moves [plain, budget, config] fun name => by
    by_cases isPlain : name = "plain"
    · subst isPlain
      rfl
    · have other : ¬plain.flag.name = name := fun same => isPlain same.symm
      simp [List.filter_cons, other]
  refine ⟨o, read, again.trans read, ?_, ?_, ?_, ?_⟩
  · exact FlagValue.text.inj path
  · exact FlagValue.integer.inj steps
  · exact FlagValue.switch.inj isPlain
  · exact FlagValue.switch.inj vars

end Pseudocode.Command
