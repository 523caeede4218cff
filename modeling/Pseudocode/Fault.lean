import Pseudocode.Tree.Parse
import Pseudocode.Value.Basic

/-!
# Faults

Everything that can go wrong between a source text and its output, as a cause with the line it
concerns, and the message that tells a reader about it. A fault of an inner step may be reported
with a label in front, in other words or together with others; what it holds stays reachable, in a
fixed order.

The line of a fault is read off its message, unless a lexical or a grammatical fault is reached,
which carry their line whatever stands around them. A lexical one goes first, wherever it stands.
-/

namespace Pseudocode

/-- A request that the machine cannot serve, or a tree that it does not know. -/
inductive Misuse where
  | noProgram
  | awaitingInput (name : String)
  | unknownStatement (label : String)
  | unknownExpression (label : String)
  | unknownOperator (symbol : String)
  /-- A misuse for any other reason. -/
  | other (reason : String)
  deriving DecidableEq, Repr

def Misuse.message : Misuse → String
  | noProgram => "aucun programme chargé"
  | awaitingInput name => "en attente d'une entrée pour " ++ name
  | unknownStatement label => "type de nœud inconnu: " ++ label
  | unknownExpression label => "type d'expression inconnu: " ++ label
  | unknownOperator symbol => "opérateur inconnu: " ++ symbol
  | other reason => reason

/-- What can go wrong while a program runs. -/
inductive RuntimeError where
  | undefinedVariable (name : String) (line : Int)
  | divisionByZero (line : Int)
  | typeMismatch (operation : String) (left right : ValueKind) (line : Int)
  | misuse (cause : Misuse) (line : Int)
  /-- More statements were executed than the budget allows. -/
  | budgetSpent (budget : Int) (line : Int)
  deriving DecidableEq, Repr

/-- A message about a line of the source. -/
def atLine (line : Int) (text : String) : String :=
  "Erreur ligne " ++ toString line ++ ": " ++ text

namespace RuntimeError

/-- The line that an error concerns; zero if it concerns none. -/
def line : RuntimeError → Int
  | undefinedVariable _ line => line
  | divisionByZero line => line
  | typeMismatch _ _ _ line => line
  | misuse _ line => line
  | budgetSpent _ line => line

def message : RuntimeError → String
  | undefinedVariable name line =>
    atLine line <| "variable non définie: " ++ name
      ++ " (cette variable doit être initialisée avant utilisation)"
  | divisionByZero line => atLine line "division par zéro"
  | typeMismatch operation left right line =>
    atLine line <| "opération " ++ operation ++ " impossible entre " ++ left.name ++ " et "
      ++ right.name
  | misuse cause line =>
    if line ≤ 0 then "Erreur: " ++ cause.message else atLine line cause.message
  | budgetSpent budget line =>
    atLine line <| "limite de " ++ toString budget ++ " instructions atteinte (boucle infinie ?)"

end RuntimeError

/-- Everything that can go wrong. -/
inductive Fault where
  /-- A string without an end; the place is that of its opening quote. -/
  | unclosedString (line column : Int)
  | grammar (e : Parse.SyntaxError)
  | runtime (e : RuntimeError)
  /-- The reader stopped answering; the line is that of the pending question. -/
  | interrupted (line : Int)
  /-- The answer could not be obtained, for the reason given. -/
  | unanswered (reason : String)
  /-- A run without a budget was given up. -/
  | unfinished
  | inContext (label : String) (inner : Fault)
  /-- A fault told in other words, which need not hold those of the inner one. -/
  | retold (text : String) (inner : Fault)
  /-- Several faults told as one, in any words. -/
  | joined (text : String) (parts : List Fault)

namespace Fault

def message : Fault → String
  | unclosedString line _ => "Chaîne de caractères non fermée à la ligne " ++ toString line
  | grammar e =>
    "Erreur de syntaxe ligne " ++ toString e.line ++ ": attendu " ++ e.expected.name ++ ", obtenu "
      ++ e.got.name
  | runtime e => e.message
  | interrupted line => "entrée interrompue (ligne " ++ toString line ++ ")"
  | unanswered reason => reason
  | unfinished => "exécution abandonnée"
  | inContext label inner => label ++ ": " ++ inner.message
  | retold text _ => text
  | joined text _ => text

@[simp] theorem message_inContext (label : String) (inner : Fault) :
    (inContext label inner).message = label ++ ": " ++ inner.message := rfl

@[simp] theorem message_retold (text : String) (inner : Fault) :
    (retold text inner).message = text := rfl

@[simp] theorem message_joined (text : String) (parts : List Fault) :
    (joined text parts).message = text := rfl

/-- The fault under all labels and other words. -/
def cause : Fault → Fault
  | inContext _ inner => inner.cause
  | retold _ inner => inner.cause
  | f => f

mutual

/-- A fault and all that it holds, as a search meets them: the whole before its parts, and the parts
from the first to the last. -/
def reached : Fault → List Fault
  | inContext label inner => inContext label inner :: inner.reached
  | retold text inner => retold text inner :: inner.reached
  | joined text parts => joined text parts :: reachedIn parts
  | f => [f]

def reachedIn : List Fault → List Fault
  | [] => []
  | f :: fs => f.reached ++ reachedIn fs

end

@[simp] theorem reached_inContext (label : String) (inner : Fault) :
    (inContext label inner).reached = inContext label inner :: inner.reached := rfl

@[simp] theorem reached_retold (text : String) (inner : Fault) :
    (retold text inner).reached = retold text inner :: inner.reached := rfl

@[simp] theorem reached_joined (text : String) (parts : List Fault) :
    (joined text parts).reached = joined text parts :: parts.flatMap reached := by
  show joined text parts :: reachedIn parts = _
  congr 1
  induction parts with
  | nil => rfl
  | cons f fs ih => exact congrArg (f.reached ++ ·) ih

/-- The line of a string without an end. -/
def lexicalLine? : Fault → Option Int
  | unclosedString line _ => some line
  | _ => none

/-- The line of a syntax error. -/
def grammaticalLine? : Fault → Option Int
  | grammar e => some e.line
  | _ => none

end Fault

/-! ## The line that a message names -/

/-- The digits after the word `ligne` and a space, if a text starts with these. -/
def lineDigits? : List Char → Option (List Char)
  | 'l' :: 'i' :: 'g' :: 'n' :: 'e' :: ' ' :: rest =>
    let ds := rest.takeWhile Decimal.isDigit
    if ds.isEmpty then none else some ds
  | _ => none

/-- The largest line number that is recognised. -/
def maxLine : Nat := Nat.pow 2 63 - 1

/-- The number after the first `ligne` that is followed by a number; zero if there is none or if it
is too large. -/
def mentionedLine : List Char → Nat
  | [] => 0
  | c :: cs =>
    match lineDigits? (c :: cs) with
    | some ds =>
      let n := Decimal.digitsValue ds
      if n ≤ maxLine then n else 0
    | none => mentionedLine cs

/-- The line that a fault concerns: that of the first lexical fault reached, if there is none that
of the first grammatical one, and else the line that the message names; zero if it names none. -/
def Fault.errorLine (f : Fault) : Int :=
  match f.reached.findSome? lexicalLine? with
  | some line => line
  | none =>
    match f.reached.findSome? grammaticalLine? with
    | some line => line
    | none => mentionedLine f.message.toList

end Pseudocode
