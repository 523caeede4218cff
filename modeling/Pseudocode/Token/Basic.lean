import Pseudocode.Text.Quoted

/-!
# Tokens

The words of the language: keywords, names, literals and operators, each with the place where it
starts in the source. A token list need not come from the scanner, so a kind may also be a code that
the language does not define; it has a name and no meaning.
-/

namespace Pseudocode

/-- The kinds of tokens. -/
inductive Kind where
  | eof
  | newline
  | number
  | string
  | identifier
  | debut
  | fin
  | si
  | alors
  | sinon
  | finSi
  | tantQue
  | finTantQue
  | pour
  | finPour
  | ecrire
  | lire
  | et
  | ou
  | assign
  | plus
  | minus
  | multiply
  | divide
  | greater
  | less
  | equal
  | greaterEq
  | lessEq
  /-- A code that names no kind of the language. -/
  | undefined (code : Int)
  deriving DecidableEq, Repr, Inhabited

namespace Kind

/-- The kinds of the language in the order of their codes, each with its name. -/
def table : List (Kind × String) :=
  [(eof, "EOF"), (newline, "NEWLINE"), (number, "NUMBER"), (string, "STRING"),
    (identifier, "IDENTIFIER"), (debut, "DEBUT"), (fin, "FIN"), (si, "SI"), (alors, "ALORS"),
    (sinon, "SINON"), (finSi, "FINSI"), (tantQue, "TANTQUE"), (finTantQue, "FINTANTQUE"),
    (pour, "POUR"), (finPour, "FINPOUR"), (ecrire, "ECRIRE"), (lire, "LIRE"), (et, "ET"),
    (ou, "OU"), (assign, "ASSIGN"), (plus, "PLUS"), (minus, "MINUS"), (multiply, "MULTIPLY"),
    (divide, "DIVIDE"), (greater, "GT"), (less, "LT"), (equal, "EQ"), (greaterEq, "GTE"),
    (lessEq, "LTE")]

/-- The kind with a given code. -/
def ofCode (code : Int) : Kind :=
  if code < 0 then undefined code
  else
    match table[code.toNat]? with
    | some (k, _) => k
    | none => undefined code

/-- The name of a kind, as error messages and token listings show it. -/
def name : Kind → String
  | undefined code => s!"Kind({code})"
  | k =>
    match table.lookup k with
    | some text => text
    | none => ""

/-- The keywords. They are case-sensitive, and `Écrire` may be written without its accent. -/
def keywords : List (String × Kind) :=
  [("Début", debut), ("Fin", fin), ("Si", si), ("Alors", alors), ("Sinon", sinon),
    ("FinSi", finSi), ("TantQue", tantQue), ("FinTantQue", finTantQue), ("Pour", pour),
    ("FinPour", finPour), ("Écrire", ecrire), ("Ecrire", ecrire), ("Lire", lire), ("ET", et),
    ("OU", ou)]

/-- The kind of a word: a keyword's own, or a name. -/
def ofWord (word : String) : Kind :=
  (keywords.lookup word).getD identifier

/-- The number of kinds that a keyword can have. -/
def keywordCount : Nat :=
  (keywords.map Prod.snd).eraseDups.length

end Kind

/-- A token: its kind, its text, the number that a literal denotes, and the line and column, counted
from one, of its first character. -/
structure Token where
  kind : Kind
  text : String := ""
  number : Float := 0
  line : Int
  column : Int := 0
  deriving Inhabited

/-- A token as a listing shows it: the name of its kind, and its text unless the kind fixes it. -/
def Token.describe (t : Token) : String :=
  match t.kind with
  | .eof | .newline => t.kind.name
  | k => k.name ++ "(" ++ Text.quote t.text ++ ")"

end Pseudocode
