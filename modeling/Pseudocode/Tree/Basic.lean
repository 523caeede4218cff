/-!
# Program trees

Expressions, statements and programs. Every statement carries the line of its first token, every
operator and name the line of its own token, for error messages only.

A tree may also be put together by hand and then hold an operator, an expression or a statement that
the language does not know; executing it reports what was found.
-/

namespace Pseudocode

/-- The binary operators. -/
inductive Op where
  | add
  | sub
  | mul
  | div
  | gt
  | lt
  | eq
  | ge
  | le
  | and
  | or
  /-- A symbol that is no operator of the language. -/
  | unknown (symbol : String)
  deriving DecidableEq, Repr

namespace Op

/-- The operator with a given symbol. -/
def ofSymbol : String → Op
  | "+" => add
  | "-" => sub
  | "*" => mul
  | "/" => div
  | ">" => gt
  | "<" => lt
  | "=" => eq
  | ">=" => ge
  | "<=" => le
  | "ET" => and
  | "OU" => or
  | symbol => unknown symbol

/-- The symbol of an operator. -/
def symbol : Op → String
  | add => "+"
  | sub => "-"
  | mul => "*"
  | div => "/"
  | gt => ">"
  | lt => "<"
  | eq => "="
  | ge => ">="
  | le => "<="
  | and => "ET"
  | or => "OU"
  | unknown symbol => symbol

end Op

/-- Expressions. Negation is a subtraction from zero, and there are no parentheses. -/
inductive Expr where
  | num (value : Float)
  | str (text : String)
  | ident (name : String) (line : Int)
  | bin (op : Op) (left right : Expr) (line : Int)
  /-- No expression of the language; the label says what stands in its place. -/
  | unknown (label : String)
  deriving Inhabited

/-- Statements. A conditional remembers whether it has an `else` part, even an empty one; a counted
loop always counts upwards. -/
inductive Stmt where
  | assign (name : String) (value : Expr) (line : Int)
  | write (value : Expr) (line : Int)
  | read (name : String) (line : Int)
  | cond (test : Expr) (yes : List Stmt) (no : Option (List Stmt)) (line : Int)
  | loop (test : Expr) (body : List Stmt) (line : Int)
  | count (name : String) (first last : Expr) (body : List Stmt) (line : Int)
  /-- No statement of the language; the label says what stands in its place. -/
  | unknown (label : String) (line : Int)
  deriving Inhabited

/-- The line of a statement's first token. -/
def Stmt.line : Stmt → Int
  | assign _ _ line => line
  | write _ line => line
  | read _ line => line
  | cond _ _ _ line => line
  | loop _ _ line => line
  | count _ _ _ _ line => line
  | unknown _ line => line

/-- A program is a list of statements. The tag is a handle by which a caller tells its programs
apart; nothing in the execution of a program depends on it. -/
structure Program where
  statements : List Stmt
  tag : Nat := 0
  deriving Inhabited

end Pseudocode
