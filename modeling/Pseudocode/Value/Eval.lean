import Pseudocode.Fault
import Pseudocode.Value.Env

/-!
# Evaluation

The value of an expression in an environment. Both operands of every operator are evaluated, the
left one first; there is no short circuit.
-/

namespace Pseudocode

/-- The four orderings. -/
inductive Comparison where
  | gt
  | lt
  | ge
  | le

/-- An ordering of two numbers. Every ordering with a NaN is false. -/
def Comparison.ofFloats (o : Comparison) (x y : Float) : Bool :=
  match o with
  | gt => y < x
  | lt => x < y
  | ge => y ≤ x
  | le => x ≤ y

/-- An ordering of two texts, by code points. -/
def Comparison.ofTexts (o : Comparison) (s t : String) : Bool :=
  match o with
  | gt => t < s
  | lt => s < t
  | ge => !(decide (s < t))
  | le => !(decide (t < s))

namespace Value

/-- Arithmetic on numbers; texts have none. -/
def arithmetic (op : Op) (line : Int) (f : Float → Float → Except RuntimeError Float) :
    Value → Value → Except RuntimeError Value
  | num x, num y => num <$> f x y
  | a, b => .error (.typeMismatch op.symbol a.kind b.kind line)

/-- An ordering of two values of one kind. -/
def ordered (op : Op) (line : Int) (o : Comparison) : Value → Value → Except RuntimeError Value
  | num x, num y => .ok (ofBool (o.ofFloats x y))
  | text s, text t => .ok (ofBool (o.ofTexts s t))
  | a, b => .error (.typeMismatch op.symbol a.kind b.kind line)

/-- A sum of numbers; with a text on either side, the texts of both, one after the other. -/
def add : Value → Value → Value
  | num x, num y => num (x + y)
  | a, b => text (a.toText ++ b.toText)

/-- The quotient of two numbers. -/
def divide (line : Int) (x y : Float) : Except RuntimeError Float :=
  if y == 0 then .error (.divisionByZero line) else .ok (x / y)

/-- Applies an operator that stands on a given line. -/
def apply (op : Op) (line : Int) (a b : Value) : Except RuntimeError Value :=
  match op with
  | .add => .ok (add a b)
  | .sub => arithmetic op line (fun x y => .ok (x - y)) a b
  | .mul => arithmetic op line (fun x y => .ok (x * y)) a b
  | .div => arithmetic op line (divide line) a b
  | .eq => .ok (ofBool (a.equal b))
  | .gt => ordered op line .gt a b
  | .lt => ordered op line .lt a b
  | .ge => ordered op line .ge a b
  | .le => ordered op line .le a b
  | .and => .ok (ofBool (a.truthy && b.truthy))
  | .or => .ok (ofBool (a.truthy || b.truthy))
  | .unknown symbol => .error (.misuse (.unknownOperator symbol) line)

end Value

/-- The value of an expression. -/
def Expr.eval (env : Env) : Expr → Except RuntimeError Value
  | num x => .ok (.num x)
  | str s => .ok (.text s)
  | ident name line =>
    match env.get? name with
    | some v => .ok v
    | none => .error (.undefinedVariable name line)
  | bin op left right line =>
    match left.eval env with
    | .error e => .error e
    | .ok a =>
      match right.eval env with
      | .error e => .error e
      | .ok b => Value.apply op line a b
  | unknown label => .error (.misuse (.unknownExpression label) 0)

end Pseudocode
