import Pseudocode.Tree.Basic
import Pseudocode.Token.Basic

/-!
# The grammar

The phrases of the language as relations between a list of tokens and the tree that it spells. They
say nothing about how a phrase is found. Expressions are given level by level, from the tightest to
the loosest; a level joins operands of the next tighter one from the left, or at most two of them.
Every statement carries the line of its first token, every operator and name that of its own.
-/

namespace Pseudocode.Grammar

/-- What a kind of phrase relates: the tokens of the phrase and its tree. -/
abbrev Phrase (α : Type) := List Token → α → Prop

/-! ## Operators -/

inductive ProductOp : Kind → Op → Prop
  | mul : ProductOp .multiply .mul
  | div : ProductOp .divide .div

inductive SumOp : Kind → Op → Prop
  | add : SumOp .plus .add
  | sub : SumOp .minus .sub

inductive ComparisonOp : Kind → Op → Prop
  | gt : ComparisonOp .greater .gt
  | lt : ComparisonOp .less .lt
  | eq : ComparisonOp .equal .eq
  | ge : ComparisonOp .greaterEq .ge
  | le : ComparisonOp .lessEq .le

inductive AndOp : Kind → Op → Prop
  | and : AndOp .et .and

inductive OrOp : Kind → Op → Prop
  | or : OrOp .ou .or

/-- The signs that may stand between the bounds of a counted loop. -/
inductive Direction : Kind → Prop
  | lessEq : Direction .lessEq
  | greaterEq : Direction .greaterEq
  | less : Direction .less
  | greater : Direction .greater

/-! ## Expressions -/

/-- A literal, a name, or a minus sign in front of one of these, read as a subtraction from zero. -/
inductive Primary : Phrase Expr
  | number {t : Token} (kind : t.kind = .number) : Primary [t] (.num t.number)
  | string {t : Token} (kind : t.kind = .string) : Primary [t] (.str t.text)
  | name {t : Token} (kind : t.kind = .identifier) : Primary [t] (.ident t.text t.line)
  | minus {t : Token} {ts : List Token} {e : Expr} (kind : t.kind = .minus)
      (operand : Primary ts e) : Primary (t :: ts) (.bin .sub (.num 0) e t.line)

/-- Operands joined from the left. -/
inductive LeftAssoc (operand : Phrase Expr) (operator : Kind → Op → Prop) : Phrase Expr
  | one {ts : List Token} {e : Expr} (only : operand ts e) : LeftAssoc operand operator ts e
  | more {ts us : List Token} {t : Token} {op : Op} {l r : Expr}
      (left : LeftAssoc operand operator ts l) (sign : operator t.kind op) (right : operand us r) :
      LeftAssoc operand operator (ts ++ t :: us) (.bin op l r t.line)

/-- One operand, or two joined by an operator. -/
inductive AtMostOnce (operand : Phrase Expr) (operator : Kind → Op → Prop) : Phrase Expr
  | one {ts : List Token} {e : Expr} (only : operand ts e) : AtMostOnce operand operator ts e
  | two {ts us : List Token} {t : Token} {op : Op} {l r : Expr}
      (left : operand ts l) (sign : operator t.kind op) (right : operand us r) :
      AtMostOnce operand operator (ts ++ t :: us) (.bin op l r t.line)

def Product : Phrase Expr := LeftAssoc Primary ProductOp

def Sum : Phrase Expr := LeftAssoc Product SumOp

def Comparison : Phrase Expr := AtMostOnce Sum ComparisonOp

def Conjunction : Phrase Expr := LeftAssoc Comparison AndOp

def Expression : Phrase Expr := LeftAssoc Conjunction OrOp

/-! ## Statements -/

mutual

/-- One statement. -/
inductive Statement : List Token → Stmt → Prop
  | assign {name arrow : Token} {ts : List Token} {value : Expr}
      (isName : name.kind = .identifier) (isArrow : arrow.kind = .assign)
      (isValue : Expression ts value) :
      Statement (name :: arrow :: ts) (.assign name.text value name.line)
  | write {ecrire : Token} {ts : List Token} {value : Expr} (isEcrire : ecrire.kind = .ecrire)
      (isValue : Expression ts value) : Statement (ecrire :: ts) (.write value ecrire.line)
  | read {lire name : Token} (isLire : lire.kind = .lire) (isName : name.kind = .identifier) :
      Statement [lire, name] (.read name.text lire.line)
  | cond {si alors finSi : Token} {ts us : List Token} {test : Expr} {yes : List Stmt}
      (isSi : si.kind = .si) (isTest : Expression ts test) (isAlors : alors.kind = .alors)
      (isYes : Statements us yes) (isFinSi : finSi.kind = .finSi) :
      Statement (si :: (ts ++ alors :: (us ++ [finSi]))) (.cond test yes none si.line)
  | condElse {si alors sinon finSi : Token} {ts us vs : List Token} {test : Expr}
      {yes no : List Stmt} (isSi : si.kind = .si) (isTest : Expression ts test)
      (isAlors : alors.kind = .alors) (isYes : Statements us yes) (isSinon : sinon.kind = .sinon)
      (isNo : Statements vs no) (isFinSi : finSi.kind = .finSi) :
      Statement (si :: (ts ++ alors :: (us ++ sinon :: (vs ++ [finSi]))))
        (.cond test yes (some no) si.line)
  | loop {tantQue finTantQue : Token} {ts us : List Token} {test : Expr} {body : List Stmt}
      (isTantQue : tantQue.kind = .tantQue) (isTest : Expression ts test)
      (isBody : Statements us body) (isFin : finTantQue.kind = .finTantQue) :
      Statement (tantQue :: (ts ++ (us ++ [finTantQue]))) (.loop test body tantQue.line)
  | count {pour name arrow sign finPour : Token} {ts us vs : List Token} {first last : Expr}
      {body : List Stmt} (isPour : pour.kind = .pour) (isName : name.kind = .identifier)
      (isArrow : arrow.kind = .assign) (isFirst : Sum ts first) (isSign : Direction sign.kind)
      (isLast : Expression us last) (isBody : Statements vs body)
      (isFin : finPour.kind = .finPour) :
      Statement (pour :: name :: arrow :: (ts ++ sign :: (us ++ (vs ++ [finPour]))))
        (.count name.text first last body pour.line)

/-- Statements one after the other; nothing stands between them. -/
inductive Statements : List Token → List Stmt → Prop
  | nil : Statements [] []
  | cons {ts us : List Token} {s : Stmt} {ss : List Stmt} (head : Statement ts s)
      (tail : Statements us ss) : Statements (ts ++ us) (s :: ss)

end

/-- A program. -/
inductive Whole : Phrase (List Stmt)
  | intro {debut fin : Token} {ts : List Token} {body : List Stmt} (isDebut : debut.kind = .debut)
      (isBody : Statements ts body) (isFin : fin.kind = .fin) :
      Whole (debut :: (ts ++ [fin])) body

/-- Programs one after the other. -/
inductive Wholes : Phrase (List (List Stmt))
  | nil : Wholes [] []
  | cons {ts us : List Token} {body : List Stmt} {bodies : List (List Stmt)}
      (head : Whole ts body) (tail : Wholes us bodies) : Wholes (ts ++ us) (body :: bodies)

end Pseudocode.Grammar
