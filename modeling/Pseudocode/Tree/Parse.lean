import Pseudocode.Tree.Basic
import Pseudocode.Token.Basic

/-!
# Parsing

A program is `Début`, statements, `Fin`. Each phrase is read off the front of a token list and
leaves the rest; a phrase that does not fit is rejected at the first token that cannot continue it.
From the loosest to the tightest, expressions join by `OU`, `ET`, at most one comparison, sums,
products and then a literal, a name or a negation.

A reader of expressions comes with the fact that it uses up at least one token, and a reader of
statements returns that fact with its result, so every recursion below is on a shorter list.
-/

namespace Pseudocode.Parse

/-- What the grammar wanted at a place where it found something else. -/
inductive Expected where
  | kind (k : Kind)
  | statement
  | expression
  /-- One of the four comparisons that may stand between the bounds of a counted loop. -/
  | direction
  deriving DecidableEq, Repr

/-- The name of what was wanted, as the error message shows it. -/
def Expected.name : Expected → String
  | kind k => k.name
  | statement => "instruction"
  | expression => "expression"
  | direction => "LTE|GTE|LT|GT"

/-- A rejection: what was wanted, and the tokens from the first one that does not fit. -/
structure Reject where
  expected : Expected
  rest : List Token

/-- The kind of the next token. After the last one comes the end of the file, for ever. -/
def peek : List Token → Kind
  | [] => .eof
  | t :: _ => t.kind

/-! ## Expressions -/

/-- The result of reading a phrase: its tree and the tokens after it. -/
abbrev Reply (α : Type) := Except Reject (α × List Token)

/-- A literal, a name, or a minus sign in front of one of these. -/
def primary : List Token → Reply Expr
  | [] => .error ⟨.expression, []⟩
  | t :: rest =>
    match t.kind with
    | .number => .ok (.num t.number, rest)
    | .string => .ok (.str t.text, rest)
    | .identifier => .ok (.ident t.text t.line, rest)
    | .minus =>
      match primary rest with
      | .error e => .error e
      | .ok (operand, rest') => .ok (.bin .sub (.num 0) operand t.line, rest')
    | _ => .error ⟨.expression, t :: rest⟩

theorem primary_shorter {ts rest : List Token} {e : Expr} (h : primary ts = .ok (e, rest)) :
    rest.length < ts.length := by
  fun_induction primary ts generalizing e rest with
  | case1 => simp at h
  | case2 | case3 | case4 => cases h; simp
  | case5 => simp at h
  | case6 t ts _ operand rest' heq ih =>
    cases h
    have := ih heq
    simp
    omega
  | case7 => simp at h

/-- A precedence level: a reader of expressions that uses up at least one token. -/
structure Level where
  read : List Token → Reply Expr
  shorter : ∀ {ts rest : List Token} {e : Expr}, read ts = .ok (e, rest) → rest.length < ts.length

/-- Reads operators of one level and their right operands for as long as there are any, joining from
the left. -/
def Level.chain (operand : Level) (op? : Kind → Option Op) (left : Expr) (ts : List Token) :
    Reply Expr :=
  match ts with
  | [] => .ok (left, [])
  | t :: rest =>
    match op? t.kind with
    | none => .ok (left, t :: rest)
    | some op =>
      match _h : operand.read rest with
      | .error e => .error e
      | .ok (right, rest') => operand.chain op? (.bin op left right t.line) rest'
termination_by ts.length
decreasing_by
  have := operand.shorter _h
  simp
  omega

theorem Level.chain_shorter {operand : Level} {op? : Kind → Option Op} {left e : Expr}
    {ts rest : List Token} (h : operand.chain op? left ts = .ok (e, rest)) :
    rest.length ≤ ts.length := by
  fun_induction Level.chain operand op? left ts generalizing e rest with
  | case1 => cases h; simp
  | case2 => cases h; simp
  | case3 => simp at h
  | case4 left t ts op _ right rest' heq ih =>
    have h₁ := ih h
    have h₂ := operand.shorter heq
    simp
    omega

/-- One or more operands of a level, joined from the left by the given operators. -/
def Level.leftAssoc (operand : Level) (op? : Kind → Option Op) : Level where
  read ts :=
    match operand.read ts with
    | .error e => .error e
    | .ok (left, rest) => operand.chain op? left rest
  shorter := by
    intro ts rest e h
    split at h
    · simp at h
    · rename_i left rest' heq
      have h₁ := operand.shorter heq
      have h₂ := Level.chain_shorter h
      omega

/-- One operand of a level, or two joined by one of the given operators. -/
def Level.atMostOnce (operand : Level) (op? : Kind → Option Op) : Level where
  read ts :=
    match operand.read ts with
    | .error e => .error e
    | .ok (left, []) => .ok (left, [])
    | .ok (left, t :: rest) =>
      match op? t.kind with
      | none => .ok (left, t :: rest)
      | some op =>
        match operand.read rest with
        | .error e => .error e
        | .ok (right, rest') => .ok (.bin op left right t.line, rest')
  shorter := by
    intro ts rest e h
    split at h
    · simp at h
    · rename_i left heq
      cases h
      exact operand.shorter heq
    · rename_i left t rest' heq
      have h₁ := operand.shorter heq
      split at h
      · cases h
        exact h₁
      · split at h
        · simp at h
        · rename_i right rest'' heq'
          cases h
          have h₂ := operand.shorter heq'
          simp at h₁
          omega

def productOp? : Kind → Option Op
  | .multiply => some .mul
  | .divide => some .div
  | _ => none

def sumOp? : Kind → Option Op
  | .plus => some .add
  | .minus => some .sub
  | _ => none

def comparisonOp? : Kind → Option Op
  | .greater => some .gt
  | .less => some .lt
  | .equal => some .eq
  | .greaterEq => some .ge
  | .lessEq => some .le
  | _ => none

def andOp? : Kind → Option Op
  | .et => some .and
  | _ => none

def orOp? : Kind → Option Op
  | .ou => some .or
  | _ => none

def atom : Level where
  read := primary
  shorter := primary_shorter

def product : Level := atom.leftAssoc productOp?

def sum : Level := product.leftAssoc sumOp?

def comparison : Level := sum.atMostOnce comparisonOp?

def conjunction : Level := comparison.leftAssoc andOp?

/-- A whole expression. -/
def expression : Level := conjunction.leftAssoc orOp?

/-! ## Statements -/

/-- The kinds at which a list of statements ends. -/
def endsBlock : Kind → Bool
  | .fin | .finSi | .finTantQue | .finPour | .sinon | .eof => true
  | _ => false

/-- The comparisons that may stand between the bounds of a counted loop. -/
def isDirection : Kind → Bool
  | .lessEq | .greaterEq | .less | .greater => true
  | _ => false

/-- A phrase that leaves fewer tokens than there were. -/
abbrev Shorter (α : Type) (ts : List Token) :=
  Except Reject { p : α × List Token // p.2.length < ts.length }

/-- A phrase that leaves no more tokens than there were. -/
abbrev NoLonger (α : Type) (ts : List Token) :=
  Except Reject { p : α × List Token // p.2.length ≤ ts.length }

/-- Takes one token of the wanted kind. -/
def expect (k : Kind) : (ts : List Token) → Shorter Token ts
  | [] => .error ⟨.kind k, []⟩
  | t :: rest => if t.kind = k then .ok ⟨(t, rest), by simp⟩ else .error ⟨.kind k, t :: rest⟩

/-- Takes the comparison between the bounds of a counted loop. -/
def direction : (ts : List Token) → Shorter Unit ts
  | [] => .error ⟨.direction, []⟩
  | t :: rest =>
    if isDirection t.kind then .ok ⟨((), rest), by simp⟩ else .error ⟨.direction, t :: rest⟩

/-- Reads an expression of a level. -/
def Level.take (level : Level) (ts : List Token) : Shorter Expr ts :=
  match h : level.read ts with
  | .error e => .error e
  | .ok p => .ok ⟨p, level.shorter h⟩

mutual

/-- Statements up to the first token that ends a block. -/
def block (ts : List Token) : NoLonger (List Stmt) ts :=
  if endsBlock (peek ts) then .ok ⟨([], ts), Nat.le_refl _⟩
  else do
    let ⟨(s, rest), h⟩ ← statement ts
    let ⟨(ss, rest'), h'⟩ ← block rest
    return ⟨(s :: ss, rest'), by simp at h h' ⊢; omega⟩
termination_by (ts.length, 1)
decreasing_by
  · exact Prod.Lex.right _ (by decide)
  · exact Prod.Lex.left _ _ h

/-- One statement. -/
def statement (ts : List Token) : Shorter Stmt ts :=
  match ts with
  | [] => .error ⟨.statement, []⟩
  | t :: rest =>
    match t.kind with
    | .identifier => do
      let ⟨(_, r₁), h₁⟩ ← expect .assign rest
      let ⟨(value, r₂), h₂⟩ ← expression.take r₁
      return ⟨(.assign t.text value t.line, r₂), by simp at *; omega⟩
    | .ecrire => do
      let ⟨(value, r₁), h₁⟩ ← expression.take rest
      return ⟨(.write value t.line, r₁), by simp at *; omega⟩
    | .lire => do
      let ⟨(name, r₁), h₁⟩ ← expect .identifier rest
      return ⟨(.read name.text t.line, r₁), by simp at *; omega⟩
    | .si => do
      let ⟨(test, r₁), h₁⟩ ← expression.take rest
      let ⟨(_, r₂), h₂⟩ ← expect .alors r₁
      let ⟨(yes, r₃), h₃⟩ ← block r₂
      match r₃, h₃ with
      | [], _ => .error ⟨.kind .finSi, []⟩
      | u :: r₄, h₄ =>
        if u.kind = .sinon then
          let ⟨(no, r₅), h₅⟩ ← block r₄
          let ⟨(_, r₆), h₆⟩ ← expect .finSi r₅
          return ⟨(.cond test yes (some no) t.line, r₆), by simp at *; omega⟩
        else
          let ⟨(_, r₅), h₅⟩ ← expect .finSi (u :: r₄)
          return ⟨(.cond test yes none t.line, r₅), by simp at *; omega⟩
    | .tantQue => do
      let ⟨(test, r₁), h₁⟩ ← expression.take rest
      let ⟨(body, r₂), h₂⟩ ← block r₁
      let ⟨(_, r₃), h₃⟩ ← expect .finTantQue r₂
      return ⟨(.loop test body t.line, r₃), by simp at *; omega⟩
    | .pour => do
      let ⟨(name, r₁), h₁⟩ ← expect .identifier rest
      let ⟨(_, r₂), h₂⟩ ← expect .assign r₁
      let ⟨(first, r₃), h₃⟩ ← sum.take r₂
      let ⟨(_, r₄), h₄⟩ ← direction r₃
      let ⟨(last, r₅), h₅⟩ ← expression.take r₄
      let ⟨(body, r₆), h₆⟩ ← block r₅
      let ⟨(_, r₇), h₇⟩ ← expect .finPour r₆
      return ⟨(.count name.text first last body t.line, r₇), by simp at *; omega⟩
    | _ => .error ⟨.statement, t :: rest⟩
termination_by (ts.length, 0)
decreasing_by
  all_goals
    apply Prod.Lex.left
    simp at *
    omega

end

/-- A whole program: `Début`, statements, `Fin`. -/
def program (ts : List Token) : Shorter (List Stmt) ts := do
  let ⟨(_, r₁), h₁⟩ ← expect .debut ts
  let ⟨(body, r₂), h₂⟩ ← block r₁
  let ⟨(_, r₃), h₃⟩ ← expect .fin r₂
  return ⟨(body, r₃), by simp at *; omega⟩

/-! ## Token streams -/

/-- The first grammar violation: what was wanted, and the line and kind of the token found there. -/
structure SyntaxError where
  line : Int
  expected : Expected
  got : Kind
  deriving DecidableEq, Repr

/-- A token list that is being parsed: the tokens still to come, and the end-of-file token that
follows them for ever. -/
structure Stream where
  rest : List Token
  final : Token

/-- The stream over a token list. Line breaks have no meaning in the grammar and are dropped; if the
list does not end with an end of file, one is added on the line of its last token. -/
def Stream.ofTokens (ts : List Token) : Stream :=
  let kept := ts.filter (·.kind ≠ .newline)
  match kept.getLast? with
  | some t =>
    if t.kind = .eof then ⟨kept.dropLast, t⟩ else ⟨kept, { kind := .eof, line := lastLine ts }⟩
  | none => ⟨[], { kind := .eof, line := lastLine ts }⟩
where
  /-- The line of the last token of a list, line breaks included. -/
  lastLine (ts : List Token) : Int :=
    match ts.getLast? with
    | some t => t.line
    | none => 1

/-- The next token of a stream. -/
def Stream.current (s : Stream) : Token :=
  s.rest.head?.getD s.final

/-- The error that a rejection amounts to. -/
def Stream.error (s : Stream) (r : Reject) : SyntaxError :=
  let t := Stream.current { s with rest := r.rest }
  { line := t.line, expected := r.expected, got := t.kind }

/-- Parses one program and moves past it. After an error the stream stands at the token reported. -/
def Stream.parse (s : Stream) : Except SyntaxError Program × Stream :=
  match program s.rest with
  | .ok ⟨(body, rest), _⟩ => (.ok { statements := body }, { s with rest })
  | .error r => (.error (s.error r), { s with rest := r.rest })

end Pseudocode.Parse
