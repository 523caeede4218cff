import Pseudocode.Tree.Parse
import Pseudocode.Proofs.Tree.Grammar

/-!
# Parsing finds the phrases of the grammar

A reader takes a phrase off the front of a token list. It is sound if what it takes is a phrase with
the tree that it returns, and complete if it takes every phrase that is followed by a token which
cannot continue it. For the levels of expressions both are proved of the two ways in which a level
is made of the next tighter one (`Recognises.leftAssoc`, `Recognises.atMostOnce`). A statement
starts with a token that is no operator, and so does everything that may end a list of statements,
which is why statements need no separators.

A program ends with its own last token, so it is found whatever comes after it
(`program_takes_iff`), and no token list starts with two programs.
-/

namespace Pseudocode.Parse

open Grammar

/-! ## Expressions -/

/-- A level reads exactly the given phrases, up to a token that cannot continue them, and rejects
nothing but what is still to come. -/
structure Recognises (level : Level) (phrase : Phrase Expr) (follow : Kind → Prop) : Prop where
  sound : ∀ {ts rest : List Token} {e : Expr}, level.read ts = .ok (e, rest) →
    ∃ us, ts = us ++ rest ∧ phrase us e
  complete : ∀ {us : List Token} {e : Expr} (rest : List Token), phrase us e →
    follow (peek rest) → level.read (us ++ rest) = .ok (e, rest)
  rejects : ∀ {ts : List Token} {r : Reject}, level.read ts = .error r → r.rest <:+ ts

theorem Recognises.mono {level : Level} {phrase : Phrase Expr} {follow follow' : Kind → Prop}
    (h : Recognises level phrase follow) (weaker : ∀ k, follow' k → follow k) :
    Recognises level phrase follow' where
  sound := h.sound
  complete rest isPhrase stop := h.complete rest isPhrase (weaker _ stop)
  rejects := h.rejects

theorem primary_sound {ts rest : List Token} {e : Expr} (h : primary ts = .ok (e, rest)) :
    ∃ us, ts = us ++ rest ∧ Primary us e := by
  fun_induction primary ts generalizing e rest with
  | case1 => cases h
  | case2 t ts kind => cases h; exact ⟨[t], rfl, .number kind⟩
  | case3 t ts kind => cases h; exact ⟨[t], rfl, .string kind⟩
  | case4 t ts kind => cases h; exact ⟨[t], rfl, .name kind⟩
  | case5 => cases h
  | case6 t ts kind operand rest' read ih =>
    cases h
    obtain ⟨us, rfl, phrase⟩ := ih read
    exact ⟨t :: us, rfl, .minus kind phrase⟩
  | case7 => cases h

theorem primary_complete {us : List Token} {e : Expr} (h : Primary us e) (rest : List Token) :
    primary (us ++ rest) = .ok (e, rest) := by
  induction h with
  | number kind => simp [primary, kind]
  | string kind => simp [primary, kind]
  | name kind => simp [primary, kind]
  | minus kind operand ih => simp [primary, kind, ih]

theorem primary_rejects {ts : List Token} {r : Reject} (h : primary ts = .error r) :
    r.rest <:+ ts := by
  fun_induction primary ts generalizing r with
  | case1 => cases h; exact List.suffix_rfl
  | case2 | case3 | case4 | case6 => cases h
  | case5 t ts kind e read ih =>
    cases h
    exact (ih read).trans (List.suffix_cons t ts)
  | case7 => cases h; exact List.suffix_rfl

theorem recognises_atom : Recognises atom Primary fun _ => True where
  sound := primary_sound
  complete rest h _ := primary_complete h rest
  rejects := primary_rejects

section Levels

variable {operand : Level} {phrase : Phrase Expr} {follow : Kind → Prop}
  {op? : Kind → Option Op} {operator : Kind → Op → Prop}

theorem chain_sound (h : Recognises operand phrase follow)
    (table : ∀ k op, op? k = some op ↔ operator k op) {left e : Expr} {ts rest : List Token}
    (read : operand.chain op? left ts = .ok (e, rest)) {us : List Token}
    (before : LeftAssoc phrase operator us left) :
    ∃ vs, ts = vs ++ rest ∧ LeftAssoc phrase operator (us ++ vs) e := by
  fun_induction Level.chain operand op? left ts generalizing e rest us with
  | case1 left =>
    cases read
    exact ⟨[], rfl, by rwa [List.append_nil]⟩
  | case2 left t ts none =>
    cases read
    exact ⟨[], rfl, by rwa [List.append_nil]⟩
  | case3 => cases read
  | case4 left t ts op sign right rest' readRight ih =>
    obtain ⟨ws, rfl, isRight⟩ := h.sound readRight
    obtain ⟨vs, rfl, whole⟩ := ih read (.more before ((table _ _).mp sign) isRight)
    exact ⟨t :: (ws ++ vs), by simp, by simpa using whole⟩

/-- A chain ends where no operator of its level stands. -/
theorem chain_of_none {left : Expr} {rest : List Token} (none : op? (peek rest) = none) :
    operand.chain op? left rest = .ok (left, rest) := by
  cases rest with
  | nil => rw [Level.chain]
  | cons t rest =>
    rw [peek] at none
    rw [Level.chain, none]

/-- Reading a chain of operands amounts to reading on after any part of it. -/
theorem leftAssoc_read (h : Recognises operand phrase follow)
    (table : ∀ k op, op? k = some op ↔ operator k op) (apart : ∀ {k op}, operator k op → follow k)
    {us : List Token} {e : Expr} (joined : LeftAssoc phrase operator us e) {rest : List Token}
    (stop : follow (peek rest)) :
    (operand.leftAssoc op?).read (us ++ rest) = operand.chain op? e rest := by
  induction joined generalizing rest with
  | one only => simp only [Level.leftAssoc, h.complete rest only stop]
  | @more ts us t op l r left sign right ih =>
    -- the operands before `t` are read first, and at `t` the chain goes on with one operand more
    have readLeft : (operand.leftAssoc op?).read (ts ++ t :: (us ++ rest))
        = operand.chain op? l (t :: (us ++ rest)) := ih (apart sign)
    have sign' : op? t.kind = some op := (table _ _).mpr sign
    rw [List.append_assoc, List.cons_append, readLeft, Level.chain, sign']
    simp only
    split
    · rename_i read
      rw [h.complete rest right stop] at read
      cases read
    · rename_i read
      rw [h.complete rest right stop] at read
      cases read
      rfl

theorem chain_rejects (h : Recognises operand phrase follow) {left : Expr} {ts : List Token}
    {r : Reject} (read : operand.chain op? left ts = .error r) : r.rest <:+ ts := by
  fun_induction Level.chain operand op? left ts generalizing r with
  | case1 | case2 => cases read
  | case3 left t ts op sign e readRight =>
    cases read
    exact (h.rejects readRight).trans (List.suffix_cons t ts)
  | case4 left t ts op sign right rest' readRight ih =>
    obtain ⟨us, rfl, -⟩ := h.sound readRight
    have suffix : r.rest <:+ us ++ rest' := (ih read).trans (List.suffix_append us rest')
    exact suffix.trans (List.suffix_cons t _)

theorem Recognises.leftAssoc (h : Recognises operand phrase follow)
    (table : ∀ k op, op? k = some op ↔ operator k op) (apart : ∀ {k op}, operator k op → follow k) :
    Recognises (operand.leftAssoc op?) (LeftAssoc phrase operator)
      fun k => follow k ∧ op? k = none where
  sound {ts rest e} read := by
    simp only [Level.leftAssoc] at read
    split at read
    · cases read
    · rename_i left rest' readLeft
      obtain ⟨us, rfl, isLeft⟩ := h.sound readLeft
      obtain ⟨vs, rfl, whole⟩ := chain_sound h table read (.one isLeft)
      exact ⟨us ++ vs, (List.append_assoc ..).symm, whole⟩
  complete rest joined stop := by
    rw [leftAssoc_read h table apart joined stop.1, chain_of_none stop.2]
  rejects {ts r} read := by
    simp only [Level.leftAssoc] at read
    split at read
    · rename_i e readLeft
      cases read
      exact h.rejects readLeft
    · rename_i left rest' readLeft
      obtain ⟨us, rfl, -⟩ := h.sound readLeft
      exact (chain_rejects h read).trans (List.suffix_append us rest')

theorem Recognises.atMostOnce (h : Recognises operand phrase follow)
    (table : ∀ k op, op? k = some op ↔ operator k op) (apart : ∀ {k op}, operator k op → follow k) :
    Recognises (operand.atMostOnce op?) (AtMostOnce phrase operator)
      fun k => follow k ∧ op? k = none where
  sound {ts rest e} read := by
    simp only [Level.atMostOnce] at read
    split at read
    · cases read
    · rename_i left readLeft
      cases read
      obtain ⟨us, rfl, isLeft⟩ := h.sound readLeft
      exact ⟨us, rfl, .one isLeft⟩
    · rename_i left t rest' readLeft
      obtain ⟨us, rfl, isLeft⟩ := h.sound readLeft
      split at read
      · cases read
        exact ⟨us, rfl, .one isLeft⟩
      · rename_i op sign
        split at read
        · cases read
        · rename_i right rest'' readRight
          cases read
          obtain ⟨vs, rfl, isRight⟩ := h.sound readRight
          exact ⟨us ++ t :: vs, by simp, .two isLeft ((table _ _).mp sign) isRight⟩
  complete {us e} rest joined stop := by
    cases joined with
    | one only =>
      simp only [Level.atMostOnce, h.complete rest only stop.1]
      cases rest with
      | nil => rfl
      | cons t rest =>
        have none : op? t.kind = none := stop.2
        simp only [none]
    | @two ts us t op l r left sign right =>
      have readLeft := h.complete (t :: (us ++ rest)) left (apart sign)
      simp only [Level.atMostOnce, List.append_assoc, List.cons_append, readLeft,
        (table _ _).mpr sign, h.complete rest right stop.1]
  rejects {ts r} read := by
    simp only [Level.atMostOnce] at read
    split at read
    · rename_i e readLeft
      cases read
      exact h.rejects readLeft
    · cases read
    · rename_i left t rest' readLeft
      obtain ⟨us, rfl, -⟩ := h.sound readLeft
      split at read
      · cases read
      · split at read
        · rename_i e readRight
          cases read
          have suffix : r.rest <:+ t :: rest' :=
            (h.rejects readRight).trans (List.suffix_cons t rest')
          exact suffix.trans (List.suffix_append us _)
        · cases read

end Levels

theorem productOp?_iff (k : Kind) (op : Op) : productOp? k = some op ↔ ProductOp k op := by
  constructor
  · intro h
    cases k <;> cases h <;> constructor
  · rintro (_ | _) <;> rfl

theorem sumOp?_iff (k : Kind) (op : Op) : sumOp? k = some op ↔ SumOp k op := by
  constructor
  · intro h
    cases k <;> cases h <;> constructor
  · rintro (_ | _) <;> rfl

theorem comparisonOp?_iff (k : Kind) (op : Op) :
    comparisonOp? k = some op ↔ ComparisonOp k op := by
  constructor
  · intro h
    cases k <;> cases h <;> constructor
  · rintro (_ | _ | _ | _ | _) <;> rfl

theorem andOp?_iff (k : Kind) (op : Op) : andOp? k = some op ↔ AndOp k op := by
  constructor
  · intro h
    cases k <;> cases h
    constructor
  · rintro ⟨⟩
    rfl

theorem orOp?_iff (k : Kind) (op : Op) : orOp? k = some op ↔ OrOp k op := by
  constructor
  · intro h
    cases k <;> cases h
    constructor
  · rintro ⟨⟩
    rfl

theorem recognises_product :
    Recognises product Product fun k => productOp? k = none :=
  (recognises_atom.leftAssoc productOp?_iff fun _ => trivial).mono fun _ stop => ⟨trivial, stop⟩

theorem recognises_sum :
    Recognises sum Sum fun k => productOp? k = none ∧ sumOp? k = none :=
  recognises_product.leftAssoc sumOp?_iff fun sign => by cases sign <;> rfl

theorem recognises_comparison : Recognises comparison Grammar.Comparison fun k =>
    (productOp? k = none ∧ sumOp? k = none) ∧ comparisonOp? k = none :=
  recognises_sum.atMostOnce comparisonOp?_iff fun sign => by cases sign <;> exact ⟨rfl, rfl⟩

theorem recognises_conjunction : Recognises conjunction Conjunction fun k =>
    ((productOp? k = none ∧ sumOp? k = none) ∧ comparisonOp? k = none) ∧ andOp? k = none :=
  recognises_comparison.leftAssoc andOp?_iff fun sign => by cases sign; exact ⟨⟨rfl, rfl⟩, rfl⟩

/-- The operators: after a whole expression, only these continue it. -/
def continues : Kind → Bool
  | .multiply | .divide | .plus | .minus => true
  | .greater | .less | .equal | .greaterEq | .lessEq => true
  | .et | .ou => true
  | _ => false

theorem recognises_expression : Recognises expression Expression (continues · = false) := by
  refine (recognises_conjunction.leftAssoc orOp?_iff ?_).mono ?_
  · intro k op sign
    cases sign
    exact ⟨⟨⟨rfl, rfl⟩, rfl⟩, rfl⟩
  · intro k stop
    cases k <;> first | exact ⟨⟨⟨⟨rfl, rfl⟩, rfl⟩, rfl⟩, rfl⟩ | cases stop

/-! ## Soundness of statements -/

section Phrases

variable {α β : Type} {P : α × List Token → Prop} {Q : β × List Token → Prop}
  {ts : List Token} {phrase : Phrase α} {phrase' : Phrase β}

/-- A reader's result on a token list: a phrase from its front, or a rejection further on. -/
def Sound (ts : List Token) (phrase : Phrase α) :
    Except Reject { p : α × List Token // P p } → Prop
  | .ok p => ∃ us, ts = us ++ p.1.2 ∧ phrase us p.1.1
  | .error r => r.rest <:+ ts

/-- After a first phrase, the reader that goes on has to complete it. -/
theorem Sound.bind {x : Except Reject { p : α × List Token // P p }}
    {f : { p : α × List Token // P p } → Except Reject { p : β × List Token // Q p }}
    (first : Sound ts phrase x)
    (next : ∀ us a rest h, ts = us ++ rest → phrase us a →
      Sound rest (fun vs b => phrase' (us ++ vs) b) (f ⟨(a, rest), h⟩)) :
    Sound ts phrase' (x >>= f) := by
  cases x with
  | error r => exact first
  | ok p =>
    obtain ⟨⟨a, rest⟩, h⟩ := p
    obtain ⟨us, rfl, isPhrase⟩ := first
    have second := next us a rest h rfl isPhrase
    show Sound (us ++ rest) phrase' (f ⟨(a, rest), h⟩)
    cases result : f ⟨(a, rest), h⟩ with
    | error r =>
      rw [result] at second
      exact List.IsSuffix.trans second (List.suffix_append us rest)
    | ok q =>
      rw [result] at second
      obtain ⟨vs, rfl, isWhole⟩ := second
      exact ⟨us ++ vs, (List.append_assoc ..).symm, isWhole⟩

theorem Sound.pure {a : α} {h : P (a, ts)} (done : phrase [] a) :
    Sound ts phrase (Except.ok ⟨(a, ts), h⟩) :=
  ⟨[], rfl, done⟩

theorem Sound.cons {t : Token} {x : Except Reject { p : α × List Token // P p }}
    (after : Sound ts (fun us a => phrase (t :: us) a) x) : Sound (t :: ts) phrase x := by
  cases x with
  | error r => exact List.IsSuffix.trans after (List.suffix_cons t ts)
  | ok p =>
    obtain ⟨us, split, isPhrase⟩ := after
    exact ⟨t :: us, by rw [split]; rfl, isPhrase⟩

end Phrases

theorem expect_sound (k : Kind) (ts : List Token) :
    Sound ts (fun us t => us = [t] ∧ t.kind = k) (expect k ts) := by
  cases ts with
  | nil => exact List.suffix_rfl
  | cons t ts =>
    rw [expect]
    split
    · rename_i kind
      exact ⟨[t], rfl, rfl, kind⟩
    · exact List.suffix_rfl

theorem direction_sound (ts : List Token) :
    Sound ts (fun us _ => ∃ t, us = [t] ∧ Direction t.kind) (direction ts) := by
  cases ts with
  | nil => exact List.suffix_rfl
  | cons t ts =>
    rw [direction]
    split
    · rename_i isSign
      refine ⟨[t], rfl, t, rfl, ?_⟩
      cases kind : t.kind <;> rw [kind] at isSign <;> first | constructor | cases isSign
    · exact List.suffix_rfl

theorem Recognises.take_sound {level : Level} {phrase : Phrase Expr} {follow : Kind → Prop}
    (h : Recognises level phrase follow) (ts : List Token) : Sound ts phrase (level.take ts) := by
  rw [Level.take]
  split
  · rename_i r read
    exact h.rejects read
  · rename_i p read
    exact h.sound read

mutual

theorem block_sound (ts : List Token) : Sound ts Statements (block ts) := by
  rw [block]
  split
  · exact .pure .nil
  · refine (statement_sound ts).bind ?_
    intro us s rest h _ isStatement
    refine (block_sound rest).bind ?_
    intro vs ss rest' h' _ areStatements
    exact .pure (by simpa using Statements.cons isStatement areStatements)
termination_by (ts.length, 1)
decreasing_by
  · exact Prod.Lex.right _ (by decide)
  · exact Prod.Lex.left _ _ h

theorem statement_sound : ∀ ts : List Token, Sound ts Statement (statement ts)
  | [] => by
    rw [statement]
    exact List.suffix_rfl
  | t :: rest => by
    rw [statement.eq_def]
    simp only
    split
    · rename_i isName
      refine .cons ((expect_sound _ _).bind ?_)
      rintro _ arrow r₁ - - ⟨rfl, isArrow⟩
      refine (recognises_expression.take_sound _).bind ?_
      intro us value r₂ _ _ isValue
      exact .pure (by simpa using Statement.assign isName isArrow isValue)
    · rename_i isEcrire
      refine .cons ((recognises_expression.take_sound _).bind ?_)
      intro us value r₁ _ _ isValue
      exact .pure (by simpa using Statement.write isEcrire isValue)
    · rename_i isLire
      refine .cons ((expect_sound _ _).bind ?_)
      rintro _ name r₁ - - ⟨rfl, isName⟩
      exact .pure (by simpa using Statement.read isLire isName)
    · rename_i isSi
      refine .cons ((recognises_expression.take_sound _).bind ?_)
      intro us test r₁ _ _ isTest
      refine (expect_sound _ _).bind ?_
      rintro _ alors r₂ - - ⟨rfl, isAlors⟩
      refine (block_sound r₂).bind ?_
      intro vs yes r₃ h₃ _ isYes
      cases r₃ with
      | nil => exact List.suffix_rfl
      | cons u r₄ =>
        simp only
        split
        · rename_i isSinon
          refine .cons ((block_sound r₄).bind ?_)
          intro ws no r₅ _ _ isNo
          refine (expect_sound _ _).bind ?_
          rintro _ finSi r₆ - - ⟨rfl, isFinSi⟩
          exact .pure (by
            simpa using Statement.condElse isSi isTest isAlors isYes isSinon isNo isFinSi)
        · refine (expect_sound _ _).bind ?_
          rintro _ finSi r₅ - - ⟨rfl, isFinSi⟩
          exact .pure (by simpa using Statement.cond isSi isTest isAlors isYes isFinSi)
    · rename_i isTantQue
      refine .cons ((recognises_expression.take_sound _).bind ?_)
      intro us test r₁ _ _ isTest
      refine (block_sound r₁).bind ?_
      intro vs body r₂ _ _ isBody
      refine (expect_sound _ _).bind ?_
      rintro _ finTantQue r₃ - - ⟨rfl, isFin⟩
      exact .pure (by simpa using Statement.loop isTantQue isTest isBody isFin)
    · rename_i isPour
      refine .cons ((expect_sound _ _).bind ?_)
      rintro _ name r₁ - - ⟨rfl, isName⟩
      refine (expect_sound _ _).bind ?_
      rintro _ arrow r₂ - - ⟨rfl, isArrow⟩
      refine (recognises_sum.take_sound _).bind ?_
      intro us first r₃ _ _ isFirst
      refine (direction_sound _).bind ?_
      rintro _ _ r₄ - - ⟨sign, rfl, isSign⟩
      refine (recognises_expression.take_sound _).bind ?_
      intro vs last r₅ _ _ isLast
      refine (block_sound r₅).bind ?_
      intro ws body r₆ _ _ isBody
      refine (expect_sound _ _).bind ?_
      rintro _ finPour r₇ - - ⟨rfl, isFin⟩
      exact .pure (by
        simpa using Statement.count isPour isName isArrow isFirst isSign isLast isBody isFin)
    · exact List.suffix_rfl
termination_by ts => (ts.length, 0)
decreasing_by
  all_goals
    apply Prod.Lex.left
    simp at *
    omega

end

/-! ## Completeness of statements -/

section Takes

variable {α β : Type} {P : α × List Token → Prop} {Q : β × List Token → Prop}
  {a : α} {rest : List Token}

/-- A reader's result is the given tree with the given rest. -/
def Takes (x : Except Reject { p : α × List Token // P p }) (a : α) (rest : List Token) : Prop :=
  ∃ h, x = .ok ⟨(a, rest), h⟩

theorem takes_ok {h : P (a, rest)} : Takes (.ok ⟨(a, rest), h⟩) a rest := ⟨h, rfl⟩

theorem Takes.bind {b : β} {rest' : List Token} {x : Except Reject { p : α × List Token // P p }}
    {f : { p : α × List Token // P p } → Except Reject { p : β × List Token // Q p }}
    (first : Takes x a rest) (next : ∀ h, Takes (f ⟨(a, rest), h⟩) b rest') :
    Takes (x >>= f) b rest' := by
  obtain ⟨h, rfl⟩ := first
  exact next h

theorem Takes.unique {a' : α} {rest' : List Token}
    {x : Except Reject { p : α × List Token // P p }} (h : Takes x a rest)
    (h' : Takes x a' rest') : a = a' ∧ rest = rest' := by
  obtain ⟨_, rfl⟩ := h
  obtain ⟨_, eq⟩ := h'
  cases eq
  exact ⟨rfl, rfl⟩

end Takes

theorem expect_takes {k : Kind} {t : Token} (kind : t.kind = k) (rest : List Token) :
    Takes (expect k (t :: rest)) t rest := by
  rw [expect, if_pos kind]
  exact takes_ok

theorem direction_takes {t : Token} (isSign : Direction t.kind) (rest : List Token) :
    Takes (direction (t :: rest)) () rest := by
  have sign : isDirection t.kind = true := by
    cases kind : t.kind <;> rw [kind] at isSign <;> first | rfl | cases isSign
  rw [direction, if_pos sign]
  exact takes_ok

/-- The sign between the bounds of a counted loop does not continue the first of them. -/
theorem apart_of_direction {k : Kind} (isSign : Direction k) :
    productOp? k = none ∧ sumOp? k = none := by
  cases isSign <;> exact ⟨rfl, rfl⟩

theorem Recognises.take_takes {level : Level} {phrase : Phrase Expr} {follow : Kind → Prop}
    (h : Recognises level phrase follow) {us : List Token} {e : Expr} (isPhrase : phrase us e)
    (rest : List Token) (stop : follow (peek rest)) :
    Takes (level.take (us ++ rest)) e rest := by
  have read := h.complete rest isPhrase stop
  rw [Level.take]
  split
  · rename_i r rejected
    rw [read] at rejected
    cases rejected
  · rename_i p taken
    rw [read] at taken
    cases taken
    exact takes_ok

/-- The kinds with which a statement starts. -/
def opens : Kind → Bool
  | .identifier | .ecrire | .lire | .si | .tantQue | .pour => true
  | _ => false

theorem not_continues_of_opens {k : Kind} (h : opens k = true) : continues k = false := by
  cases k <;> first | rfl | cases h

theorem not_endsBlock_of_opens {k : Kind} (h : opens k = true) : endsBlock k = false := by
  cases k <;> first | rfl | cases h

theorem not_continues_of_endsBlock {k : Kind} (h : endsBlock k = true) : continues k = false := by
  cases k <;> first | rfl | cases h

theorem opens_statement {ts : List Token} {s : Stmt} (h : Statement ts s) (rest : List Token) :
    opens (peek (ts ++ rest)) = true := by
  cases h with
  | assign isName => simp [peek, opens, isName]
  | write isEcrire => simp [peek, opens, isEcrire]
  | read isLire => simp [peek, opens, isLire]
  | cond isSi => simp [peek, opens, isSi]
  | condElse isSi => simp [peek, opens, isSi]
  | loop isTantQue => simp [peek, opens, isTantQue]
  | count isPour => simp [peek, opens, isPour]

/-- Where statements may start or end, no expression goes on. -/
theorem not_continues_statements {ts : List Token} {ss : List Stmt} (h : Statements ts ss)
    {rest : List Token} (ends : endsBlock (peek rest) = true) :
    continues (peek (ts ++ rest)) = false := by
  cases h with
  | nil => exact not_continues_of_endsBlock ends
  | cons head tail =>
    rw [List.append_assoc]
    exact not_continues_of_opens (opens_statement head _)

mutual

theorem statement_takes : ∀ {ts : List Token} {s : Stmt}, Statement ts s → ∀ {rest : List Token},
    continues (peek rest) = false → Takes (statement (ts ++ rest)) s rest
  | _, _, @Statement.assign name arrow ts _ isName isArrow isValue, rest, stop => by
    show Takes (statement (name :: arrow :: (ts ++ rest))) _ rest
    rw [statement.eq_def]
    simp only [isName]
    refine (expect_takes isArrow _).bind fun _ => ?_
    exact (recognises_expression.take_takes isValue rest stop).bind fun _ => takes_ok
  | _, _, @Statement.write ecrire ts _ isEcrire isValue, rest, stop => by
    show Takes (statement (ecrire :: (ts ++ rest))) _ rest
    rw [statement.eq_def]
    simp only [isEcrire]
    exact (recognises_expression.take_takes isValue rest stop).bind fun _ => takes_ok
  | _, _, @Statement.read lire name isLire isName, rest, _ => by
    show Takes (statement (lire :: name :: rest)) _ rest
    rw [statement.eq_def]
    simp only [isLire]
    exact (expect_takes isName rest).bind fun _ => takes_ok
  | _, _, @Statement.cond si alors finSi ts us _ _ isSi isTest isAlors isYes isFinSi, rest, _ => by
    have shape : si :: (ts ++ alors :: (us ++ [finSi])) ++ rest
        = si :: (ts ++ alors :: (us ++ finSi :: rest)) := by simp
    rw [shape, statement.eq_def]
    simp only [isSi]
    -- `Alors` ends the test and `FinSi` the statements
    have stop : continues (peek (alors :: (us ++ finSi :: rest))) = false := by
      rw [peek, isAlors]
      rfl
    have ends : endsBlock (peek (finSi :: rest)) = true := by rw [peek, isFinSi]; rfl
    refine (recognises_expression.take_takes isTest _ stop).bind fun _ => ?_
    refine (expect_takes isAlors _).bind fun _ => ?_
    refine (block_takes isYes ends).bind fun _ => ?_
    simp only
    rw [if_neg (by rw [isFinSi]; decide)]
    exact (expect_takes isFinSi rest).bind fun _ => takes_ok
  | _, _, @Statement.condElse si alors sinon finSi ts us vs _ _ _ isSi isTest isAlors isYes
      isSinon isNo isFinSi, rest, _ => by
    have shape : si :: (ts ++ alors :: (us ++ sinon :: (vs ++ [finSi]))) ++ rest
        = si :: (ts ++ alors :: (us ++ sinon :: (vs ++ finSi :: rest))) := by simp
    rw [shape, statement.eq_def]
    simp only [isSi]
    have stop : continues (peek (alors :: (us ++ sinon :: (vs ++ finSi :: rest)))) = false := by
      rw [peek, isAlors]
      rfl
    have turns : endsBlock (peek (sinon :: (vs ++ finSi :: rest))) = true := by
      rw [peek, isSinon]
      rfl
    have ends : endsBlock (peek (finSi :: rest)) = true := by rw [peek, isFinSi]; rfl
    refine (recognises_expression.take_takes isTest _ stop).bind fun _ => ?_
    refine (expect_takes isAlors _).bind fun _ => ?_
    refine (block_takes isYes turns).bind fun _ => ?_
    simp only
    rw [if_pos isSinon]
    refine (block_takes isNo ends).bind fun _ => ?_
    exact (expect_takes isFinSi rest).bind fun _ => takes_ok
  | _, _, @Statement.loop tantQue fin ts us _ _ isTantQue isTest isBody isFin, rest, _ => by
    have shape : tantQue :: (ts ++ (us ++ [fin])) ++ rest
        = tantQue :: (ts ++ (us ++ fin :: rest)) := by simp
    rw [shape, statement.eq_def]
    simp only [isTantQue]
    have ends : endsBlock (peek (fin :: rest)) = true := by rw [peek, isFin]; rfl
    have stop := not_continues_statements isBody ends
    refine (recognises_expression.take_takes isTest _ stop).bind fun _ => ?_
    refine (block_takes isBody ends).bind fun _ => ?_
    exact (expect_takes isFin rest).bind fun _ => takes_ok
  | _, _, @Statement.count pour name arrow sign fin ts us vs _ _ _ isPour isName isArrow isFirst
      isSign isLast isBody isFin, rest, _ => by
    have shape : pour :: name :: arrow :: (ts ++ sign :: (us ++ (vs ++ [fin]))) ++ rest
        = pour :: name :: arrow :: (ts ++ sign :: (us ++ (vs ++ fin :: rest))) := by simp
    rw [shape, statement.eq_def]
    simp only [isPour]
    have ends : endsBlock (peek (fin :: rest)) = true := by rw [peek, isFin]; rfl
    have stop := not_continues_statements isBody ends
    refine (expect_takes isName _).bind fun _ => ?_
    refine (expect_takes isArrow _).bind fun _ => ?_
    have apart := apart_of_direction isSign
    refine (recognises_sum.take_takes isFirst (sign :: _) apart).bind fun _ => ?_
    refine (direction_takes isSign _).bind fun _ => ?_
    refine (recognises_expression.take_takes isLast _ stop).bind fun _ => ?_
    refine (block_takes isBody ends).bind fun _ => ?_
    exact (expect_takes isFin rest).bind fun _ => takes_ok

theorem block_takes : ∀ {ts : List Token} {ss : List Stmt}, Statements ts ss →
    ∀ {rest : List Token}, endsBlock (peek rest) = true → Takes (block (ts ++ rest)) ss rest
  | _, _, .nil, rest, ends => by
    rw [List.nil_append, block, if_pos ends]
    exact takes_ok
  | _, _, @Statements.cons ts us _ _ head tail, rest, ends => by
    -- the block goes on at a statement, and the next statement ends the expression of this one
    have more := not_endsBlock_of_opens (opens_statement head (us ++ rest))
    rw [List.append_assoc, block, if_neg (by rw [more]; decide)]
    refine (statement_takes head (not_continues_statements tail ends)).bind fun _ => ?_
    exact (block_takes tail ends).bind fun _ => takes_ok

end

/-! ## Programs -/

theorem program_sound (ts : List Token) : Sound ts Whole (program ts) := by
  refine (expect_sound _ _).bind ?_
  rintro _ debut r₁ - - ⟨rfl, isDebut⟩
  refine (block_sound r₁).bind ?_
  intro us body r₂ _ _ isBody
  refine (expect_sound _ _).bind ?_
  rintro _ fin r₃ - - ⟨rfl, isFin⟩
  exact .pure (by simpa using Whole.intro isDebut isBody isFin)

/-- Whatever follows a program, reading takes exactly the program. -/
theorem program_takes {us : List Token} {body : List Stmt} (h : Whole us body)
    (rest : List Token) : Takes (program (us ++ rest)) body rest := by
  obtain @⟨debut, fin, ts, body, isDebut, isBody, isFin⟩ := h
  have shape : debut :: (ts ++ [fin]) ++ rest = debut :: (ts ++ fin :: rest) := by simp
  have ends : endsBlock (peek (fin :: rest)) = true := by rw [peek, isFin]; rfl
  rw [shape, program]
  refine (expect_takes isDebut _).bind fun _ => ?_
  refine (block_takes isBody ends).bind fun _ => ?_
  exact (expect_takes isFin rest).bind fun _ => takes_ok

theorem program_takes_iff {ts rest : List Token} {body : List Stmt} :
    Takes (program ts) body rest ↔ ∃ us, ts = us ++ rest ∧ Whole us body := by
  constructor
  · rintro ⟨h, taken⟩
    have sound := program_sound ts
    rw [taken] at sound
    exact sound
  · rintro ⟨us, rfl, isWhole⟩
    exact program_takes isWhole rest

/-- A token list starts with at most one program, and that program has one tree. -/
theorem whole_unique {us us' rest rest' : List Token} {body body' : List Stmt}
    (h : Whole us body) (h' : Whole us' body') (same : us ++ rest = us' ++ rest') :
    us = us' ∧ body = body' := by
  -- both are what reading takes off the same list
  have taken := program_takes h rest
  rw [same] at taken
  obtain ⟨rfl, rfl⟩ := taken.unique (program_takes h' rest')
  exact ⟨List.append_cancel_right same, rfl⟩

end Pseudocode.Parse
