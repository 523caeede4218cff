import Pseudocode.Proofs.Tree.Succession

/-!
# Errors stand at the first impossible token

A reader decides by the tokens that it takes and by the kind of the next one, and by nothing after
it. `Judges read phrase ts` says this of a reader of phrases on the token list `ts`, for both ways
in which it can end:

* it takes a phrase, and takes it as well before any other tokens that start with the same kind;
* it rejects a token. The tokens before that one can be continued to a phrase (`Viable`), and with
  any other tokens after it the same token is rejected.

The property is closed under reading one phrase after the other (`Judges.andThen`), provided that a
first phrase can always be continued to a whole one. The readers of statements are such sequences
(`readStatement_eq_form`), so every place at which one of them can fail is covered by one of these
steps. For a whole program it says that an error stands at the first token that no program can have
there (`parse_error_at_first_impossible_token`).
-/

namespace Pseudocode.Parse

open Grammar

/-! ## What a reader decides by -/

section Readers

variable {α β : Type} {read : List Token → Reply α} {phrase : Phrase α} {phrase' : Phrase β}
  {ts us : List Token}

/-- A token of a kind, for its kind only. -/
def bare (k : Kind) : Token := { kind := k, line := 0 }

theorem kind_bare (k : Kind) : (bare k).kind = k := rfl

/-- Tokens of the given kinds. -/
def spell (ks : List Kind) : List Token := ks.map bare

/-- The tokens are the start of a phrase, and tokens other than line breaks continue it. -/
def Viable (phrase : Phrase α) (us : List Token) : Prop :=
  ∃ ks a, Kind.newline ∉ ks ∧ phrase (us ++ spell ks) a

/-- What a reader of phrases does with a token list, and why. -/
inductive Judges (read : List Token → Reply α) (phrase : Phrase α) (ts : List Token) : Prop
  | takes (us : List Token) {rest : List Token} {a : α} (split : ts = us ++ rest)
      (isPhrase : phrase us a)
      (decided : ∀ rest', peek rest' = peek rest → read (us ++ rest') = .ok (a, rest'))
  | rejects (us : List Token) {rest : List Token} (e : Expected) (split : ts = us ++ rest)
      (viable : Viable phrase us)
      (decided : ∀ rest', peek rest' = peek rest → read (us ++ rest') = .error ⟨e, rest'⟩)

/-- A token that is rejected at once, whatever follows it. -/
theorem judges_at_once (e : Expected) (viable : Viable phrase [])
    (rejected : ∀ ts', peek ts' = peek ts → read ts' = .error ⟨e, ts'⟩) : Judges read phrase ts :=
  .rejects [] e rfl viable rejected

theorem viable_of_phrase {a : α} (isPhrase : phrase us a) : Viable phrase us :=
  ⟨[], a, List.not_mem_nil, by rwa [spell, List.map_nil, List.append_nil]⟩

/-- What starts the start of a phrase starts that phrase. -/
theorem Viable.of_spell {ks : List Kind} (clean : Kind.newline ∉ ks)
    (h : Viable phrase (us ++ spell ks)) : Viable phrase us := by
  obtain ⟨ks', a, clean', isPhrase⟩ := h
  refine ⟨ks ++ ks', a, ?_, ?_⟩
  · rw [List.mem_append]
    exact not_or.mpr ⟨clean, clean'⟩
  · rwa [spell, List.map_append, ← List.append_assoc]

/-- The kind of the next token is all that shows of what comes after. -/
theorem peek_append_congr {rest rest' : List Token} (same : peek rest' = peek rest)
    (us : List Token) : peek (us ++ rest') = peek (us ++ rest) := by
  cases us with
  | nil => exact same
  | cons t us => rfl

/-- Two readers that agree wherever the next token is of the same kind judge alike. -/
theorem Judges.congr {read' : List Token → Reply α} (h : Judges read' phrase ts)
    (same : ∀ ts', peek ts' = peek ts → read ts' = read' ts') : Judges read phrase ts := by
  cases h with
  | @takes us rest a split isPhrase decided =>
    refine .takes us split isPhrase fun rest' next => ?_
    rw [same _ (split ▸ peek_append_congr next us), decided rest' next]
  | @rejects us rest e split viable decided =>
    refine .rejects us e split viable fun rest' next => ?_
    rw [same _ (split ▸ peek_append_congr next us), decided rest' next]

/-- Reads a phrase and goes on with what it was. -/
def andThen (read : List Token → Reply α) (next : α → List Token → Reply β) (ts : List Token) :
    Reply β :=
  match read ts with
  | .error r => .error r
  | .ok (a, rest) => next a rest

/-- Reads nothing. -/
def done (a : α) (ts : List Token) : Reply α := .ok (a, ts)

theorem judges_done {a : α} (isPhrase : phrase [] a) : Judges (done a) phrase ts :=
  .takes [] rfl isPhrase fun _ _ => rfl

/-- One phrase after the other. What was taken before a rejection in the first phrase starts a whole
one, because the first phrase can be completed and then continued; in the second, because the first
one was taken. -/
theorem Judges.andThen {next : α → List Token → Reply β} (first : Judges read phrase ts)
    (continued : ∀ us a, phrase us a → Viable phrase' us)
    (second : ∀ us a rest, ts = us ++ rest → phrase us a →
      Judges (next a) (fun vs b => phrase' (us ++ vs) b) rest) :
    Judges (andThen read next) phrase' ts := by
  cases first with
  | @rejects us rest e split viable decided =>
    obtain ⟨ks, a, clean, isPhrase⟩ := viable
    refine .rejects us e split ((continued _ a isPhrase).of_spell clean) fun rest' same => ?_
    rw [Parse.andThen, decided rest' same]
  | @takes us rest a split isPhrase decided =>
    -- the first phrase is taken whatever the second reader leaves, since that starts alike
    have read_us : ∀ vs rest₂ rest', rest = vs ++ rest₂ → peek rest' = peek rest₂ →
        Parse.andThen read next (us ++ vs ++ rest') = next a (vs ++ rest') := by
      intro vs rest₂ rest' split₂ same
      have taken := decided (vs ++ rest') (split₂ ▸ peek_append_congr same vs)
      rw [Parse.andThen, List.append_assoc, taken]
    cases second us a rest split isPhrase with
    | @takes vs rest₂ b split₂ isWhole decided₂ =>
      refine .takes (us ++ vs) (by rw [split, split₂, List.append_assoc]) isWhole ?_
      intro rest' same
      rw [read_us vs rest₂ rest' split₂ same, decided₂ rest' same]
    | @rejects vs rest₂ e split₂ viable decided₂ =>
      obtain ⟨ks, b, clean, isWhole⟩ := viable
      have viable' : Viable phrase' (us ++ vs) :=
        ⟨ks, b, clean, by rwa [List.append_assoc]⟩
      have split' : ts = us ++ vs ++ rest₂ := by rw [split, split₂, List.append_assoc]
      refine .rejects (us ++ vs) e split' viable' fun rest' same => ?_
      rw [read_us vs rest₂ rest' split₂ same, decided₂ rest' same]

/-- A phrase that completes the whole one. -/
theorem Judges.andDone {f : α → β} (last : Judges read phrase ts)
    (whole : ∀ us a, phrase us a → phrase' us (f a)) :
    Judges (Parse.andThen read fun a => done (f a)) phrase' ts := by
  refine last.andThen (fun us a isPhrase => ?_) (fun us a rest _ isPhrase => ?_)
  · exact viable_of_phrase (whole us a isPhrase)
  · exact judges_done (by simpa using whole us a isPhrase)

end Readers

/-! ## Expressions -/

/-- One token of a kind. -/
def One (k : Kind) : Phrase Token := fun us t => us = [t] ∧ t.kind = k

/-- Takes one token of the wanted kind. -/
def wanted (k : Kind) : List Token → Reply Token
  | [] => .error ⟨.kind k, []⟩
  | t :: rest => if t.kind = k then .ok (t, rest) else .error ⟨.kind k, t :: rest⟩

theorem wanted_of_peek_ne {k : Kind} {ts : List Token} (other : peek ts ≠ k) :
    wanted k ts = .error ⟨.kind k, ts⟩ := by
  cases ts with
  | nil => rfl
  | cons t rest => exact if_neg other

theorem eq_cons_of_peek {k : Kind} (more : k ≠ .eof) {ts : List Token} (next : peek ts = k) :
    ∃ t rest, ts = t :: rest ∧ t.kind = k := by
  cases ts with
  | nil => exact absurd next.symm more
  | cons t rest => exact ⟨t, rest, rfl, next⟩

theorem wanted_judges {k : Kind} (plain : k ≠ .eof ∧ k ≠ .newline) (ts : List Token) :
    Judges (wanted k) (One k) ts := by
  by_cases next : peek ts = k
  · obtain ⟨t, rest, rfl, kind⟩ := eq_cons_of_peek plain.1 next
    exact .takes [t] rfl ⟨rfl, kind⟩ fun rest' _ => if_pos kind
  · refine judges_at_once (.kind k) ⟨[k], _, by simpa using plain.2.symm, rfl, rfl⟩ ?_
    intro ts' same
    exact wanted_of_peek_ne (same ▸ next)

/-- A token of one kind, and what comes after it. -/
theorem judges_token {β : Type} {k : Kind} {phrase : Phrase β}
    {next : Token → List Token → Reply β} {ts : List Token} (plain : k ≠ .eof ∧ k ≠ .newline)
    (continued : ∀ t, t.kind = k → Viable phrase [t])
    (second : ∀ t rest, ts = t :: rest → t.kind = k →
      Judges (next t) (fun vs b => phrase (t :: vs) b) rest) :
    Judges (andThen (wanted k) next) phrase ts := by
  refine (wanted_judges plain ts).andThen ?_ ?_
  · rintro _ t ⟨rfl, kind⟩
    exact continued t kind
  · rintro _ t rest split ⟨rfl, kind⟩
    exact second t rest split kind

/-- A token of one kind that completes the whole phrase. -/
theorem judges_last_token {β : Type} {k : Kind} {phrase : Phrase β} {f : Token → β}
    (plain : k ≠ .eof ∧ k ≠ .newline) (whole : ∀ t, t.kind = k → phrase [t] (f t))
    (ts : List Token) : Judges (andThen (wanted k) fun t => done (f t)) phrase ts := by
  refine (wanted_judges plain ts).andDone ?_
  rintro _ t ⟨rfl, kind⟩
  exact whole t kind

theorem sum_number : Sum (spell [.number]) (.num 0) := .one (.one (.number rfl))

theorem expression_number : Expression (spell [.number]) (.num 0) :=
  .one (.one (.one sum_number))

/-- An expression starts with a literal, a name or a minus sign. -/
theorem primary_eq_error {ts : List Token} (number : peek ts ≠ .number)
    (string : peek ts ≠ .string) (name : peek ts ≠ .identifier) (minus : peek ts ≠ .minus) :
    primary ts = .error ⟨.expression, ts⟩ := by
  cases ts with
  | nil => rfl
  | cons t rest =>
    rw [primary]
    split
    · exact absurd ‹_› number
    · exact absurd ‹_› string
    · exact absurd ‹_› name
    · exact absurd ‹_› minus
    · rfl

theorem judges_negation {t : Token} {rest : List Token} (kind : t.kind = .minus)
    (operand : Judges primary Primary rest) : Judges primary Primary (t :: rest) := by
  have sequence : Judges (andThen (wanted .minus) fun t => andThen primary fun e =>
      done (.bin .sub (.num 0) e t.line)) Primary (t :: rest) := by
    refine judges_token (by decide) (fun t isMinus => ?_) (fun t rest' split isMinus => ?_)
    · exact ⟨[.number], _, by decide, .minus isMinus (.number rfl)⟩
    · cases split
      exact operand.andDone fun us e isOperand => .minus isMinus isOperand
  refine sequence.congr fun ts' next => ?_
  obtain ⟨t', rest', rfl, isMinus⟩ := eq_cons_of_peek (by decide) (next.trans kind)
  simp only [primary, andThen, wanted, isMinus, if_true]
  cases primary rest' <;> rfl

theorem primary_judges (ts : List Token) : Judges primary Primary ts := by
  fun_induction primary ts with
  | case1 =>
    refine judges_at_once .expression ⟨[.number], _, by decide, .number rfl⟩ fun ts' same => ?_
    apply primary_eq_error <;> rw [same] <;> decide
  | case2 t rest kind =>
    exact .takes [t] rfl (.number kind) fun rest' _ => by simp [primary, kind]
  | case3 t rest kind =>
    exact .takes [t] rfl (.string kind) fun rest' _ => by simp [primary, kind]
  | case4 t rest kind =>
    exact .takes [t] rfl (.name kind) fun rest' _ => by simp [primary, kind]
  | case5 t rest kind r rejected ih => exact judges_negation kind ih
  | case6 t rest kind operand rest' taken ih => exact judges_negation kind ih
  | case7 t rest number string name minus =>
    refine judges_at_once .expression ⟨[.number], _, by decide, .number rfl⟩ fun ts' same => ?_
    exact primary_eq_error (same ▸ number) (same ▸ string) (same ▸ name) (same ▸ minus)

/-- A first token that can be rejected shows that there is a phrase at all. -/
theorem Judges.viable_nil {α : Type} {read : List Token → Reply α} {phrase : Phrase α}
    (h : Judges read phrase []) : Viable phrase [] := by
  cases h with
  | takes us split isPhrase =>
    obtain ⟨rfl, -⟩ := List.append_eq_nil_iff.mp split.symm
    exact viable_of_phrase isPhrase
  | rejects us e split viable =>
    obtain ⟨rfl, -⟩ := List.append_eq_nil_iff.mp split.symm
    exact viable

section Levels

variable {operand : Level} {phrase whole : Phrase Expr} {op? : Kind → Option Op}
  {operator : Kind → Op → Prop} {op : Op} {left : Expr} {ts : List Token}

/-- The operators of a level, as a table and as a relation. The end of file and line breaks are
none. -/
structure Operators (op? : Kind → Option Op) (operator : Kind → Op → Prop) : Prop where
  table : ∀ k op, op? k = some op ↔ operator k op
  atEnd : op? .eof = none
  atBreak : op? .newline = none

/-- An operator and its right operand, followed by what the joined expression may be followed by. -/
theorem judges_right (h : ∀ ts, Judges operand.read phrase ts) {k : Kind}
    (plain : k ≠ .eof ∧ k ≠ .newline) {next : Token → Expr → List Token → Reply Expr}
    (joined : ∀ t vs right, t.kind = k → phrase vs right → ∃ e, whole (t :: vs) e)
    (goesOn : ∀ t vs right rest, ts = t :: (vs ++ rest) → t.kind = k → phrase vs right →
      Judges (next t right) (fun ws e => whole (t :: (vs ++ ws)) e) rest) :
    Judges (andThen (wanted k) fun t => andThen operand.read (next t)) whole ts := by
  refine judges_token plain (fun t kind => ?_) (fun t rest split kind => ?_)
  · obtain ⟨ks, right, clean, isRight⟩ := (h []).viable_nil
    obtain ⟨e, isWhole⟩ := joined t _ right kind isRight
    exact ⟨ks, e, clean, isWhole⟩
  · refine (h rest).andThen (fun vs right isRight => ?_) (fun vs right rest' split' isRight => ?_)
    · obtain ⟨e, isWhole⟩ := joined t vs right kind isRight
      exact viable_of_phrase isWhole
    · exact goesOn t vs right rest' (by rw [split, split']) kind isRight

/-- A chain goes on at an operator of its level with one operand more. -/
theorem chain_of_some (ops : Operators op? operator) (sign : op? (peek ts) = some op) :
    operand.chain op? left ts = andThen (wanted (peek ts)) (fun t => andThen operand.read
      fun right => operand.chain op? (.bin op left right t.line)) ts := by
  cases ts with
  | nil => rw [peek, ops.atEnd] at sign; cases sign
  | cons t rest =>
    rw [peek] at sign
    rw [Level.chain, sign, andThen, peek, wanted, if_pos rfl]
    simp only [andThen]
    split <;> rename_i read <;> rw [read]

theorem Operators.ne_of_some (ops : Operators op? operator) {k : Kind} (sign : op? k = some op) :
    k ≠ .eof ∧ k ≠ .newline := by
  constructor
  · rintro rfl
    rw [ops.atEnd] at sign
    cases sign
  · rintro rfl
    rw [ops.atBreak] at sign
    cases sign

theorem chain_judges (h : ∀ ts, Judges operand.read phrase ts) (ops : Operators op? operator)
    {us : List Token} (before : LeftAssoc phrase operator us left) (ts : List Token) :
    Judges (operand.chain op? left) (fun vs e => LeftAssoc phrase operator (us ++ vs) e) ts := by
  induction size : ts.length using Nat.strongRecOn generalizing left us ts with
  | ind n ih =>
    cases sign : op? (peek ts) with
    | none =>
      refine .takes [] rfl (by rwa [List.append_nil]) fun rest' same => ?_
      exact chain_of_none (same ▸ sign)
    | some op =>
      have plain := ops.ne_of_some sign
      have isSign := (ops.table _ _).mp sign
      refine Judges.congr ?_ fun ts' same => same ▸ chain_of_some ops (same ▸ sign)
      refine judges_right h plain ?_ ?_
      · intro t vs right kind isRight
        exact ⟨_, before.more (kind ▸ isSign) isRight⟩
      · intro t vs right rest split kind isRight
        -- what follows is read with one operand more before it
        have joined := before.more (kind ▸ isSign) isRight
        have shorter : rest.length < n := by
          rw [← size, split, List.length_cons, List.length_append]
          omega
        simpa using ih rest.length shorter joined rest rfl

theorem leftAssoc_judges (h : ∀ ts, Judges operand.read phrase ts) (ops : Operators op? operator)
    (ts : List Token) :
    Judges (operand.leftAssoc op?).read (LeftAssoc phrase operator) ts := by
  have sequence : Judges (andThen operand.read (operand.chain op?)) (LeftAssoc phrase operator)
      ts := by
    refine (h ts).andThen (fun us e only => ?_) (fun us e rest _ only => ?_)
    · exact viable_of_phrase (.one only)
    · exact chain_judges h ops (.one only) rest
  refine sequence.congr fun ts' _ => ?_
  simp only [Level.leftAssoc, andThen]
  cases operand.read ts' <;> rfl

/-- The second operand of a level that joins at most two, if there is one. -/
def Level.second (operand : Level) (op? : Kind → Option Op) (left : Expr) (ts : List Token) :
    Reply Expr :=
  match op? (peek ts) with
  | none => .ok (left, ts)
  | some op => andThen (wanted (peek ts)) (fun t => andThen operand.read
      fun right => done (.bin op left right t.line)) ts

theorem atMostOnce_read (ops : Operators op? operator) (ts : List Token) :
    (operand.atMostOnce op?).read ts = andThen operand.read (operand.second op?) ts := by
  simp only [Level.atMostOnce, andThen]
  split
  · rename_i read
    rw [read]
  · rename_i read
    simp only [read, Level.second, peek, ops.atEnd]
  · rename_i left t rest read
    simp only [read, Level.second, peek, andThen, wanted, if_true]
    cases op? t.kind with
    | none => rfl
    | some op => cases operand.read rest <;> rfl

theorem second_judges (h : ∀ ts, Judges operand.read phrase ts) (ops : Operators op? operator)
    {us : List Token} (before : phrase us left) (ts : List Token) :
    Judges (operand.second op? left) (fun vs e => AtMostOnce phrase operator (us ++ vs) e) ts := by
  cases sign : op? (peek ts) with
  | none =>
    refine .takes [] rfl (by rw [List.append_nil]; exact .one before) fun rest' same => ?_
    rw [List.nil_append, Level.second, same, sign]
  | some op =>
    have plain := ops.ne_of_some sign
    have isSign := (ops.table _ _).mp sign
    refine Judges.congr ?_ fun ts' same => by rw [Level.second, same, sign]
    refine judges_right h plain ?_ ?_
    · intro t vs right kind isRight
      exact ⟨_, .two before (kind ▸ isSign) isRight⟩
    · intro t vs right rest split kind isRight
      exact judges_done (by simpa using AtMostOnce.two before (kind ▸ isSign) isRight)

theorem atMostOnce_judges (h : ∀ ts, Judges operand.read phrase ts) (ops : Operators op? operator)
    (ts : List Token) :
    Judges (operand.atMostOnce op?).read (AtMostOnce phrase operator) ts := by
  have sequence : Judges (andThen operand.read (operand.second op?)) (AtMostOnce phrase operator)
      ts := by
    refine (h ts).andThen (fun us e only => ?_) (fun us e rest _ only => ?_)
    · exact viable_of_phrase (.one only)
    · exact second_judges h ops only rest
  exact sequence.congr fun ts' _ => atMostOnce_read ops ts'

end Levels

theorem sum_judges : ∀ ts, Judges sum.read Sum ts :=
  leftAssoc_judges (leftAssoc_judges primary_judges ⟨productOp?_iff, rfl, rfl⟩)
    ⟨sumOp?_iff, rfl, rfl⟩

theorem expression_judges : ∀ ts, Judges expression.read Expression ts :=
  leftAssoc_judges (leftAssoc_judges (atMostOnce_judges sum_judges ⟨comparisonOp?_iff, rfl, rfl⟩)
    ⟨andOp?_iff, rfl, rfl⟩) ⟨orOp?_iff, rfl, rfl⟩

/-! ## Readers of statements as sequences -/

section Replies

variable {α β : Type} {P : α × List Token → Prop} {Q : β × List Token → Prop}

/-- What a reader returns, without the bound on what it leaves. -/
def reply (x : Except Reject { p : α × List Token // P p }) : Reply α :=
  match x with
  | .error r => .error r
  | .ok p => .ok p.1

theorem reply_bind {x : Except Reject { p : α × List Token // P p }}
    {f : { p : α × List Token // P p } → Except Reject { p : β × List Token // Q p }}
    {read : List Token → Reply α} {next : α → List Token → Reply β} {ts : List Token}
    (first : reply x = read ts) (second : ∀ a rest h, reply (f ⟨(a, rest), h⟩) = next a rest) :
    reply (x >>= f) = andThen read next ts := by
  rw [andThen, ← first]
  cases x with
  | error r => rfl
  | ok p => exact second p.1.1 p.1.2 p.2

end Replies

theorem reply_eq_error {α : Type} {P : α × List Token → Prop} {r : Reject}
    {x : Except Reject { p : α × List Token // P p }} : reply x = .error r ↔ x = .error r := by
  cases x <;> simp [reply]

/-- A reader that leaves fewer tokens than there were says so in its type. -/
theorem length_lt_of_reply {α : Type} {ts rest : List Token} {a : α} {x : Shorter α ts}
    (read : reply x = .ok (a, rest)) : rest.length < ts.length := by
  cases x with
  | error r => cases read
  | ok p =>
    have shorter := p.2
    rwa [Except.ok.inj read] at shorter

theorem reply_expect (k : Kind) (ts : List Token) : reply (expect k ts) = wanted k ts := by
  cases ts with
  | nil => rfl
  | cons t rest =>
    rw [expect, wanted]
    split <;> rfl

theorem reply_take (level : Level) (ts : List Token) : reply (level.take ts) = level.read ts := by
  rw [Level.take]
  split <;> rename_i read <;> exact read.symm

/-- Takes the sign between the bounds of a counted loop. -/
def readDirection (ts : List Token) : Reply Unit := reply (direction ts)

theorem readDirection_cons (t : Token) (rest : List Token) :
    readDirection (t :: rest)
      = if isDirection t.kind then .ok ((), rest) else .error ⟨.direction, t :: rest⟩ := by
  rw [readDirection, direction]
  split <;> rfl

def readBlock (ts : List Token) : Reply (List Stmt) := reply (block ts)

def readStatement (ts : List Token) : Reply Stmt := reply (statement ts)

/-- What may follow the first branch of a conditional. -/
def readOtherwise (test : Expr) (yes : List Stmt) (line : Int) (ts : List Token) : Reply Stmt :=
  if peek ts = .sinon then
    andThen (wanted .sinon) (fun _ => andThen readBlock fun no => andThen (wanted .finSi) fun _ =>
      done (.cond test yes (some no) line)) ts
  else andThen (wanted .finSi) (fun _ => done (.cond test yes none line)) ts

/-- A statement as the sequence of what it is made of, by the kind of its first token. -/
def form : Kind → List Token → Reply Stmt
  | .identifier =>
    andThen (wanted .identifier) fun name => andThen (wanted .assign) fun _ =>
    andThen expression.read fun value => done (.assign name.text value name.line)
  | .ecrire =>
    andThen (wanted .ecrire) fun t => andThen expression.read fun value =>
    done (.write value t.line)
  | .lire =>
    andThen (wanted .lire) fun t => andThen (wanted .identifier) fun name =>
    done (.read name.text t.line)
  | .si =>
    andThen (wanted .si) fun t => andThen expression.read fun test =>
    andThen (wanted .alors) fun _ => andThen readBlock fun yes => readOtherwise test yes t.line
  | .tantQue =>
    andThen (wanted .tantQue) fun t => andThen expression.read fun test =>
    andThen readBlock fun body => andThen (wanted .finTantQue) fun _ =>
    done (.loop test body t.line)
  | .pour =>
    andThen (wanted .pour) fun t => andThen (wanted .identifier) fun name =>
    andThen (wanted .assign) fun _ => andThen sum.read fun first =>
    andThen readDirection fun _ => andThen expression.read fun last =>
    andThen readBlock fun body => andThen (wanted .finPour) fun _ =>
    done (.count name.text first last body t.line)
  | _ => fun ts => .error ⟨.statement, ts⟩

theorem andThen_wanted {β : Type} {k : Kind} {t : Token} (kind : t.kind = k)
    (next : Token → List Token → Reply β) (rest : List Token) :
    andThen (wanted k) next (t :: rest) = next t rest := by
  rw [andThen, wanted, if_pos kind]

theorem readStatement_eq_form (ts : List Token) : readStatement ts = form (peek ts) ts := by
  cases ts with
  | nil =>
    rw [readStatement, statement]
    rfl
  | cons t rest =>
    rw [readStatement, statement.eq_def, peek]
    simp only
    split <;> rename_i kind
    · rw [kind, form, andThen_wanted kind]
      refine reply_bind (reply_expect _ _) fun _ r₁ _ => ?_
      exact reply_bind (reply_take _ _) fun _ _ _ => rfl
    · rw [kind, form, andThen_wanted kind]
      exact reply_bind (reply_take _ _) fun _ _ _ => rfl
    · rw [kind, form, andThen_wanted kind]
      exact reply_bind (reply_expect _ _) fun _ _ _ => rfl
    · rw [kind, form, andThen_wanted kind]
      refine reply_bind (reply_take _ _) fun test r₁ _ => ?_
      refine reply_bind (reply_expect _ _) fun _ r₂ _ => ?_
      refine reply_bind rfl fun yes r₃ _ => ?_
      cases r₃ with
      | nil => rfl
      | cons u r₄ =>
        simp only
        rw [readOtherwise, peek]
        by_cases isSinon : u.kind = .sinon
        · rw [if_pos isSinon, if_pos isSinon, andThen_wanted isSinon]
          refine reply_bind rfl fun no r₅ _ => ?_
          exact reply_bind (reply_expect _ _) fun _ _ _ => rfl
        · rw [if_neg isSinon, if_neg isSinon]
          exact reply_bind (reply_expect _ _) fun _ _ _ => rfl
    · rw [kind, form, andThen_wanted kind]
      refine reply_bind (reply_take _ _) fun test r₁ _ => ?_
      refine reply_bind rfl fun body r₂ _ => ?_
      exact reply_bind (reply_expect _ _) fun _ _ _ => rfl
    · rw [kind, form, andThen_wanted kind]
      refine reply_bind (reply_expect _ _) fun name r₁ _ => ?_
      refine reply_bind (reply_expect _ _) fun _ r₂ _ => ?_
      refine reply_bind (reply_take _ _) fun first r₃ _ => ?_
      refine reply_bind rfl fun _ r₄ _ => ?_
      refine reply_bind (reply_take _ _) fun last r₅ _ => ?_
      refine reply_bind rfl fun body r₆ _ => ?_
      exact reply_bind (reply_expect _ _) fun _ _ _ => rfl
    · rw [form]
      · rfl
      all_goals assumption

theorem readBlock_of_ends {ts : List Token} (ends : endsBlock (peek ts) = true) :
    readBlock ts = .ok ([], ts) := by
  rw [readBlock, block, if_pos ends]
  rfl

theorem readBlock_of_more {ts : List Token} (more : endsBlock (peek ts) = false) :
    readBlock ts
      = andThen readStatement (fun s => andThen readBlock fun ss => done (s :: ss)) ts := by
  rw [readBlock, block, if_neg (by rw [more]; decide)]
  refine reply_bind rfl fun s rest _ => ?_
  exact reply_bind rfl fun _ _ _ => rfl

theorem reply_program (ts : List Token) : reply (program ts) =
    andThen (wanted .debut) (fun _ => andThen readBlock fun body => andThen (wanted .fin) fun _ =>
      done body) ts := by
  rw [program]
  refine reply_bind (reply_expect _ _) fun _ r₁ _ => ?_
  refine reply_bind rfl fun body r₂ _ => ?_
  exact reply_bind (reply_expect _ _) fun _ _ _ => rfl

/-! ## Statements and programs -/

theorem direction_judges (ts : List Token) :
    Judges readDirection (fun us _ => ∃ t, us = [t] ∧ Direction t.kind) ts := by
  cases sign : isDirection (peek ts) with
  | true =>
    have more : peek ts ≠ .eof := by
      intro next
      rw [next] at sign
      cases sign
    obtain ⟨t, rest, rfl, -⟩ := eq_cons_of_peek more rfl
    have isSign : isDirection t.kind = true := sign
    refine .takes [t] (a := ()) rfl ⟨t, rfl, ?_⟩ fun rest' _ => ?_
    · cases kind : t.kind <;> rw [kind] at isSign <;> first | constructor | cases isSign
    · rw [List.singleton_append, readDirection, direction, if_pos isSign]
      rfl
  | false =>
    refine judges_at_once .direction ⟨[.lessEq], (), by decide, _, rfl, .lessEq⟩ fun ts' same => ?_
    cases ts' with
    | nil => rfl
    | cons t rest =>
      have noSign : isDirection t.kind = false := by rw [← sign, ← same]; rfl
      rw [readDirection, direction, if_neg (by rw [noSign]; decide)]
      rfl

theorem length_pos_of_statement {ts : List Token} {s : Stmt} (h : Statement ts s) :
    0 < ts.length := by
  cases h <;> exact Nat.succ_pos _

mutual

theorem block_judges (ts : List Token) : Judges readBlock Statements ts := by
  cases ends : endsBlock (peek ts) with
  | true => exact .takes [] rfl .nil fun rest' same => readBlock_of_ends (same ▸ ends)
  | false =>
    refine Judges.congr ?_ fun ts' same => readBlock_of_more (same ▸ ends)
    refine (statement_judges ts).andThen (fun us s isStatement => ?_) ?_
    · exact viable_of_phrase (by simpa using Statements.cons isStatement .nil)
    · intro us s rest split isStatement
      have shorter : rest.length < ts.length := by
        have := length_pos_of_statement isStatement
        simp [split]
        omega
      exact (block_judges rest).andDone fun vs ss isBlock => .cons isStatement isBlock
termination_by (ts.length, 1)

theorem statement_judges (ts : List Token) : Judges readStatement Statement ts := by
  have byForm : ∀ ts', peek ts' = peek ts → readStatement ts' = form (peek ts) ts' :=
    fun ts' same => by rw [readStatement_eq_form, same]
  refine Judges.congr ?_ byForm
  unfold form
  split
  · refine judges_token (by decide) (fun name isName => ?_) (fun name r₁ _ isName => ?_)
    · exact ⟨[.assign, .number], _, by decide, .assign isName rfl expression_number⟩
    refine judges_token (by decide) (fun arrow isArrow => ?_) (fun arrow r₂ _ isArrow => ?_)
    · exact ⟨[.number], _, by decide, .assign isName isArrow expression_number⟩
    exact (expression_judges r₂).andDone fun us value isValue => .assign isName isArrow isValue
  · refine judges_token (by decide) (fun t isEcrire => ?_) (fun t r₁ _ isEcrire => ?_)
    · exact ⟨[.number], _, by decide, .write isEcrire expression_number⟩
    exact (expression_judges r₁).andDone fun us value isValue => .write isEcrire isValue
  · refine judges_token (by decide) (fun t isLire => ?_) (fun t r₁ _ isLire => ?_)
    · exact ⟨[.identifier], _, by decide, .read isLire rfl⟩
    exact judges_last_token (by decide) (fun name isName => .read isLire isName) r₁
  · refine judges_token (by decide) (fun t isSi => ?_) (fun t r₁ split₁ isSi => ?_)
    · exact ⟨[.number, .alors, .finSi], _, by decide, .cond isSi expression_number rfl .nil rfl⟩
    refine (expression_judges r₁).andThen (fun us test isTest => ?_) ?_
    · exact ⟨[.alors, .finSi], _, by decide, .cond isSi isTest rfl .nil rfl⟩
    intro us test r₂ split₂ isTest
    refine judges_token (by decide) (fun alors isAlors => ?_) (fun alors r₃ split₃ isAlors => ?_)
    · exact ⟨[.finSi], _, by decide, .cond isSi isTest isAlors .nil rfl⟩
    refine (block_judges r₃).andThen (fun vs yes isYes => ?_) ?_
    · exact ⟨[.finSi], _, by decide, .cond isSi isTest isAlors isYes rfl⟩
    intro vs yes r₄ split₄ isYes
    by_cases next : peek r₄ = .sinon
    · refine Judges.congr ?_ fun ts' same => if_pos (same.trans next)
      refine judges_token (by decide) (fun sinon isSinon => ?_) (fun sinon r₅ split₅ isSinon => ?_)
      · exact ⟨[.finSi], _, by decide, .condElse isSi isTest isAlors isYes isSinon .nil rfl⟩
      refine (block_judges r₅).andThen (fun ws no isNo => ?_) (fun ws no r₆ _ isNo => ?_)
      · exact ⟨[.finSi], _, by decide, .condElse isSi isTest isAlors isYes isSinon isNo rfl⟩
      refine judges_last_token (by decide) (fun finSi isFinSi => ?_) r₆
      exact .condElse isSi isTest isAlors isYes isSinon isNo isFinSi
    · refine Judges.congr ?_ fun ts' same => if_neg (same ▸ next)
      refine judges_last_token (by decide) (fun finSi isFinSi => ?_) r₄
      exact .cond isSi isTest isAlors isYes isFinSi
  · refine judges_token (by decide) (fun t isTantQue => ?_) (fun t r₁ split₁ isTantQue => ?_)
    · exact ⟨[.number, .finTantQue], _, by decide, .loop isTantQue expression_number .nil rfl⟩
    refine (expression_judges r₁).andThen (fun us test isTest => ?_) ?_
    · exact ⟨[.finTantQue], _, by decide, .loop isTantQue isTest .nil rfl⟩
    intro us test r₂ split₂ isTest
    refine (block_judges r₂).andThen (fun vs body isBody => ?_) (fun vs body r₃ _ isBody => ?_)
    · exact ⟨[.finTantQue], _, by decide, .loop isTantQue isTest isBody rfl⟩
    refine judges_last_token (by decide) (fun finTantQue isFin => ?_) r₃
    exact .loop isTantQue isTest isBody isFin
  · refine judges_token (by decide) (fun t isPour => ?_) (fun t r₁ split₁ isPour => ?_)
    · exact ⟨[.identifier, .assign, .number, .lessEq, .number, .finPour], _, by decide,
        .count isPour rfl rfl sum_number .lessEq expression_number .nil rfl⟩
    refine judges_token (by decide) (fun name isName => ?_) (fun name r₂ split₂ isName => ?_)
    · exact ⟨[.assign, .number, .lessEq, .number, .finPour], _, by decide,
        .count isPour isName rfl sum_number .lessEq expression_number .nil rfl⟩
    refine judges_token (by decide) (fun arrow isArrow => ?_) (fun arrow r₃ split₃ isArrow => ?_)
    · exact ⟨[.number, .lessEq, .number, .finPour], _, by decide,
        .count isPour isName isArrow sum_number .lessEq expression_number .nil rfl⟩
    refine (sum_judges r₃).andThen (fun us first isFirst => ?_) ?_
    · exact ⟨[.lessEq, .number, .finPour], _, by decide,
        .count isPour isName isArrow isFirst .lessEq expression_number .nil rfl⟩
    intro us first r₄ split₄ isFirst
    refine (direction_judges r₄).andThen ?_ ?_
    · rintro _ - ⟨sign, rfl, isSign⟩
      exact ⟨[.number, .finPour], _, by decide,
        .count isPour isName isArrow isFirst isSign expression_number .nil rfl⟩
    rintro _ - r₅ split₅ ⟨sign, rfl, isSign⟩
    refine (expression_judges r₅).andThen (fun vs last isLast => ?_) ?_
    · have whole := Statement.count isPour isName isArrow isFirst isSign isLast .nil (kind_bare _)
      exact ⟨[.finPour], _, by decide, whole⟩
    intro vs last r₆ split₆ isLast
    refine (block_judges r₆).andThen (fun ws body isBody => ?_) (fun ws body r₇ _ isBody => ?_)
    · exact ⟨[.finPour], _, by decide,
        .count isPour isName isArrow isFirst isSign isLast isBody rfl⟩
    refine judges_last_token (by decide) (fun finPour isFin => ?_) r₇
    exact .count isPour isName isArrow isFirst isSign isLast isBody isFin
  · have some_statement : Viable Statement [] := ⟨[.lire, .identifier], _, by decide, .read rfl rfl⟩
    exact judges_at_once .statement some_statement fun _ _ => rfl
termination_by (ts.length, 0)

end

theorem program_judges (ts : List Token) : Judges (fun ts => reply (program ts)) Whole ts := by
  refine Judges.congr ?_ fun ts' _ => reply_program ts'
  refine judges_token (by decide) (fun debut isDebut => ?_) (fun debut r₁ _ isDebut => ?_)
  · exact ⟨[.fin], _, by decide, .intro isDebut .nil rfl⟩
  refine (block_judges r₁).andThen (fun us body isBody => ?_) (fun us body r₂ _ isBody => ?_)
  · exact ⟨[.fin], _, by decide, .intro isDebut isBody rfl⟩
  exact judges_last_token (by decide) (fun fin isFin => .intro isDebut isBody isFin) r₂

/-! ## Streams -/

namespace Stream

variable {s : Stream}

/-- A stream over tokens that start with `us` and then `t` comes, after `us`, to a token of the kind
of `t`. If `t` is the last one of the stream, that is the end of the file. -/
theorem exists_rest_of_starts (closed : s.final.kind = .eof) {us later : List Token} {t : Token}
    (starts : s.remaining = us ++ t :: later) :
    ∃ rest, s.rest = us ++ rest ∧ peek rest = t.kind := by
  rw [remaining] at starts
  rcases List.eq_nil_or_concat later with rfl | ⟨front, last, rfl⟩
  · obtain ⟨rest, final⟩ := List.append_inj' starts rfl
    cases final
    exact ⟨[], by rw [rest, List.append_nil], closed.symm⟩
  · rw [List.concat_eq_append, ← List.cons_append, ← List.append_assoc] at starts
    obtain ⟨rest, -⟩ := List.append_inj' starts rfl
    exact ⟨t :: front, rest, rfl⟩

theorem filter_of_clean {us : List Token} (clean : ∀ t ∈ us, t.kind ≠ .newline) :
    us.filter (·.kind ≠ .newline) = us := by
  rw [List.filter_eq_self]
  intro t member
  simpa using clean t member

/-- A stream over tokens that start without line breaks starts with the same tokens. -/
theorem remaining_ofTokens_append {us : List Token} (clean : ∀ t ∈ us, t.kind ≠ .newline)
    (later : List Token) :
    ∃ later', (ofTokens (us ++ later)).remaining = us ++ later' := by
  rw [remaining_ofTokens, meaningful, List.filter_append, filter_of_clean clean]
  split
  · exact ⟨_, rfl⟩
  · exact ⟨_, List.append_assoc ..⟩

theorem exists_ok_of_whole (closed : s.final.kind = .eof) {us rest : List Token}
    {body : List Stmt} (starts : s.remaining = us ++ rest) (isWhole : Whole us body) :
    ∃ p, s.parse.1 = .ok p := by
  rcases result : s.parse with ⟨e | p, s'⟩
  · have noProgram := (parse_eq_error_iff closed).mp ⟨e, s', result⟩
    exact absurd ⟨us, rest, body, starts, isWhole⟩ noProgram
  · exact ⟨p, rfl⟩

theorem parse_of_rejected {r : Reject} (rejected : program s.rest = .error r) :
    s.parse.1 = .error (s.error r) := by
  rw [parse, rejected]

/-- An error stands at a token `u` of the stream. What comes before it starts a program, and no
stream that starts with the same tokens and then `u` is parsed. -/
theorem parse_eq_error (closed : s.final.kind = .eof) {e : SyntaxError}
    (failed : s.parse.1 = .error e) :
    ∃ us u later, s.remaining = us ++ u :: later ∧ e.line = u.line ∧ e.got = u.kind ∧
      Viable Whole us ∧
      ∀ (s' : Stream) (later' : List Token), s'.final.kind = .eof →
        s'.remaining = us ++ u :: later' → ∀ p, s'.parse.1 ≠ .ok p := by
  rcases result : program s.rest with r | taken
  · rw [parse_of_rejected result] at failed
    cases failed
    cases program_judges s.rest with
    | takes us split isWhole decided =>
      -- reading would have returned what it takes
      have taken := decided _ rfl
      rw [← split, result] at taken
      cases taken
    | @rejects us rest expected split viable decided =>
      have here : reply (program s.rest) = .error ⟨expected, rest⟩ := split ▸ decided rest rfl
      rw [result] at here
      cases here
      have hopeless : ∀ (s' : Stream) (u : Token) (later' : List Token), u.kind = peek rest →
          s'.final.kind = .eof → s'.remaining = us ++ u :: later' → ∀ p, s'.parse.1 ≠ .ok p := by
        intro s' u later' same closed' starts p accepted
        obtain ⟨rest', split', next⟩ := exists_rest_of_starts closed' starts
        have rejected : program s'.rest = .error ⟨expected, rest'⟩ := by
          rw [split']
          exact reply_eq_error.mp (decided rest' (next.trans same))
        rw [parse_of_rejected rejected] at accepted
        cases accepted
      cases rest with
      | nil =>
        refine ⟨us, s.final, [], ?_, rfl, rfl, viable, fun s' later' => ?_⟩
        · rw [remaining, split, List.append_nil]
        · exact hopeless s' s.final later' closed
      | cons u later =>
        refine ⟨us, u, later ++ [s.final], ?_, rfl, rfl, viable, fun s' later' => ?_⟩
        · rw [remaining, split, List.append_assoc, List.cons_append]
        · exact hopeless s' u later' rfl
  · rw [parse, result] at failed
    cases failed

end Stream

/-- A syntax error is reported at the first impossible token. Let parsing a token list without line
breaks that ends with an end of file fail. The error has the line and the kind of one of the tokens;
with other tokens from there on the list could be a program; and no list that has the tokens up to
and with that one is. -/
theorem parse_error_at_first_impossible_token (ts : List Token) (e : SyntaxError)
    (closed : ts.getLast?.map Token.kind = some .eof) (clean : ∀ t ∈ ts, t.kind ≠ .newline)
    (failed : (Stream.ofTokens ts).parse.1 = .error e) :
    ∃ k u, ts[k]? = some u ∧ e.line = u.line ∧ e.got = u.kind ∧
      (∃ later p, (Stream.ofTokens (ts.take k ++ later)).parse.1 = .ok p) ∧
      (∀ later p, (Stream.ofTokens (ts.take (k + 1) ++ later)).parse.1 ≠ .ok p) := by
  obtain ⟨us, u, later, starts, line, got, viable, hopeless⟩ :=
    Stream.parse_eq_error (Stream.final_ofTokens ts) failed
  have whole : ts = us ++ u :: later := by
    rw [← starts, Stream.remaining_ofTokens, meaningful, Stream.filter_of_clean clean,
      if_pos closed]
  subst whole
  refine ⟨us.length, u, by simp, line, got, ?_, fun later' => ?_⟩
  · obtain ⟨ks, body, cleanKinds, isWhole⟩ := viable
    have clean' : ∀ t ∈ us ++ spell ks, t.kind ≠ .newline := by
      intro t member
      rcases List.mem_append.mp member with member | member
      · exact clean t (List.mem_append_left _ member)
      · obtain ⟨k, inside, rfl⟩ := List.mem_map.mp member
        exact fun kind => cleanKinds (kind ▸ inside)
    obtain ⟨rest, starts'⟩ := Stream.remaining_ofTokens_append clean' []
    rw [List.append_nil] at starts'
    rw [List.take_left' rfl]
    exact ⟨spell ks, Stream.exists_ok_of_whole (Stream.final_ofTokens _) starts' isWhole⟩
  · have shape : (us ++ u :: later).take (us.length + 1) = us ++ [u] := by
      rw [List.take_length_add_append, List.take_succ_cons, List.take_zero]
    have clean' : ∀ t ∈ us ++ [u], t.kind ≠ .newline := by
      intro t member
      apply clean
      rw [List.append_cons]
      exact List.mem_append_left _ member
    obtain ⟨rest, starts'⟩ := Stream.remaining_ofTokens_append clean' later'
    rw [shape]
    exact hopeless _ rest (Stream.final_ofTokens _) (starts'.trans (List.append_cons ..).symm)

/-- The end of a program from a second comparison in one expression on. -/
def secondComparison : List Token :=
  [{ kind := .less, line := 4 }, { kind := .number, line := 4 }, { kind := .fin, line := 5 }]

/-- A program that compares twice in one expression. -/
def twoComparisons : List Token :=
  { kind := .debut, line := 1 } :: { kind := .ecrire, line := 2 } :: { kind := .number, line := 2 }
    :: { kind := .less, line := 2 } :: { kind := .number, line := 3 } :: secondComparison

theorem parse_error_twoComparisons :
    let ts := twoComparisons ++ [{ kind := .eof, line := 5 }]
    (Stream.ofTokens ts).parse.1 = .error ⟨4, .statement, .less⟩ ∧
      ∃ k u, ts[k]? = some u ∧ 4 = u.line ∧ .less = u.kind ∧
        (∃ later p, (Stream.ofTokens (ts.take k ++ later)).parse.1 = .ok p) ∧
        (∀ later p, (Stream.ofTokens (ts.take (k + 1) ++ later)).parse.1 ≠ .ok p) := by
  intro ts
  -- the expression ends before the second comparison, and no statement starts with it
  have value : expression.read (twoComparisons.drop 2) =
      .ok (.bin .lt (.num 0) (.num 0) 2, secondComparison) := by
    simp [twoComparisons, secondComparison, expression, conjunction, comparison, sum, product,
      atom, primary, Level.leftAssoc, Level.atMostOnce, Level.chain, productOp?, sumOp?,
      comparisonOp?, andOp?, orOp?]
  have noStatement : readBlock secondComparison = .error ⟨.statement, secondComparison⟩ := by
    rw [readBlock_of_more rfl, andThen, readStatement_eq_form]
    rfl
  have write : readStatement (twoComparisons.drop 1) =
      .ok (.write (.bin .lt (.num 0) (.num 0) 2) 2, secondComparison) := by
    simp only [twoComparisons, List.drop] at value ⊢
    simp only [readStatement_eq_form, peek, form, andThen, wanted, if_true, value, done]
  have rejected : reply (program twoComparisons) = .error ⟨.statement, secondComparison⟩ := by
    simp only [twoComparisons, List.drop] at write ⊢
    simp only [reply_program, andThen, wanted, if_true]
    rw [readBlock_of_more rfl]
    simp only [andThen, write, noStatement]
  have failed : (Stream.ofTokens ts).parse.1 = .error ⟨4, .statement, .less⟩ :=
    Stream.parse_of_rejected (s := ⟨twoComparisons, _⟩) (reply_eq_error.mp rejected)
  exact ⟨failed, parse_error_at_first_impossible_token ts _ rfl (by decide) failed⟩

end Pseudocode.Parse
