import Pseudocode.Proofs.Tree.FirstError

/-!
# Parsing by a place in a token list

The readers of the grammar take tokens off the front of a list, so each of their recursions is on a
shorter list. A parser can as well keep the whole list and a place in it. Nothing is taken away
then, looking beyond the end shows the last token again and moving on from there stays, and it has
to be proved that the parser comes back at all.

`Walk` is such a parser. It has patience for a number of calls inside each other, the rounds of its
loops included, and gives `none` where that is not enough. A walk that never comes back is not back
with any patience; three times the number of tokens is always enough. It also gives `none` where it
looks at a token of an empty list.

`Agrees` relates a walk from a place to a reader of the tokens from that place on, for both ways in
which a reader can end, and puts where the walk stops between the place where it started and the
last token. It is closed under doing one thing after the other (`Agrees.andThen`). The measure under
the loops and recursions is the number of tokens before the last one that are still to come. It
decreases with every token taken, since the last one is an end of file and no walk takes that.

So every walk comes back (`parsing_moves_forward`). A phrase moves the place on, and an error leaves
it at the token that is reported.
-/

namespace Pseudocode.Parse

/-- A parser that moves along a token list: from a place to a result and the place where it stops.
There is none if it does not come back. -/
abbrev Walk := ExceptT SyntaxError (StateT Nat Option)

namespace Walk

/-- What a walk from a place comes back with. -/
def runFrom {α : Type} (walk : Walk α) (i : Nat) : Option (Except SyntaxError α × Nat) :=
  StateT.run (ExceptT.run walk) i

/-- A walk that is not back when its patience ends. -/
def unfinished {α : Type} : Walk α := ExceptT.mk fun _ => none

section Steps

variable (all : List Token)

/-- The token at a place. From the end on it is the last one. -/
def look (i : Nat) : Option Token :=
  if all.length ≤ i then all.getLast? else all[i]?

/-- The token at the place where the walk stands. -/
def current : Walk Token :=
  ExceptT.mk fun i => (look all i).map fun t => (.ok t, i)

/-- Takes the token at the place where the walk stands. At the end the place stays. -/
def advance : Walk Token := do
  let t ← current all
  modify fun i => if i < all.length then i + 1 else i
  return t

/-- Stops at a token that does not fit. -/
def fail {α : Type} (t : Token) (expected : Expected) : Walk α :=
  throw { line := t.line, expected, got := t.kind }

/-- Takes one token of the wanted kind. -/
def expect (k : Kind) : Walk Token := do
  let t ← current all
  if t.kind = k then advance all else fail t (.kind k)

/-! ## Expressions -/

/-- A literal, a name, or a minus sign in front of one of these. -/
def primary : (patience : Nat) → Walk Expr
  | 0 => unfinished
  | patience + 1 => do
    let t ← current all
    match t.kind with
    | .number =>
      let _ ← advance all
      return .num t.number
    | .string =>
      let _ ← advance all
      return .str t.text
    | .identifier =>
      let _ ← advance all
      return .ident t.text t.line
    | .minus =>
      let _ ← advance all
      let operand ← primary patience
      return .bin .sub (.num 0) operand t.line
    | _ => fail t .expression

/-- Goes on over operators of one level and their right operands for as long as there are any. -/
def chain (operand : Walk Expr) (op? : Kind → Option Op) :
    (patience : Nat) → (left : Expr) → Walk Expr
  | 0, _ => unfinished
  | patience + 1, left => do
    let t ← current all
    match op? t.kind with
    | none => return left
    | some op =>
      let _ ← advance all
      let right ← operand
      chain operand op? patience (.bin op left right t.line)

/-- One or more operands of a level, joined from the left by the given operators. -/
def leftAssoc (operand : Walk Expr) (op? : Kind → Option Op) (patience : Nat) : Walk Expr := do
  let left ← operand
  chain all operand op? patience left

/-- One operand of a level, or two joined by one of the given operators. -/
def atMostOnce (operand : Walk Expr) (op? : Kind → Option Op) : Walk Expr := do
  let left ← operand
  let t ← current all
  match op? t.kind with
  | none => return left
  | some op =>
    let _ ← advance all
    let right ← operand
    return .bin op left right t.line

def product (patience : Nat) : Walk Expr :=
  leftAssoc all (primary all patience) productOp? patience

def sum (patience : Nat) : Walk Expr := leftAssoc all (product all patience) sumOp? patience

def comparison (patience : Nat) : Walk Expr := atMostOnce all (sum all patience) comparisonOp?

def conjunction (patience : Nat) : Walk Expr :=
  leftAssoc all (comparison all patience) andOp? patience

def expression (patience : Nat) : Walk Expr :=
  leftAssoc all (conjunction all patience) orOp? patience

/-! ## Statements -/

/-- Takes the comparison between the bounds of a counted loop. -/
def direction : Walk Unit := do
  let t ← current all
  if isDirection t.kind then
    let _ ← advance all
    return ()
  else fail t .direction

mutual

/-- Statements up to the first token that ends a block. -/
def block : (patience : Nat) → Walk (List Stmt)
  | 0 => unfinished
  | patience + 1 => do
    let t ← current all
    if endsBlock t.kind then return []
    else
      let s ← statement patience
      let ss ← block patience
      return s :: ss

/-- One statement. -/
def statement : (patience : Nat) → Walk Stmt
  | 0 => unfinished
  | patience + 1 => do
    let t ← current all
    match t.kind with
    | .identifier =>
      let name ← expect all .identifier
      let _ ← expect all .assign
      let value ← expression all patience
      return .assign name.text value name.line
    | .ecrire =>
      let _ ← advance all
      let value ← expression all patience
      return .write value t.line
    | .lire =>
      let _ ← advance all
      let name ← expect all .identifier
      return .read name.text t.line
    | .si =>
      let _ ← advance all
      let test ← expression all patience
      let _ ← expect all .alors
      let yes ← block patience
      let u ← current all
      if u.kind = .sinon then
        let _ ← advance all
        let no ← block patience
        let _ ← expect all .finSi
        return .cond test yes (some no) t.line
      else
        let _ ← expect all .finSi
        return .cond test yes none t.line
    | .tantQue =>
      let _ ← advance all
      let test ← expression all patience
      let body ← block patience
      let _ ← expect all .finTantQue
      return .loop test body t.line
    | .pour =>
      let _ ← advance all
      let name ← expect all .identifier
      let _ ← expect all .assign
      let first ← sum all patience
      let _ ← direction all
      let last ← expression all patience
      let body ← block patience
      let _ ← expect all .finPour
      return .count name.text first last body t.line
    | _ => fail t .statement

end

/-- A whole program: `Début`, statements, `Fin`. -/
def program (patience : Nat) : Walk (List Stmt) := do
  let _ ← expect all .debut
  let body ← block all patience
  let _ ← expect all .fin
  return body

/-- Parses one program. -/
def parse (patience : Nat) : Walk Program := do
  let body ← program all patience
  return { statements := body }

/-- The place after a number of parses, whether they return a program or not, if each of them comes
back. -/
def after (patience : Nat) : Nat → Option Nat
  | 0 => some 0
  | n + 1 => do
    let i ← after patience n
    let (_, j) ← (parse all patience).runFrom i
    return j

end Steps

end Walk

/-! ## Places of a stream -/

namespace Stream

variable {s : Stream} {i : Nat}

/-- The stream at a place: some tokens further on. -/
def skip (s : Stream) (i : Nat) : Stream := { s with rest := s.rest.drop i }

theorem length_remaining (s : Stream) : s.remaining.length = s.rest.length + 1 := by
  rw [remaining, List.length_append, List.length_singleton]

theorem kind_current_skip (closed : s.final.kind = .eof) :
    (s.skip i).current.kind = peek (s.rest.drop i) := by
  simp only [current, skip]
  cases s.rest.drop i with
  | nil => exact closed
  | cons t rest => rfl

theorem getElem?_remaining (inside : i ≤ s.rest.length) :
    s.remaining[i]? = some (s.skip i).current := by
  rw [remaining, current, skip, List.head?_drop]
  rcases Nat.lt_or_eq_of_le inside with before | rfl
  · rw [List.getElem?_append_left before, List.getElem?_eq_getElem before]
    rfl
  · simp

theorem look_remaining (inside : i ≤ s.rest.length) :
    Walk.look s.remaining i = some (s.skip i).current := by
  have before : ¬ s.remaining.length ≤ i := by
    rw [length_remaining]
    omega
  rw [Walk.look, if_neg before, getElem?_remaining inside]

/-- Before the last token, the tokens to come start with the one at the place. -/
theorem drop_eq_current_cons (before : i < s.rest.length) :
    s.rest.drop i = (s.skip i).current :: s.rest.drop (i + 1) := by
  have head : (s.skip i).current = s.rest[i] := by
    simp only [current, skip, List.head?_drop, List.getElem?_eq_getElem before, Option.getD_some]
  rw [head, List.drop_eq_getElem_cons before]

/-- A token that is no end of file stands before the last one. -/
theorem lt_of_kind_ne (closed : s.final.kind = .eof) (inside : i ≤ s.rest.length)
    (more : (s.skip i).current.kind ≠ .eof) : i < s.rest.length := by
  rcases Nat.lt_or_eq_of_le inside with before | rfl
  · exact before
  · rw [kind_current_skip closed, List.drop_length] at more
    exact absurd rfl more

end Stream

/-! ## Walks beside readers -/

/-- A walk from a place of a stream comes back as a reader of the tokens from there on does. It
stops behind what the reader takes, or at the token that the reader rejects. -/
inductive Agrees {α : Type} (s : Stream) (walk : Walk α) (i : Nat) : Reply α → Prop
  | takes {a : α} {j : Nat} (returns : walk.runFrom i = some (.ok a, j)) (forward : i ≤ j)
      (inside : j ≤ s.rest.length) : Agrees s walk i (.ok (a, s.rest.drop j))
  | rejects {e : Expected} {j : Nat}
      (returns : walk.runFrom i = some (.error (s.error ⟨e, s.rest.drop j⟩), j)) (forward : i ≤ j)
      (inside : j ≤ s.rest.length) : Agrees s walk i (.error ⟨e, s.rest.drop j⟩)

/-- A walk agrees with a reader from every place in a stream, the last one included. -/
def Follows {α : Type} (s : Stream) (walk : Walk α) (read : List Token → Reply α) : Prop :=
  ∀ i ≤ s.rest.length, Agrees s walk i (read (s.rest.drop i))

section Sequences

variable {α β : Type} {s : Stream} {walk : Walk α} {i : Nat} {k : Kind}

theorem Walk.runFrom_bind (walk : Walk α) (next : α → Walk β) (i : Nat) :
    (walk >>= next).runFrom i = (walk.runFrom i).bind fun
      | (.ok a, j) => (next a).runFrom j
      | (.error e, j) => some (.error e, j) := by
  simp only [runFrom, ExceptT.run_bind, StateT.run_bind]
  cases StateT.run (ExceptT.run walk) i with
  | none => rfl
  | some p => obtain ⟨e | a, j⟩ := p <;> rfl

theorem Walk.runFrom_bind_of_ok {a : α} {j : Nat} (returns : walk.runFrom i = some (.ok a, j))
    (next : α → Walk β) : (walk >>= next).runFrom i = (next a).runFrom j := by
  rw [runFrom_bind, returns]
  rfl

theorem Walk.runFrom_current (all : List Token) (i : Nat) :
    (current all).runFrom i = (look all i).map fun t => (.ok t, i) := rfl

theorem Walk.runFrom_advance (all : List Token) (i : Nat) :
    (advance all).runFrom i
      = (look all i).map fun t => (.ok t, if i < all.length then i + 1 else i) := by
  rw [advance, runFrom_bind, runFrom_current]
  cases look all i <;> rfl

/-- A walk that goes on from a later place as another one does. -/
theorem Agrees.later {walk' : Walk α} {j : Nat} {reply : Reply α} (rest : Agrees s walk' j reply)
    (forward : i ≤ j) (same : walk.runFrom i = walk'.runFrom j) : Agrees s walk i reply := by
  cases rest with
  | takes returns forward' inside =>
    exact .takes (same.trans returns) (Nat.le_trans forward forward') inside
  | rejects returns forward' inside =>
    exact .rejects (same.trans returns) (Nat.le_trans forward forward') inside

/-- One thing after the other. The second starts where the first has stopped. -/
theorem Agrees.andThen {read : List Token → Reply α} {ts : List Token} {next : α → Walk β}
    {next' : α → List Token → Reply β} (first : Agrees s walk i (read ts))
    (second : ∀ a j, i ≤ j → j ≤ s.rest.length → read ts = .ok (a, s.rest.drop j) →
      Agrees s (next a) j (next' a (s.rest.drop j))) :
    Agrees s (walk >>= next) i (andThen read next' ts) := by
  rw [Parse.andThen]
  generalize result : read ts = reply at first
  cases first with
  | @takes a j returns forward inside =>
    have rest := second a j forward inside result
    exact rest.later forward (Walk.runFrom_bind_of_ok returns next)
  | @rejects e j returns forward inside =>
    refine .rejects ?_ forward inside
    rw [Walk.runFrom_bind, returns]
    rfl

theorem agrees_done {a : α} (inside : i ≤ s.rest.length) :
    Agrees s (pure a) i (done a (s.rest.drop i)) :=
  .takes rfl (Nat.le_refl i) inside

/-- The last thing of a whole one. -/
theorem Agrees.andDone {read : List Token → Reply α} {ts : List Token}
    (last : Agrees s walk i (read ts)) (f : α → β) :
    Agrees s (walk >>= fun a => pure (f a)) i (Parse.andThen read (fun a => done (f a)) ts) :=
  last.andThen fun _ _ _ inside _ => agrees_done inside

theorem agrees_fail (inside : i ≤ s.rest.length) (e : Expected) :
    Agrees s (Walk.fail (s.skip i).current e : Walk α) i (.error ⟨e, s.rest.drop i⟩) :=
  .rejects rfl (Nat.le_refl i) inside

/-- Looking at a token does not move. -/
theorem agrees_look {next : Token → Walk β} {reply : Reply β} (inside : i ≤ s.rest.length)
    (rest : Agrees s (next (s.skip i).current) i reply) :
    Agrees s (Walk.current s.remaining >>= next) i reply := by
  refine rest.later (Nat.le_refl i) (Walk.runFrom_bind_of_ok ?_ next)
  rw [Walk.runFrom_current, Stream.look_remaining inside]
  rfl

theorem runFrom_advance_of_lt (before : i < s.rest.length) :
    (Walk.advance s.remaining).runFrom i = some (.ok (s.skip i).current, i + 1) := by
  have some_more : i < s.remaining.length := by
    rw [Stream.length_remaining]
    omega
  rw [Walk.runFrom_advance, Stream.look_remaining (Nat.le_of_lt before), if_pos some_more]
  rfl

/-- Taking a token that is no end of file moves to the next one. -/
theorem agrees_advance (closed : s.final.kind = .eof) (inside : i ≤ s.rest.length)
    (kind : (s.skip i).current.kind = k) (more : k ≠ .eof) {next : Token → Walk β}
    {next' : Token → List Token → Reply β}
    (rest : i + 1 ≤ s.rest.length → Agrees s (next (s.skip i).current) (i + 1)
      (next' (s.skip i).current (s.rest.drop (i + 1)))) :
    Agrees s (Walk.advance s.remaining >>= next) i
      (andThen (wanted k) next' (s.rest.drop i)) := by
  have before : i < s.rest.length := Stream.lt_of_kind_ne closed inside (kind ▸ more)
  rw [Stream.drop_eq_current_cons before, andThen_wanted kind]
  exact (rest before).later (Nat.le_succ i)
    (Walk.runFrom_bind_of_ok (runFrom_advance_of_lt before) next)

theorem expect_follows (closed : s.final.kind = .eof) (more : k ≠ .eof) :
    Follows s (Walk.expect s.remaining k) (wanted k) := by
  intro i inside
  rw [Walk.expect]
  refine agrees_look inside ?_
  split
  · rename_i kind
    have before : i < s.rest.length := Stream.lt_of_kind_ne closed inside (kind ▸ more)
    rw [Stream.drop_eq_current_cons before, wanted, if_pos kind]
    exact .takes (runFrom_advance_of_lt before) (Nat.le_succ i) before
  · rename_i other
    rw [wanted_of_peek_ne (Stream.kind_current_skip closed ▸ other)]
    exact agrees_fail inside _

end Sequences

/-! ## Expressions -/

/-- The tightest expression as the sequence of what it is made of, by the kind of its first
token. -/
def primaryForm : Kind → List Token → Reply Expr
  | .number => andThen (wanted .number) fun t => done (.num t.number)
  | .string => andThen (wanted .string) fun t => done (.str t.text)
  | .identifier => andThen (wanted .identifier) fun t => done (.ident t.text t.line)
  | .minus =>
    andThen (wanted .minus) fun t => andThen primary fun operand =>
    done (.bin .sub (.num 0) operand t.line)
  | _ => fun ts => .error ⟨.expression, ts⟩

theorem primary_eq_form (ts : List Token) : primary ts = primaryForm (peek ts) ts := by
  cases ts with
  | nil => rfl
  | cons t rest =>
    rw [primary, peek]
    split <;> rename_i kind
    · rw [kind, primaryForm, andThen_wanted kind]
      rfl
    · rw [kind, primaryForm, andThen_wanted kind]
      rfl
    · rw [kind, primaryForm, andThen_wanted kind]
      rfl
    · rw [kind, primaryForm, andThen_wanted kind, andThen]
      cases primary rest <;> rfl
    · rw [primaryForm]
      all_goals assumption

section Places

variable {s : Stream} {i : Nat} {op? : Kind → Option Op} {operator : Kind → Op → Prop}

theorem atom_agrees (closed : s.final.kind = .eof) {patience : Nat}
    (enough : s.rest.length - i < patience) (inside : i ≤ s.rest.length) :
    Agrees s (Walk.primary s.remaining patience) i (primary (s.rest.drop i)) := by
  induction patience generalizing i with
  | zero => exact absurd enough (Nat.not_lt_zero _)
  | succ patience ih =>
    rw [Walk.primary, primary_eq_form, ← Stream.kind_current_skip closed]
    refine agrees_look inside ?_
    split <;> rename_i kind
    · rw [kind]
      exact agrees_advance closed inside kind (by decide) agrees_done
    · rw [kind]
      exact agrees_advance closed inside kind (by decide) agrees_done
    · rw [kind]
      exact agrees_advance closed inside kind (by decide) agrees_done
    · rw [kind]
      refine agrees_advance closed inside kind (by decide) fun next => ?_
      exact (ih (by omega) next).andDone _
    · rw [primaryForm]
      · exact agrees_fail inside _
      all_goals assumption

variable {walk : Walk Expr} {operand : Level}

theorem chain_agrees (closed : s.final.kind = .eof) (ops : Operators op? operator)
    (h : Follows s walk operand.read) {patience : Nat} (enough : s.rest.length - i < patience)
    (left : Expr) (inside : i ≤ s.rest.length) :
    Agrees s (Walk.chain s.remaining walk op? patience left) i
      (operand.chain op? left (s.rest.drop i)) := by
  induction patience generalizing i left with
  | zero => exact absurd enough (Nat.not_lt_zero _)
  | succ patience ih =>
    rw [Walk.chain]
    refine agrees_look inside ?_
    have kind := Stream.kind_current_skip (i := i) closed
    cases sign : op? (s.skip i).current.kind with
    | none =>
      rw [chain_of_none (kind ▸ sign)]
      exact agrees_done inside
    | some op =>
      rw [chain_of_some ops (kind ▸ sign), ← kind]
      refine agrees_advance closed inside rfl (ops.ne_of_some sign).1 fun next => ?_
      -- the right operand starts behind the operator, and the chain goes on no earlier than there
      refine (h (i + 1) next).andThen fun right j forward inside' _ => ?_
      exact ih (by omega) _ inside'

theorem leftAssoc_follows (closed : s.final.kind = .eof) (ops : Operators op? operator)
    {patience : Nat} (enough : s.rest.length < patience) (h : Follows s walk operand.read) :
    Follows s (Walk.leftAssoc s.remaining walk op? patience) (operand.leftAssoc op?).read := by
  intro i inside
  have sequence : (operand.leftAssoc op?).read (s.rest.drop i)
      = andThen operand.read (operand.chain op?) (s.rest.drop i) := by
    simp only [Level.leftAssoc, andThen]
    cases operand.read (s.rest.drop i) <;> rfl
  rw [Walk.leftAssoc, sequence]
  refine (h i inside).andThen fun left j _ inside' _ => ?_
  exact chain_agrees closed ops h (by omega) left inside'

theorem atMostOnce_follows (closed : s.final.kind = .eof) (ops : Operators op? operator)
    (h : Follows s walk operand.read) :
    Follows s (Walk.atMostOnce s.remaining walk op?) (operand.atMostOnce op?).read := by
  intro i inside
  rw [Walk.atMostOnce, atMostOnce_read ops]
  refine (h i inside).andThen fun left j _ inside' _ => ?_
  refine agrees_look inside' ?_
  rw [Level.second, ← Stream.kind_current_skip closed]
  cases sign : op? (s.skip j).current.kind with
  | none => exact agrees_done inside'
  | some op =>
    refine agrees_advance closed inside' rfl (ops.ne_of_some sign).1 fun next => ?_
    exact (h (j + 1) next).andDone _

section Levels

variable {patience : Nat} (closed : s.final.kind = .eof) (enough : s.rest.length < patience)
include closed enough

theorem atom_follows : Follows s (Walk.primary s.remaining patience) atom.read :=
  fun _ inside => atom_agrees closed (by omega) inside

theorem product_follows : Follows s (Walk.product s.remaining patience) product.read :=
  leftAssoc_follows closed ⟨productOp?_iff, rfl, rfl⟩ enough (atom_follows closed enough)

theorem sum_follows : Follows s (Walk.sum s.remaining patience) sum.read :=
  leftAssoc_follows closed ⟨sumOp?_iff, rfl, rfl⟩ enough (product_follows closed enough)

theorem comparison_follows : Follows s (Walk.comparison s.remaining patience) comparison.read :=
  atMostOnce_follows closed ⟨comparisonOp?_iff, rfl, rfl⟩ (sum_follows closed enough)

theorem conjunction_follows : Follows s (Walk.conjunction s.remaining patience) conjunction.read :=
  leftAssoc_follows closed ⟨andOp?_iff, rfl, rfl⟩ enough (comparison_follows closed enough)

theorem expression_follows : Follows s (Walk.expression s.remaining patience) expression.read :=
  leftAssoc_follows closed ⟨orOp?_iff, rfl, rfl⟩ enough (conjunction_follows closed enough)

end Levels

/-- The levels of expressions, from the tightest to the loosest, each as a walk and as a reader. -/
def levels (all : List Token) (patience : Nat) : List (Walk Expr × Level) :=
  [(Walk.primary all patience, atom), (Walk.product all patience, product),
    (Walk.sum all patience, sum), (Walk.comparison all patience, comparison),
    (Walk.conjunction all patience, conjunction), (Walk.expression all patience, expression)]

theorem levels_follow (closed : s.final.kind = .eof) {patience : Nat}
    (enough : s.rest.length < patience) :
    ∀ p ∈ levels s.remaining patience, Follows s p.1 p.2.read := by
  simp only [levels, List.forall_mem_cons]
  exact ⟨atom_follows closed enough, product_follows closed enough, sum_follows closed enough,
    comparison_follows closed enough, conjunction_follows closed enough,
    expression_follows closed enough, nofun⟩

/-! ## Statements -/

theorem readDirection_of_sign {ts : List Token} (sign : isDirection (peek ts) = true) :
    readDirection ts = andThen (wanted (peek ts)) (fun _ => done ()) ts := by
  cases ts with
  | nil => cases sign
  | cons t rest =>
    rw [peek] at sign ⊢
    rw [readDirection_cons, if_pos sign, andThen_wanted rfl]
    rfl

theorem readDirection_of_other {ts : List Token} (other : ¬isDirection (peek ts) = true) :
    readDirection ts = .error ⟨.direction, ts⟩ := by
  cases ts with
  | nil => rfl
  | cons t rest =>
    rw [peek] at other
    rw [readDirection_cons, if_neg other]

theorem direction_follows (closed : s.final.kind = .eof) :
    Follows s (Walk.direction s.remaining) readDirection := by
  intro i inside
  rw [Walk.direction]
  refine agrees_look inside ?_
  have kind := Stream.kind_current_skip (i := i) closed
  split <;> rename_i sign
  · rw [readDirection_of_sign (kind ▸ sign), ← kind]
    refine agrees_advance closed inside rfl ?_ agrees_done
    intro atEnd
    rw [atEnd] at sign
    cases sign
  · rw [readDirection_of_other (kind ▸ sign)]
    exact agrees_fail inside _

/-- A reader that uses up at least one token with each phrase that it takes. -/
def Consumes {α : Type} (read : List Token → Reply α) : Prop :=
  ∀ ts rest a, read ts = .ok (a, rest) → rest.length < ts.length

theorem consumes_statement : Consumes readStatement := fun _ _ _ => length_lt_of_reply

theorem Consumes.lt {α : Type} {read : List Token → Reply α} (consumes : Consumes read)
    {j : Nat} {a : α} (taken : read (s.rest.drop i) = .ok (a, s.rest.drop j))
    (inside : j ≤ s.rest.length) : i < j := by
  have shorter := consumes _ _ _ taken
  rw [List.length_drop, List.length_drop] at shorter
  omega

/-- A statement, if there is patience for its expressions and for the blocks further on. -/
theorem statement_agrees (closed : s.final.kind = .eof) (inside : i ≤ s.rest.length)
    {patience : Nat} (enough : i < s.rest.length → s.rest.length < patience)
    (blocks : ∀ j, i < j → j ≤ s.rest.length →
      Agrees s (Walk.block s.remaining patience) j (readBlock (s.rest.drop j))) :
    Agrees s (Walk.statement s.remaining (patience + 1)) i (readStatement (s.rest.drop i)) := by
  rw [Walk.statement, readStatement_eq_form, ← Stream.kind_current_skip closed]
  refine agrees_look inside ?_
  split <;> rename_i kind
  · have before : i < s.rest.length := Stream.lt_of_kind_ne closed inside (by rw [kind]; decide)
    rw [kind]
    refine (expect_follows closed (by decide) i inside).andThen fun name j₁ _ inside₁ _ => ?_
    refine (expect_follows closed (by decide) j₁ inside₁).andThen fun _ j₂ _ inside₂ _ => ?_
    exact (expression_follows closed (enough before) j₂ inside₂).andDone _
  · rw [kind]
    refine agrees_advance closed inside kind (by decide) fun next => ?_
    exact (expression_follows closed (enough next) _ next).andDone _
  · rw [kind]
    refine agrees_advance closed inside kind (by decide) fun next => ?_
    exact (expect_follows closed (by decide) _ next).andDone _
  · rw [kind]
    refine agrees_advance closed inside kind (by decide) fun next => ?_
    refine (expression_follows closed (enough next) _ next).andThen fun test j₁ _ inside₁ _ => ?_
    refine (expect_follows closed (by decide) j₁ inside₁).andThen fun _ j₂ _ inside₂ _ => ?_
    refine (blocks j₂ (by omega) inside₂).andThen fun yes j₃ _ inside₃ _ => ?_
    refine agrees_look inside₃ ?_
    rw [readOtherwise, ← Stream.kind_current_skip closed]
    split <;> rename_i isSinon
    · refine agrees_advance closed inside₃ isSinon (by decide) fun next₃ => ?_
      refine (blocks (j₃ + 1) (by omega) next₃).andThen fun no j₄ _ inside₄ _ => ?_
      exact (expect_follows closed (by decide) j₄ inside₄).andDone _
    · exact (expect_follows closed (by decide) j₃ inside₃).andDone _
  · rw [kind]
    refine agrees_advance closed inside kind (by decide) fun next => ?_
    refine (expression_follows closed (enough next) _ next).andThen fun test j₁ _ inside₁ _ => ?_
    refine (blocks j₁ (by omega) inside₁).andThen fun body j₂ _ inside₂ _ => ?_
    exact (expect_follows closed (by decide) j₂ inside₂).andDone _
  · rw [kind]
    refine agrees_advance closed inside kind (by decide) fun next => ?_
    have patient := enough next
    refine (expect_follows closed (by decide) _ next).andThen fun name j₁ _ inside₁ _ => ?_
    refine (expect_follows closed (by decide) j₁ inside₁).andThen fun _ j₂ _ inside₂ _ => ?_
    refine (sum_follows closed patient j₂ inside₂).andThen fun first j₃ _ inside₃ _ => ?_
    refine (direction_follows closed j₃ inside₃).andThen fun _ j₄ _ inside₄ _ => ?_
    refine (expression_follows closed patient j₄ inside₄).andThen fun last j₅ _ inside₅ _ => ?_
    refine (blocks j₅ (by omega) inside₅).andThen fun body j₆ _ inside₆ _ => ?_
    exact (expect_follows closed (by decide) j₆ inside₆).andDone _
  · rw [form]
    · exact agrees_fail inside _
    all_goals assumption

/-- A block, if there is patience for a statement here and for the blocks further on. -/
theorem block_agrees (closed : s.final.kind = .eof) (inside : i ≤ s.rest.length) {patience : Nat}
    (head : Agrees s (Walk.statement s.remaining patience) i (readStatement (s.rest.drop i)))
    (blocks : ∀ j, i < j → j ≤ s.rest.length →
      Agrees s (Walk.block s.remaining patience) j (readBlock (s.rest.drop j))) :
    Agrees s (Walk.block s.remaining (patience + 1)) i (readBlock (s.rest.drop i)) := by
  rw [Walk.block]
  refine agrees_look inside ?_
  have kind := Stream.kind_current_skip (i := i) closed
  split <;> rename_i ends
  · rw [readBlock_of_ends (kind ▸ ends)]
    exact agrees_done inside
  · rw [readBlock_of_more (kind ▸ Bool.eq_false_iff.mpr ends)]
    refine head.andThen fun _ j _ inside' taken => ?_
    have forward : i < j := consumes_statement.lt taken inside'
    exact (blocks j forward inside').andDone _

/-- Beyond what expressions need, a statement needs patience for two calls for each token still to
come and a block for one more: a block calls for a statement without having taken a token, but a
statement takes one before it calls for a block. -/
theorem statements_agree (closed : s.final.kind = .eof) {patience : Nat}
    (inside : i ≤ s.rest.length) :
    (s.rest.length + 2 * (s.rest.length - i) < patience →
      Agrees s (Walk.statement s.remaining patience) i (readStatement (s.rest.drop i))) ∧
    (s.rest.length + 2 * (s.rest.length - i) + 1 < patience →
      Agrees s (Walk.block s.remaining patience) i (readBlock (s.rest.drop i))) := by
  induction patience generalizing i with
  | zero => exact ⟨fun enough => absurd enough (Nat.not_lt_zero _),
      fun enough => absurd enough (Nat.not_lt_zero _)⟩
  | succ patience ih =>
    refine ⟨fun enough => ?_, fun enough => ?_⟩
    · refine statement_agrees closed inside (fun before => by omega) fun j forward inside' => ?_
      exact (ih inside').2 (by omega)
    · refine block_agrees closed inside ((ih inside).1 (by omega)) fun j forward inside' => ?_
      exact (ih inside').2 (by omega)

theorem program_agrees (closed : s.final.kind = .eof) {patience : Nat}
    (enough : 3 * s.remaining.length ≤ patience) (inside : i ≤ s.rest.length) :
    Agrees s (Walk.program s.remaining patience) i (reply (program (s.rest.drop i))) := by
  rw [s.length_remaining] at enough
  rw [Walk.program, reply_program]
  refine (expect_follows closed (by decide) i inside).andThen fun _ j₁ _ inside₁ _ => ?_
  refine ((statements_agree closed inside₁).2 (by omega)).andThen fun body j₂ _ inside₂ _ => ?_
  exact (expect_follows closed (by decide) j₂ inside₂).andDone _

end Places

/-! ## Streams -/

namespace Stream

variable {s : Stream} {i : Nat}

theorem after_succ (s : Stream) (n : Nat) : s.after (n + 1) = (s.after n).parse.2 := by
  induction n generalizing s with
  | zero => rfl
  | succ n ih => exact ih s.parse.2

/-- An error that is reported for a place is about the token there. -/
theorem error_at (inside : i ≤ s.rest.length) (e : Expected) :
    ∃ t, s.remaining[i]? = some t ∧ (s.error ⟨e, s.rest.drop i⟩).line = t.line ∧
      (s.error ⟨e, s.rest.drop i⟩).got = t.kind :=
  ⟨(s.skip i).current, getElem?_remaining inside, rfl, rfl⟩

end Stream

/-- A walk from a place of a stream comes back, beside a reader of the tokens from there on: further
on than it started and behind the phrase that the reader takes, or at the token that the reader
rejects, which is the one that the error reports. -/
inductive Proceeds {α : Type} (s : Stream) (walk : Walk α) (read : List Token → Reply α)
    (i : Nat) : Prop
  | takes (a : α) (j : Nat) (returns : walk.runFrom i = some (.ok a, j)) (forward : i < j)
      (inside : j < s.remaining.length) (taken : read (s.rest.drop i) = .ok (a, s.rest.drop j))
  | rejects (e : SyntaxError) (j : Nat) (returns : walk.runFrom i = some (.error e, j))
      (forward : i ≤ j)
      (reported : ∃ t, s.remaining[j]? = some t ∧ e.line = t.line ∧ e.got = t.kind)
      (rejected : read (s.rest.drop i) = .error ⟨e.expected, s.rest.drop j⟩)

theorem Agrees.proceeds {α : Type} {s : Stream} {walk : Walk α} {read : List Token → Reply α}
    {i : Nat} (h : Agrees s walk i (read (s.rest.drop i))) (consumes : Consumes read) :
    Proceeds s walk read i := by
  generalize result : read (s.rest.drop i) = reply at h
  cases h with
  | @takes a j returns forward inside =>
    refine .takes a j returns (consumes.lt result inside) ?_ result
    rw [Stream.length_remaining]
    omega
  | @rejects e j returns forward inside =>
    exact .rejects _ j returns forward (Stream.error_at inside e) result

theorem Stream.parse_eq_of_ok {s : Stream} {body : List Stmt} {rest : List Token}
    (taken : reply (program s.rest) = .ok (body, rest)) :
    s.parse = (.ok { statements := body }, { s with rest }) := by
  rw [parse]
  split <;> rename_i result <;> rw [result] at taken <;> cases taken
  rfl

theorem Stream.parse_eq_of_error {s : Stream} {r : Reject}
    (rejected : reply (program s.rest) = .error r) :
    s.parse = (.error (s.error r), { s with rest := r.rest }) := by
  rw [parse, reply_eq_error.mp rejected]

/-- One parse from a place comes back with what the stream at that place returns. -/
theorem parse_returns {s : Stream} {i patience : Nat} (closed : s.final.kind = .eof)
    (enough : 3 * s.remaining.length ≤ patience) (inside : i ≤ s.rest.length) :
    ∃ j, (Walk.parse s.remaining patience).runFrom i = some ((s.skip i).parse.1, j) ∧
      (s.skip i).parse.2 = s.skip j ∧ i ≤ j ∧ j ≤ s.rest.length ∧
      (∀ p, (s.skip i).parse.1 = .ok p → i < j) ∧
      (∀ e, (s.skip i).parse.1 = .error e →
        ∃ t, s.remaining[j]? = some t ∧ e.line = t.line ∧ e.got = t.kind) := by
  have agrees := program_agrees closed enough inside
  generalize result : reply (program (s.rest.drop i)) = r at agrees
  cases agrees with
  | @takes body j returns forward inside' =>
    have parsed := Stream.parse_eq_of_ok (s := s.skip i) result
    rw [parsed]
    refine ⟨j, ?_, rfl, forward, inside', fun _ _ => ?_, fun e failed => ?_⟩
    · rw [Walk.parse, Walk.runFrom_bind_of_ok returns]
      rfl
    · have consumes : Consumes fun ts => reply (program ts) := fun _ _ _ => length_lt_of_reply
      exact consumes.lt result inside'
    · cases failed
  | @rejects expected j returns forward inside' =>
    have parsed := Stream.parse_eq_of_error (s := s.skip i) result
    rw [parsed]
    refine ⟨j, ?_, rfl, forward, inside', fun p accepted => ?_, fun e failed => ?_⟩
    · rw [Walk.parse, Walk.runFrom_bind, returns]
      rfl
    · cases accepted
    · cases failed
      exact Stream.error_at inside' expected

/-- Parsing again and again comes back each time, to the place of the stream. -/
theorem after_returns {s : Stream} {patience : Nat} (closed : s.final.kind = .eof)
    (enough : 3 * s.remaining.length ≤ patience) (n : Nat) :
    ∃ i, Walk.after s.remaining patience n = some i ∧ s.after n = s.skip i ∧
      i ≤ s.rest.length := by
  induction n with
  | zero => exact ⟨0, rfl, rfl, Nat.zero_le _⟩
  | succ n ih =>
    obtain ⟨i, reached, place, inside⟩ := ih
    obtain ⟨j, returns, moved, -, inside', -⟩ := parse_returns closed enough inside
    refine ⟨j, ?_, ?_, inside'⟩
    · simp [Walk.after, reached, returns]
    · rw [Stream.after_succ, place, moved]

/-- From every place of a list that is not empty, a token is to be seen. -/
theorem Walk.exists_look {all : List Token} (some_token : all ≠ []) (i : Nat) :
    ∃ t, look all i = some t := by
  rw [look]
  split
  · exact ⟨_, List.getLast?_eq_some_getLast some_token⟩
  · rename_i before
    exact ⟨_, List.getElem?_eq_getElem (Nat.lt_of_not_le before)⟩

/-- Parsing always comes back and only moves forward. Patience for three calls inside each other for
each token is enough. There is a token to be seen from every place, and taking it never moves back
or beyond the end. From every place in the list, a statement and an expression of every level come
back: either the walk has moved on behind a phrase, or it stands at the token that the error
reports. However often the list is parsed, each parse comes back with what the stream returns. It
stops no earlier than it started and inside the list, further on with a program, and at the reported
token with an error. -/
theorem parsing_moves_forward (ts : List Token) (n patience : Nat)
    (enough : 3 * (meaningful ts).length ≤ patience) :
    let all := meaningful ts
    let start := Stream.ofTokens ts
    start.remaining = all ∧
    (∀ i, ∃ t, (Walk.current all).runFrom i = some (.ok t, i)) ∧
    (∀ i ≤ all.length, ∃ t j, (Walk.advance all).runFrom i = some (.ok t, j) ∧
      i ≤ j ∧ j ≤ all.length) ∧
    (∀ i < all.length, Proceeds start (Walk.statement all patience) readStatement i ∧
      ∀ p ∈ levels all patience, Proceeds start p.1 p.2.read i) ∧
    ∃ i j, Walk.after all patience n = some i ∧ Walk.after all patience (n + 1) = some j ∧
      i ≤ j ∧ j < all.length ∧ all[i]? = some (start.after n).current ∧
      (Walk.parse all patience).runFrom i = some ((start.after n).parse.1, j) ∧
      (∀ p, (start.after n).parse.1 = .ok p → i < j) ∧
      (∀ e, (start.after n).parse.1 = .error e →
        ∃ t, all[j]? = some t ∧ e.line = t.line ∧ e.got = t.kind) := by
  intro all start
  have whole : start.remaining = all := Stream.remaining_ofTokens ts
  have closed : start.final.kind = .eof := Stream.final_ofTokens ts
  have size : all.length = start.rest.length + 1 := whole ▸ start.length_remaining
  have some_token : all ≠ [] := List.ne_nil_of_length_eq_add_one size
  refine ⟨whole, fun i => ?_, fun i inside => ?_, fun i before => ?_, ?_⟩
  · obtain ⟨t, seen⟩ := Walk.exists_look some_token i
    exact ⟨t, by rw [Walk.runFrom_current, seen]; rfl⟩
  · obtain ⟨t, seen⟩ := Walk.exists_look some_token i
    refine ⟨t, if i < all.length then i + 1 else i, ?_, ?_⟩
    · rw [Walk.runFrom_advance, seen]
      rfl
    · split <;> omega
  · have inside : i ≤ start.rest.length := by omega
    have patient : 3 * all.length ≤ patience := enough
    rw [← whole]
    refine ⟨?_, fun p member => ?_⟩
    · exact ((statements_agree closed inside).1 (by omega)).proceeds consumes_statement
    · have follows := levels_follow closed (by omega) p member
      exact (follows i inside).proceeds fun _ _ _ => p.2.shorter
  · have patient : 3 * start.remaining.length ≤ patience := whole ▸ enough
    obtain ⟨i, reached, place, inside⟩ := after_returns closed patient n
    obtain ⟨j, returns, -, forward, inside', moved, reported⟩ := parse_returns closed patient inside
    have reached' : Walk.after start.remaining patience (n + 1) = some j := by
      simp [Walk.after, reached, returns]
    rw [← whole, place, start.length_remaining]
    exact ⟨i, j, reached, reached', forward, Nat.lt_succ_of_le inside',
      Stream.getElem?_remaining inside, returns, moved, reported⟩

/-- A program that an end of file cuts short, with a token of no kind of the language and a line
break behind it and no end of file after them. -/
def cutShort : List Token :=
  [{ kind := .debut, line := 1 }, { kind := .eof, line := 1 }, { kind := .undefined 99, line := 2 },
    { kind := .newline, line := 3 }]

/-- With the least patience, the first parse stops at the end of file in the middle. -/
theorem parsing_moves_forward_cutShort :
    let all := meaningful cutShort
    3 * all.length ≤ 12 ∧ 2 < all.length ∧
      Proceeds (Stream.ofTokens cutShort) (Walk.statement all 12) readStatement 2 ∧
      (Stream.ofTokens cutShort).parse.1 = .error ⟨1, .kind .fin, .eof⟩ ∧
      Walk.after all 12 1 = some 1 := by
  intro all
  obtain ⟨-, -, -, phrases, i, j, -, reached, -, inside, -, -, -, reported⟩ :=
    parsing_moves_forward cutShort 0 12 (by decide)
  have rejected : reply (program (Stream.ofTokens cutShort).rest)
      = .error ⟨.kind .fin, (Stream.ofTokens cutShort).rest.drop 1⟩ := by
    rw [reply_program]
    show andThen readBlock _ ((Stream.ofTokens cutShort).rest.drop 1) = _
    rw [andThen, readBlock_of_ends rfl]
    rfl
  have failed : (Stream.ofTokens cutShort).parse.1 = .error ⟨1, .kind .fin, .eof⟩ :=
    Stream.parse_of_rejected (reply_eq_error.mp rejected)
  obtain ⟨t, found, line, kind⟩ := reported _ failed
  -- no other token of the list is an end of file on the first line
  have place : j = 1 := by
    obtain rfl | rfl | rfl | rfl : j = 0 ∨ j = 1 ∨ j = 2 ∨ j = 3 := by
      have size : (meaningful cutShort).length = 4 := rfl
      omega
    · cases found
      cases kind
    · rfl
    · cases found
      cases kind
    · cases found
      cases line
  rw [place] at reached
  exact ⟨by decide, by decide, (phrases 2 (by decide)).1, failed, reached⟩

end Pseudocode.Parse
