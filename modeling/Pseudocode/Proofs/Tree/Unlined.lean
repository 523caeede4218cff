import Pseudocode.Source
import Pseudocode.Proofs.Token.Rendering
import Pseudocode.Proofs.Tree.FirstError

/-!
# Trees and tokens without lines

`unlined` sets the line of everything that has one to zero: of a token, together with its column,
and of every part of an expression, a statement and a program. Reading commutes with it: a token
list without lines is read as the tree without lines, and rejected at the same token for the same
reason (`program_unlined`). So two texts with the same words, line breaks apart, have the same
program but for its lines, or the same error but for its line (`programOfTokens_alike`).
-/

namespace Pseudocode

/-! ## Forgetting lines -/

def Token.unlined (t : Token) : Token :=
  { t with line := 0, column := 0 }

def Expr.unlined : Expr → Expr
  | num x => num x
  | str s => str s
  | ident name _ => ident name 0
  | bin op left right _ => bin op left.unlined right.unlined 0
  | unknown label => unknown label

mutual

def Stmt.unlined : Stmt → Stmt
  | .assign name value _ => .assign name value.unlined 0
  | .write value _ => .write value.unlined 0
  | .read name _ => .read name 0
  | .cond test yes none _ => .cond test.unlined (unlinedAll yes) none 0
  | .cond test yes (some no) _ => .cond test.unlined (unlinedAll yes) (some (unlinedAll no)) 0
  | .loop test body _ => .loop test.unlined (unlinedAll body) 0
  | .count name first last body _ => .count name first.unlined last.unlined (unlinedAll body) 0
  | .unknown label _ => .unknown label 0

/-- Statements without their lines. -/
def unlinedAll : List Stmt → List Stmt
  | [] => []
  | s :: ss => s.unlined :: unlinedAll ss

end

def Program.unlined (p : Program) : Program :=
  { p with statements := unlinedAll p.statements }

namespace Parse

def SyntaxError.unlined (e : SyntaxError) : SyntaxError :=
  { e with line := 0 }

/-! ## Readers that see no lines -/

section Readers

variable {α β : Type} {f : α → α} {g : β → β} {n : Nat} {ts : List Token}

/-- What a reader returns, without lines: `erase` takes them from the tree. -/
def Reply.unlined (erase : α → α) : Reply α → Reply α
  | .ok (a, rest) => .ok (erase a, rest.map Token.unlined)
  | .error r => .error { r with rest := r.rest.map Token.unlined }

theorem peek_unlined (ts : List Token) : peek (ts.map Token.unlined) = peek ts := by
  cases ts <;> rfl

/-- On fewer than `n` tokens, `read'` does without lines what `read` does with them, and what is
left is no longer. -/
def Mirrors (n : Nat) (erase : α → α) (read' read : List Token → Reply α) : Prop :=
  ∀ ts : List Token, ts.length < n →
    read' (ts.map Token.unlined) = Reply.unlined erase (read ts) ∧
      ∀ a rest, read ts = .ok (a, rest) → rest.length ≤ ts.length

/-- A refusal leaves no rest to measure. -/
theorem noLonger_of_error {r : Reject} (a : α) (rest : List Token)
    (read : (.error r : Reply α) = .ok (a, rest)) : rest.length ≤ n := by
  cases read

theorem mirrors_done {a a' : α} (same : a' = f a) : Mirrors n f (done a') (done a) := by
  intro ts _
  subst same
  refine ⟨rfl, fun b rest read => ?_⟩
  cases read
  exact Nat.le_refl _

theorem Mirrors.andThen {read' read : List Token → Reply α} {next' next : α → List Token → Reply β}
    (first : Mirrors n f read' read) (second : ∀ a, Mirrors n g (next' (f a)) (next a)) :
    Mirrors n g (andThen read' next') (andThen read next) := by
  intro ts bound
  obtain ⟨here, shorter⟩ := first ts bound
  simp only [Parse.andThen, here]
  cases taken : read ts with
  | error r => exact ⟨rfl, noLonger_of_error⟩
  | ok p =>
    have left := shorter p.1 p.2 taken
    obtain ⟨there, shorter'⟩ := second p.1 p.2 (by omega)
    exact ⟨there, fun b rest read => Nat.le_trans (shorter' b rest read) left⟩

theorem Mirrors.andDone {read' read : List Token → Reply α} {h' h : α → β}
    (last : Mirrors n f read' read) (same : ∀ a, h' (f a) = g (h a)) :
    Mirrors n g (Parse.andThen read' fun a => done (h' a))
      (Parse.andThen read fun a => done (h a)) :=
  last.andThen fun a => mirrors_done (same a)

theorem mirrors_wanted (k : Kind) : Mirrors n Token.unlined (wanted k) (wanted k) := by
  intro ts _
  cases ts with
  | nil => exact ⟨rfl, noLonger_of_error⟩
  | cons t rest =>
    simp only [List.map_cons, wanted]
    by_cases kind : t.kind = k
    · rw [if_pos kind, if_pos (show t.unlined.kind = k from kind)]
      refine ⟨rfl, fun _ _ read => ?_⟩
      cases read
      simp
    · rw [if_neg kind, if_neg (show ¬t.unlined.kind = k from kind)]
      exact ⟨rfl, noLonger_of_error⟩

/-- After a token there are fewer left, which is what lets a block inside a statement be read. -/
theorem mirrors_token {k : Kind} {next' next : Token → List Token → Reply β}
    (later : ∀ t, Mirrors n g (next' t.unlined) (next t)) :
    Mirrors (n + 1) g (andThen (wanted k) next') (andThen (wanted k) next) := by
  intro ts bound
  obtain ⟨here, -⟩ := mirrors_wanted k ts bound
  simp only [andThen, here]
  cases ts with
  | nil => exact ⟨rfl, noLonger_of_error⟩
  | cons t rest =>
    by_cases kind : t.kind = k
    · rw [wanted, if_pos kind]
      obtain ⟨there, shorter⟩ := later t rest (by simpa using bound)
      refine ⟨there, fun b rest' read => ?_⟩
      have := shorter b rest' read
      simp
      omega
    · rw [wanted, if_neg kind]
      exact ⟨rfl, noLonger_of_error⟩

end Readers

/-! ## Expressions -/

/-- A level that reads tokens without lines as the expression without lines. -/
def Level.Blind (level : Level) : Prop :=
  ∀ n, Mirrors n Expr.unlined level.read level.read

theorem primary_unlined (ts : List Token) :
    primary (ts.map Token.unlined) = Reply.unlined Expr.unlined (primary ts) := by
  fun_induction primary ts with
  | case1 => rfl
  | case2 t ts kind => simp [primary, Token.unlined, kind, Reply.unlined, Expr.unlined]
  | case3 t ts kind => simp [primary, Token.unlined, kind, Reply.unlined, Expr.unlined]
  | case4 t ts kind => simp [primary, Token.unlined, kind, Reply.unlined, Expr.unlined]
  | case5 t ts kind e read ih =>
    have here : t.unlined.kind = .minus := kind
    simp only [List.map_cons, primary, here, ih, read, Reply.unlined]
  | case6 t ts kind operand rest read ih =>
    have here : t.unlined.kind = .minus := kind
    simp only [List.map_cons, primary, here, ih, read, Reply.unlined, Expr.unlined]
    rfl
  | case7 t ts number string name minus =>
    rw [List.map_cons, primary_eq_error (by exact number) (by exact string) (by exact name)
      (by exact minus)]
    rfl

theorem blind_atom : atom.Blind := by
  intro n ts _
  exact ⟨primary_unlined ts, fun e rest read => Nat.le_of_lt (primary_shorter read)⟩

section Levels

variable {operand : Level} {op? : Kind → Option Op} {operator : Kind → Op → Prop}

theorem mirrors_chain (blind : operand.Blind) (ops : Operators op? operator) (n : Nat)
    (left : Expr) :
    Mirrors n Expr.unlined (operand.chain op? left.unlined) (operand.chain op? left) := by
  induction n generalizing left with
  | zero => exact fun ts bound => absurd bound (Nat.not_lt_zero _)
  | succ n ih =>
    intro ts bound
    cases sign : op? (peek ts) with
    | none =>
      rw [chain_of_none sign, chain_of_none (by rwa [peek_unlined])]
      exact mirrors_done rfl ts bound
    | some op =>
      rw [chain_of_some ops sign, chain_of_some ops (by rwa [peek_unlined]), peek_unlined]
      refine mirrors_token (fun t => ?_) ts bound
      exact (blind n).andThen fun right => ih (.bin op left right t.line)

theorem Level.Blind.leftAssoc (blind : operand.Blind) (ops : Operators op? operator) :
    (operand.leftAssoc op?).Blind := by
  intro n ts bound
  have sequence : ∀ us, (operand.leftAssoc op?).read us
      = andThen operand.read (operand.chain op?) us := by
    intro us
    simp only [Level.leftAssoc, Parse.andThen]
    cases operand.read us <;> rfl
  rw [sequence, sequence]
  exact (blind n).andThen (mirrors_chain blind ops n) ts bound

theorem mirrors_second (blind : operand.Blind) (n : Nat) (left : Expr) :
    Mirrors n Expr.unlined (operand.second op? left.unlined) (operand.second op? left) := by
  intro ts bound
  simp only [Level.second, peek_unlined]
  cases op? (peek ts) with
  | none => exact mirrors_done rfl ts bound
  | some op =>
    refine (mirrors_wanted _).andThen (fun t => ?_) ts bound
    exact (blind n).andDone fun right => rfl

theorem Level.Blind.atMostOnce (blind : operand.Blind) (ops : Operators op? operator) :
    (operand.atMostOnce op?).Blind := by
  intro n ts bound
  rw [atMostOnce_read ops, atMostOnce_read ops]
  exact (blind n).andThen (mirrors_second blind n) ts bound

end Levels

theorem blind_sum : sum.Blind :=
  (blind_atom.leftAssoc ⟨productOp?_iff, rfl, rfl⟩).leftAssoc ⟨sumOp?_iff, rfl, rfl⟩

theorem blind_expression : expression.Blind :=
  ((blind_sum.atMostOnce ⟨comparisonOp?_iff, rfl, rfl⟩).leftAssoc ⟨andOp?_iff, rfl, rfl⟩).leftAssoc
    ⟨orOp?_iff, rfl, rfl⟩

/-! ## Statements and programs -/

theorem mirrors_direction (n : Nat) : Mirrors n id readDirection readDirection := by
  intro ts _
  cases ts with
  | nil => exact ⟨rfl, noLonger_of_error⟩
  | cons t rest =>
    rw [List.map_cons, readDirection_cons, readDirection_cons]
    by_cases sign : isDirection t.kind = true
    · rw [if_pos sign, if_pos (show isDirection t.unlined.kind = true from sign)]
      refine ⟨rfl, fun _ _ read => ?_⟩
      cases read
      simp
    · rw [if_neg sign, if_neg (show ¬isDirection t.unlined.kind = true from sign)]
      exact ⟨rfl, noLonger_of_error⟩

section Statements

variable {n : Nat} (blocks : Mirrors n unlinedAll readBlock readBlock)

include blocks

theorem mirrors_otherwise (test : Expr) (yes : List Stmt) (line : Int) :
    Mirrors n Stmt.unlined (readOtherwise test.unlined (unlinedAll yes) 0)
      (readOtherwise test yes line) := by
  intro ts bound
  simp only [readOtherwise, peek_unlined]
  by_cases next : peek ts = .sinon
  · rw [if_pos next, if_pos next]
    refine (mirrors_wanted _).andThen (fun _ => ?_) ts bound
    refine blocks.andThen fun no => ?_
    exact (mirrors_wanted _).andDone fun _ => by rw [Stmt.unlined]
  · rw [if_neg next, if_neg next]
    exact (mirrors_wanted _).andDone (fun _ => by rw [Stmt.unlined]) ts bound

/-- A statement is a sequence of readers that see no lines. -/
theorem mirrors_form (k : Kind) : Mirrors (n + 1) Stmt.unlined (form k) (form k) := by
  unfold form
  split
  · refine mirrors_token fun name => (mirrors_wanted _).andThen fun _ => ?_
    exact (blind_expression n).andDone fun _ => by rw [Stmt.unlined]; rfl
  · refine mirrors_token fun t => ?_
    exact (blind_expression n).andDone fun _ => by rw [Stmt.unlined]; rfl
  · refine mirrors_token fun t => ?_
    exact (mirrors_wanted _).andDone fun _ => by rw [Stmt.unlined]; rfl
  · refine mirrors_token fun t => (blind_expression n).andThen fun test => ?_
    refine (mirrors_wanted _).andThen fun _ => blocks.andThen fun yes => ?_
    exact mirrors_otherwise blocks test yes t.line
  · refine mirrors_token fun t => (blind_expression n).andThen fun test => ?_
    refine blocks.andThen fun body => ?_
    exact (mirrors_wanted _).andDone fun _ => by rw [Stmt.unlined]; rfl
  · refine mirrors_token fun t => (mirrors_wanted _).andThen fun name => ?_
    refine (mirrors_wanted _).andThen fun _ => (blind_sum n).andThen fun first => ?_
    refine (mirrors_direction n).andThen fun _ => (blind_expression n).andThen fun last => ?_
    refine blocks.andThen fun body => ?_
    exact (mirrors_wanted _).andDone fun _ => by rw [Stmt.unlined]; rfl
  · exact fun ts _ => ⟨rfl, noLonger_of_error⟩

theorem mirrors_statement : Mirrors (n + 1) Stmt.unlined readStatement readStatement := by
  intro ts bound
  rw [readStatement_eq_form, readStatement_eq_form, peek_unlined]
  exact mirrors_form blocks _ ts bound

end Statements

theorem mirrors_block (n : Nat) : Mirrors n unlinedAll readBlock readBlock := by
  induction n with
  | zero => exact fun ts bound => absurd bound (Nat.not_lt_zero _)
  | succ n ih =>
    intro ts bound
    cases ends : endsBlock (peek ts) with
    | true =>
      rw [readBlock_of_ends ends, readBlock_of_ends (by rwa [peek_unlined])]
      exact mirrors_done (a := []) (by rw [unlinedAll]) ts bound
    | false =>
      rw [readBlock_of_more ends, readBlock_of_more (by rwa [peek_unlined])]
      obtain ⟨here, -⟩ := mirrors_statement ih ts bound
      simp only [andThen, here]
      cases taken : readStatement ts with
      | error r => exact ⟨rfl, noLonger_of_error⟩
      | ok p =>
        -- the rest of the block is shorter by the statement
        have shorter := length_lt_of_reply taken
        have later : Mirrors n unlinedAll (andThen readBlock fun ss => done (p.1.unlined :: ss))
            (andThen readBlock fun ss => done (p.1 :: ss)) :=
          ih.andDone fun ss => by rw [unlinedAll]
        obtain ⟨there, noLonger⟩ := later p.2 (by omega)
        exact ⟨there, fun b rest read => Nat.le_trans (noLonger b rest read) (by omega)⟩

/-- A token list without lines is read as the program without lines. -/
theorem program_unlined (ts : List Token) :
    reply (program (ts.map Token.unlined)) = Reply.unlined unlinedAll (reply (program ts)) := by
  have readers : Mirrors (ts.length + 1) unlinedAll (fun ts => reply (program ts))
      (fun ts => reply (program ts)) := by
    intro us bound
    simp only [reply_program]
    refine (mirrors_wanted _).andThen (fun _ => (mirrors_block _).andThen fun body => ?_) us bound
    exact (mirrors_wanted _).andDone fun _ => rfl
  exact (readers ts (Nat.lt_succ_self _)).1

/-! ## Streams -/

/-- The words of a token list in order, line breaks apart. -/
def words (ts : List Token) : List Scan.Word :=
  (ts.filter (·.kind ≠ .newline)).map Token.word

theorem map_unlined (ts : List Token) :
    ts.map Token.unlined = (ts.map Token.word).map (·.at ⟨0, 0⟩) := by
  rw [List.map_map]
  rfl

theorem meaningful_unlined {ts ts' : List Token} (same : words ts = words ts') :
    (meaningful ts).map Token.unlined = (meaningful ts').map Token.unlined := by
  simp only [words] at same
  simp only [meaningful]
  generalize ts.filter (·.kind ≠ .newline) = kept at same ⊢
  generalize ts'.filter (·.kind ≠ .newline) = kept' at same ⊢
  have last : kept.getLast?.map Token.kind = kept'.getLast?.map Token.kind := by
    have kinds := congrArg (fun ws => ws.getLast?.map Scan.Word.kind) same
    simp only [List.getLast?_map, Option.map_map] at kinds
    exact kinds
  have front : kept.map Token.unlined = kept'.map Token.unlined := by
    rw [map_unlined, map_unlined, same]
  rw [last]
  split
  · exact front
  · rw [List.map_append, List.map_append, front]
    rfl

namespace Stream

variable {s s' : Stream}

/-- Where a stream stands decides its error, apart from the line. -/
theorem error_unlined {r r' : Reject} (final : s.final.unlined = s'.final.unlined)
    (expected : r.expected = r'.expected)
    (rest : r.rest.map Token.unlined = r'.rest.map Token.unlined) :
    (s.error r).unlined = (s'.error r').unlined := by
  have found : ∀ (s : Stream) (r : Reject),
      (s.error r).got = (((r.rest.map Token.unlined).head?.getD s.final.unlined)).kind := by
    intro s r
    rw [Stream.error, Stream.current]
    cases r.rest <;> rfl
  have got : (s.error r).got = (s'.error r').got := by rw [found, found, rest, final]
  show SyntaxError.mk 0 r.expected (s.error r).got = SyntaxError.mk 0 r'.expected (s'.error r').got
  rw [expected, got]

/-- Two streams that differ in lines only are parsed alike. -/
theorem parse_alike (same : s.remaining.map Token.unlined = s'.remaining.map Token.unlined) :
    (∃ e e', s.parse.1 = .error e ∧ s'.parse.1 = .error e' ∧ e.unlined = e'.unlined) ∨
      ∃ p p', s.parse.1 = .ok p ∧ s'.parse.1 = .ok p' ∧ p.unlined = p'.unlined := by
  simp only [remaining, List.map_append] at same
  obtain ⟨rest, final⟩ := List.append_inj' same rfl
  have alike : Reply.unlined unlinedAll (reply (program s.rest))
      = Reply.unlined unlinedAll (reply (program s'.rest)) := by
    rw [← program_unlined, ← program_unlined, rest]
  rcases result : program s.rest with r | p <;> rcases result' : program s'.rest with r' | p' <;>
    rw [result, result'] at alike
  · simp only [reply, Reply.unlined, Except.error.injEq, Reject.mk.injEq] at alike
    refine .inl ⟨_, _, parse_of_rejected result, parse_of_rejected result', ?_⟩
    exact error_unlined (List.singleton_inj.mp final) alike.1 alike.2
  · cases alike
  · cases alike
  · simp only [reply, Reply.unlined, Except.ok.injEq, Prod.mk.injEq] at alike
    refine .inr ⟨⟨p.1.1, 0⟩, ⟨p'.1.1, 0⟩, by rw [parse, result], by rw [parse, result'], ?_⟩
    rw [Program.unlined, Program.unlined, alike.1]

end Stream

end Parse

/-- Two token lists with the same words, line breaks apart, are parsed alike but for lines. -/
theorem Source.programOfTokens_alike {ts ts' : List Token}
    (same : Parse.words ts = Parse.words ts') :
    (∃ e e', programOfTokens ts = .error (.grammar e) ∧
        programOfTokens ts' = .error (.grammar e') ∧ e.unlined = e'.unlined) ∨
      ∃ p p', programOfTokens ts = .ok p ∧ programOfTokens ts' = .ok p' ∧
        p.unlined = p'.unlined := by
  have streams : (Parse.Stream.ofTokens ts).remaining.map Token.unlined
      = (Parse.Stream.ofTokens ts').remaining.map Token.unlined := by
    rw [Parse.Stream.remaining_ofTokens, Parse.Stream.remaining_ofTokens]
    exact Parse.meaningful_unlined same
  rcases Parse.Stream.parse_alike streams with
    ⟨e, e', failed, failed', alike⟩ | ⟨p, p', parsed, parsed', alike⟩
  · exact .inl ⟨e, e', by rw [programOfTokens, failed], by rw [programOfTokens, failed'], alike⟩
  · exact .inr ⟨p, p', by rw [programOfTokens, parsed], by rw [programOfTokens, parsed'], alike⟩

end Pseudocode
