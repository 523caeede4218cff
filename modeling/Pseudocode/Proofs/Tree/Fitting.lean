import Pseudocode.Proofs.Tree.FirstError

/-!
# Trees of the language

A tree put together by hand may hold parts that the language does not know, and any lines. `Fits ok`
says that it holds none, and that every line in it is one of `ok`. What the grammar spells fits, if
`ok` holds of the lines of its tokens (`fits_of_whole`): every part comes from a rule, and every
line from a token. So a program that was parsed fits the lines of the token list, and a syntax error
stands on one of them (`programOfTokens_fits`, `programOfTokens_line`).
-/

namespace Pseudocode

variable {ok : Int → Prop}

/-! ## Fitting trees -/

def Op.Known : Op → Prop
  | unknown _ => False
  | _ => True

/-- The expression holds parts of the language only, on lines that are `ok`. -/
inductive Expr.Fits (ok : Int → Prop) : Expr → Prop
  | num {x : Float} : Fits ok (.num x)
  | str {s : String} : Fits ok (.str s)
  | ident {name : String} {line : Int} (here : ok line) : Fits ok (.ident name line)
  | bin {op : Op} {left right : Expr} {line : Int} (known : op.Known) (fitsLeft : Fits ok left)
      (fitsRight : Fits ok right) (here : ok line) : Fits ok (.bin op left right line)

/-- The statement holds parts of the language only, on lines that are `ok`. -/
inductive Stmt.Fits (ok : Int → Prop) : Stmt → Prop
  | assign {name : String} {value : Expr} {line : Int} (fitsValue : value.Fits ok)
      (here : ok line) : Fits ok (.assign name value line)
  | write {value : Expr} {line : Int} (fitsValue : value.Fits ok) (here : ok line) :
      Fits ok (.write value line)
  | read {name : String} {line : Int} (here : ok line) : Fits ok (.read name line)
  | cond {test : Expr} {yes : List Stmt} {no : Option (List Stmt)} {line : Int}
      (fitsTest : test.Fits ok) (fitsYes : ∀ s ∈ yes, Fits ok s)
      (fitsNo : ∀ s ∈ no.getD [], Fits ok s) (here : ok line) : Fits ok (.cond test yes no line)
  | loop {test : Expr} {body : List Stmt} {line : Int} (fitsTest : test.Fits ok)
      (fitsBody : ∀ s ∈ body, Fits ok s) (here : ok line) : Fits ok (.loop test body line)
  | count {name : String} {first last : Expr} {body : List Stmt} {line : Int}
      (fitsFirst : first.Fits ok) (fitsLast : last.Fits ok) (fitsBody : ∀ s ∈ body, Fits ok s)
      (here : ok line) : Fits ok (.count name first last body line)

def Program.Fits (ok : Int → Prop) (p : Program) : Prop :=
  ∀ s ∈ p.statements, s.Fits ok

theorem Stmt.Fits.line {s : Stmt} (fits : s.Fits ok) : ok s.line := by
  cases fits <;> assumption

/-! ## What the grammar spells -/

namespace Grammar

/-- The phrases of this kind spell expressions that fit the lines of their tokens. -/
def Phrase.Fits (ok : Int → Prop) (phrase : Phrase Expr) : Prop :=
  ∀ ts e, phrase ts e → (∀ t ∈ ts, ok t.line) → e.Fits ok

theorem primary_fits : Phrase.Fits ok Primary := by
  intro ts e spelled
  induction spelled with
  | number => exact fun _ => .num
  | string => exact fun _ => .str
  | name => exact fun lines => .ident (lines _ List.mem_cons_self)
  | minus kind operand ih =>
    intro lines
    have rest := ih fun t member => lines t (List.mem_cons_of_mem _ member)
    exact .bin trivial .num rest (lines _ List.mem_cons_self)

section Levels

variable {operand : Phrase Expr} {operator : Kind → Op → Prop}

theorem Phrase.Fits.leftAssoc (fits : operand.Fits ok) (known : ∀ k op, operator k op → op.Known) :
    Phrase.Fits ok (LeftAssoc operand operator) := by
  intro ts e spelled
  induction spelled with
  | one only => exact fits _ _ only
  | @more ts us t op l r left sign right ih =>
    intro lines
    simp only [List.mem_append, List.mem_cons] at lines
    have fitsLeft := ih fun u member => lines u (.inl member)
    have fitsRight := fits us r right fun u member => lines u (.inr (.inr member))
    exact .bin (known _ _ sign) fitsLeft fitsRight (lines t (.inr (.inl rfl)))

theorem Phrase.Fits.atMostOnce (fits : operand.Fits ok) (known : ∀ k op, operator k op → op.Known) :
    Phrase.Fits ok (AtMostOnce operand operator) := by
  intro ts e spelled lines
  cases spelled with
  | one only => exact fits _ _ only lines
  | @two ts us t op l r left sign right =>
    -- two operands are a chain of two
    have chain : LeftAssoc operand operator (ts ++ t :: us) (.bin op l r t.line) :=
      .more (.one left) sign right
    exact fits.leftAssoc known _ _ chain lines

end Levels

theorem sum_fits : Phrase.Fits ok Sum :=
  (primary_fits.leftAssoc fun _ _ sign => by cases sign <;> trivial).leftAssoc
    fun _ _ sign => by cases sign <;> trivial

theorem expression_fits : Phrase.Fits ok Expression :=
  ((sum_fits.atMostOnce fun _ _ sign => by cases sign <;> trivial).leftAssoc
    fun _ _ sign => by cases sign; trivial).leftAssoc fun _ _ sign => by cases sign; trivial

mutual

theorem statement_fits : ∀ {ts : List Token} {s : Stmt}, Statement ts s →
    (∀ t ∈ ts, ok t.line) → s.Fits ok
  | _, _, .assign _ _ isValue, lines => by
    simp only [List.mem_cons] at lines
    exact .assign (expression_fits _ _ isValue fun t h => lines t (.inr (.inr h)))
      (lines _ (.inl rfl))
  | _, _, .write _ isValue, lines => by
    simp only [List.mem_cons] at lines
    exact .write (expression_fits _ _ isValue fun t h => lines t (.inr h)) (lines _ (.inl rfl))
  | _, _, .read _ _, lines => .read (lines _ List.mem_cons_self)
  | _, _, .cond _ isTest _ isYes _, lines => by
    simp only [List.mem_cons, List.mem_append] at lines
    refine .cond (expression_fits _ _ isTest fun t h => lines t ?_)
      (statements_fits isYes fun t h => lines t ?_) (fun s none => nomatch none)
      (lines _ (.inl rfl)) <;> grind
  | _, _, .condElse _ isTest _ isYes _ isNo _, lines => by
    simp only [List.mem_cons, List.mem_append] at lines
    refine .cond (expression_fits _ _ isTest fun t h => lines t ?_)
      (statements_fits isYes fun t h => lines t ?_) (statements_fits isNo fun t h => lines t ?_)
      (lines _ (.inl rfl)) <;> grind
  | _, _, .loop _ isTest isBody _, lines => by
    simp only [List.mem_cons, List.mem_append] at lines
    refine .loop (expression_fits _ _ isTest fun t h => lines t ?_)
      (statements_fits isBody fun t h => lines t ?_) (lines _ (.inl rfl)) <;> grind
  | _, _, .count _ _ _ isFirst _ isLast isBody _, lines => by
    simp only [List.mem_cons, List.mem_append] at lines
    refine .count (sum_fits _ _ isFirst fun t h => lines t ?_)
      (expression_fits _ _ isLast fun t h => lines t ?_)
      (statements_fits isBody fun t h => lines t ?_) (lines _ (.inl rfl)) <;> grind

theorem statements_fits : ∀ {ts : List Token} {ss : List Stmt}, Statements ts ss →
    (∀ t ∈ ts, ok t.line) → ∀ s ∈ ss, s.Fits ok
  | _, _, .nil, _ => fun s none => nomatch none
  | _, _, .cons head tail, lines => by
    have first := statement_fits head fun t h => lines t (List.mem_append_left _ h)
    have later := statements_fits tail fun t h => lines t (List.mem_append_right _ h)
    exact List.forall_mem_cons.mpr ⟨first, later⟩

end

theorem fits_of_whole {ts : List Token} {body : List Stmt} (whole : Whole ts body)
    (lines : ∀ t ∈ ts, ok t.line) : ∀ s ∈ body, s.Fits ok := by
  cases whole with
  | intro isDebut isBody isFin =>
    refine statements_fits isBody fun t member => lines t ?_
    exact List.mem_cons_of_mem _ (List.mem_append_left _ member)

end Grammar

/-! ## What is parsed -/

namespace Source

variable {ts : List Token}

/-- The tokens of a stream stand on the lines of the token list. -/
theorem line_of_remaining (lines : ∀ t ∈ ts, ok t.line) (first : ok 1) :
    ∀ t ∈ (Parse.Stream.ofTokens ts).remaining, ok t.line := by
  have kept : ∀ t ∈ ts.filter (·.kind ≠ .newline), ok t.line :=
    fun t member => lines t (List.mem_filter.mp member).1
  have last : ok (Parse.Stream.ofTokens.lastLine ts) := by
    unfold Parse.Stream.ofTokens.lastLine
    split
    · rename_i t isLast
      exact lines t (List.mem_of_getLast? isLast)
    · exact first
  rw [Parse.Stream.remaining_ofTokens, Parse.meaningful]
  intro t member
  split at member
  · exact kept t member
  · rcases List.mem_append.mp member with member | member
    · exact kept t member
    · obtain rfl := List.mem_singleton.mp member
      exact last

/-- A program that was parsed fits the lines of its tokens. -/
theorem programOfTokens_fits {p : Program} (lines : ∀ t ∈ ts, ok t.line) (first : ok 1)
    (parsed : programOfTokens ts = .ok p) : p.Fits ok := by
  rw [programOfTokens] at parsed
  rcases result : (Parse.Stream.ofTokens ts).parse with ⟨e | q, s'⟩ <;> rw [result] at parsed
  · cases parsed
  · cases parsed
    obtain ⟨-, us, isWhole, starts⟩ := Parse.Stream.parse_eq_ok_iff.mp result
    have all := line_of_remaining lines first
    rw [starts] at all
    exact Grammar.fits_of_whole isWhole fun t member => all t (List.mem_append_left _ member)

/-- A syntax error stands on a line of the tokens. -/
theorem programOfTokens_line {f : Fault} (lines : ∀ t ∈ ts, ok t.line) (first : ok 1)
    (failed : programOfTokens ts = .error f) : ∃ e, f = .grammar e ∧ ok e.line := by
  rw [programOfTokens] at failed
  cases result : (Parse.Stream.ofTokens ts).parse.1 with
  | ok p => rw [result] at failed; cases failed
  | error e =>
    rw [result] at failed
    cases failed
    obtain ⟨us, u, later, starts, line, -⟩ :=
      Parse.Stream.parse_eq_error (Parse.Stream.final_ofTokens ts) result
    have all := line_of_remaining lines first
    rw [starts] at all
    refine ⟨e, rfl, ?_⟩
    rw [line]
    exact all u (List.mem_append_right _ List.mem_cons_self)

end Source

end Pseudocode
