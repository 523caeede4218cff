import Pseudocode.Text.Lines
import Pseudocode.Proofs.Tree.Fitting

/-!
# Lines of a source

A source text has one line more than line feeds, whether or not carriage returns stand before them
(`length_lines`). The scanner counts the same line feeds, in strings and between tokens, so every
token stands on a line of the text, and so does the quote of a string without an end
(`Scan.line_of_tokensFrom`). From there the lines come into trees and syntax errors
(`program_fits`, `line_of_program_error`).

Errors of a run carry their line in their message only; what is read off the message is that line,
as long as it is one that can be written down (`errorLine_runtime`).
-/

namespace Pseudocode

/-! ## Counting lines -/

namespace Text

theorem count_dropReturns (cs : List Char) : (dropReturns cs).count '\n' = cs.count '\n' := by
  fun_induction dropReturns cs with
  | case1 => rfl
  | case2 => rfl
  | case3 c d cs both ih =>
    rw [ih, List.count_cons, List.count_cons, List.count_cons]
    simp [both.1]
  | case4 c d cs other ih => rw [List.count_cons, ih, ← List.count_cons]

theorem length_lines (s : String) : (lines s).length = s.toList.count '\n' + 1 := by
  rw [lines, List.length_map, length_splitAtChar, count_dropReturns]

end Text

namespace Scan

theorem Position.line_next (p : Position) (c : Char) :
    (p.next c).line = p.line + [c].count '\n' := by
  unfold next
  by_cases feed : c = '\n'
  · rw [if_pos feed, feed]
    rfl
  · rw [if_neg feed, List.count_singleton]
    simp [feed]

theorem Position.line_after (p : Position) (cs : List Char) :
    (p.after cs).line = p.line + cs.count '\n' := by
  induction cs generalizing p with
  | nil => rfl
  | cons c cs ih =>
    have rest : (p.after (c :: cs)).line = ((p.next c).after cs).line := rfl
    rw [rest, ih, Position.line_next, Nat.add_assoc, ← List.count_append]
    rfl

/-- The line is one of those that the text `cs`, which starts at `p`, stretches over. -/
def Position.Spans (p : Position) (cs : List Char) (line : Int) : Prop :=
  p.line ≤ line ∧ line ≤ p.line + cs.count '\n'

theorem Position.spans_start (p : Position) (cs : List Char) : p.Spans cs p.line := by
  unfold Spans
  omega

/-- What stands on a line of the rest of a text stands on a line of the text. -/
theorem Position.Spans.of_after {p : Position} (used : List Char) {rest : List Char} {line : Int}
    (h : (p.after used).Spans rest line) : p.Spans (used ++ rest) line := by
  unfold Spans at h ⊢
  rw [line_after] at h
  rw [List.count_append]
  omega

theorem Position.Spans.of_piece {p : Position} {c : Char} {cs : List Char} {piece : Piece}
    (taken : piece? c cs = some piece) {line : Int}
    (h : (p.after piece.used).Spans piece.rest line) : p.Spans (c :: cs) line := by
  rw [← piece?_append taken]
  exact h.of_after piece.used

/-- Every token stands on a line of the text, and so does the quote of a string without an end. -/
theorem line_of_tokensFrom (p : Position) (cs : List Char) :
    (∀ ts, tokensFrom p cs = .ok ts → ∀ t ∈ ts, p.Spans cs t.line) ∧
      ∀ q, tokensFrom p cs = .error q → p.Spans cs q.line := by
  fun_induction tokensFrom p cs with
  | case1 p =>
    refine ⟨fun ts scanned t member => ?_, nofun⟩
    cases scanned
    obtain rfl := List.mem_singleton.mp member
    exact p.spans_start []
  | case2 p c rest blank ih =>
    refine ⟨fun ts scanned t member => ?_, fun q failed => ?_⟩
    · exact (ih.1 ts scanned t member).of_after [c]
    · exact (ih.2 q failed).of_after [c]
  | case3 p c rest blank none =>
    refine ⟨nofun, fun q failed => ?_⟩
    cases failed
    exact p.spans_start _
  | case4 p c rest blank piece taken e failed ih =>
    refine ⟨nofun, fun q failed' => ?_⟩
    cases failed'
    exact (ih.2 e failed).of_piece taken
  | case5 p c rest blank piece taken ts scanned w word ih =>
    refine ⟨fun ts' scanned' t member => ?_, nofun⟩
    cases scanned'
    rcases List.mem_cons.mp member with rfl | member
    · exact p.spans_start _
    · exact (ih.1 ts scanned t member).of_piece taken
  | case6 p c rest blank piece taken ts scanned word ih =>
    refine ⟨fun ts' scanned' t member => ?_, nofun⟩
    cases scanned'
    exact (ih.1 ts scanned t member).of_piece taken

end Scan

/-! ## Lines of programs and errors -/

namespace Source

/-- The lines that a text has, counted from one. -/
def HasLine (code : String) (line : Int) : Prop :=
  1 ≤ line ∧ line ≤ (Text.lines code).length

variable {code : String}

theorem hasLine_iff_spans {line : Int} :
    HasLine code line ↔ Scan.Position.Spans {} code.toList line := by
  rw [HasLine, Scan.Position.Spans, Text.length_lines]
  show 1 ≤ line ∧ _ ↔ (1 : Nat) ≤ line ∧ line ≤ (1 : Nat) + _
  omega

theorem hasLine_one (code : String) : HasLine code 1 := by
  rw [HasLine, Text.length_lines]
  omega

theorem line_of_tokens {ts : List Token} (scanned : tokens code = .ok ts) :
    ∀ t ∈ ts, HasLine code t.line := by
  intro t member
  rw [tokens] at scanned
  split at scanned
  · rename_i ts' result
    cases scanned
    exact hasLine_iff_spans.mpr ((Scan.line_of_tokensFrom _ _).1 ts result t member)
  · cases scanned

/-- A program that was parsed holds parts of the language only, on lines of its text. -/
theorem program_fits {p : Program} (parsed : program code = .ok p) : p.Fits (HasLine code) := by
  rw [program] at parsed
  split at parsed
  · rename_i ts scanned
    exact programOfTokens_fits (line_of_tokens scanned) (hasLine_one code) parsed
  · cases parsed

/-- A text without a program has a string without an end or breaks the grammar, on one of its
lines. -/
theorem cases_of_program_error {f : Fault} (failed : program code = .error f) :
    (∃ line column, f = .unclosedString line column ∧ HasLine code line) ∨
      ∃ e, f = .grammar e ∧ HasLine code e.line := by
  rw [program] at failed
  split at failed
  · rename_i ts scanned
    exact .inr (programOfTokens_line (line_of_tokens scanned) (hasLine_one code) failed)
  · rename_i f' unscanned
    cases failed
    rw [tokens] at unscanned
    split at unscanned
    · cases unscanned
    · rename_i q result
      cases unscanned
      have here := hasLine_iff_spans.mpr ((Scan.line_of_tokensFrom _ _).2 q result)
      exact .inl ⟨q.line, q.column, rfl, here⟩

theorem line_of_program_error {f : Fault} (failed : program code = .error f) :
    HasLine code f.errorLine := by
  rcases cases_of_program_error failed with ⟨line, column, rfl, here⟩ | ⟨e, rfl, here⟩
  · exact here
  · exact here

/-- What is wrong with a text is not the use of a machine. -/
theorem cause_of_program_error {f : Fault} (failed : program code = .error f) :
    ∀ e, f.cause ≠ .runtime e := by
  rcases cases_of_program_error failed with ⟨line, column, rfl, -⟩ | ⟨e, rfl, -⟩
  · intro e same
    cases same
  · intro e same
    cases same

end Source

/-! ## Lines in messages -/

/-- The digits behind `ligne` are those of the number written there. -/
theorem lineDigits?_number (n : Nat) (rest : List Char) :
    lineDigits? ("ligne ".toList ++ (Nat.toDigits 10 n ++ ':' :: rest))
      = some (Nat.toDigits 10 n) := by
  have digits : (Nat.toDigits 10 n ++ ':' :: rest).takeWhile Decimal.isDigit
      = Nat.toDigits 10 n := by
    rw [List.takeWhile_append_of_pos fun c => Decimal.isDigit_of_mem_toDigits]
    simp [Decimal.isDigit]
  generalize Nat.toDigits 10 n ++ ':' :: rest = behind at digits
  show (if (behind.takeWhile Decimal.isDigit).isEmpty then none
    else some (behind.takeWhile Decimal.isDigit)) = _
  rw [digits, if_neg (by simp)]

/-- The line with which a message starts is the one that is read off it. -/
theorem mentionedLine_atLine {n : Nat} (small : n ≤ maxLine) (text : String) :
    mentionedLine (atLine n text).toList = n := by
  have written : (toString (n : Int)).toList = Nat.toDigits 10 n := by
    show (toString n).toList = _
    rw [Nat.toString_eq_ofList_toDigits, String.toList_ofList]
  have message : (atLine n text).toList = "Erreur ".toList
      ++ ("ligne ".toList ++ (Nat.toDigits 10 n ++ ':' :: ' ' :: text.toList)) := by
    have head : "Erreur ligne ".toList = "Erreur ".toList ++ "ligne ".toList := rfl
    have colon : ": ".toList = [':', ' '] := rfl
    show ("Erreur ligne " ++ toString (n : Int) ++ ": " ++ text).toList = _
    simp only [String.toList_append, written, head, colon, List.append_assoc, List.cons_append,
      List.nil_append]
  -- no `ligne` starts in the first word
  have skipped : ∀ cs, mentionedLine ("Erreur ".toList ++ ("ligne ".toList ++ cs))
      = mentionedLine ("ligne ".toList ++ cs) := fun cs => rfl
  rw [message, skipped]
  have found : ∀ cs ds, lineDigits? ("ligne ".toList ++ cs) = some ds →
      mentionedLine ("ligne ".toList ++ cs)
        = if Decimal.digitsValue ds ≤ maxLine then Decimal.digitsValue ds else 0 := by
    intro cs ds digits
    show mentionedLine ('l' :: ("igne ".toList ++ cs)) = _
    rw [mentionedLine, show lineDigits? ('l' :: ("igne ".toList ++ cs)) = some ds from digits]
  rw [found _ _ (lineDigits?_number n _), Decimal.digitsValue_toDigits, if_pos small]

/-- The least line that an error names in its message; a misuse may concern no line at all. -/
def RuntimeError.leastLine : RuntimeError → Int
  | misuse _ _ => 1
  | _ => 0

theorem RuntimeError.leastLine_mem (e : RuntimeError) : 0 ≤ e.leastLine ∧ e.leastLine ≤ 1 := by
  cases e <;> simp [leastLine]

theorem RuntimeError.exists_message {e : RuntimeError} (named : e.leastLine ≤ e.line) :
    ∃ text, e.message = atLine e.line text := by
  cases e with
  | misuse cause line => exact ⟨_, if_neg (by have : 1 ≤ line := named; omega)⟩
  | undefinedVariable | divisionByZero | typeMismatch | budgetSpent => exact ⟨_, rfl⟩

/-- The line of an error in a run is read off its message. -/
theorem errorLine_runtime {e : RuntimeError} (positive : 0 < e.line) (small : e.line ≤ maxLine) :
    (Fault.runtime e).errorLine = e.line := by
  obtain ⟨text, message⟩ :=
    RuntimeError.exists_message (Int.le_trans e.leastLine_mem.2 positive)
  obtain ⟨n, line⟩ := Int.eq_ofNat_of_zero_le (Int.le_of_lt positive)
  show ((mentionedLine e.message.toList : Nat) : Int) = e.line
  rw [line] at small message ⊢
  rw [message, mentionedLine_atLine (Int.ofNat_le.mp small)]

end Pseudocode
