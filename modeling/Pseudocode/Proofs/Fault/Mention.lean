import Pseudocode.Proofs.Source.Lines

/-!
# The line that a message names

An error of a run keeps its line in its message only, behind the word `ligne`, and the names,
operators and reasons in the same message are the user's: they may hold that word and a number too.
The line is read off all the same, because it stands before them (`mentionedLine_atLine`), and
because a text in front of the message hides it only by naming a line of its own
(`mentionedLine_behind`).

A fault may be wrapped any number of times, with texts around its message (`Fault.Wraps`) or in
other words altogether (`Fault.Carries`), and in both beside other faults. An error of a run brings
its line through the first, and lexical and grammatical faults through both
(`errorLine_under_wrapping`): a lexical one if none is reached before it, a grammatical one if no
other is reached before it and no lexical one at all. This last condition cannot be left out, since
a lexical fault goes first even where it is reached later (`errorLine_joined_lexical`).
-/

namespace Pseudocode

/-! ## Naming a line -/

/-- Somewhere in the text stand the word `ligne`, a space and a digit. -/
def NamesLine (text : List Char) : Prop :=
  ∃ before digit behind, text = before ++ ("ligne ".toList ++ digit :: behind) ∧
    Decimal.isDigit digit = true

/-- Digits are found exactly at the front of such a place. -/
theorem lineDigits?_ne_none_iff {text : List Char} : lineDigits? text ≠ none ↔
    ∃ digit behind, text = "ligne ".toList ++ digit :: behind ∧
      Decimal.isDigit digit = true := by
  constructor
  · intro found
    unfold lineDigits? at found
    split at found
    · rename_i rest
      cases rest with
      | nil => exact absurd rfl found
      | cons digit behind =>
        refine ⟨digit, behind, rfl, Classical.byContradiction fun other => ?_⟩
        simp only [List.takeWhile_cons_of_neg other] at found
        exact found rfl
    · exact absurd rfl found
  · rintro ⟨digit, behind, rfl, isDigit⟩
    show (if (List.takeWhile Decimal.isDigit (digit :: behind)).isEmpty then none
      else some (List.takeWhile Decimal.isDigit (digit :: behind))) ≠ none
    rw [List.takeWhile_cons_of_pos isDigit]
    nofun

theorem not_namesLine_nil : ¬NamesLine [] := by
  rintro ⟨before, digit, behind, split, -⟩
  cases before <;> cases split

theorem namesLine_cons_iff {c : Char} {text : List Char} :
    NamesLine (c :: text) ↔ lineDigits? (c :: text) ≠ none ∨ NamesLine text := by
  rw [lineDigits?_ne_none_iff]
  constructor
  · rintro ⟨_ | ⟨c', before⟩, digit, behind, split, isDigit⟩
    · exact .inl ⟨digit, behind, split, isDigit⟩
    · exact .inr ⟨before, digit, behind, (List.cons.inj split).2, isDigit⟩
  · rintro (⟨digit, behind, split, isDigit⟩ | ⟨before, digit, behind, rfl, isDigit⟩)
    · exact ⟨[], digit, behind, split, isDigit⟩
    · exact ⟨c :: before, digit, behind, rfl, isDigit⟩

instance decidableNamesLine : DecidablePred NamesLine
  | [] => isFalse not_namesLine_nil
  | _ :: text =>
    have := decidableNamesLine text
    decidable_of_iff _ namesLine_cons_iff.symm

/-- A place that starts before a character which names no line ends before it too. -/
theorem namesLine_of_lineDigits? {text rest : List Char} {c : Char}
    (outside : c ∉ "ligne ".toList) (noDigit : ¬Decimal.isDigit c = true)
    (found : lineDigits? (text ++ c :: rest) ≠ none) : NamesLine text := by
  obtain ⟨digit, behind, split, isDigit⟩ := lineDigits?_ne_none_iff.mp found
  have place : text ++ c :: rest = ("ligne ".toList ++ [digit]) ++ behind := by
    rw [split, List.append_assoc, List.singleton_append]
  rcases List.append_eq_append_iff.mp place with ⟨longer, inside, rest'⟩ | ⟨later, inside, -⟩
  · cases longer with
    | nil => exact ⟨[], digit, [], by rw [List.nil_append, inside, List.append_nil], isDigit⟩
    | cons c' longer =>
      -- the place would reach over the character
      obtain ⟨rfl, -⟩ := List.cons.inj rest'
      have member : c ∈ "ligne ".toList ++ [digit] := by
        rw [inside]
        exact List.mem_append_right _ List.mem_cons_self
      rcases List.mem_append.mp member with among | last
      · exact absurd among outside
      · obtain rfl := List.mem_singleton.mp last
        exact absurd isDigit noDigit
  · exact ⟨[], digit, later, by rw [inside, List.append_assoc]; rfl, isDigit⟩

/-- A text that names no line is passed over, up to a character that ends it. -/
theorem mentionedLine_behind {text rest : List Char} {c : Char} (outside : c ∉ "ligne ".toList)
    (noDigit : ¬Decimal.isDigit c = true) (silent : ¬NamesLine text) :
    mentionedLine (text ++ c :: rest) = mentionedLine (c :: rest) := by
  induction text with
  | nil => rfl
  | cons a text ih =>
    have nothing : lineDigits? (a :: (text ++ c :: rest)) = none := by
      refine Classical.byContradiction fun found => silent ?_
      exact namesLine_of_lineDigits? outside noDigit found
    rw [List.cons_append, mentionedLine, nothing]
    exact ih fun names => silent (namesLine_cons_iff.mpr (.inr names))

/-- The line of a message is the one that is read off any text in which only what stands before the
message could name another. -/
theorem mentionedLine_around {n : Nat} (small : n ≤ maxLine) {before : String}
    (silent : ¬NamesLine before.toList) (text behind : String) :
    mentionedLine (before ++ atLine n text ++ behind).toList = n := by
  have joined : atLine n text ++ behind = atLine n (text ++ behind) := String.append_assoc ..
  obtain ⟨rest, starts⟩ : ∃ rest, (atLine n (text ++ behind)).toList = 'E' :: rest := by
    refine ⟨("rreur ligne " ++ toString (n : Int) ++ ": " ++ (text ++ behind)).toList, ?_⟩
    show ("Erreur ligne " ++ toString (n : Int) ++ ": " ++ (text ++ behind)).toList = _
    simp only [String.toList_append]
    rfl
  have passed : mentionedLine (before.toList ++ 'E' :: rest) = mentionedLine ('E' :: rest) :=
    mentionedLine_behind (by decide) (by decide) silent
  rw [String.append_assoc, joined, String.toList_append, starts, passed, ← starts,
    mentionedLine_atLine small]

/-! ## Wrapped faults -/

namespace Fault

/-- Nothing that the fault holds has a line of this kind. -/
def Lacks (line? : Fault → Option Int) (f : Fault) : Prop :=
  ∀ g ∈ f.reached, line? g = none

/-- The fault holds neither a lexical nor a grammatical one. -/
def Unplaced (f : Fault) : Prop :=
  f.Lacks lexicalLine? ∧ f.Lacks grammaticalLine?

/-- The fault holds `inner` under any number of labels and texts around it; `before` is all that
stands before the message of `inner`, the messages of the faults told together with it included. -/
inductive Wraps (inner : Fault) : (before : String) → Fault → Prop
  | bare : Wraps inner "" inner
  | label (label : String) {before : String} {f : Fault} (h : Wraps inner before f) :
      Wraps inner (label ++ ": " ++ before) (.inContext label f)
  | around (front back : String) {before : String} {f : Fault} (h : Wraps inner before f) :
      Wraps inner (front ++ before) (.retold (front ++ f.message ++ back) f)
  | among (front back : String) (earlier later : List Fault) {before : String} {f : Fault}
      (h : Wraps inner before f) (others : ∀ p ∈ earlier ++ later, p.Unplaced) :
      Wraps inner (front ++ before)
        (.joined (front ++ f.message ++ back) (earlier ++ f :: later))

/-- The fault holds `inner`, in whatever words it tells of it. The parts of the joined faults on the
way to it that a search meets before it are `left`, and those that it would meet after it `right`. -/
inductive Carries (inner : Fault) : (left right : List Fault) → Fault → Prop
  | bare : Carries inner [] [] inner
  | inContext (label : String) {left right : List Fault} {f : Fault}
      (h : Carries inner left right f) : Carries inner left right (.inContext label f)
  | retold (text : String) {left right : List Fault} {f : Fault}
      (h : Carries inner left right f) : Carries inner left right (.retold text f)
  | joined (text : String) (earlier later : List Fault) {left right : List Fault} {f : Fault}
      (h : Carries inner left right f) :
      Carries inner (earlier ++ left) (right ++ later) (.joined text (earlier ++ f :: later))

/-- Only the innermost faults have a line of this kind. -/
structure Innermost (line? : Fault → Option Int) : Prop where
  inContext (label : String) (f : Fault) : line? (.inContext label f) = none
  retold (text : String) (f : Fault) : line? (.retold text f) = none
  joined (text : String) (parts : List Fault) : line? (.joined text parts) = none

theorem innermost_lexicalLine? : Innermost lexicalLine? :=
  ⟨fun _ _ => rfl, fun _ _ => rfl, fun _ _ => rfl⟩

theorem innermost_grammaticalLine? : Innermost grammaticalLine? :=
  ⟨fun _ _ => rfl, fun _ _ => rfl, fun _ _ => rfl⟩

variable {inner f : Fault} {before : String} {left right parts : List Fault}
  {line? : Fault → Option Int}

theorem findSome?_eq_none_of_lacks (none : ∀ p ∈ parts, p.Lacks line?) :
    (parts.flatMap reached).findSome? line? = .none := by
  rw [List.findSome?_eq_none_iff]
  intro g member
  obtain ⟨p, part, reached⟩ := List.mem_flatMap.mp member
  exact none p part g reached

/-- A search passes the parts before a fault, then what this one holds, then the parts behind. -/
theorem Carries.findSome?_reached (only : Innermost line?) (h : Carries inner left right f) :
    f.reached.findSome? line?
      = (left.flatMap reached ++ inner.reached ++ right.flatMap reached).findSome? line? := by
  induction h with
  | bare => simp
  | inContext label _ ih =>
    rw [reached_inContext, List.findSome?_cons_of_isNone (by rw [only.inContext]; rfl), ih]
  | retold text _ ih =>
    rw [reached_retold, List.findSome?_cons_of_isNone (by rw [only.retold]; rfl), ih]
  | joined text earlier later _ ih =>
    rw [reached_joined, List.findSome?_cons_of_isNone (by rw [only.joined]; rfl)]
    simp only [List.flatMap_append, List.flatMap_cons, List.findSome?_append] at ih ⊢
    rw [ih]
    simp only [Option.or_assoc]

/-- A fault in which a search finds nothing else keeps what is found in the inner one. -/
theorem Carries.findSome?_eq (only : Innermost line?) (h : Carries inner left right f)
    (others : ∀ p ∈ left ++ right, p.Lacks line?) :
    f.reached.findSome? line? = inner.reached.findSome? line? := by
  rw [h.findSome?_reached only, List.findSome?_append, List.findSome?_append,
    findSome?_eq_none_of_lacks fun p part => others p (List.mem_append_left _ part),
    findSome?_eq_none_of_lacks fun p part => others p (List.mem_append_right _ part),
    Option.none_or, Option.or_none]

theorem Carries.errorLine_of_lexical {line column : Int}
    (h : Carries (.unclosedString line column) left right f)
    (first : ∀ p ∈ left, p.Lacks lexicalLine?) : f.errorLine = line := by
  have found : f.reached.findSome? lexicalLine? = some line := by
    rw [h.findSome?_reached innermost_lexicalLine?, List.findSome?_append,
      List.findSome?_append, findSome?_eq_none_of_lacks first]
    rfl
  rw [errorLine, found]

theorem Carries.errorLine_of_grammatical {e : Parse.SyntaxError}
    (h : Carries (.grammar e) left right f) (first : ∀ p ∈ left, p.Lacks grammaticalLine?)
    (only : ∀ p ∈ left ++ right, p.Lacks lexicalLine?) : f.errorLine = e.line := by
  have noString : f.reached.findSome? lexicalLine? = none :=
    h.findSome?_eq innermost_lexicalLine? only
  have found : f.reached.findSome? grammaticalLine? = some e.line := by
    rw [h.findSome?_reached innermost_grammaticalLine?, List.findSome?_append,
      List.findSome?_append, findSome?_eq_none_of_lacks first]
    rfl
  rw [errorLine, noString, found]

theorem Wraps.carries (h : Wraps inner before f) :
    ∃ left right, Carries inner left right f ∧ ∀ p ∈ left ++ right, p.Unplaced := by
  induction h with
  | bare => exact ⟨[], [], .bare, nofun⟩
  | label label _ ih =>
    obtain ⟨left, right, carries, unplaced⟩ := ih
    exact ⟨left, right, .inContext label carries, unplaced⟩
  | around front back _ ih =>
    obtain ⟨left, right, carries, unplaced⟩ := ih
    exact ⟨left, right, .retold _ carries, unplaced⟩
  | among front back earlier later _ others ih =>
    obtain ⟨left, right, carries, unplaced⟩ := ih
    refine ⟨earlier ++ left, right ++ later, .joined _ earlier later carries, ?_⟩
    simp only [List.mem_append] at others unplaced ⊢
    rintro p ((part | part) | part | part)
    · exact others p (.inl part)
    · exact unplaced p (.inl part)
    · exact unplaced p (.inr part)
    · exact others p (.inr part)

/-- The message of a wrapped fault stands behind the texts that were put before it. -/
theorem Wraps.exists_message (h : Wraps inner before f) :
    ∃ behind, f.message = before ++ inner.message ++ behind := by
  induction h with
  | bare => exact ⟨"", by simp⟩
  | @label label before f _ ih =>
    obtain ⟨behind, message⟩ := ih
    refine ⟨behind, ?_⟩
    rw [message_inContext, message]
    simp only [String.append_assoc]
  | @around front back before f _ ih | @among front back _ _ before f _ _ ih =>
    obtain ⟨behind, message⟩ := ih
    refine ⟨behind ++ back, ?_⟩
    simp only [message_retold, message_joined, message, String.append_assoc]

/-- An error of a run that is wrapped still has its line in front of the user's words. -/
theorem Wraps.errorLine_eq {e : RuntimeError} (h : Wraps (.runtime e) before f)
    (silent : ¬NamesLine before.toList) (named : e.leastLine ≤ e.line) (small : e.line ≤ maxLine) :
    f.errorLine = e.line := by
  obtain ⟨text, message⟩ := RuntimeError.exists_message named
  obtain ⟨behind, wrapped⟩ := h.exists_message
  obtain ⟨n, line⟩ := Int.eq_ofNat_of_zero_le (Int.le_trans e.leastLine_mem.1 named)
  obtain ⟨left, right, carries, unplaced⟩ := h.carries
  have noString : f.reached.findSome? lexicalLine? = none :=
    carries.findSome?_eq innermost_lexicalLine? fun p part => (unplaced p part).1
  have noSyntax : f.reached.findSome? grammaticalLine? = none :=
    carries.findSome?_eq innermost_grammaticalLine? fun p part => (unplaced p part).2
  have words : f.message = before ++ atLine e.line text ++ behind := by
    rw [← message]
    exact wrapped
  rw [errorLine, noString, noSyntax, words]
  show ((mentionedLine (before ++ atLine e.line text ++ behind).toList : Nat) : Int) = e.line
  rw [line] at small ⊢
  rw [mentionedLine_around (Int.ofNat_le.mp small) silent]

end Fault

/-- The line of a fault survives wrapping. Let an error of a run, with any names, operators and
reasons in it, concern a line that it can name and that can be written down, and let it be wrapped
with texts that, taken together, name no line before it, and beside nothing lexical or grammatical:
the line of the whole is that of the error. The line of a string without an end is that of whatever
carries it, as long as no other such string is reached before it; the line of a syntax error is that
of whatever carries it, as long as no other one is reached before it and no string without an end is
reached at all. -/
theorem errorLine_under_wrapping :
    (∀ (e : RuntimeError) (before : String) (f : Fault), Fault.Wraps (.runtime e) before f →
      ¬NamesLine before.toList → e.leastLine ≤ e.line → e.line ≤ maxLine →
      f.errorLine = e.line) ∧
    (∀ (line column : Int) (left right : List Fault) (f : Fault),
      Fault.Carries (.unclosedString line column) left right f →
      (∀ p ∈ left, p.Lacks Fault.lexicalLine?) → f.errorLine = line) ∧
    ∀ (e : Parse.SyntaxError) (left right : List Fault) (f : Fault),
      Fault.Carries (.grammar e) left right f → (∀ p ∈ left, p.Lacks Fault.grammaticalLine?) →
      (∀ p ∈ left ++ right, p.Lacks Fault.lexicalLine?) → f.errorLine = e.line := by
  refine ⟨fun e before f wraps silent named small => ?_,
    fun line column left right f carries first => ?_,
    fun e left right f carries first only => ?_⟩
  · exact wraps.errorLine_eq silent named small
  · exact carries.errorLine_of_lexical first
  · exact carries.errorLine_of_grammatical first only

/-- A variable whose name reads like the name of a line, in a run that is labelled and reported with
another line behind it; a string without an end on no line of a text, told in misleading words
before another one; and a syntax error between two other faults. -/
theorem errorLine_under_wrapping_named :
    let e : RuntimeError := .undefinedVariable "ligne 7" 3
    let inner : Fault := .inContext "run" (.runtime e)
    let f : Fault := .retold ("la ligne : " ++ inner.message ++ " (voir ligne 12)") inner
    let missing : Parse.SyntaxError := { line := 5, expected := .kind .fin, got := .eof }
    ¬NamesLine "la ligne : run: ".toList ∧ f.errorLine = 3 ∧
      (Fault.joined "ligne 12" [.unclosedString (-4) 1, .unclosedString 9 1]).errorLine = -4 ∧
      (Fault.joined "ligne 12" [.interrupted 8, .grammar missing, .unfinished]).errorLine = 5 := by
  intro e inner f missing
  have silent : ¬NamesLine "la ligne : run: ".toList := by decide
  have wraps : Fault.Wraps (.runtime e) "la ligne : run: " f :=
    .around "la ligne : " " (voir ligne 12)" (.label "run" .bare)
  refine ⟨silent, ?_, ?_, ?_⟩
  · exact errorLine_under_wrapping.1 e _ f wraps silent (by decide) (by decide)
  · exact errorLine_under_wrapping.2.1 (-4) 1 _ _ _
      (.joined "ligne 12" [] [.unclosedString 9 1] .bare) nofun
  · refine errorLine_under_wrapping.2.2 missing _ _ _
      (.joined "ligne 12" [.interrupted 8] [.unfinished] .bare) ?_ ?_
    · simp [Fault.Lacks, Fault.reached, Fault.grammaticalLine?]
    · simp [Fault.Lacks, Fault.reached, Fault.lexicalLine?]

/-- Where a syntax error is told together with a string without an end, the line of the whole is
that of the string, in whichever order the two are reached. -/
theorem errorLine_joined_lexical :
    let missing : Parse.SyntaxError := { line := 3, expected := .kind .fin, got := .eof }
    let open' : Fault := .unclosedString 7 1
    let f : Fault := .joined ((Fault.grammar missing).message ++ "\n" ++ open'.message)
      [.grammar missing, open']
    let g : Fault := .joined (open'.message ++ "\n" ++ (Fault.grammar missing).message)
      [open', .grammar missing]
    Fault.Carries (.grammar missing) [] [open'] f ∧ f.errorLine = 7 ∧
      Fault.Carries (.grammar missing) [open'] [] g ∧ g.errorLine = 7 ∧ missing.line = 3 := by
  intro missing open' f g
  exact ⟨.joined _ [] [open'] .bare, rfl, .joined _ [open'] [] .bare, rfl, rfl⟩

end Pseudocode
