import Mathlib.Data.List.TakeWhile
import Pseudocode.Proofs.Decimal.Spelling
import Pseudocode.Value.Basic

/-!
# Answers that are numbers

An answer is a number if and only if it spells a decimal, the white space around it apart, and the
decimal is not too large for a double; then it is the double nearest to the decimal. Any other
answer is kept as it was given, with the white space around it (`ofAnswer_reads_decimals`).
-/

namespace Pseudocode

namespace Text

theorem dropBlanks_append_of_blank {before : List Char} (blank : ∀ c ∈ before, isBlank c = true)
    (cs : List Char) : dropBlanks (before ++ cs) = dropBlanks cs :=
  List.dropWhile_append_of_pos blank

/-- White space at the end of a text is no more than that. -/
theorem trimChars_append_of_blank (cs : List Char) {after : List Char}
    (blank : ∀ c ∈ after, isBlank c = true) : trimChars (cs ++ after) = trimChars cs := by
  have blank' : ∀ c ∈ after.reverse, isBlank c = true := fun c member =>
    blank c (List.mem_reverse.mp member)
  simp only [trimChars, dropBlanks, List.dropWhile_append]
  split
  · rename_i empty
    rw [List.isEmpty_iff.mp empty, List.dropWhile_eq_nil_iff.mpr blank]
  · rw [List.reverse_append, List.dropWhile_append_of_pos blank']

theorem trimChars_surrounded {before after : List Char} (blank : ∀ c ∈ before, isBlank c = true)
    (blank' : ∀ c ∈ after, isBlank c = true) (cs : List Char) :
    trimChars (before ++ cs ++ after) = trimChars cs := by
  rw [trimChars_append_of_blank _ blank', trimChars, dropBlanks_append_of_blank blank, trimChars]

end Text

namespace Decimal

/-- A text has the value that it spells, and no other. -/
theorem Spelling.value_unique {s s' : Spelling} (same : s.text = s'.text) :
    s.negative = s'.negative ∧ s.magnitude = s'.magnitude := by
  have literals : some s.literal = some s'.literal := by
    rw [← parse?_text, ← parse?_text, same]
  have literal := Option.some.inj literals
  constructor
  · exact congrArg Literal.negative literal
  · rw [magnitude_eq, magnitude_eq, literal]

theorem Spelling.magnitude_nonneg (s : Spelling) : 0 ≤ s.magnitude := by
  rw [magnitude]
  positivity

/-- The double that a spelled decimal is read as. -/
theorem Spelling.toFloat?_eq_some_iff (s : Spelling) {x : Float} :
    s.literal.toFloat? = some x ↔ s.magnitude < overflow ∧ Rounds s.negative s.magnitude x := by
  rw [Literal.toFloat?, nearestScaled?_eq_some_iff, ← magnitude_eq]
  constructor
  · rintro ⟨b, small, covers, rfl⟩
    have bound := covers.lt_infinityBits_iff.mp small
    exact ⟨bound, (rounds_iff s.magnitude_nonneg bound).mpr ⟨b, small, covers, rfl⟩⟩
  · rintro ⟨bound, rounds⟩
    exact (rounds_iff s.magnitude_nonneg bound).mp rounds

theorem Spelling.exists_toFloat? (s : Spelling) (bound : s.magnitude < overflow) :
    ∃ x, s.literal.toFloat? = some x := by
  obtain ⟨b, covers⟩ := exists_covers s.magnitude_nonneg
  have small := covers.lt_infinityBits_iff.mpr bound
  refine ⟨signed s.negative b, nearestScaled?_eq_some_iff.mpr ⟨b, small, ?_, rfl⟩⟩
  rwa [← magnitude_eq]

end Decimal

namespace Value

open Decimal

/-- The double that an answer is read as, if it is read as one. -/
def number? (raw : String) : Option Float :=
  (Literal.parse? (Text.trim raw).toList).bind Literal.toFloat?

theorem ofAnswer_eq (raw : String) : ofAnswer raw = (number? raw).elim (.text raw) .num := by
  rw [ofAnswer, number?, Text.trim, String.toList_ofList]
  split
  · rename_i x found
    rw [found]
    rfl
  · rename_i missing
    rw [missing]
    rfl

theorem number?_eq_some_iff {raw : String} {x : Float} :
    number? raw = some x ↔ ∃ s : Spelling, s.text = (Text.trim raw).toList ∧
      s.magnitude < overflow ∧ Rounds s.negative s.magnitude x := by
  rw [number?, Option.bind_eq_some_iff]
  constructor
  · rintro ⟨l, read, rounded⟩
    obtain ⟨s, text⟩ := exists_spelling read
    rw [← text, s.parse?_text] at read
    cases read
    exact ⟨s, text, s.toFloat?_eq_some_iff.mp rounded⟩
  · rintro ⟨s, text, rounds⟩
    exact ⟨s.literal, text ▸ s.parse?_text, s.toFloat?_eq_some_iff.mpr rounds⟩

/-- What is around an answer does not matter for the number that it is read as. -/
theorem number?_surrounded {before after : String} (blank : Text.isBlankText before = true)
    (blank' : Text.isBlankText after = true) (raw : String) :
    number? (before ++ raw ++ after) = number? raw := by
  have trimmed : Text.trim (before ++ raw ++ after) = Text.trim raw := by
    rw [Text.trim, Text.trim, String.toList_append, String.toList_append,
      Text.trimChars_surrounded (List.all_eq_true.mp blank) (List.all_eq_true.mp blank')]
  rw [number?, trimmed, number?]

theorem ofAnswer_eq_num_iff {raw : String} {x : Float} :
    ofAnswer raw = .num x ↔ number? raw = some x := by
  rw [ofAnswer_eq]
  cases number? raw with
  | none => simp
  | some y => simp

theorem exists_ofAnswer_eq_num_iff (raw : String) :
    (∃ x, ofAnswer raw = .num x) ↔ (Text.trim raw).toList ∈ decimal.matches' ∧
      ∀ s : Spelling, s.text = (Text.trim raw).toList → s.magnitude < overflow := by
  constructor
  · rintro ⟨x, read⟩
    obtain ⟨s, text, bound, -⟩ := number?_eq_some_iff.mp (ofAnswer_eq_num_iff.mp read)
    refine ⟨mem_decimal_iff.mpr ⟨s, text⟩, fun s' text' => ?_⟩
    rwa [(Spelling.value_unique (text'.trans text.symm)).2]
  · rintro ⟨member, bounds⟩
    obtain ⟨s, text⟩ := mem_decimal_iff.mp member
    obtain ⟨x, rounded⟩ := s.exists_toFloat? (bounds s text)
    refine ⟨x, ofAnswer_eq_num_iff.mpr (number?_eq_some_iff.mpr ⟨s, text, ?_⟩)⟩
    exact s.toFloat?_eq_some_iff.mp rounded

theorem ofAnswer_eq_text {raw : String} (unread : ∀ x, ofAnswer raw ≠ .num x) :
    ofAnswer raw = .text raw := by
  have missing : number? raw = none := by
    rw [Option.eq_none_iff_forall_ne_some]
    intro x found
    exact unread x (ofAnswer_eq_num_iff.mpr found)
  rw [ofAnswer_eq, missing]
  rfl

theorem ofAnswer_surrounded {before after : String} (blank : Text.isBlankText before = true)
    (blank' : Text.isBlankText after = true) (raw : String) :
    ofAnswer (before ++ raw ++ after) = match ofAnswer raw with
      | .num x => .num x
      | .text _ => .text (before ++ raw ++ after) := by
  rw [ofAnswer_eq, ofAnswer_eq raw, number?_surrounded blank blank']
  cases number? raw with
  | none => rfl
  | some x => rfl

/-- An answer is read as a number if and only if, the white space around it apart, it spells a
decimal that is not too large; the number is the nearest double, and finite. Otherwise the answer is
kept as it was given. White space around an answer changes neither what number it is nor whether it
is one. -/
theorem ofAnswer_reads_decimals (raw : String) :
    (∀ x, ofAnswer raw = .num x ↔ ∃ s : Spelling, s.text = (Text.trim raw).toList ∧
      s.magnitude < overflow ∧ Rounds s.negative s.magnitude x) ∧
    ((∃ x, ofAnswer raw = .num x) ↔ (Text.trim raw).toList ∈ decimal.matches' ∧
      ∀ s : Spelling, s.text = (Text.trim raw).toList → s.magnitude < overflow) ∧
    (∀ x, ofAnswer raw = .num x → x.isFinite = true) ∧
    ((∀ x, ofAnswer raw ≠ .num x) → ofAnswer raw = .text raw) ∧
    ∀ before after : String, Text.isBlankText before = true → Text.isBlankText after = true →
      ofAnswer (before ++ raw ++ after) = match ofAnswer raw with
        | .num x => .num x
        | .text _ => .text (before ++ raw ++ after) := by
  refine ⟨?_, exists_ofAnswer_eq_num_iff raw, ?_, ofAnswer_eq_text, ?_⟩
  · intro x
    rw [ofAnswer_eq_num_iff, number?_eq_some_iff]
  · intro x read
    obtain ⟨s, -, -, rounds⟩ := number?_eq_some_iff.mp (ofAnswer_eq_num_iff.mp read)
    exact rounds.finite
  · intro before after blank blank'
    exact ofAnswer_surrounded blank blank' raw

/-- A decimal without digits before its point, with tabs and an unbreakable space around it. -/
theorem ofAnswer_reads_decimals_surrounded :
    ofAnswer "-.5E+1" = .num (-5) ∧ (-5 : Float).isFinite = true ∧
      ofAnswer ("\t\t" ++ "-.5E+1" ++ "\u00a0") = .num (-5) := by
  have read : ofAnswer "-.5E+1" = .num (-5) := by
    rw [ofAnswer_eq_num_iff]
    decide +kernel
  have surrounded := (ofAnswer_reads_decimals "-.5E+1").2.2.2.2 "\t\t" "\u00a0" (by decide +kernel)
    (by decide +kernel)
  rw [read] at surrounded
  exact ⟨read, (ofAnswer_reads_decimals "-.5E+1").2.2.1 _ read, surrounded⟩

end Value

end Pseudocode
