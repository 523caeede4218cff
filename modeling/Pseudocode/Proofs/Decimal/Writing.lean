import Pseudocode.Decimal.Layout
import Pseudocode.Proofs.Decimal.Shortest
import Pseudocode.Proofs.Decimal.Spelling

/-!
# Written decimals spell their value

Both layouts of a decimal are spellings of it: without a power of ten (`exists_positional`) and with
one (`exists_scientific`). The exponent of the leading digit says between which powers of ten the
decimal lies (`leading_spec`), so it says also which layout is chosen.
-/

namespace Pseudocode.Decimal

/-! ## Digits of a number -/

theorem digitsText_append (ds ds' : List (Fin 10)) :
    digitsText (ds ++ ds') = digitsText ds ++ digitsText ds' :=
  List.map_append

theorem digitsText_zeros (n : Nat) : digitsText (List.replicate n 0) = List.replicate n '0' :=
  List.map_replicate

theorem length_digitsText (ds : List (Fin 10)) : (digitsText ds).length = ds.length :=
  List.length_map _

theorem digitsNumber_append (ds ds' : List (Fin 10)) :
    digitsNumber (ds ++ ds') = digitsNumber ds * 10 ^ ds'.length + digitsNumber ds' := by
  rw [digitsNumber, List.reverse_append, List.map_append, Nat.ofDigits_append]
  simp only [List.length_map, List.length_reverse]
  rw [digitsNumber, digitsNumber]
  ring

theorem digitsNumber_zeros (n : Nat) : digitsNumber (List.replicate n 0) = 0 := by
  induction n with
  | zero => rfl
  | succ n ih =>
    rw [List.replicate_succ', digitsNumber_append, ih, Nat.zero_mul]
    rfl

theorem digitsNumber_zeros_append (n : Nat) (ds : List (Fin 10)) :
    digitsNumber (List.replicate n 0 ++ ds) = digitsNumber ds := by
  rw [digitsNumber_append, digitsNumber_zeros, Nat.zero_mul, Nat.zero_add]

theorem exists_digitChars (n : Nat) :
    ∃ ds, digitsText ds = digitChars n ∧ digitsNumber ds = n ∧ ds ≠ [] := by
  obtain ⟨ds, text⟩ := exists_digitsText fun c (member : c ∈ digitChars n) =>
    isDigit_of_mem_toDigits member
  refine ⟨ds, text, ?_, ?_⟩
  · rw [← digitsValue_digitsText, text, digitChars, digitsValue_toDigits]
  · rintro rfl
    exact absurd text.symm Nat.toDigits_ne_nil

/-! ## Layouts -/

namespace Scaled

variable (x : Scaled)

/-- A decimal without a power of ten. -/
theorem exists_positional :
    ∃ s : Spelling, s.sign = none ∧ s.power = none ∧ s.whole ≠ [] ∧ s.text = x.positional ∧
      s.magnitude = x.value := by
  obtain ⟨ds, text, number, filled⟩ := exists_digitChars x.digits
  simp only [positional, ← text, length_digitsText]
  by_cases nonneg : 0 ≤ x.exponent
  · -- zeros fill the places up to the units
    obtain ⟨n, exponent⟩ := Int.eq_ofNat_of_zero_le nonneg
    refine ⟨⟨none, ds ++ List.replicate n 0, none, none, by simp [filled]⟩, rfl, rfl,
      by simp [filled], ?_, ?_⟩
    · rw [if_pos nonneg, exponent, Int.toNat_natCast]
      simp [Spelling.text, signText, pointText, powerText, digitsText_append, digitsText_zeros]
    · rw [Spelling.magnitude, Scaled.value, exponent]
      simp [Spelling.places, digitsNumber_append, digitsNumber_zeros, number]
  · obtain ⟨n, exponent⟩ : ∃ n : Nat, x.exponent = -n := ⟨(-x.exponent).toNat, by omega⟩
    rw [if_neg nonneg, exponent, show (- -(n : Int)).toNat = n by omega]
    by_cases inside : n < ds.length
    · -- the point is among the digits
      rw [if_pos inside]
      have front : ds.take (ds.length - n) ≠ [] := by
        rw [← List.length_pos_iff, List.length_take]
        omega
      refine ⟨⟨none, ds.take (ds.length - n), some (ds.drop (ds.length - n)), none,
        by simp [filled]⟩, rfl, rfl, front, ?_, ?_⟩
      · simp [Spelling.text, signText, pointText, powerText, digitsText]
      · rw [Spelling.magnitude, Scaled.value, exponent]
        have places : (ds.length : Int) - (ds.length - n : Nat) = n := by omega
        simp [Spelling.places, number, places]
    · -- zeros fill the places between the point and the digits
      rw [if_neg inside]
      refine ⟨⟨none, [0], some (List.replicate (n - ds.length) 0 ++ ds), none, by simp⟩, rfl, rfl,
        by simp, ?_, ?_⟩
      · simp [Spelling.text, signText, pointText, powerText, digitsText]
      · have zeros : [0] ++ (List.replicate (n - ds.length) 0 ++ ds)
            = List.replicate (n - ds.length + 1) 0 ++ ds := rfl
        have length : (n - ds.length + ds.length : Nat) = n := by omega
        rw [Spelling.magnitude, Scaled.value, exponent]
        simp only [Spelling.places, Option.getD_some, zeros, digitsNumber_zeros_append, number,
          List.length_append, List.length_replicate, length, Option.elim_none, zero_sub]

/-- A power of ten with its sign. -/
theorem exists_power (width : Nat) (e : Int) :
    ∃ p : PowerSpelling, p.value = e ∧
      p.text = 'e' :: (if e < 0 then '-' else '+') :: exponentChars width e.natAbs := by
  obtain ⟨ds, text, number, filled⟩ := exists_digitChars e.natAbs
  have digits : digitsNumber (List.replicate (width - ds.length) 0 ++ ds) = e.natAbs := by
    rw [digitsNumber_zeros_append, number]
  refine ⟨⟨false, some (decide (e < 0)), List.replicate (width - ds.length) 0 ++ ds,
    by simp [filled]⟩, ?_, ?_⟩
  · rw [PowerSpelling.value, digits]
    simp only [Option.some.injEq, decide_eq_true_eq]
    split <;> omega
  · rw [exponentChars, ← text, length_digitsText, ← digitsText_zeros, ← digitsText_append]
    simp [PowerSpelling.text, signText]

/-- A decimal with a power of ten. -/
theorem exists_scientific (width : Nat) :
    ∃ s : Spelling, s.sign = none ∧ s.text = x.scientific width ∧ s.magnitude = x.value := by
  obtain ⟨ds, text, number, filled⟩ := exists_digitChars x.digits
  obtain ⟨p, power, powerText⟩ := exists_power width x.leading
  obtain ⟨d, ds, rfl⟩ := List.exists_cons_of_ne_nil filled
  have shift : x.leading - ds.length = x.exponent := by
    rw [leading, ← text, length_digitsText, List.length_cons]
    omega
  simp only [scientific, ← text, ← powerText]
  cases ds with
  | nil =>
    refine ⟨⟨none, [d], none, some p, by simp⟩, rfl, rfl, ?_⟩
    rw [Spelling.magnitude, Scaled.value, ← shift]
    simp [Spelling.places, number, power]
  | cons d' ds =>
    refine ⟨⟨none, [d], some (d' :: ds), some p, by simp⟩, rfl, ?_, ?_⟩
    · simp [Spelling.text, signText, pointText, Decimal.powerText, digitsText]
    · rw [Spelling.magnitude, Scaled.value, ← shift]
      simp [Spelling.places, number, power]

/-- The exponent of the leading digit says how large a decimal is. -/
theorem leading_spec (filled : x.digits ≠ 0) :
    (10 : ℚ) ^ x.leading ≤ x.value ∧ x.value < 10 ^ (x.leading + 1) := by
  obtain ⟨positive, reached, unreached⟩ := digitCount_spec filled
  have power : (0 : ℚ) < 10 ^ x.exponent := by positivity
  have first : x.leading = (digitCount x.digits - 1 : Nat) + x.exponent := by
    rw [leading, digitChars, ← digitCount]
    omega
  have second : x.leading + 1 = digitCount x.digits + x.exponent := by omega
  rw [second, first, value, zpow_add₀ (by norm_num), zpow_add₀ (by norm_num), zpow_natCast,
    zpow_natCast]
  constructor
  · refine mul_le_mul_of_nonneg_right ?_ power.le
    exact_mod_cast reached
  · refine mul_lt_mul_of_pos_right ?_ power
    exact_mod_cast unreached

end Scaled

end Pseudocode.Decimal
