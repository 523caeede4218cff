import Pseudocode.Decimal.Literal
import Pseudocode.Proofs.Decimal.Doubles

/-!
# Decimals that are too large or too small

A decimal is compared with the bounds of the doubles by the size of its digits before its power of
ten is computed: one that is far too large has no double (`overflow_le_of_log2`), and one that is
far too small rounds to zero (`covers_zero_of_log2`). Neither shortcut shows: what is found is the
double that the decimal rounds to, if it is below the overflow (`nearestScaled?_eq_some_iff`).
-/

namespace Pseudocode.Decimal

variable {b : Nat} {v : ℚ}

/-- What rounds to a finite double is below the overflow. -/
theorem Covers.lt_infinityBits_iff (covers : Covers b v) : b < infinityBits ↔ v < overflow := by
  rw [← midpoint_last]
  constructor
  · intro small
    have order : midpoint b ≤ midpoint (infinityBits - 1) :=
      midpoint_strictMono.monotone (by omega)
    rcases covers.below with inside | ⟨edge, even⟩
    · exact inside.trans_le order
    · -- the largest double is odd
      refine edge.le.trans_lt (order.lt_of_ne fun same => ?_)
      rw [midpoint_strictMono.injective same] at even
      exact absurd even (by decide)
  · intro below
    by_contra large
    have positive : 0 < infinityBits := by decide
    have above := (covers.above (b - 1) (by omega)).le
    have order : midpoint (infinityBits - 1) ≤ midpoint (b - 1) :=
      midpoint_strictMono.monotone (by omega)
    linarith

theorem Covers.iff_eq (covers : Covers b v) {b' : Nat} : Covers b' v ↔ b' = b :=
  ⟨fun covers' => covers'.unique covers, fun same => same ▸ covers⟩

theorem exists_covers (nonneg : 0 ≤ v) : ∃ b, Covers b v := by
  have covers := covers_nearestBits v.num.toNat v.den_pos
  have whole : ((v.num.toNat : ℚ)) = v.num := by
    exact_mod_cast Int.toNat_of_nonneg (Rat.num_nonneg.mpr nonneg)
  rw [whole, Rat.num_div_den] at covers
  exact ⟨_, covers⟩

theorem covers_zero (small : v < midpoint 0) : Covers 0 v :=
  ⟨nofun, .inl small⟩

theorem nearest?_eq_some_iff {negative : Bool} {n d : Nat} (pos : 0 < d) {x : Float} :
    nearest? negative n d = some x ↔
      ∃ b < infinityBits, Covers b (n / d) ∧ x = signed negative b := by
  rw [nearest?_eq]
  constructor
  · intro found
    split at found
    · rename_i small
      cases found
      exact ⟨_, small, covers_nearestBits n pos, rfl⟩
    · cases found
  · rintro ⟨b, small, covers, rfl⟩
    rw [(nearestBits_eq_iff pos).mpr covers, if_pos small]

/-! ## Powers of ten -/

theorem overflow_le : overflow ≤ 10 ^ 310 := by
  have powers : (2 : ℚ) ^ 1024 ≤ 10 ^ 310 := by
    have : 2 ^ 1024 ≤ 10 ^ 310 := by decide +kernel
    exact_mod_cast this
  exact (sub_le_self _ (by positivity)).trans powers

theorem lt_midpoint_zero : (10 : ℚ) ^ (-330 : Int) < midpoint 0 := by
  have powers : (2 : ℚ) ^ 1075 < 10 ^ 330 := by
    have : 2 ^ 1075 < 10 ^ 330 := by decide +kernel
    exact_mod_cast this
  have half : midpoint 0 = (2 ^ 1075)⁻¹ := by
    have least : spacing 0 = 2 ^ (-(1074 : Nat) : Int) := rfl
    rw [midpoint, magnitude_zero, zero_add, least, zpow_neg, zpow_natCast, pow_succ _ 1074, mul_inv,
      div_eq_mul_inv]
  rw [half, show (-330 : Int) = -(330 : Nat) from rfl, zpow_neg, zpow_natCast]
  exact inv_strictAnti₀ (by positivity) powers

section

variable {digits : Nat} {shift : Int}

/-- The number of bits of a number tells a power of ten that it reaches. -/
theorem ten_pow_le_of_log2 (filled : digits ≠ 0) : 10 ^ (3 * (digits.log2 / 10)) ≤ digits := by
  calc 10 ^ (3 * (digits.log2 / 10)) = (10 ^ 3) ^ (digits.log2 / 10) := by rw [pow_mul]
    _ ≤ (2 ^ 10) ^ (digits.log2 / 10) := Nat.pow_le_pow_left (by norm_num) _
    _ = 2 ^ (10 * (digits.log2 / 10)) := by rw [pow_mul]
    _ ≤ 2 ^ digits.log2 := Nat.pow_le_pow_right two_pos (by omega)
    _ ≤ digits := Nat.log2_self_le filled

/-- The number of bits of a number tells a power of ten that it does not reach. -/
theorem lt_ten_pow_of_log2 (digits : Nat) : digits < 10 ^ (digits.log2 / 3 + 1) := by
  calc digits < 2 ^ (digits.log2 + 1) := Nat.lt_log2_self
    _ ≤ 2 ^ (3 * (digits.log2 / 3 + 1)) := Nat.pow_le_pow_right two_pos (by omega)
    _ = (2 ^ 3) ^ (digits.log2 / 3 + 1) := by rw [pow_mul]
    _ ≤ 10 ^ (digits.log2 / 3 + 1) := Nat.pow_le_pow_left (by norm_num) _

theorem overflow_le_of_log2 (filled : digits ≠ 0)
    (large : 310 ≤ 3 * ((digits.log2 : Int) / 10) + shift) :
    overflow ≤ digits * 10 ^ shift := by
  have reached : (10 : ℚ) ^ (3 * (digits.log2 / 10 : Nat) : Int) ≤ digits := by
    exact_mod_cast ten_pow_le_of_log2 filled
  calc overflow ≤ (10 : ℚ) ^ (310 : Int) := overflow_le
    _ ≤ 10 ^ (3 * (digits.log2 / 10 : Nat) + shift : Int) :=
        zpow_le_zpow_right₀ (by norm_num) (by omega)
    _ = 10 ^ (3 * (digits.log2 / 10 : Nat) : Int) * 10 ^ shift := zpow_add₀ (by norm_num) _ _
    _ ≤ digits * 10 ^ shift := by gcongr

theorem covers_zero_of_log2 (tiny : (digits.log2 : Int) / 3 + 1 + shift ≤ -330) :
    Covers 0 (digits * 10 ^ shift) := by
  refine covers_zero ?_
  have unreached : (digits : ℚ) < 10 ^ ((digits.log2 / 3 : Nat) + 1 : Int) := by
    exact_mod_cast lt_ten_pow_of_log2 digits
  calc (digits : ℚ) * 10 ^ shift
      < 10 ^ ((digits.log2 / 3 : Nat) + 1 : Int) * 10 ^ shift := by gcongr
    _ = 10 ^ ((digits.log2 / 3 : Nat) + 1 + shift : Int) := (zpow_add₀ (by norm_num) _ _).symm
    _ ≤ 10 ^ (-330 : Int) := zpow_le_zpow_right₀ (by norm_num) (by omega)
    _ < midpoint 0 := lt_midpoint_zero

end

/-- A decimal is read as the double that it rounds to, if there is one. -/
theorem nearestScaled?_eq_some_iff {negative : Bool} {digits : Nat} {shift : Int} {x : Float} :
    nearestScaled? negative digits shift = some x ↔
      ∃ b < infinityBits, Covers b (digits * 10 ^ shift) ∧ x = signed negative b := by
  have zero : nearest? negative 0 1 = some x ↔
      ∃ b < infinityBits, Covers b 0 ∧ x = signed negative b := by
    simpa using @nearest?_eq_some_iff negative 0 1 one_pos x
  simp only [nearestScaled?]
  by_cases empty : digits = 0
  · rw [if_pos empty, zero, empty, Nat.cast_zero, zero_mul]
  rw [if_neg empty]
  by_cases large : 310 ≤ 3 * ((digits.log2 : Int) / 10) + shift
  · rw [if_pos large]
    refine ⟨nofun, fun ⟨b, small, covers, _⟩ => ?_⟩
    have below := covers.lt_infinityBits_iff.mp small
    exact absurd (overflow_le_of_log2 empty large) (not_le.mpr below)
  rw [if_neg large]
  by_cases tiny : (digits.log2 : Int) / 3 + 1 + shift ≤ -330
  · have nothing : Covers 0 (0 : ℚ) := covers_zero (by simpa using magnitude_lt_midpoint 0)
    simp only [if_pos tiny, zero, nothing.iff_eq, (covers_zero_of_log2 tiny).iff_eq]
  rw [if_neg tiny]
  by_cases whole : 0 ≤ shift
  · obtain ⟨m, rfl⟩ := Int.eq_ofNat_of_zero_le whole
    rw [if_pos whole, nearest?_eq_some_iff one_pos]
    simp
  · obtain ⟨m, rfl⟩ : ∃ m : Nat, shift = -m := ⟨(-shift).toNat, by omega⟩
    have power : 0 < Nat.pow 10 (- -(m : Int)).toNat := Nat.pow_pos (by norm_num)
    rw [if_neg whole, nearest?_eq_some_iff power]
    simp [div_eq_mul_inv]

end Pseudocode.Decimal
