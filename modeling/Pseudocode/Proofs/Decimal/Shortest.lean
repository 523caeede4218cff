import Mathlib.Data.Nat.Cast.Order.Field
import Pseudocode.Decimal.Shortest
import Pseudocode.Proofs.Decimal.Rounding

/-!
# The shortest decimal of a double rounds to it

The interval of a double is bounded by the two midpoints around it (`interval_spec`), so a decimal
is in the interval if and only if it rounds to the double (`contains_iff_covers`). A grid that is
finer than the distance to the midpoint below has a point in the interval, and the grid of the
eighteenth digit is (`onGrid?_ne_none`); the search ends there at the latest.
-/

namespace Pseudocode.Decimal

/-- The fraction that a decimal stands for. -/
def Scaled.value (x : Scaled) : ℚ :=
  x.digits * 10 ^ x.exponent

/-! ## Intervals -/

theorem dyadic_form {k r : Nat} (bound : r < 2 ^ 53) (full : k = 0 ∨ 2 ^ 52 ≤ r) :
    dyadic (k * 2 ^ 52 + r) = ⟨r, k - 1074⟩ := by
  rw [dyadic, leastExponent]
  by_cases small : r < 2 ^ 52
  · obtain rfl : k = 0 := full.resolve_right (by omega)
    rw [if_pos (by omega)]
    simp
  · rw [if_neg (by omega), Dyadic.mk.injEq]
    exact ⟨by omega, by omega⟩

/-- The two powers of two of an interval make up the one of its double. -/
theorem up_div_down (q : Int) :
    (((if 0 ≤ q then Nat.pow 2 q.toNat else 1 : Nat) : ℚ)
      / (if 0 ≤ q then 4 else 4 * Nat.pow 2 (-q).toNat : Nat)) = 2 ^ q / 4 := by
  by_cases nonneg : 0 ≤ q
  · obtain ⟨m, rfl⟩ := Int.eq_ofNat_of_zero_le nonneg
    simp [nonneg]
  · obtain ⟨m, rfl⟩ : ∃ m : Nat, q = -m := ⟨(-q).toNat, by omega⟩
    rw [if_neg nonneg, if_neg nonneg]
    simp
    ring

/-- The midpoint below a double. It is nearer at a power of two, unless the exponent is the least
one. -/
theorem midpoint_pred_form {k r : Nat} (filled : 0 < r) (bound : r < 2 ^ 53)
    (full : k = 0 ∨ 2 ^ 52 ≤ r) :
    midpoint (k * 2 ^ 52 + r - 1)
      = (r - (if r = 2 ^ 52 ∧ 0 < k then 1 / 4 else 1 / 2)) * 2 ^ (k - 1074 : Int) := by
  by_cases narrow : r = 2 ^ 52 ∧ 0 < k
  · obtain ⟨rfl, positive⟩ := narrow
    obtain ⟨k, rfl⟩ : ∃ k', k = k' + 1 := ⟨k - 1, by omega⟩
    have before : (k + 1) * 2 ^ 52 + 2 ^ 52 - 1 = k * 2 ^ 52 + (2 ^ 53 - 1) := by omega
    rw [before, midpoint_form (by norm_num) (by norm_num), if_pos (by simp),
      show ((k + 1 : Nat) - 1074 : Int) = k - 1074 + 1 by omega, zpow_add_one₀ two_ne_zero]
    norm_num
    ring
  · obtain ⟨r, rfl⟩ : ∃ r', r = r' + 1 := ⟨r - 1, by omega⟩
    rw [if_neg narrow, ← Nat.add_assoc, Nat.add_sub_cancel, midpoint_form (by omega) (by omega)]
    push_cast
    ring

/-- The interval of a double: its value, the midpoints around it, and whether they belong to it. -/
structure Interval.Spec (i : Interval) (b : Nat) : Prop where
  pos : 0 < i.denominator
  lower : (i.lower / i.denominator : ℚ) = midpoint (b - 1)
  value : (i.value / i.denominator : ℚ) = magnitude b
  upper : (i.upper / i.denominator : ℚ) = midpoint b
  closed : i.closed = true ↔ Even b

theorem interval_spec {b : Nat} (filled : 0 < b) : (dyadic b).interval.Spec b := by
  obtain ⟨k, r, rfl, bound, full⟩ := exists_form b
  have positive : 0 < r := by omega
  have power := up_div_down (k - 1074)
  rw [dyadic_form bound full]
  constructor
  · simp only [Dyadic.interval]
    split
    · norm_num
    · exact Nat.mul_pos (by norm_num) (Nat.pow_pos two_pos)
  · have narrow : (r = Nat.pow 2 mantissaBits ∧ leastExponent < (k : Int) - 1074) ↔
        r = 2 ^ 52 ∧ 0 < k := by
      rw [leastExponent, show Nat.pow 2 mantissaBits = 2 ^ 52 from rfl]
      omega
    have quarter : ((4 * r - (if r = 2 ^ 52 ∧ 0 < k then 1 else 2) : Nat) : ℚ)
        = 4 * (r - (if r = 2 ^ 52 ∧ 0 < k then 1 / 4 else 1 / 2)) := by
      split
      · rw [Nat.cast_sub (by omega)]
        push_cast
        ring
      · rw [Nat.cast_sub (by omega)]
        push_cast
        ring
    rw [midpoint_pred_form positive bound full]
    simp only [Dyadic.interval, narrow, decide_eq_true_eq, Nat.cast_mul, mul_div_assoc, power,
      quarter]
    ring
  · rw [magnitude_form bound.le full]
    simp only [Dyadic.interval, Nat.cast_mul, mul_div_assoc, power]
    push_cast
    ring
  · rw [midpoint_form bound full]
    simp only [Dyadic.interval, Nat.cast_mul, mul_div_assoc, power]
    push_cast
    ring
  · simp only [Dyadic.interval, decide_eq_true_eq, Nat.even_iff]
    omega

/-! ## Decimals in an interval -/

section

variable {b : Nat} {v w : ℚ}

theorem within_iff_of_even (even : Even b) : Within b v w ↔ v ≤ w := by
  rw [Within, le_iff_lt_or_eq]
  simp [even]

theorem within_iff_of_not_even (odd : ¬Even b) : Within b v w ↔ v < w := by
  simp [Within, odd]

theorem covers_iff (filled : 0 < b) :
    Covers b v ↔ Within b (midpoint (b - 1)) v ∧ Within b v (midpoint b) := by
  constructor
  · intro covers
    exact ⟨covers.above (b - 1) (by omega), covers.below⟩
  · rintro ⟨above, below⟩
    refine ⟨fun a behind => ?_, below⟩
    rwa [show a = b - 1 by omega]

end

section

variable {i : Interval} {b : Nat}

/-- A decimal is in the interval of a double if and only if it rounds to the double. -/
theorem contains_iff_covers (spec : i.Spec b) (filled : 0 < b) (digits : Nat) (k : Int) :
    i.contains digits k = true ↔ Covers b (digits * 10 ^ k) := by
  obtain ⟨up, down, powers, pos, ten⟩ : ∃ up down : Nat,
      (if 0 ≤ k then (Nat.pow 10 k.toNat, 1) else (1, Nat.pow 10 (-k).toNat)) = (up, down) ∧
        0 < down ∧ (up / down : ℚ) = 10 ^ k := by
    by_cases nonneg : 0 ≤ k
    · obtain ⟨m, rfl⟩ := Int.eq_ofNat_of_zero_le nonneg
      exact ⟨_, _, if_pos nonneg, one_pos, by simp⟩
    · obtain ⟨m, rfl⟩ : ∃ m : Nat, k = -m := ⟨(-k).toNat, by omega⟩
      exact ⟨_, _, if_neg nonneg, Nat.pow_pos (by norm_num), by simp⟩
  have denominator : (0 : ℚ) < i.denominator := by exact_mod_cast spec.pos
  have positive : (0 : ℚ) < down := by exact_mod_cast pos
  have point : (digits : ℚ) * 10 ^ k = (digits * up : Nat) / down := by
    rw [← ten]
    push_cast
    ring
  rw [covers_iff filled, ← spec.lower, ← spec.upper, point, Interval.contains]
  simp only [powers]
  by_cases even : Even b
  · rw [if_pos (spec.closed.mpr even), within_iff_of_even even, within_iff_of_even even,
      div_le_div_iff₀ denominator positive, div_le_div_iff₀ positive denominator]
    simp only [Bool.and_eq_true, decide_eq_true_eq]
    exact_mod_cast Iff.rfl
  · rw [if_neg (mt spec.closed.mp even), within_iff_of_not_even even, within_iff_of_not_even even,
      div_lt_div_iff₀ denominator positive, div_lt_div_iff₀ positive denominator]
    simp only [Bool.and_eq_true, decide_eq_true_eq]
    exact_mod_cast Iff.rfl

theorem contains_of_onGrid? {k : Int} {digits : Nat} (found : i.onGrid? k = some digits) :
    i.contains digits k = true := by
  simp only [Interval.onGrid?] at found
  split at found
  · rename_i low high
    cases found
    split
    · exact low
    · exact high
  · rename_i low high
    cases found
    exact low
  · rename_i low high
    cases found
    exact high
  · cases found

/-- The search finds a decimal of the interval if it meets a grid that has one. -/
theorem contains_search {fuel n : Nat} {k : Int} (met : n < fuel)
    (hit : i.onGrid? (k - n) ≠ none) :
    i.contains (i.search fuel k).digits (i.search fuel k).exponent = true := by
  induction fuel generalizing n k with
  | zero => omega
  | succ fuel ih =>
    rw [Interval.search]
    split
    · rename_i digits found
      exact contains_of_onGrid? found
    · rename_i missed
      obtain ⟨n, rfl⟩ : ∃ n', n = n' + 1 := by
        refine ⟨n - 1, ?_⟩
        have : n ≠ 0 := by
          rintro rfl
          simp [missed] at hit
        omega
      refine @ih n (k - 1) (by omega) ?_
      rwa [show k - 1 - (n : Int) = k - (n + 1 : Nat) by omega]

end

/-! ## The grid that is fine enough -/

theorem scaleTen_pos {n d : Nat} (pos : 0 < d) (k : Int) : 0 < (scaleTen n d k).2 := by
  rw [scaleTen]
  split
  · exact Nat.mul_pos pos (Nat.pow_pos (by norm_num))
  · exact pos

theorem scaleTen_eq (n d : Nat) (k : Int) :
    ((scaleTen n d k).1 / (scaleTen n d k).2 : ℚ) = n / d / 10 ^ k := by
  rw [scaleTen]
  split
  · rename_i nonneg
    obtain ⟨m, rfl⟩ := Int.eq_ofNat_of_zero_le nonneg
    simp [div_div]
  · rename_i negative
    obtain ⟨m, rfl⟩ : ∃ m : Nat, k = -m := ⟨(-k).toNat, by omega⟩
    simp
    ring

/-- The digits of a number say between which powers of ten it is. -/
theorem digitCount_spec {n : Nat} (filled : n ≠ 0) :
    0 < digitCount n ∧ 10 ^ (digitCount n - 1) ≤ n ∧ n < 10 ^ digitCount n := by
  have positive : 0 < digitCount n := Nat.length_toDigits_pos
  refine ⟨positive, ?_, (Nat.length_toDigits_le_iff (by norm_num) positive).mp le_rfl⟩
  by_cases single : digitCount n = 1
  · rw [single]
    omega
  · refine le_of_not_gt fun less => ?_
    have : digitCount n ≤ digitCount n - 1 :=
      (Nat.length_toDigits_le_iff (by norm_num) (by omega)).mpr less
    omega

theorem ten_pow_leadingExponent_le {n d : Nat} (filled : n ≠ 0) (pos : 0 < d) :
    (10 : ℚ) ^ leadingExponent n d ≤ n / d := by
  have positive : (0 : ℚ) < d := by exact_mod_cast pos
  rw [leadingExponent, le_div_iff₀ positive]
  by_cases whole : d ≤ n
  · obtain ⟨some, reached, -⟩ := digitCount_spec (Nat.div_pos whole pos).ne'
    rw [if_pos whole, show (digitCount (n / d) : Int) - 1 = (digitCount (n / d) - 1 : Nat) by omega,
      zpow_natCast]
    exact_mod_cast (Nat.le_div_iff_mul_le pos).mp reached
  · obtain ⟨-, -, unreached⟩ := digitCount_spec (n := (d - 1) / n)
      (Nat.div_pos (by omega) (by omega)).ne'
    have less : d - 1 < 10 ^ digitCount ((d - 1) / n) * n :=
      (Nat.div_lt_iff_lt_mul (by omega)).mp unreached
    have enough : d ≤ n * 10 ^ digitCount ((d - 1) / n) := by
      rw [Nat.mul_comm]
      omega
    rw [if_neg whole, zpow_neg, zpow_natCast, inv_mul_le_iff₀ (by positivity), mul_comm]
    exact_mod_cast enough

/-- The midpoint below a double is further away than the eighteenth digit of the double. -/
theorem midpoint_pred_lt {b : Nat} (filled : 0 < b) :
    midpoint (b - 1) < magnitude b - magnitude b / 10 ^ 17 := by
  obtain ⟨k, r, rfl, bound, full⟩ := exists_form b
  have power : (0 : ℚ) < 2 ^ (k - 1074 : Int) := by positivity
  have less : (r : ℚ) < 2 ^ 53 := by exact_mod_cast bound
  rw [midpoint_pred_form (by omega) bound full, magnitude_form bound.le full, mul_div_right_comm,
    ← sub_mul]
  refine mul_lt_mul_of_pos_right ?_ power
  have digit : (r : ℚ) / 10 ^ 17 < 1 / 4 := by
    rw [div_lt_iff₀ (by norm_num)]
    linarith
  split <;> linarith

/-- The grid point below a double rounds to it if the grid is fine enough. -/
theorem onGrid?_ne_none {i : Interval} {b : Nat} (spec : i.Spec b) (filled : 0 < b) {k : Int}
    (fine : (10 : ℚ) ^ k ≤ magnitude b / 10 ^ 17) : i.onGrid? k ≠ none := by
  have power : (0 : ℚ) < 10 ^ k := by positivity
  have pos := scaleTen_pos (n := i.value) spec.pos k
  have quotient := scaleTen_eq i.value i.denominator k
  rw [spec.value] at quotient
  generalize split : scaleTen i.value i.denominator k = fraction at pos quotient
  obtain ⟨n, d⟩ := fraction
  have positive : (0 : ℚ) < d := by exact_mod_cast pos
  have below : ((n / d : Nat) : ℚ) * 10 ^ k ≤ magnitude b := by
    rw [← le_div_iff₀ power, ← quotient]
    exact Nat.cast_div_le
  have above : magnitude b < ((n / d : Nat) + 1) * 10 ^ k := by
    rw [← div_lt_iff₀ power, ← quotient, div_lt_iff₀ positive]
    exact_mod_cast Nat.lt_mul_of_div_lt (Nat.lt_add_one _) pos
  have inside : i.contains (n / d) k = true := by
    rw [contains_iff_covers spec filled, covers_iff filled]
    refine ⟨.inl ?_, .inl (below.trans_lt (magnitude_lt_midpoint b))⟩
    linarith [midpoint_pred_lt filled]
  simp only [Interval.onGrid?, split, inside]
  split <;> simp_all

/-! ## The shortest decimal -/

theorem value_normalize (x : Scaled) : x.normalize.value = x.value := by
  fun_induction Scaled.normalize x with
  | case1 x whole ih =>
    rw [ih, Scaled.value, Scaled.value, zpow_add_one₀ (by norm_num)]
    have exact : (x.digits : ℚ) = (x.digits / 10 : Nat) * 10 := by
      exact_mod_cast (Nat.div_mul_cancel (Nat.dvd_of_mod_eq_zero whole.1)).symm
    rw [exact]
    push_cast
    ring
  | case2 x _ => rfl

/-- The shortest decimal of a double rounds to it. -/
theorem covers_shortest {b : Nat} (filled : 0 < b) : Covers b (dyadic b).shortest.value := by
  have spec := interval_spec filled
  have positive : 0 < magnitude b := by
    rw [← magnitude_zero]
    exact magnitude_strictMono filled
  have nonzero : (dyadic b).interval.value ≠ 0 := by
    intro zero
    have := spec.value
    rw [zero, Nat.cast_zero, zero_div] at this
    exact positive.ne this
  have leading := ten_pow_leadingExponent_le nonzero spec.pos
  rw [spec.value] at leading
  rw [Dyadic.shortest, value_normalize]
  generalize leadingExponent (dyadic b).interval.value (dyadic b).interval.denominator = k at *
  have fine : (10 : ℚ) ^ (k - (17 : Nat)) ≤ magnitude b / 10 ^ 17 := by
    rw [zpow_sub₀ (by norm_num), zpow_natCast]
    exact div_le_div_of_nonneg_right leading (by positivity)
  have hit := onGrid?_ne_none spec filled fine
  exact (contains_iff_covers spec filled _ _).mp (contains_search (by norm_num) hit)

end Pseudocode.Decimal
