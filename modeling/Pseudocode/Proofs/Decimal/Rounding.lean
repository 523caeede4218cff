import Mathlib.Algebra.Order.Field.Power
import Mathlib.Data.Rat.Defs
import Mathlib.Order.Monotone.Basic
import Mathlib.Tactic.FieldSimp
import Mathlib.Tactic.Linarith
import Mathlib.Tactic.NormNum
import Mathlib.Tactic.Positivity
import Mathlib.Tactic.Ring
import Pseudocode.Decimal.Binary

/-!
# Rounding to the nearest double

The bit patterns of the doubles from zero up are the numbers from zero up, in the same order. So a
positive double is given by its number, and `magnitude` is what it stands for; the next double is
one `spacing` away, and half way between them lies a `midpoint`. The fractions that round to a
double are the ones between two midpoints, the midpoints themselves belonging to the even one
(`Covers`). No fraction has two doubles (`Covers.unique`), and `nearestBits` finds the one it has
(`covers_nearestBits`).
-/

namespace Pseudocode.Decimal

/-- The fraction that a dyadic number stands for. -/
def Dyadic.value (x : Dyadic) : ℚ :=
  x.mantissa * 2 ^ x.exponent

/-- The double whose bits are `b`, without a bound on its exponent. -/
def dyadic (b : Nat) : Dyadic :=
  if b / 2 ^ 52 = 0 then ⟨b, leastExponent⟩
  else ⟨b % 2 ^ 52 + 2 ^ 52, (b / 2 ^ 52 : Nat) - 1075⟩

/-- The fraction that the bits `b` stand for. -/
def magnitude (b : Nat) : ℚ :=
  (dyadic b).value

/-- The distance from a double to the next. -/
def spacing (b : Nat) : ℚ :=
  2 ^ ((max (b / 2 ^ 52) 1 : Nat) - 1075 : Int)

/-- The fraction half way between a double and the next. -/
def midpoint (b : Nat) : ℚ :=
  magnitude b + spacing b / 2

/-! ## The order of the doubles -/

/-- All doubles are multiples of a power of two, the largest for which their factor has 53 bits or
the least that there is. -/
theorem exists_form (b : Nat) :
    ∃ k r, b = k * 2 ^ 52 + r ∧ r < 2 ^ 53 ∧ (k = 0 ∨ 2 ^ 52 ≤ r) :=
  ⟨b / 2 ^ 52 - 1, b - (b / 2 ^ 52 - 1) * 2 ^ 52, by omega, by omega, by omega⟩

section

variable {k r : Nat}

theorem magnitude_form (bound : r ≤ 2 ^ 53) (full : k = 0 ∨ 2 ^ 52 ≤ r) :
    magnitude (k * 2 ^ 52 + r) = r * 2 ^ (k - 1074 : Int) := by
  rw [magnitude, dyadic]
  by_cases small : r < 2 ^ 52
  · obtain rfl : k = 0 := full.resolve_right (by omega)
    have low : (0 * 2 ^ 52 + r) / 2 ^ 52 = 0 := by omega
    rw [if_pos low, Dyadic.value, leastExponent]
    norm_num
  · by_cases carried : r = 2 ^ 53
    · -- a factor of 53 bits that was rounded up belongs to the next power of two
      have field : (k * 2 ^ 52 + r) / 2 ^ 52 = k + 2 := by omega
      have fraction : (k * 2 ^ 52 + r) % 2 ^ 52 = 0 := by omega
      rw [if_neg (by omega), Dyadic.value, field, fraction, carried,
        show ((k + 2 : Nat) - 1075 : Int) = (k - 1074) + 1 by omega,
        zpow_add₀ two_ne_zero]
      push_cast
      ring
    · have field : (k * 2 ^ 52 + r) / 2 ^ 52 = k + 1 := by omega
      have fraction : (k * 2 ^ 52 + r) % 2 ^ 52 + 2 ^ 52 = r := by omega
      rw [if_neg (by omega), Dyadic.value, field, fraction,
        show ((k + 1 : Nat) - 1075 : Int) = k - 1074 by omega]

theorem spacing_form (bound : r < 2 ^ 53) (full : k = 0 ∨ 2 ^ 52 ≤ r) :
    spacing (k * 2 ^ 52 + r) = 2 ^ (k - 1074 : Int) := by
  have field : max ((k * 2 ^ 52 + r) / 2 ^ 52) 1 = k + 1 := by omega
  rw [spacing, field, show ((k + 1 : Nat) - 1075 : Int) = k - 1074 by omega]

theorem midpoint_form (bound : r < 2 ^ 53) (full : k = 0 ∨ 2 ^ 52 ≤ r) :
    midpoint (k * 2 ^ 52 + r) = (r + 1 / 2) * 2 ^ (k - 1074 : Int) := by
  rw [midpoint, magnitude_form bound.le full, spacing_form bound full]
  ring

end

theorem spacing_pos (b : Nat) : 0 < spacing b := by
  rw [spacing]
  positivity

theorem magnitude_succ (b : Nat) : magnitude (b + 1) = magnitude b + spacing b := by
  obtain ⟨k, r, rfl, bound, full⟩ := exists_form b
  rw [Nat.add_assoc, magnitude_form bound (by omega), magnitude_form bound.le full,
    spacing_form bound full]
  push_cast
  ring

theorem magnitude_strictMono : StrictMono magnitude := by
  refine strictMono_nat_of_lt_succ fun b => ?_
  rw [magnitude_succ]
  linarith [spacing_pos b]

@[simp] theorem magnitude_zero : magnitude 0 = 0 := by
  rw [magnitude, dyadic, if_pos (by norm_num), Dyadic.value]
  simp

theorem magnitude_nonneg (b : Nat) : 0 ≤ magnitude b := by
  rw [← magnitude_zero]
  exact magnitude_strictMono.monotone b.zero_le

theorem magnitude_lt_midpoint (b : Nat) : magnitude b < midpoint b := by
  rw [midpoint]
  linarith [spacing_pos b]

theorem midpoint_lt_magnitude (b : Nat) : midpoint b < magnitude (b + 1) := by
  rw [midpoint, magnitude_succ]
  linarith [spacing_pos b]

theorem midpoint_strictMono : StrictMono midpoint :=
  strictMono_nat_of_lt_succ fun b =>
    (midpoint_lt_magnitude b).trans (magnitude_lt_midpoint (b + 1))

/-! ## The fractions that round to a double -/

/-- At most, and less if the bits are odd. -/
def Within (b : Nat) (v w : ℚ) : Prop :=
  v < w ∨ v = w ∧ Even b

/-- The fraction `v` is between the two midpoints around a double, or on one of them and the double
is even. -/
structure Covers (b : Nat) (v : ℚ) : Prop where
  above : ∀ a, a + 1 = b → Within b (midpoint a) v
  below : Within b v (midpoint b)

variable {b b' : Nat} {v w : ℚ}

theorem Within.le (within : Within b v w) : v ≤ w := by
  rcases within with less | ⟨same, -⟩
  · exact less.le
  · exact same.le

theorem not_covers_of_lt (less : b < b') (covers : Covers b v) : ¬Covers b' v := by
  intro covers'
  have before : b' - 1 + 1 = b' := by omega
  have low := covers'.above (b' - 1) before
  have high := covers.below
  have order : midpoint b ≤ midpoint (b' - 1) :=
    midpoint_strictMono.monotone (by omega)
  -- both can only be met on one midpoint, by two neighbours that are both even
  rcases low with low | ⟨low, even'⟩
  · linarith [high.le]
  · rcases high with high | ⟨high, even⟩
    · linarith
    · have same : b = b' - 1 := midpoint_strictMono.injective (high.symm.trans low.symm)
      rw [← before, ← same] at even'
      exact (Nat.not_even_iff_odd.mpr even.add_one) even'

/-- A fraction rounds to one double at most. -/
theorem Covers.unique (covers : Covers b v) (covers' : Covers b' v) : b = b' := by
  rcases lt_trichotomy b b' with less | same | more
  · exact absurd covers' (not_covers_of_lt less covers)
  · exact same
  · exact absurd covers (not_covers_of_lt more covers')

/-! ## Rounding -/

section

variable (n : Nat) {d : Nat}

section

variable {r : Nat}

theorem half_lt_div_iff (pos : 0 < d) : (1 / 2 : ℚ) < r / d ↔ d < 2 * r := by
  have positive : (0 : ℚ) < d := by exact_mod_cast pos
  rw [lt_div_iff₀ positive, ← Nat.cast_lt (α := ℚ), Nat.cast_mul, Nat.cast_two]
  constructor <;> intro less <;> linarith

theorem div_lt_half_iff (pos : 0 < d) : (r / d : ℚ) < 1 / 2 ↔ 2 * r < d := by
  have positive : (0 : ℚ) < d := by exact_mod_cast pos
  rw [div_lt_iff₀ positive, ← Nat.cast_lt (α := ℚ), Nat.cast_mul, Nat.cast_two]
  constructor <;> intro less <;> linarith

theorem div_eq_half (pos : 0 < d) (half : 2 * r = d) : (r / d : ℚ) = 1 / 2 := by
  refine le_antisymm (not_lt.mp ?_) (not_lt.mp ?_)
  · rw [half_lt_div_iff pos]
    exact half.not_gt
  · rw [div_lt_half_iff pos]
    exact half.not_lt

end

/-- Rounding a quotient to a whole number leaves half of one at most, and a half only to an even
one. -/
theorem roundHalfEven_spec (pos : 0 < d) :
    Within (roundHalfEven n d) (roundHalfEven n d - 1 / 2) (n / d) ∧
      Within (roundHalfEven n d) (n / d) (roundHalfEven n d + 1 / 2) := by
  have positive : (0 : ℚ) < d := by exact_mod_cast pos
  have split : (n : ℚ) / d = (n / d : Nat) + (n % d : Nat) / d := by
    rw [eq_comm, ← mul_left_inj' positive.ne', add_mul, div_mul_cancel₀ _ positive.ne',
      div_mul_cancel₀ _ positive.ne']
    exact_mod_cast (Nat.div_add_mod' n d)
  have small : (n % d : Nat) / (d : ℚ) < 1 := by
    rw [div_lt_one positive]
    exact_mod_cast Nat.mod_lt n pos
  have nonneg : (0 : ℚ) ≤ (n % d : Nat) / (d : ℚ) := by positivity
  simp only [roundHalfEven, Within, split]
  split
  · rename_i up
    push_cast
    refine ⟨?_, .inl (by linarith)⟩
    rcases up with more | ⟨half, odd⟩
    · have := (half_lt_div_iff pos).mpr more
      exact .inl (by linarith)
    · rw [div_eq_half pos half]
      exact .inr ⟨by ring, (Nat.odd_iff.mpr odd).add_one⟩
  · rename_i down
    refine ⟨.inl (by linarith), ?_⟩
    have least : 2 * (n % d) ≤ d := by omega
    rcases least.lt_or_eq with less | half
    · have := (div_lt_half_iff pos).mpr less
      exact .inl (by linarith)
    · rw [div_eq_half pos half]
      exact .inr ⟨rfl, Nat.even_iff.mpr (by omega)⟩

theorem scale_pos (pos : 0 < d) (q : Int) : 0 < (scale n d q).2 := by
  rw [scale]
  split
  · exact Nat.mul_pos pos (Nat.pow_pos two_pos)
  · exact pos

theorem scale_eq (n d : Nat) (q : Int) :
    ((scale n d q).1 / (scale n d q).2 : ℚ) = n / d / 2 ^ q := by
  rw [scale]
  split
  · rename_i nonneg
    obtain ⟨m, rfl⟩ := Int.eq_ofNat_of_zero_le nonneg
    simp [div_div]
  · rename_i negative
    obtain ⟨m, rfl⟩ : ∃ m : Nat, q = -m := ⟨(-q).toNat, by omega⟩
    simp
    ring

theorem div_lt_iff_cast_div_lt (pos : 0 < d) (m : Nat) : n / d < m ↔ (n / d : ℚ) < m := by
  have positive : (0 : ℚ) < d := by exact_mod_cast pos
  rw [Nat.div_lt_iff_lt_mul pos, div_lt_iff₀ positive]
  exact_mod_cast Iff.rfl

/-- The logarithms of numerator and denominator leave two powers of two for a fraction. -/
theorem between_log2 (filled : n ≠ 0) (pos : 0 < d) :
    (2 : ℚ) ^ (n.log2 - d.log2 - 1 : Int) < n / d ∧
      (n / d : ℚ) < 2 ^ (n.log2 - d.log2 + 1 : Int) := by
  have positive : (0 : ℚ) < d := by exact_mod_cast pos
  have n_low : (2 : ℚ) ^ (n.log2 : Int) ≤ n := by exact_mod_cast Nat.log2_self_le filled
  have n_high : (n : ℚ) < 2 ^ (n.log2 + 1 : Int) := by exact_mod_cast Nat.lt_log2_self
  have d_low : (2 : ℚ) ^ (d.log2 : Int) ≤ d := by exact_mod_cast Nat.log2_self_le pos.ne'
  have d_high : (d : ℚ) < 2 ^ (d.log2 + 1 : Int) := by exact_mod_cast Nat.lt_log2_self
  constructor
  · rw [lt_div_iff₀ positive]
    calc (2 : ℚ) ^ (n.log2 - d.log2 - 1 : Int) * d
        < 2 ^ (n.log2 - d.log2 - 1 : Int) * 2 ^ (d.log2 + 1 : Int) := by gcongr
      _ = 2 ^ (n.log2 : Int) := by
          rw [← zpow_add₀ two_ne_zero]
          congr 1
          ring
      _ ≤ n := n_low
  · rw [div_lt_iff₀ positive]
    calc (n : ℚ) < 2 ^ (n.log2 + 1 : Int) := n_high
      _ = 2 ^ (n.log2 - d.log2 + 1 : Int) * 2 ^ (d.log2 : Int) := by
          rw [← zpow_add₀ two_ne_zero]
          congr 1
          ring
      _ ≤ 2 ^ (n.log2 - d.log2 + 1 : Int) * d := by gcongr

/-- The exponent that is chosen leaves a mantissa of 53 bits, or is the least one and leaves
fewer. -/
theorem exponentFor_spec (filled : n ≠ 0) (pos : 0 < d) :
    -1074 ≤ exponentFor n d ∧ (n / d : ℚ) / 2 ^ exponentFor n d < 2 ^ 53 ∧
      (exponentFor n d = -1074 ∨ 2 ^ 52 ≤ (n / d : ℚ) / 2 ^ exponentFor n d) := by
  obtain ⟨above, below⟩ := between_log2 n filled pos
  obtain ⟨low, range, unfolded⟩ : ∃ low : Int,
      low = max (-1074) ((n.log2 : Int) - d.log2 - 1 - 52) ∧
      exponentFor n d
        = if (scale n d low).1 / (scale n d low).2 < 2 ^ 53 then low else low + 1 :=
    ⟨_, rfl, rfl⟩
  have quotient := div_lt_iff_cast_div_lt (scale n d low).1 (scale_pos n pos low) (2 ^ 53)
  rw [scale_eq] at quotient
  by_cases small : (scale n d low).1 / (scale n d low).2 < 2 ^ 53
  · rw [unfolded, if_pos small]
    refine ⟨by omega, by exact_mod_cast quotient.mp small, ?_⟩
    by_cases least : low = -1074
    · exact .inl least
    · right
      rw [le_div_iff₀ (by positivity), ← zpow_natCast, ← zpow_add₀ two_ne_zero,
        show ((52 : Nat) + low : Int) = n.log2 - d.log2 - 1 by omega]
      exact above.le
  · rw [unfolded, if_neg small]
    have large : (2 : ℚ) ^ 53 ≤ n / d / 2 ^ low := by
      have := mt quotient.mpr small
      push_cast at this
      exact not_lt.mp this
    have halved : (n / d : ℚ) / 2 ^ (low + 1) = n / d / 2 ^ low / 2 := by
      rw [zpow_add_one₀ two_ne_zero, ← div_div]
    refine ⟨by omega, ?_, .inr ?_⟩
    · rw [div_lt_iff₀ (by positivity), ← zpow_natCast, ← zpow_add₀ two_ne_zero]
      refine below.trans_le (zpow_le_zpow_right₀ one_le_two ?_)
      omega
    · rw [halved]
      linarith

end

theorem Within.mul (within : Within b v w) {p : ℚ} (pos : 0 < p) : Within b (v * p) (w * p) := by
  rcases within with less | ⟨same, even⟩
  · exact .inl (mul_lt_mul_of_pos_right less pos)
  · exact .inr ⟨by rw [same], even⟩

theorem Within.congr (within : Within b v w) (parity : Even b ↔ Even b') : Within b' v w :=
  within.imp_right fun both => ⟨both.1, parity.mp both.2⟩

/-- A multiple of a power of two is the double that a fraction rounds to if its factor is what the
fraction divided by that power rounds to. -/
theorem covers_form {k r : Nat} {t : ℚ} (bound : r ≤ 2 ^ 53) (full : k = 0 ∨ 2 ^ 52 ≤ r)
    (large : k = 0 ∨ 2 ^ 52 ≤ t) (low : Within r (r - 1 / 2) t) (high : Within r t (r + 1 / 2)) :
    Covers (k * 2 ^ 52 + r) (t * 2 ^ (k - 1074 : Int)) := by
  have power : (0 : ℚ) < 2 ^ (k - 1074 : Int) := by positivity
  have parity : Even r ↔ Even (k * 2 ^ 52 + r) := by
    rw [Nat.even_iff, Nat.even_iff]
    omega
  constructor
  · intro a behind
    by_cases inside : k = 0 ∨ 2 ^ 52 + 1 ≤ r
    · obtain ⟨r, rfl⟩ : ∃ r', r = r' + 1 := ⟨r - 1, by omega⟩
      obtain rfl : a = k * 2 ^ 52 + r := by omega
      have same : midpoint (k * 2 ^ 52 + r)
          = (((r + 1 : Nat) : ℚ) - 1 / 2) * 2 ^ (k - 1074 : Int) := by
        rw [midpoint_form (by omega) (by omega)]
        push_cast
        ring
      rw [same]
      exact (low.mul power).congr parity
    · -- the first multiple of a power of two is nearer to the double before it
      left
      have least : ((2 : ℚ) ^ 52) ≤ t := large.resolve_left (by omega)
      have exact : r = 2 ^ 52 := by omega
      calc midpoint a < magnitude (a + 1) := midpoint_lt_magnitude a
        _ = 2 ^ 52 * 2 ^ (k - 1074 : Int) := by
            rw [behind, magnitude_form bound full, exact]
            norm_num
        _ ≤ t * 2 ^ (k - 1074 : Int) := by gcongr
  · by_cases carried : r = 2 ^ 53
    · left
      have next : k * 2 ^ 52 + r = (k + 1) * 2 ^ 52 + 2 ^ 52 := by omega
      have same : midpoint (k * 2 ^ 52 + r) = (r + 1) * 2 ^ (k - 1074 : Int) := by
        rw [midpoint, magnitude_form bound full, next, spacing_form (by norm_num) (by simp),
          show ((k + 1 : Nat) - 1074 : Int) = k - 1074 + 1 by omega, zpow_add_one₀ two_ne_zero]
        ring
      rw [same]
      refine mul_lt_mul_of_pos_right ?_ power
      linarith [high.le]
    · rw [midpoint_form (by omega) full]
      exact (high.mul power).congr parity

/-- The fraction `n / d` rounds to the double with the bits that are found. -/
theorem covers_nearestBits (n : Nat) {d : Nat} (pos : 0 < d) :
    Covers (nearestBits n d) (n / d) := by
  by_cases filled : n = 0
  · subst filled
    have positive : (0 : ℚ) < midpoint 0 := by simpa using magnitude_lt_midpoint 0
    exact ⟨nofun, .inl (by simpa [nearestBits] using positive)⟩
  obtain ⟨least, bound, large⟩ := exponentFor_spec n filled pos
  have unfolded : nearestBits n d
      = (exponentFor n d + 1074).toNat * 2 ^ 52
        + roundHalfEven (scale n d (exponentFor n d)).1 (scale n d (exponentFor n d)).2 := by
    rw [nearestBits, if_neg filled]
    rfl
  obtain ⟨low, high⟩ := roundHalfEven_spec (scale n d (exponentFor n d)).1
    (scale_pos n pos (exponentFor n d))
  rw [scale_eq] at low high
  obtain ⟨k, exponent⟩ : ∃ k : Nat, exponentFor n d = k - 1074 :=
    ⟨(exponentFor n d + 1074).toNat, by omega⟩
  have whole : (n / d : ℚ) = n / d / 2 ^ exponentFor n d * 2 ^ exponentFor n d := by
    rw [div_mul_cancel₀ _ (by positivity)]
  rw [unfolded, whole]
  generalize roundHalfEven _ _ = r at low high
  generalize (n / d : ℚ) / 2 ^ exponentFor n d = t at *
  rw [exponent] at large ⊢
  rw [show ((k : Int) - 1074 + 1074).toNat = k by omega]
  have large : k = 0 ∨ (2 : ℚ) ^ 52 ≤ t := large.imp_left fun _ => by omega
  have bound' : r ≤ 2 ^ 53 := by
    have : (r : ℚ) < (2 ^ 53 : Nat) + 1 := by
      push_cast
      linarith [low.le]
    exact Nat.lt_add_one_iff.mp (by exact_mod_cast this)
  have full : k = 0 ∨ 2 ^ 52 ≤ r := by
    refine large.imp_right fun large => ?_
    have : ((2 ^ 52 : Nat) : ℚ) < r + 1 := by
      push_cast
      linarith [high.le]
    exact Nat.lt_add_one_iff.mp (by exact_mod_cast this)
  exact covers_form bound' full large low high

theorem nearestBits_eq_iff {n d : Nat} (pos : 0 < d) : nearestBits n d = b ↔ Covers b (n / d) :=
  ⟨fun same => same ▸ covers_nearestBits n pos, (covers_nearestBits n pos).unique⟩

end Pseudocode.Decimal
