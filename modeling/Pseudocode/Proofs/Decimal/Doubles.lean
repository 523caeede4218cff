import Mathlib
import Pseudocode.Proofs.Decimal.Rounding

/-!
# Doubles and their bits

A finite double is a sign and the bits of its magnitude (`signed`, `exists_signed`), and what core
unpacks from it is what `classify` says (`unpack_toModel`). So the comparisons of doubles are the
comparisons of those bits (`signed_beq_zero`, `compare_dyadic`, `exists_of_between`).

The double nearest to a number is defined by distances alone (`Rounds`): no finite double is nearer,
and an even one is taken from two that are as near. It is the one whose midpoints lie around the
number (`rounds_iff`), up to the numbers that are too large (`overflow`).
-/

namespace Pseudocode.Decimal

open Float.Model Float.Model.UnpackedFloat

/-! ## Fields -/

/-- A sign as core has it. -/
def signOf (negative : Bool) : Sign :=
  if negative then .negative else .positive

/-- A class of doubles as core has it: there a zero is no finite number. -/
def Class.unpacked : Class → UnpackedFloat
  | nan => .notANumber
  | infinite negative => .infinity (signOf negative)
  | finite negative m =>
    if filled : 0 < m.mantissa then .finite (signOf negative) m.mantissa m.exponent filled
    else .zero (signOf negative)

theorem Class.ofBits_eq (bits : Nat) :
    Class.ofBits bits
      = if bits / 2 ^ 52 % 2048 = 2047 then
          if bits % 2 ^ 52 = 0 then .infinite (decide (2 ^ 63 ≤ bits)) else .nan
        else if bits / 2 ^ 52 % 2048 = 0 then
          .finite (decide (2 ^ 63 ≤ bits)) ⟨bits % 2 ^ 52, -1074⟩
        else
          .finite (decide (2 ^ 63 ≤ bits))
            ⟨bits % 2 ^ 52 + 2 ^ 52, (bits / 2 ^ 52 % 2048 : Nat) - 1075⟩ :=
  rfl

section

variable (bits : BitVec 64)

theorem toNat_unpackMantissa :
    (@unpackMantissa Format.binary64 bits).toNat = bits.toNat % 2 ^ 52 := by
  simp [unpackMantissa]

theorem toNat_unpackExponent :
    (@unpackExponent Format.binary64 bits).toNat = bits.toNat / 2 ^ 52 % 2048 := by
  simp [unpackExponent, Nat.shiftRight_eq_div_pow]

theorem unpackExponent_eq_iff :
    @unpackExponent Format.binary64 bits = -1#_ ↔ bits.toNat / 2 ^ 52 % 2048 = 2047 := by
  rw [← BitVec.toNat_inj, toNat_unpackExponent]
  rfl

theorem toNat_unpackSign :
    (@unpackSign Format.binary64 bits).toNat = bits.toNat / 2 ^ 63 := by
  have := bits.isLt
  simp [unpackSign, Nat.shiftRight_eq_div_pow]
  omega

theorem ofBitVec_unpackSign :
    Sign.ofBitVec (@unpackSign Format.binary64 bits) = signOf (decide (2 ^ 63 ≤ bits.toNat)) := by
  have positive : @unpackSign Format.binary64 bits = 0#1 ↔ ¬2 ^ 63 ≤ bits.toNat := by
    rw [← BitVec.toNat_inj, toNat_unpackSign, BitVec.toNat_ofNat]
    omega
  by_cases negative : 2 ^ 63 ≤ bits.toNat
  · rw [Sign.ofBitVec, if_neg (mt positive.mp (not_not_intro negative)), decide_eq_true negative]
    rfl
  · rw [Sign.ofBitVec, if_pos (positive.mpr negative), decide_eq_false negative]
    rfl

theorem toNat_append_one (mantissa : BitVec 52) :
    (1#1 ++ mantissa).toNat = mantissa.toNat + 2 ^ 52 := by
  rw [BitVec.toNat_append, ← Nat.shiftLeft_add_eq_or_of_lt mantissa.isLt, Nat.add_comm]
  rfl

/-- The two ways to take a bit pattern apart agree. -/
theorem unpack_eq : unpack Format.binary64 bits = (Class.ofBits bits.toNat).unpacked := by
  have infinite := unpackExponent_eq_iff bits
  have subnormal : @unpackExponent Format.binary64 bits = 0#_ ↔
      bits.toNat / 2 ^ 52 % 2048 = 0 := by
    rw [← BitVec.toNat_inj, toNat_unpackExponent]
    rfl
  have empty : @unpackMantissa Format.binary64 bits = 0#_ ↔ bits.toNat % 2 ^ 52 = 0 := by
    rw [← BitVec.toNat_inj, toNat_unpackMantissa]
    rfl
  have bias : (Format.binary64.exponentBias : Int) + Format.binary64.mantissaBitsWithoutImplicit
      = 1075 := rfl
  rw [UnpackedFloat.unpack, Class.ofBits_eq]
  simp only [ofBitVec_unpackSign, bias]
  by_cases infinite' : bits.toNat / 2 ^ 52 % 2048 = 2047
  · rw [if_pos (infinite.mpr infinite'), if_pos infinite']
    by_cases empty' : bits.toNat % 2 ^ 52 = 0
    · rw [if_pos (empty.mpr empty'), if_pos empty']
      rfl
    · rw [if_neg (mt empty.mp empty'), if_neg empty']
      rfl
  rw [if_neg (mt infinite.mp infinite'), if_neg infinite']
  by_cases subnormal' : bits.toNat / 2 ^ 52 % 2048 = 0
  · rw [if_pos (subnormal.mpr subnormal'), if_pos subnormal', Class.unpacked]
    by_cases empty' : bits.toNat % 2 ^ 52 = 0
    · rw [dif_pos (empty.mpr empty'), dif_neg (show ¬0 < bits.toNat % 2 ^ 52 by omega)]
    · rw [dif_neg (mt empty.mp empty'), dif_pos (Nat.pos_of_ne_zero empty')]
      simp only [UnpackedFloat.finite.injEq, toNat_unpackMantissa, toNat_unpackExponent,
        subnormal', true_and]
      rfl
  · rw [if_neg (mt subnormal.mp subnormal'), if_neg subnormal', Class.unpacked,
      dif_pos (Nat.add_pos_right _ (Nat.two_pow_pos 52))]
    simp only [toNat_append_one, toNat_unpackMantissa, toNat_unpackExponent]

end

/-! ## Doubles by sign and bits -/

/-- The double with a sign and the bits of its magnitude. -/
def signed (negative : Bool) (b : Nat) : Float :=
  Float.ofBits (UInt64.ofNat (if negative then b + 2 ^ 63 else b))

theorem unpack_toModel (x : Float) : x.toModel.unpack = (classify x).unpacked :=
  unpack_eq _

section

variable {b : Nat} (small : b < infinityBits) (negative : Bool)

include small in
theorem toNat_toBits_signed :
    (signed negative b).toBits.toNat = if negative then b + 2 ^ 63 else b := by
  have bound : b < 2047 * 2 ^ 52 := small
  generalize signs : (if negative then b + 2 ^ 63 else b) = n
  have range : n < 2 ^ 64 ∧ n / 2 ^ 52 % 2048 ≠ 2047 := by
    cases negative <;> simp at signs <;> omega
  have exact : (UInt64.ofNat n).toBitVec.toNat = n := Nat.mod_eq_of_lt range.1
  -- only what is no number is packed into other bits than it was unpacked from
  have number : @isNaNBits Format.binary64 (UInt64.ofNat n).toBitVec = false := by
    refine decide_eq_false fun unpacked => range.2 ?_
    rw [← exact]
    exact (unpackExponent_eq_iff _).mp unpacked.1
  have packed : ((unpack Format.binary64 (UInt64.ofNat n).toBitVec).pack Format.binary64).toNat
      = n := by
    rw [pack_unpack, number]
    exact exact
  rw [signed, signs]
  exact packed

include small in
theorem classify_signed : classify (signed negative b) = .finite negative (dyadic b) := by
  have bound : b < 2047 * 2 ^ 52 := small
  rw [classify, toNat_toBits_signed small, Class.ofBits_eq, dyadic]
  generalize signs : (if negative then b + 2 ^ 63 else b) = n
  have fields : n / 2 ^ 52 % 2048 = b / 2 ^ 52 ∧ n % 2 ^ 52 = b % 2 ^ 52 := by
    cases negative <;> simp at signs <;> omega
  have sign : decide (2 ^ 63 ≤ n) = negative := by
    cases negative <;> simp at signs ⊢ <;> omega
  rw [fields.1, fields.2, sign, if_neg (show b / 2 ^ 52 ≠ 2047 by omega)]
  split
  · rename_i subnormal
    rw [Nat.mod_eq_of_lt (show b < 2 ^ 52 by omega), leastExponent]
  · rfl

include small in
theorem isFinite_signed : (signed negative b).isFinite = true := by
  show (signed negative b).toModel.unpack.isFinite = true
  rw [unpack_toModel, classify_signed small, Class.unpacked]
  split <;> rfl

end

theorem exists_signed {x : Float} (finite : x.isFinite = true) :
    ∃ negative b, b < infinityBits ∧ x = signed negative b := by
  have bound := x.toBits.toNat_lt
  have field : x.toBits.toNat / 2 ^ 52 % 2048 ≠ 2047 := by
    intro field
    have unpacked : (classify x).unpacked.isFinite = true := by
      rw [← unpack_toModel]
      exact finite
    rw [classify, Class.ofBits_eq, if_pos field] at unpacked
    split at unpacked <;> cases unpacked
  have small : x.toBits.toNat % 2 ^ 63 < infinityBits := by
    show _ < 2047 * 2 ^ 52
    omega
  refine ⟨decide (2 ^ 63 ≤ x.toBits.toNat), x.toBits.toNat % 2 ^ 63, small, ?_⟩
  refine Float.toBits_inj.mp (UInt64.toNat_inj.mp ?_)
  rw [toNat_toBits_signed small]
  simp only [decide_eq_true_eq]
  split <;> omega

theorem nearest?_eq (negative : Bool) (n d : Nat) :
    nearest? negative n d
      = if nearestBits n d < infinityBits then some (signed negative (nearestBits n d))
        else none :=
  rfl

/-! ## The order of doubles -/

theorem mantissa_dyadic_pos_iff {b : Nat} : 0 < (dyadic b).mantissa ↔ 0 < b := by
  rw [dyadic]
  split
  · exact Iff.rfl
  · simp only
    omega

theorem unpack_signed {b : Nat} (small : b < infinityBits) (negative : Bool) (filled : 0 < b) :
    (signed negative b).toModel.unpack = .finite (signOf negative) (dyadic b).mantissa
      (dyadic b).exponent (mantissa_dyadic_pos_iff.mpr filled) := by
  rw [unpack_toModel, classify_signed small, Class.unpacked,
    dif_pos (mantissa_dyadic_pos_iff.mpr filled)]

theorem unpack_signed_zero (negative : Bool) :
    (signed negative 0).toModel.unpack = .zero (signOf negative) := by
  rw [unpack_toModel, classify_signed (by decide), Class.unpacked, dif_neg (by decide)]

theorem zero_eq_signed : (0 : Float) = signed false 0 := by
  decide +kernel

/-- The two zeros, and no other doubles, are equal to zero. -/
theorem signed_beq_zero {b : Nat} (small : b < infinityBits) (negative : Bool) :
    (signed negative b == 0) = decide (b = 0) := by
  show ((signed negative b).toModel.unpack.compare (0 : Float).toModel.unpack == some .eq) = _
  rw [zero_eq_signed, unpack_signed_zero]
  by_cases empty : b = 0
  · subst empty
    rw [unpack_signed_zero]
    rfl
  · rw [unpack_signed small negative (Nat.pos_of_ne_zero empty), decide_eq_false empty]
    cases negative <;> rfl

/-- What is equal to zero is one of the two zeros. -/
theorem exists_zero_of_beq {f : Float} (zero : (f == 0) = true) :
    ∃ negative, f = signed negative 0 := by
  obtain ⟨-, -, plain | ⟨plain, -⟩ | ⟨minus, -⟩⟩ := Float.beq_iff_ne_nan_and_eq.mp zero
  · exact ⟨false, plain.trans zero_eq_signed⟩
  · exact ⟨false, plain.trans zero_eq_signed⟩
  · have other : (-0 : Float) = signed true 0 := by decide +kernel
    exact ⟨true, minus.trans other⟩

/-- Exponents are compared first, then mantissas; that compares the bits. -/
theorem compare_dyadic (a b : Nat) :
    (compare (dyadic a).exponent (dyadic b).exponent).then
      (compare (dyadic a).mantissa (dyadic b).mantissa) = compare a b := by
  have order {a b : Nat} (less : a < b) : (dyadic a).exponent < (dyadic b).exponent ∨
      (dyadic a).exponent = (dyadic b).exponent ∧ (dyadic a).mantissa < (dyadic b).mantissa := by
    rw [dyadic, dyadic, leastExponent]
    by_cases low : a / 2 ^ 52 = 0
    · by_cases low' : b / 2 ^ 52 = 0
      · rw [if_pos low, if_pos low']
        exact .inr ⟨rfl, less⟩
      · rw [if_pos low, if_neg low']
        show (-1074 : Int) < (b / 2 ^ 52 : Nat) - 1075 ∨
          (-1074 : Int) = (b / 2 ^ 52 : Nat) - 1075 ∧ a < b % 2 ^ 52 + 2 ^ 52
        omega
    · rw [if_neg low, if_neg (by omega)]
      show ((a / 2 ^ 52 : Nat) - 1075 : Int) < (b / 2 ^ 52 : Nat) - 1075 ∨
        ((a / 2 ^ 52 : Nat) - 1075 : Int) = (b / 2 ^ 52 : Nat) - 1075 ∧
          a % 2 ^ 52 + 2 ^ 52 < b % 2 ^ 52 + 2 ^ 52
      omega
  rcases lt_trichotomy a b with less | rfl | more
  · rw [compare_lt_iff_lt.mpr less, Ordering.then_eq_lt]
    exact (order less).imp compare_lt_iff_lt.mpr
      (And.imp compare_eq_iff_eq.mpr compare_lt_iff_lt.mpr)
  · simp
  · rw [compare_gt_iff_gt.mpr more, Ordering.then_eq_gt]
    refine (order more).imp compare_gt_iff_gt.mpr (And.imp (fun same => ?_) compare_gt_iff_gt.mpr)
    exact compare_eq_iff_eq.mpr same.symm

theorem compare_signed {a b : Nat} (filled : 0 < a) (filled' : 0 < b) (small : a < infinityBits)
    (small' : b < infinityBits) :
    (signed false a).toModel.unpack.compare (signed false b).toModel.unpack
      = some (compare a b) := by
  rw [unpack_signed small false filled, unpack_signed small' false filled', ← compare_dyadic]
  rfl

/-- What is above a positive double and not infinite is a positive double. -/
theorem exists_of_above {f : Float} {low : Nat} (filled : 0 < low) (small : low < infinityBits)
    (above : (signed false low).toModel.unpack.le f.toModel.unpack = true)
    (bounded : f.toModel.unpack ≠ .infinity .positive) :
    ∃ b, 0 < b ∧ b < infinityBits ∧ f = signed false b := by
  rw [unpack_signed small false filled] at above
  have finite : f.isFinite = true := by
    show f.toModel.unpack.isFinite = true
    cases unpacked : f.toModel.unpack with
    | infinity sign =>
      rw [unpacked] at above bounded
      cases sign with
      | positive => exact absurd rfl bounded
      | negative => cases above
    | notANumber =>
      rw [unpacked] at above
      cases above
    | zero => rfl
    | finite => rfl
  obtain ⟨negative, b, small', rfl⟩ := exists_signed finite
  by_cases empty : b = 0
  · subst empty
    rw [unpack_signed_zero] at above
    cases above
  have filled' := Nat.pos_of_ne_zero empty
  cases negative with
  | true =>
    rw [unpack_signed small' true filled'] at above
    cases above
  | false => exact ⟨b, filled', small', rfl⟩

/-- What lies between two positive doubles is a positive double. -/
theorem exists_of_between {f : Float} {low high : Nat} (filled : 0 < low)
    (small : high < infinityBits) (order : low < high) (above : signed false low ≤ f)
    (below : f < signed false high) : ∃ b, low ≤ b ∧ b < high ∧ f = signed false b := by
  have above : (signed false low).toModel.unpack.le f.toModel.unpack = true :=
    of_decide_eq_true above
  have below : (f.toModel.unpack.compare (signed false high).toModel.unpack == some .lt) = true :=
    of_decide_eq_true below
  have filled' := filled.trans order
  have small' := order.trans small
  have bounded : f.toModel.unpack ≠ .infinity .positive := by
    intro unpacked
    rw [unpacked, unpack_signed small false filled'] at below
    cases below
  obtain ⟨b, filled'', small'', rfl⟩ := exists_of_above filled small' above bounded
  have above : ((signed false low).toModel.unpack.compare (signed false b).toModel.unpack).any
      (·.isLE) = true := above
  rw [compare_signed filled filled'' small' small''] at above
  rw [compare_signed filled'' filled' small'' small] at below
  refine ⟨b, ?_, ?_, rfl⟩
  · exact Nat.isLE_compare.mp (by simpa using above)
  · exact compare_lt_iff_lt.mp (by simpa using below)

/-! ## The double nearest to a number -/

/-- The number that a finite double stands for. -/
def valueOf (x : Float) : ℚ :=
  match classify x with
  | .finite negative m => if negative then -m.value else m.value
  | .nan => 0
  | .infinite _ => 0

/-- The number with a sign and a magnitude. -/
def withSign (negative : Bool) (v : ℚ) : ℚ :=
  if negative then -v else v

/-- The double `x` is the one nearest to a number, given by its sign and magnitude: no other finite
double is nearer, one that is as near has odd bits, and the sign is kept even by a zero. -/
structure Rounds (negative : Bool) (v : ℚ) (x : Float) : Prop where
  finite : x.isFinite = true
  sign : decide (2 ^ 63 ≤ x.toBits.toNat) = negative
  nearest : ∀ y : Float, y.isFinite = true →
    |valueOf x - withSign negative v| ≤ |valueOf y - withSign negative v|
  even : ∀ y : Float, y.isFinite = true → valueOf y ≠ valueOf x →
    |valueOf x - withSign negative v| = |valueOf y - withSign negative v| → Even x.toBits.toNat

/-- The least number that is too large for a double: half way from the largest one to the power of
two that would be next. -/
def overflow : ℚ :=
  2 ^ 1024 - 2 ^ 970

theorem midpoint_last : midpoint (infinityBits - 1) = overflow := by
  have form : infinityBits - 1 = 2045 * 2 ^ 52 + (2 ^ 53 - 1) := by decide
  have double : (2 : ℚ) ^ ((2045 : Nat) - 1074 : Int) = 2 * 2 ^ 970 := by
    rw [show ((2045 : Nat) - 1074 : Int) = (971 : Nat) by norm_num, zpow_natCast, pow_succ']
  have full : (2 : ℚ) ^ 1024 = 2 ^ 54 * 2 ^ 970 := by rw [← pow_add]
  rw [form, midpoint, magnitude_form (by norm_num) (by norm_num),
    spacing_form (by norm_num) (by norm_num), overflow, double, full]
  generalize (2 : ℚ) ^ 970 = power
  norm_num
  ring

theorem valueOf_signed {b : Nat} (small : b < infinityBits) (negative : Bool) :
    valueOf (signed negative b) = withSign negative (magnitude b) := by
  rw [valueOf, classify_signed small]
  rfl

section

variable {a c v : ℚ}

/-- The lower of two numbers is as near as the upper to what is not above the middle of them. -/
theorem lower_near_iff (less : a < c) : |a - v| ≤ |c - v| ↔ 2 * v ≤ a + c := by
  rw [← sq_le_sq]
  constructor
  · intro near
    nlinarith
  · intro low
    nlinarith

theorem upper_near_iff (less : a < c) : |c - v| ≤ |a - v| ↔ a + c ≤ 2 * v := by
  rw [← sq_le_sq]
  constructor
  · intro near
    nlinarith
  · intro high
    nlinarith

theorem withSign_injective (negative : Bool) : Function.Injective (withSign negative) := by
  intro v w same
  cases negative with
  | false => exact same
  | true => exact neg_inj.mp same

theorem abs_withSign_sub (negative : Bool) (a v : ℚ) :
    |withSign negative a - withSign negative v| = |a - v| := by
  cases negative with
  | false => rfl
  | true =>
    show |-a - -v| = _
    rw [neg_sub_neg, abs_sub_comm]

/-- The number with the other sign is further away by twice its magnitude. -/
theorem abs_withSign_not_sub (negative : Bool) (positive : 0 ≤ a) (positive' : 0 ≤ v) :
    |withSign (!negative) a - withSign negative v| = a + v := by
  cases negative with
  | false =>
    show |-a - v| = _
    rw [abs_of_nonpos (by linarith)]
    ring
  | true =>
    show |a - -v| = _
    rw [abs_of_nonneg (by linarith)]
    ring

end

section

variable {b : Nat} {v : ℚ}

theorem two_mul_midpoint (b : Nat) : 2 * midpoint b = magnitude b + magnitude (b + 1) := by
  rw [midpoint, magnitude_succ]
  ring

/-- No double is nearer than the one that a fraction rounds to, and if one is as near then that one
is even. -/
theorem Covers.nearest (covers : Covers b v) (b' : Nat) :
    |magnitude b - v| ≤ |magnitude b' - v| ∧
      (b' ≠ b → |magnitude b - v| = |magnitude b' - v| → Even b) := by
  rcases lt_trichotomy b b' with less | rfl | more
  · have next : magnitude (b + 1) ≤ magnitude b' := magnitude_strictMono.monotone less
    have middle := two_mul_midpoint b
    have order := magnitude_strictMono less
    have below := covers.below
    refine ⟨(lower_near_iff order).mpr (by linarith [below.le]), fun _ tie => ?_⟩
    have beyond := (upper_near_iff order).mp tie.ge
    rcases below with inside | ⟨-, even⟩
    · linarith
    · exact even
  · exact ⟨le_rfl, fun other => absurd rfl other⟩
  · obtain ⟨a, rfl⟩ : ∃ a, b = a + 1 := ⟨b - 1, by omega⟩
    have before : magnitude b' ≤ magnitude a := magnitude_strictMono.monotone (by omega)
    have middle := two_mul_midpoint a
    have order := magnitude_strictMono more
    have above := covers.above a rfl
    refine ⟨(upper_near_iff order).mpr (by linarith [above.le]), fun _ tie => ?_⟩
    have beyond := (lower_near_iff order).mp tie.ge
    rcases above with inside | ⟨-, even⟩
    · linarith
    · exact even

/-- A double than which none of its neighbours is nearer is the one that a fraction rounds to. -/
theorem covers_of_nearest
    (nearest : ∀ b', b' < infinityBits → |magnitude b - v| ≤ |magnitude b' - v|)
    (even : ∀ b', b' < infinityBits → b' ≠ b → |magnitude b - v| = |magnitude b' - v| → Even b)
    (small : b < infinityBits) (bound : v < overflow) : Covers b v := by
  constructor
  · rintro a rfl
    have middle := two_mul_midpoint a
    have order := magnitude_strictMono a.lt_add_one
    have near := (upper_near_iff order).mp (nearest a (by omega))
    rcases near.lt_or_eq with inside | edge
    · exact .inl (by linarith)
    · have tie := le_antisymm (nearest a (by omega)) ((lower_near_iff order).mpr edge.ge)
      exact .inr ⟨by linarith, even a (by omega) (by omega) tie⟩
  · by_cases last : b + 1 < infinityBits
    · have middle := two_mul_midpoint b
      have order := magnitude_strictMono b.lt_add_one
      have near := (lower_near_iff order).mp (nearest (b + 1) last)
      rcases near.lt_or_eq with inside | edge
      · exact .inl (by linarith)
      · have tie := le_antisymm (nearest (b + 1) last) ((upper_near_iff order).mpr edge.ge)
        exact .inr ⟨by linarith, even (b + 1) last (by omega) tie⟩
    · have : b = infinityBits - 1 := by omega
      rw [this, midpoint_last]
      exact .inl bound

theorem even_toBits_signed (small : b < infinityBits) (negative : Bool) :
    Even (signed negative b).toBits.toNat ↔ Even b := by
  rw [toNat_toBits_signed small, Nat.even_iff, Nat.even_iff]
  split <;> omega

theorem sign_toBits_signed (small : b < infinityBits) (negative : Bool) :
    decide (2 ^ 63 ≤ (signed negative b).toBits.toNat) = negative := by
  have bound : b < 2047 * 2 ^ 52 := small
  rw [toNat_toBits_signed small]
  cases negative with
  | false => simpa using bound.trans (by norm_num)
  | true => simp

/-- The nearest double of a number is the one that its magnitude rounds to, with its sign. -/
theorem rounds_iff {negative : Bool} {x : Float} (nonneg : 0 ≤ v) (bound : v < overflow) :
    Rounds negative v x ↔ ∃ b < infinityBits, Covers b v ∧ x = signed negative b := by
  constructor
  · intro rounds
    obtain ⟨negative', b, small, rfl⟩ := exists_signed rounds.finite
    obtain rfl : negative' = negative := (sign_toBits_signed small negative').symm.trans rounds.sign
    refine ⟨b, small, covers_of_nearest ?_ ?_ small bound, rfl⟩
    · intro b' small'
      have near := rounds.nearest _ (isFinite_signed small' negative')
      rwa [valueOf_signed small, valueOf_signed small', abs_withSign_sub, abs_withSign_sub] at near
    · intro b' small' other tie
      have even := rounds.even _ (isFinite_signed small' negative')
      rw [valueOf_signed small, valueOf_signed small', abs_withSign_sub, abs_withSign_sub,
        even_toBits_signed small] at even
      refine even (fun same => other ?_) tie
      exact magnitude_strictMono.injective (withSign_injective negative' same)
  · rintro ⟨b, small, covers, rfl⟩
    -- zero is as near as any double with the other sign
    have zero : |magnitude b - v| ≤ v := by
      simpa [abs_of_nonneg nonneg] using (covers.nearest 0).1
    refine ⟨isFinite_signed small negative, sign_toBits_signed small negative, ?_, ?_⟩
    · intro y finite
      obtain ⟨negative', b', small', rfl⟩ := exists_signed finite
      rw [valueOf_signed small, valueOf_signed small', abs_withSign_sub]
      by_cases same : negative' = negative
      · rw [same, abs_withSign_sub]
        exact (covers.nearest b').1
      · rw [Bool.eq_not_of_ne same, abs_withSign_not_sub negative (magnitude_nonneg b') nonneg]
        linarith [magnitude_nonneg b']
    · intro y finite other tie
      obtain ⟨negative', b', small', rfl⟩ := exists_signed finite
      rw [valueOf_signed small, valueOf_signed small'] at other tie
      rw [abs_withSign_sub] at tie
      rw [even_toBits_signed small]
      by_cases same : negative' = negative
      · rw [same, abs_withSign_sub] at tie
        refine (covers.nearest b').2 (fun same' => other ?_) tie
        rw [same, same']
      · rw [Bool.eq_not_of_ne same, abs_withSign_not_sub negative (magnitude_nonneg b') nonneg]
          at tie
        have least : magnitude b' = 0 := by linarith [magnitude_nonneg b']
        refine (covers.nearest 0).2 (fun same' => other ?_) ?_
        · rw [least, ← same', magnitude_zero]
          simp [withSign]
        · rw [tie, least, magnitude_zero, zero_sub, abs_neg, abs_of_nonneg nonneg, zero_add]

end

end Pseudocode.Decimal
