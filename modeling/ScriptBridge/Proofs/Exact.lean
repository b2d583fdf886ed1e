import Mathlib.Algebra.Group.Nat.Defs
import ScriptBridge.Number.Double

/-!
# Whole numbers in a double

A whole number of less than 53 bits is a double, so no rounding changes it.

* `Double.truncate_ofInt`, `Double.whole_ofInt`: it is its own integer part.
* `Double.int64_ofInt`, `Double.uint32_ofNat`: integers read from it give it back.
* `Double.abs_le_iff`: any whole number compares with it as it is.
* `Double.isIntegral_whole`, `Double.truncate_whole`: dropping the fractional part of any finite number leaves its
  integer part, however large.
* `Double.whole_of_isIntegral`: without a fractional part a number is its integer part.
* `Double.isBelowZero_iff`: which numbers without a fractional part are below zero.

Proof-only: not reachable from `ScriptBridge.Session.Run`.
-/

namespace ScriptBridge

theorem twoPow_eq (k : Nat) : twoPow k = 2 ^ k := Nat.one_shiftLeft k

namespace Double

variable {negative : Bool} {n : Nat} {i : Int} {x : Double}

theorem toNat_ofMagnitude (small : n < signBit) :
    (ofMagnitude negative n).bits.toNat = (if negative then signBit else 0) + n := by
  have fits : (if negative then signBit else 0) + n < 2 ^ 64 := by
    unfold signBit at small ⊢
    split <;> omega
  exact Nat.mod_eq_of_lt fits

theorem magnitude_ofMagnitude (small : n < signBit) : (ofMagnitude negative n).magnitude = n := by
  unfold magnitude
  rw [toNat_ofMagnitude small]
  unfold signBit at small ⊢
  split <;> omega

theorem negative_ofMagnitude (small : n < signBit) : (ofMagnitude negative n).negative = negative := by
  unfold Double.negative
  rw [toNat_ofMagnitude small]
  cases negative with
  | true => exact decide_eq_true (by rw [if_pos rfl]; exact Nat.le_add_right ..)
  | false => exact decide_eq_false (by simpa using small)

/-! ## Numbers below `2 ^ 53` -/

/-- The bits of a whole number, moved up to the hidden bit. -/
def leading (n : Nat) : Nat := n * 2 ^ (52 - n.log2)

/-- The exponent and the fraction of a whole number that is not zero. The hidden bit of `leading` counts
as one more in the exponent. -/
def wholeMagnitude (n : Nat) : Nat := (n.log2 + 1022) * hiddenBit + leading n

theorem log2_le (small : n < 2 ^ 53) : n.log2 ≤ 52 := by
  by_cases zero : n = 0
  · subst zero
    decide
  · have := (Nat.log2_lt zero).2 small
    omega

theorem leading_bounds (positive : n ≠ 0) (small : n < 2 ^ 53) :
    hiddenBit ≤ leading n ∧ leading n < 2 * hiddenBit := by
  have log := log2_le small
  have split : 2 ^ n.log2 * 2 ^ (52 - n.log2) = hiddenBit := by
    rw [← Nat.pow_add, Nat.add_sub_cancel' log]
    rfl
  have low := Nat.mul_le_mul_right (2 ^ (52 - n.log2)) (Nat.log2_self_le positive)
  have high := Nat.mul_lt_mul_of_pos_right (Nat.lt_log2_self (n := n)) (Nat.two_pow_pos (52 - n.log2))
  rw [split] at low
  rw [Nat.pow_succ, Nat.mul_right_comm, split] at high
  exact ⟨low, by unfold leading; omega⟩

theorem wholeMagnitude_lt (positive : n ≠ 0) (small : n < 2 ^ 53) : wholeMagnitude n < infiniteMagnitude := by
  have log := log2_le small
  have bounds := leading_bounds positive small
  unfold wholeMagnitude
  unfold infiniteMagnitude hiddenBit at *
  omega

/-- A whole number is not rounded. -/
theorem roundScaled_eq (positive : n ≠ 0) (small : n < 2 ^ 53) :
    roundScaled negative n 0 = ofMagnitude negative (wholeMagnitude n) := by
  have log := log2_le small
  have finite := wholeMagnitude_lt positive small
  have scale : max ((0 : Int) + (n.log2 : Int) - 52) (-1074) = (n.log2 : Int) - 52 := by omega
  have exponent : ((n.log2 : Int) - 52 + 1074).toNat = n.log2 + 1022 := by omega
  have shift : ((0 : Int) - ((n.log2 : Int) - 52)).toNat = 52 - n.log2 := by omega
  unfold roundScaled
  simp only [scale, exponent, shift, twoPow_eq]
  rw [if_neg positive, if_pos (by omega)]
  change ofMagnitude negative (min (wholeMagnitude n) infiniteMagnitude) = _
  rw [Nat.min_eq_left (Nat.le_of_lt finite)]

/-- The magnitude of a whole number; zero has none. -/
theorem magnitude_lt (small : n < 2 ^ 53) : (if n = 0 then 0 else wholeMagnitude n) < infiniteMagnitude := by
  split
  · decide
  · exact wholeMagnitude_lt ‹_› small

theorem roundScaled_whole (small : n < 2 ^ 53) :
    roundScaled negative n 0 = ofMagnitude negative (if n = 0 then 0 else wholeMagnitude n) := by
  by_cases zero : n = 0
  · subst zero
    rfl
  · rw [roundScaled_eq zero small, if_neg zero]

theorem lt_signBit (finite : n < infiniteMagnitude) : n < signBit := Nat.lt_trans finite (by decide)

theorem negative_roundScaled (small : n < 2 ^ 53) : (roundScaled negative n 0).negative = negative := by
  rw [roundScaled_whole small]
  exact negative_ofMagnitude (lt_signBit (magnitude_lt small))

theorem magnitude_roundScaled (small : n < 2 ^ 53) :
    (roundScaled negative n 0).magnitude = if n = 0 then 0 else wholeMagnitude n := by
  rw [roundScaled_whole small]
  exact magnitude_ofMagnitude (lt_signBit (magnitude_lt small))

theorem isFinite_roundScaled (small : n < 2 ^ 53) : (roundScaled negative n 0).isFinite = true := by
  refine decide_eq_true ?_
  rw [magnitude_roundScaled small]
  exact magnitude_lt small

theorem significand_zero : (roundScaled negative 0 0).significand = 0 := by
  have size : (roundScaled negative 0 0).magnitude = 0 := magnitude_roundScaled (n := 0) (by decide)
  unfold Double.significand exponentField fraction
  rw [size]
  rfl

section

variable (size : x.magnitude = wholeMagnitude n) (positive : n ≠ 0) (small : n < 2 ^ 53)
include size positive small

theorem exponentField_of_magnitude : x.exponentField = n.log2 + 1023 := by
  have bounds := leading_bounds positive small
  unfold exponentField
  rw [size]
  unfold wholeMagnitude
  unfold hiddenBit at *
  omega

theorem significand_of_magnitude : x.significand = leading n := by
  have bounds := leading_bounds positive small
  unfold Double.significand fraction
  rw [exponentField_of_magnitude size positive small, if_neg (by omega), size]
  unfold wholeMagnitude
  unfold hiddenBit at *
  omega

theorem scale_of_magnitude : x.scale = (n.log2 : Int) - 52 := by
  unfold Double.scale
  rw [exponentField_of_magnitude size positive small]
  omega

end

/-- The integer part of a whole number is the number. -/
theorem truncate_roundScaled (small : n < 2 ^ 53) :
    (roundScaled negative n 0).truncate = if negative then -(n : Int) else n := by
  have size : (roundScaled negative n 0).magnitude = if n = 0 then 0 else wholeMagnitude n :=
    magnitude_roundScaled small
  unfold truncate
  rw [if_pos (isFinite_roundScaled small), negative_roundScaled small]
  suffices h : (if 0 ≤ (roundScaled negative n 0).scale
      then (roundScaled negative n 0).significand * twoPow (roundScaled negative n 0).scale.toNat
      else (roundScaled negative n 0).significand / twoPow (-(roundScaled negative n 0).scale).toNat) = n by
    simp only [h]
  by_cases zero : n = 0
  · subst zero
    rw [significand_zero]
    simp
  · rw [if_neg zero] at size
    have log := log2_le small
    rw [significand_of_magnitude size zero small, scale_of_magnitude size zero small]
    split
    · have top : n.log2 = 52 := by omega
      simp [leading, top, twoPow_eq]
    · have shift : (-((n.log2 : Int) - 52)).toNat = 52 - n.log2 := by omega
      rw [shift, twoPow_eq]
      exact Nat.mul_div_cancel n (Nat.two_pow_pos _)

/-- A larger number has a larger magnitude. -/
theorem wholeMagnitude_strict {k : Nat} (positive : n ≠ 0) (less : n < k) (small : k < 2 ^ 53) :
    wholeMagnitude n < wholeMagnitude k := by
  have first := leading_bounds positive (Nat.lt_trans less small)
  have second := leading_bounds (n := k) (by omega) small
  have log : n.log2 ≤ k.log2 :=
    (Nat.le_log2 (by omega)).2 (Nat.le_trans (Nat.log2_self_le positive) (Nat.le_of_lt less))
  rcases Nat.eq_or_lt_of_le log with same | shorter
  · have := Nat.mul_lt_mul_of_pos_right less (Nat.two_pow_pos (52 - k.log2))
    unfold wholeMagnitude leading
    rw [same]
    omega
  · calc
      wholeMagnitude n < (n.log2 + 1022) * hiddenBit + 2 * hiddenBit := Nat.add_lt_add_left first.2 _
      _ = (n.log2 + 1 + 1022) * hiddenBit + hiddenBit := by unfold hiddenBit; omega
      _ ≤ (k.log2 + 1022) * hiddenBit + leading k :=
        Nat.add_le_add (Nat.mul_le_mul_right _ (by omega)) second.1

theorem wholeMagnitude_le {k : Nat} (positive : n ≠ 0) (le : n ≤ k) (small : k < 2 ^ 53) :
    wholeMagnitude n ≤ wholeMagnitude k := by
  rcases Nat.eq_or_lt_of_le le with rfl | less
  · exact Nat.le_refl _
  · exact Nat.le_of_lt (wholeMagnitude_strict positive less small)

/-- A number of 53 bits or more is rounded, but to none below those of less. -/
theorem le_magnitude_roundScaled (large : 2 ^ 53 ≤ n) :
    1076 * hiddenBit ≤ (roundScaled negative n 0).magnitude := by
  have log : 53 ≤ n.log2 := (Nat.le_log2 (by omega)).2 large
  have scale : max ((0 : Int) + (n.log2 : Int) - 52) (-1074) = (n.log2 : Int) - 52 := by omega
  have exponent : ((n.log2 : Int) - 52 + 1074).toNat = n.log2 + 1022 := by omega
  have shift : ((n.log2 : Int) - 52 - 0).toNat = n.log2 - 52 := by omega
  have kept : hiddenBit ≤ divEven n (twoPow (n.log2 - 52)) := by
    have split : hiddenBit * 2 ^ (n.log2 - 52) = 2 ^ n.log2 := by
      rw [show hiddenBit = 2 ^ 52 from rfl, ← Nat.pow_add]
      congr 1
      omega
    have quotient : hiddenBit ≤ n / 2 ^ (n.log2 - 52) := by
      rw [Nat.le_div_iff_mul_le (Nat.two_pow_pos _), split]
      exact Nat.log2_self_le (by omega)
    unfold divEven
    rw [twoPow_eq]
    simp only
    split <;> omega
  unfold roundScaled
  simp only [scale, exponent, shift]
  rw [if_neg (by omega), if_neg (by omega)]
  generalize divEven n (twoPow (n.log2 - 52)) = r at kept
  have bound : 1076 * hiddenBit ≤ min ((n.log2 + 1022) * hiddenBit + r) infiniteMagnitude := by
    refine Nat.le_min.2 ⟨?_, by decide⟩
    have scaled : 1075 * hiddenBit ≤ (n.log2 + 1022) * hiddenBit := Nat.mul_le_mul_right _ (by omega)
    omega
  rwa [magnitude_ofMagnitude (Nat.lt_of_le_of_lt (Nat.min_le_right _ _) (by decide))]

/-! ## Integers -/

theorem truncate_ofInt (small : i.natAbs < 2 ^ 53) : (ofInt i).truncate = i := by
  unfold ofInt
  rw [truncate_roundScaled small]
  by_cases below : i < 0
  · simp only [below, decide_true, if_true]
    omega
  · simp only [below, decide_false, Bool.false_eq_true, if_false]
    omega

theorem isFinite_ofInt (small : i.natAbs < 2 ^ 53) : (ofInt i).isFinite = true := isFinite_roundScaled small

theorem whole_ofInt (small : i.natAbs < 2 ^ 53) : (ofInt i).whole = ofInt i := by
  unfold whole
  rw [if_pos (isFinite_ofInt small), truncate_ofInt small]
  unfold ofInt
  rw [negative_roundScaled small]

theorem isNaN_of_isFinite {x : Double} (finite : x.isFinite = true) : x.isNaN = false :=
  decide_eq_false (Nat.not_lt.2 (Nat.le_of_lt (of_decide_eq_true finite)))

theorem isInfinite_of_isFinite {x : Double} (finite : x.isFinite = true) : x.isInfinite = false :=
  decide_eq_false (Nat.ne_of_lt (of_decide_eq_true finite))

theorem int64_ofInt (small : i.natAbs < 2 ^ 53) : (ofInt i).int64 = i := by
  have finite := isFinite_ofInt small
  unfold int64 clampTo
  rw [isNaN_of_isFinite finite, isInfinite_of_isFinite finite, truncate_ofInt small]
  simp only [Bool.false_eq_true, if_false]
  omega

theorem uint32_ofNat (small : n < 2 ^ 32) : (ofNat n).uint32 = n := by
  unfold uint32 ofNat
  rw [truncate_roundScaled (by omega)]
  simp only [Bool.false_eq_true, if_false]
  omega

/-- A whole number compares as it is, also where it is rounded. -/
theorem abs_le_iff {k : Nat} (small : k < 2 ^ 53) : (ofInt i).abs.le (ofNat k) = true ↔ i.natAbs ≤ k := by
  have size : (ofInt i).magnitude < signBit := Nat.mod_lt _ (by decide)
  have left : (ofInt i).abs.magnitude = (ofInt i).magnitude := magnitude_ofMagnitude size
  have right : (ofNat k).magnitude = if k = 0 then 0 else wholeMagnitude k := magnitude_roundScaled small
  have upper : (ofNat k).magnitude < infiniteMagnitude := by
    rw [right]
    exact magnitude_lt small
  have ordered : (ofInt i).magnitude ≤ (ofNat k).magnitude ↔ i.natAbs ≤ k := by
    rw [right]
    by_cases short : i.natAbs < 2 ^ 53
    · unfold ofInt
      rw [magnitude_roundScaled short]
      generalize i.natAbs = n at short ⊢
      constructor
      · intro le
        refine Nat.le_of_not_lt fun more => ?_
        have strict (positive : k ≠ 0) := wholeMagnitude_strict positive more short
        have bounds := leading_bounds (n := n) (by omega) short
        unfold wholeMagnitude hiddenBit at *
        split at le <;> split at le <;> omega
      · intro le
        split
        · exact Nat.zero_le _
        · rw [if_neg (by omega)]
          exact wholeMagnitude_le ‹_› le small
    · have large : 1076 * hiddenBit ≤ (ofInt i).magnitude := le_magnitude_roundScaled (Nat.not_lt.1 short)
      refine iff_of_false (Nat.not_le.2 (Nat.lt_of_lt_of_le ?_ large)) (by omega)
      split
      · decide
      · have log := log2_le small
        have bounds := leading_bounds ‹_› small
        unfold wholeMagnitude hiddenBit at *
        omega
  have sign : (ofInt i).abs.negative = false := negative_ofMagnitude size
  have sign' : (ofNat k).negative = false := negative_roundScaled small
  unfold Double.le isNaN order
  simp only [sign, sign', left, Bool.false_eq_true, if_false, Bool.and_eq_true, Bool.not_eq_true', decide_eq_true_eq,
    decide_eq_false_iff_not]
  omega

/-! ## Integer parts -/

theorem ofMagnitude_self (x : Double) : ofMagnitude x.negative x.magnitude = x := by
  obtain ⟨bits⟩ := x
  have bound : bits.toNat < 2 ^ 64 := bits.toNat_lt
  have same : (if Double.negative ⟨bits⟩ then signBit else 0) + magnitude ⟨bits⟩ = bits.toNat := by
    unfold Double.negative magnitude signBit
    simp only [decide_eq_true_eq]
    split <;> omega
  unfold ofMagnitude
  rw [same]
  exact congrArg Double.mk (UInt64.ofNat_toNat)

/-- The integer part without its sign. -/
def integerMagnitude (x : Double) : Nat :=
  if 0 ≤ x.scale then x.significand * twoPow x.scale.toNat else x.significand / twoPow (-x.scale).toNat

theorem truncate_eq (finite : x.isFinite = true) :
    x.truncate = if x.negative then -(x.integerMagnitude : Int) else x.integerMagnitude := if_pos finite

theorem natAbs_truncate (finite : x.isFinite = true) : x.truncate.natAbs = x.integerMagnitude := by
  rw [truncate_eq finite]
  split <;> omega

/-- The significand of a whole number is a multiple of what the scale counts. -/
theorem isIntegral_roundScaled (small : n < 2 ^ 53) : (roundScaled negative n 0).isIntegral = true := by
  have size : (roundScaled negative n 0).magnitude = if n = 0 then 0 else wholeMagnitude n :=
    magnitude_roundScaled small
  unfold isIntegral
  rw [isFinite_roundScaled small, Bool.true_and, Bool.or_eq_true, decide_eq_true_eq, beq_iff_eq]
  by_cases zero : n = 0
  · subst zero
    exact .inr (by rw [significand_zero, Nat.zero_mod])
  · rw [if_neg zero] at size
    have log := log2_le small
    rw [significand_of_magnitude size zero small, scale_of_magnitude size zero small]
    have shift : (-((n.log2 : Int) - 52)).toNat = 52 - n.log2 := by omega
    exact .inr (by rw [shift, twoPow_eq, leading, Nat.mul_mod_left])

theorem isIntegral_ofInt (small : i.natAbs < 2 ^ 53) : (ofInt i).isIntegral = true := isIntegral_roundScaled small

theorem significand_lt (x : Double) : x.significand < 2 ^ 53 := by
  have fraction : x.fraction < hiddenBit := Nat.mod_lt _ (by decide)
  unfold Double.significand
  unfold hiddenBit at *
  split <;> omega

/-- Rounding changes no number that has 53 bits above those that are zero. -/
theorem roundScaled_shifted {k : Nat} (low : hiddenBit ≤ n) (high : n < 2 ^ 53) :
    roundScaled negative (n * 2 ^ k) 0 = ofMagnitude negative (min ((k + 1074) * hiddenBit + n) infiniteMagnitude) := by
  have power : 2 ^ k ≠ 0 := Nat.ne_of_gt (Nat.two_pow_pos k)
  have positive : n * 2 ^ k ≠ 0 := Nat.mul_ne_zero (by unfold hiddenBit at low; omega) power
  have log : (n * 2 ^ k).log2 = 52 + k := by
    refine (Nat.log2_eq_iff positive).2 ⟨?_, ?_⟩
    · rw [Nat.pow_add]
      exact Nat.mul_le_mul_right _ low
    · rw [show 52 + k + 1 = 53 + k by omega, Nat.pow_add]
      exact Nat.mul_lt_mul_of_pos_right high (Nat.two_pow_pos k)
  have scale : max ((0 : Int) + ((52 + k : Nat) : Int) - 52) (-1074) = k := by omega
  have exponent : ((k : Int) + 1074).toNat = k + 1074 := by omega
  have rounded : (if (k : Int) ≤ 0 then n * 2 ^ k * 2 ^ ((0 : Int) - k).toNat
      else divEven (n * 2 ^ k) (2 ^ ((k : Int) - 0).toNat)) = n := by
    split
    · obtain rfl : k = 0 := by omega
      simp
    · rw [Int.sub_zero, Int.toNat_natCast, divEven, Nat.mul_div_cancel _ (Nat.two_pow_pos k), Nat.mul_mod_left]
      simp [power.symm]
  unfold roundScaled
  simp only [log, scale, exponent, twoPow_eq]
  rw [if_neg positive, rounded]

/-- Without a fractional part, nothing changes. -/
theorem whole_of_scale (finite : x.isFinite = true) (scale : 0 ≤ x.scale) : x.whole = x := by
  obtain ⟨k, is⟩ : ∃ k : Nat, x.scale = k := ⟨x.scale.toNat, by omega⟩
  have field : x.exponentField = k + 1075 := by
    unfold Double.scale at is
    omega
  have fraction : x.fraction < hiddenBit := Nat.mod_lt _ (by decide)
  have significand : x.significand = x.fraction + hiddenBit := by
    unfold Double.significand
    rw [if_neg (by omega)]
  have magnitude : (k + 1074) * hiddenBit + x.significand = x.magnitude := by
    have split : hiddenBit * x.exponentField + x.fraction = x.magnitude := Nat.div_add_mod ..
    rw [← split, field, significand]
    unfold hiddenBit
    omega
  unfold whole
  rw [if_pos finite, natAbs_truncate finite, integerMagnitude, if_pos scale, is, Int.toNat_natCast, twoPow_eq,
    roundScaled_shifted (by omega) x.significand_lt, magnitude,
    Nat.min_eq_left (Nat.le_of_lt (of_decide_eq_true finite)), ofMagnitude_self]

/-- Where the scale is below one, the integer part is small. -/
theorem integerMagnitude_lt (scale : ¬0 ≤ x.scale) : x.integerMagnitude < 2 ^ 53 := by
  unfold integerMagnitude
  rw [if_neg scale]
  exact Nat.lt_of_le_of_lt (Nat.div_le_self ..) x.significand_lt

theorem isIntegral_whole (finite : x.isFinite = true) : x.whole.isIntegral = true := by
  by_cases scale : 0 ≤ x.scale
  · rw [whole_of_scale finite scale, isIntegral, finite, decide_eq_true scale]
    rfl
  · unfold whole
    rw [if_pos finite, natAbs_truncate finite]
    exact isIntegral_roundScaled (integerMagnitude_lt scale)

theorem truncate_whole (finite : x.isFinite = true) : x.whole.truncate = x.truncate := by
  by_cases scale : 0 ≤ x.scale
  · rw [whole_of_scale finite scale]
  · unfold whole
    rw [if_pos finite, natAbs_truncate finite, truncate_roundScaled (integerMagnitude_lt scale), truncate_eq finite]

/-- Only a zero has zero as its integer part, among numbers without a fractional part. -/
theorem integerMagnitude_eq_zero (integral : x.isIntegral = true) : x.integerMagnitude = 0 ↔ x.magnitude = 0 := by
  obtain ⟨-, divides⟩ := Bool.and_eq_true_iff.1 integral
  have power (k : Nat) : 0 < twoPow k := by
    rw [twoPow_eq]
    exact Nat.two_pow_pos k
  have significand : x.significand = 0 ↔ x.magnitude = 0 := by
    unfold Double.significand exponentField fraction hiddenBit
    split <;> omega
  rw [← significand]
  unfold integerMagnitude
  split
  · rw [Nat.mul_eq_zero, or_iff_left (Nat.ne_of_gt (power _))]
  · rename_i scale
    rw [decide_eq_false scale, Bool.false_or, beq_iff_eq] at divides
    constructor
    · intro none
      have := Nat.div_add_mod x.significand (twoPow (-x.scale).toNat)
      rw [none, divides] at this
      omega
    · intro none
      rw [none, Nat.zero_div]

/-- The bits of a number that fills all 53 when `k` zeros are put behind it. -/
theorem leading_of_shifted {k q : Nat} (low : hiddenBit ≤ q * 2 ^ k) (high : q * 2 ^ k < 2 ^ 53) (shift : k ≤ 52) :
    q.log2 + k = 52 ∧ leading q = q * 2 ^ k := by
  have positive : q ≠ 0 := by
    rintro rfl
    rw [Nat.zero_mul] at low
    exact absurd low (by decide)
  have log : q.log2 = 52 - k := by
    refine (Nat.log2_eq_iff positive).2 ⟨?_, ?_⟩
    · refine Nat.le_of_mul_le_mul_right ?_ (Nat.two_pow_pos k)
      rwa [← Nat.pow_add, Nat.sub_add_cancel shift]
    · refine Nat.lt_of_mul_lt_mul_right (a := 2 ^ k) ?_
      rwa [← Nat.pow_add, show 52 - k + 1 + k = 53 by omega]
  unfold leading
  rw [show 52 - q.log2 = k by omega]
  exact ⟨by omega, rfl⟩

/-- A number without a fractional part is its integer part. -/
theorem whole_of_isIntegral (integral : x.isIntegral = true) : x.whole = x := by
  obtain ⟨finite, divides⟩ := Bool.and_eq_true_iff.1 integral
  by_cases scale : 0 ≤ x.scale
  · exact whole_of_scale finite scale
  obtain ⟨k, is⟩ : ∃ k : Nat, -x.scale = k := ⟨(-x.scale).toNat, by omega⟩
  rw [decide_eq_false scale, Bool.false_or, beq_iff_eq, is, Int.toNat_natCast, twoPow_eq] at divides
  have shifted : x.integerMagnitude * 2 ^ k = x.significand := by
    unfold integerMagnitude
    rw [if_neg scale, is, Int.toNat_natCast, twoPow_eq]
    exact Nat.div_mul_cancel (Nat.dvd_of_mod_eq_zero divides)
  unfold Double.whole
  rw [if_pos finite, natAbs_truncate finite, roundScaled_whole (integerMagnitude_lt scale)]
  refine Eq.trans (congrArg _ ?_) x.ofMagnitude_self
  by_cases zero : x.integerMagnitude = 0
  · rw [if_pos zero, (integerMagnitude_eq_zero integral).1 zero]
  · have power := Nat.lt_of_le_of_lt (Nat.le_mul_of_pos_left (2 ^ k) (Nat.pos_of_ne_zero zero)) (shifted ▸ x.significand_lt)
    have shift : k ≤ 52 := Nat.le_of_lt_succ ((Nat.pow_lt_pow_iff_right (by decide)).1 power)
    have field : x.exponentField + k = 1075 := by
      unfold Double.scale at is
      omega
    have significand : x.significand = x.fraction + hiddenBit := if_neg (by omega)
    have parts : hiddenBit * x.exponentField + x.fraction = x.magnitude := Nat.div_add_mod ..
    obtain ⟨bits, leads⟩ := leading_of_shifted (by omega) (shifted ▸ x.significand_lt) shift
    rw [if_neg zero, wholeMagnitude, leads, shifted, significand, ← parts,
      show x.integerMagnitude.log2 + 1022 = x.exponentField - 1 by omega]
    unfold hiddenBit
    omega

/-- Which whole numbers are below zero. -/
theorem isBelowZero_iff (integral : x.isIntegral = true) : x.isBelowZero = true ↔ x.truncate < 0 := by
  have finite := (Bool.and_eq_true_iff.1 integral).1
  have zero := integerMagnitude_eq_zero integral
  have order : x.isBelowZero = decide (x.order < 0) := by
    unfold isBelowZero lt
    rw [isNaN_of_isFinite finite]
    rfl
  rw [order, decide_eq_true_eq, truncate_eq finite]
  unfold Double.order
  split <;> omega

end Double

end ScriptBridge
