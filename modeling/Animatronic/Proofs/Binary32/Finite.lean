import Animatronic.Binary32.Arithmetic
import Mathlib.Algebra.Group.Nat.Defs

/-!
# Results that stay finite

A finite number has a magnitude of at most `largestMagnitude`, and what rounding makes of a smaller
quotient than `overflowThreshold` lies below the magnitude of an infinity again (`roundQuanta_lt`).
So a sum of finite numbers is never NaN, and is finite unless it is about as large as the largest
number itself (`isFinite_add`).

Clamping keeps a number between its bounds, whatever it is, as long as it is not NaN.
-/

namespace Animatronic

theorem roundDiv_le {num den n : Nat} (below : 2 * num < (2 * n + 1) * den) :
    roundDiv num den ≤ n := by
  have whole := Nat.div_add_mod num den
  have positive : 0 < den := by
    rcases Nat.eq_zero_or_pos den with rfl | positive
    · exact absurd below (Nat.not_lt_zero _)
    · exact positive
  have quotient : num / den ≤ n := by
    refine Nat.le_of_lt_succ ((Nat.div_lt_iff_lt_mul positive).mpr ?_)
    rw [Nat.add_mul, Nat.mul_assoc] at below
    rw [Nat.succ_mul]
    omega
  unfold roundDiv
  dsimp only
  split
  · exact quotient
  · next up =>
    refine Nat.lt_of_le_of_ne quotient fun same => up (Or.inl ?_)
    -- The quotient is `n`, so less than half of a divisor is left.
    rw [same, Nat.mul_comm] at whole
    rw [Nat.add_mul, Nat.mul_assoc] at below
    omega

namespace Binary32

variable {x y low high : Binary32} {m : Nat}

/-! ## Classes -/

theorem isNaN_of_isFinite (finite : x.isFinite = true) : x.isNaN = false := by
  simp only [isFinite, decide_eq_true_eq] at finite
  simp [isNaN, finite]

theorem isInfinite_of_isFinite (finite : x.isFinite = true) : x.isInfinite = false := by
  simp only [isFinite, decide_eq_true_eq] at finite
  simp [isInfinite, finite]

theorem natAbs_value (x : Binary32) : x.value.natAbs = x.magnitude := by
  unfold value
  split
  · rw [Int.natAbs_neg, Int.natAbs_natCast]
  · exact Int.natAbs_natCast _

/-- The magnitude of the largest finite number. -/
def largestMagnitude : Nat := 0xffffff <<< 253

theorem magnitude_le_of_isFinite (finite : x.isFinite = true) :
    x.magnitude ≤ largestMagnitude := by
  have small : x.fraction < 0x800000 := Nat.mod_lt _ (by decide)
  have top : x.exponent < 256 := Nat.mod_lt _ (by decide)
  simp only [isFinite, decide_eq_true_eq] at finite
  rw [largestMagnitude, Nat.shiftLeft_eq]
  unfold magnitude
  split
  · exact Nat.le_trans (Nat.le_of_lt small) (by decide)
  · rw [Nat.shiftLeft_eq]
    exact Nat.mul_le_mul (by omega) (Nat.pow_le_pow_right (by decide) (by omega))

theorem infiniteMagnitude_eq : infiniteMagnitude = 2 ^ 23 * 2 ^ 254 := by decide

/-- Infinities and NaN have larger magnitudes. -/
theorem isFinite_of_magnitude_lt (below : x.magnitude < infiniteMagnitude) :
    x.isFinite = true := by
  rw [isFinite, decide_eq_true_iff]
  intro special
  rw [magnitude, special, if_neg (by decide), infiniteMagnitude_eq, Nat.shiftLeft_eq] at below
  have leading := Nat.lt_of_mul_lt_mul_right below
  omega

/-! ## Signs -/

theorem exponent_neg (x : Binary32) : (-x).exponent = x.exponent := by
  show (x.bits ^^^ 0x80000000).toNat / 2 ^ 23 % 2 ^ 8 = x.bits.toNat / 2 ^ 23 % 2 ^ 8
  rw [UInt32.toNat_xor, Nat.xor_div_two_pow, Nat.xor_mod_two_pow]
  exact Nat.xor_zero _

theorem isFinite_neg (x : Binary32) : (-x).isFinite = x.isFinite := by
  rw [isFinite, isFinite, exponent_neg]

theorem fraction_neg (x : Binary32) : (-x).fraction = x.fraction := by
  show (x.bits ^^^ 0x80000000).toNat % 2 ^ 23 = x.bits.toNat % 2 ^ 23
  rw [UInt32.toNat_xor, Nat.xor_mod_two_pow]
  exact Nat.xor_zero _

theorem isNegative_neg (x : Binary32) : (-x).isNegative = !x.isNegative := by
  have word := x.bits.toNat_lt
  have sign : (-x).bits.toNat / 2 ^ 31 = x.bits.toNat / 2 ^ 31 ^^^ 1 := by
    show (x.bits ^^^ 0x80000000).toNat / 2 ^ 31 = _
    rw [UInt32.toNat_xor, Nat.xor_div_two_pow]
    rfl
  have turned : 0x80000000 ≤ (-x).bits.toNat ↔ ¬0x80000000 ≤ x.bits.toNat := by
    rcases (show x.bits.toNat / 2 ^ 31 = 0 ∨ x.bits.toNat / 2 ^ 31 = 1 by omega) with plus | minus
    · rw [plus, Nat.zero_xor] at sign
      omega
    · rw [minus, Nat.xor_self] at sign
      omega
  rw [isNegative, isNegative, decide_eq_decide.mpr turned, decide_not]

theorem magnitude_neg (x : Binary32) : (-x).magnitude = x.magnitude := by
  rw [magnitude, magnitude, exponent_neg, fraction_neg]

theorem value_neg (x : Binary32) : (-x).value = -x.value := by
  rw [value, value, magnitude_neg, isNegative_neg]
  cases x.isNegative
  · rfl
  · exact (Int.neg_neg _).symm

theorem exponent_abs (x : Binary32) : x.abs.exponent = x.exponent := by
  show (x.bits &&& 0x7fffffff).toNat / 2 ^ 23 % 2 ^ 8 = x.bits.toNat / 2 ^ 23 % 2 ^ 8
  rw [UInt32.toNat_and]
  show (x.bits.toNat &&& (2 ^ 31 - 1)) / _ % _ = _
  rw [Nat.and_two_pow_sub_one_eq_mod]
  omega

theorem fraction_abs (x : Binary32) : x.abs.fraction = x.fraction := by
  show (x.bits &&& 0x7fffffff).toNat % 2 ^ 23 = x.bits.toNat % 2 ^ 23
  rw [UInt32.toNat_and]
  show (x.bits.toNat &&& (2 ^ 31 - 1)) % _ = _
  rw [Nat.and_two_pow_sub_one_eq_mod]
  omega

theorem isNaN_abs (x : Binary32) : x.abs.isNaN = x.isNaN := by
  rw [isNaN, isNaN, exponent_abs, fraction_abs]

/-! ## Patterns of magnitudes -/

/-- The leading bits of a magnitude. -/
theorem leading_lt (m : Nat) : m >>> (m.log2 - 23) < 0x1000000 := by
  rw [Nat.shiftRight_eq_div_pow, Nat.div_lt_iff_lt_mul (Nat.two_pow_pos _)]
  calc m < 2 ^ (m.log2 + 1) := Nat.lt_log2_self
    _ ≤ 2 ^ (24 + (m.log2 - 23)) := Nat.pow_le_pow_right (by decide) (by omega)
    _ = 0x1000000 * 2 ^ (m.log2 - 23) := Nat.pow_add ..

theorem log2_lt (below : m < infiniteMagnitude) : m.log2 < 23 + 254 := by
  by_cases zero : m = 0
  · rw [zero]
    decide
  · rw [infiniteMagnitude_eq, ← Nat.pow_add] at below
    exact (Nat.log2_lt zero).mpr below

/-- A pattern without its sign has the exponent in its leading bits. -/
theorem exponent_ofMagnitude (negative : Bool)
    (fits : 0x800000 * (m.log2 - 23) + m >>> (m.log2 - 23) < 0x80000000) :
    (ofMagnitude negative m).exponent =
      (0x800000 * (m.log2 - 23) + m >>> (m.log2 - 23)) / 0x800000 := by
  simp only [exponent, ofMagnitude, UInt32.toNat_ofNat']
  generalize 0x800000 * (m.log2 - 23) + m >>> (m.log2 - 23) = body at fits ⊢
  cases negative <;> simp only [Bool.false_eq_true, if_false, if_true] <;> omega

theorem isFinite_ofMagnitude (negative : Bool) (below : m < infiniteMagnitude) :
    (ofMagnitude negative m).isFinite = true := by
  have log := log2_lt below
  have leading := leading_lt m
  have exponent := exponent_ofMagnitude (m := m) negative (by omega)
  rw [isFinite, decide_eq_true_iff, exponent]
  omega

theorem isNaN_ofMagnitude (negative : Bool) (le : m ≤ infiniteMagnitude) :
    (ofMagnitude negative m).isNaN = false := by
  rcases Nat.eq_or_lt_of_le le with rfl | below
  · cases negative <;> decide +kernel
  · exact isNaN_of_isFinite (isFinite_ofMagnitude negative below)

/-! ## Rounding -/

/-- Half a unit in the last place above the largest magnitude. -/
def overflowThreshold : Nat := 0x1ffffff <<< 252

/-- Rounding does not reach the magnitude of an infinity from below the threshold. -/
theorem roundQuanta_lt {num den : Nat} (below : num < overflowThreshold * den) :
    roundQuanta num den < infiniteMagnitude := by
  have positive : 0 < den := by
    rcases Nat.eq_zero_or_pos den with rfl | positive
    · exact absurd below (Nat.not_lt_zero _)
    · exact positive
  have log : (num / den).log2 < 23 + 254 := by
    refine log2_lt (Nat.lt_trans ((Nat.div_lt_iff_lt_mul positive).mpr below) ?_)
    decide
  have leading := leading_lt (num / den)
  unfold roundQuanta
  dsimp only
  generalize grid : (num / den).log2 - 23 = shift at leading ⊢
  rw [Nat.shiftRight_eq_div_pow, Nat.div_div_eq_div_mul] at leading
  rw [Nat.shiftLeft_eq, Nat.shiftLeft_eq, infiniteMagnitude_eq]
  by_cases top : shift = 253
  · -- On the coarsest grid the threshold is where rounding up would begin.
    have fits : roundDiv num (den * 2 ^ shift) ≤ 0xffffff := by
      refine roundDiv_le ?_
      have half : 2 * overflowThreshold = (2 * 0xffffff + 1) * 2 ^ 253 := by decide
      calc 2 * num < 2 * (overflowThreshold * den) := by omega
        _ = (2 * 0xffffff + 1) * (den * 2 ^ shift) := by
          rw [← Nat.mul_assoc, half, top, Nat.mul_assoc, Nat.mul_comm (2 ^ 253)]
    rw [top]
    exact Nat.lt_of_le_of_lt (Nat.mul_le_mul_right _ (top ▸ fits)) (by decide)
  · have fits : roundDiv num (den * 2 ^ shift) ≤ 2 ^ 24 :=
      Nat.le_trans (roundDiv_bounds num _).2 leading
    calc roundDiv num (den * 2 ^ shift) * 2 ^ shift ≤ 2 ^ 24 * 2 ^ 252 :=
          Nat.mul_le_mul fits (Nat.pow_le_pow_right (by decide) (by omega))
      _ < 2 ^ 23 * 2 ^ 254 := by decide

theorem isNaN_ofQuotient (negative : Bool) (num den : Nat) :
    (ofQuotient negative num den).isNaN = false :=
  isNaN_ofMagnitude negative (Nat.min_le_right _ _)

theorem isFinite_ofQuotient (negative : Bool) {num den : Nat}
    (below : num < overflowThreshold * den) : (ofQuotient negative num den).isFinite = true :=
  isFinite_ofMagnitude negative (Nat.lt_of_le_of_lt (Nat.min_le_left _ _) (roundQuanta_lt below))

/-! ## Sums -/

theorem add_of_isFinite (first : x.isFinite = true) (second : y.isFinite = true) :
    x + y =
      if x.value + y.value = 0 then ofMagnitude (x.isNegative && y.isNegative) 0
      else ofQuotient (x.value + y.value < 0) (x.value + y.value).natAbs 1 := by
  show x.add y = _
  simp only [add, isNaN_of_isFinite first, isNaN_of_isFinite second,
    isInfinite_of_isFinite first, isInfinite_of_isFinite second, Bool.or_self,
    Bool.false_eq_true, if_false]

theorem sub_self (finite : x.isFinite = true) : x - x = zero := by
  show x + -x = zero
  rw [add_of_isFinite finite ((isFinite_neg x).trans finite), value_neg, Int.add_right_neg,
    if_pos rfl, isNegative_neg, Bool.and_not_self]
  rfl

/-- A sum of finite numbers is a number, if perhaps an infinity. -/
theorem isNaN_add (first : x.isFinite = true) (second : y.isFinite = true) :
    (x + y).isNaN = false := by
  rw [add_of_isFinite first second]
  split
  · exact isNaN_ofMagnitude _ (Nat.zero_le _)
  · exact isNaN_ofQuotient ..

theorem isNaN_sub (first : x.isFinite = true) (second : y.isFinite = true) :
    (x - y).isNaN = false :=
  isNaN_add first ((isFinite_neg y).trans second)

/-- Adding a number to a finite one gives a finite one if it is small enough next to the
largest. -/
theorem isFinite_add (first : x.isFinite = true) (second : y.isFinite = true)
    (small : y.magnitude < overflowThreshold - largestMagnitude) : (x + y).isFinite = true := by
  rw [add_of_isFinite first second]
  split
  · exact isFinite_ofMagnitude _ (by decide)
  · have large := magnitude_le_of_isFinite first
    have sum := Int.natAbs_add_le x.value y.value
    rw [natAbs_value, natAbs_value] at sum
    exact isFinite_ofQuotient _ (by omega)

/-! ## Clamping -/

theorem le_refl_of_number (number : x.isNaN = false) : x ≤ x :=
  le_iff.mpr ⟨number, number, Int.le_refl _⟩

theorem le_of_not_lt (first : x.isNaN = false) (second : y.isNaN = false) (not : ¬x < y) : y ≤ x :=
  le_iff.mpr ⟨second, first, Int.not_lt.mp fun below => not (lt_iff.mpr ⟨first, second, below⟩)⟩

/-- What is clamped lies between the bounds. -/
theorem clamp_bounds (number : x.isNaN = false) (le : low ≤ high) :
    low ≤ x.clamp low high ∧ x.clamp low high ≤ high := by
  obtain ⟨lowNumber, highNumber, -⟩ := le_iff.mp le
  unfold clamp
  dsimp only
  split
  · split
    · exact ⟨le, le_refl_of_number highNumber⟩
    · exact ⟨le_refl_of_number lowNumber, le⟩
  · next notBelow =>
    split
    · exact ⟨le, le_refl_of_number highNumber⟩
    · next notAbove =>
      exact ⟨le_of_not_lt number lowNumber notBelow, le_of_not_lt highNumber number notAbove⟩

/-- NaN is not brought between any bounds. -/
theorem isNaN_clamp (nan : x.isNaN = true) (low high : Binary32) :
    (x.clamp low high).isNaN = true := by
  have unordered : ∀ y : Binary32, ¬x < y ∧ ¬y < x := by
    intro y
    simp only [lt_iff, nan, Bool.true_eq_false, false_and, and_false, not_false_eq_true, and_self]
  unfold clamp
  dsimp only
  rw [if_neg (unordered low).1, if_neg (unordered high).2, nan]

/-- A number between a bound and its opposite is no larger than the bound. -/
theorem magnitude_le_of_between (lower : low ≤ x) (upper : x ≤ high)
    (opposite : low.value = -high.value) : x.magnitude ≤ high.magnitude := by
  obtain ⟨-, -, least⟩ := le_iff.mp lower
  obtain ⟨-, -, most⟩ := le_iff.mp upper
  rw [← natAbs_value, ← natAbs_value]
  omega

end Binary32

end Animatronic
