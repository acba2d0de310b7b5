import Animatronic.Decimal.Fixed
import Mathlib.Algebra.Order.Field.Basic
import Mathlib.Algebra.Order.Ring.Abs
import Mathlib.Data.Rat.Cast.Order
import Mathlib.Tactic.FieldSimp
import Mathlib.Tactic.Linarith
import Mathlib.Tactic.Positivity
import Mathlib.Tactic.Ring

/-!
# Numerals with fixed places

A `Numeral` is a decimal number as it is written: perhaps a minus sign, digits, a point and more
digits.  The text of `Decimal.fixed`, behind its sign, is that of a numeral (`text_numeral`), and
no number with as many places lies nearer to the signed quotient (`isNearest_numeral`).
-/

namespace Animatronic

/-! ## Rounding -/

/-- What is rounded goes no further than half a unit. -/
theorem abs_roundDiv_mul_sub (num : Nat) {den : Nat} (positive : 0 < den) :
    2 * |(roundDiv num den * den : ℤ) - num| ≤ den ∧
      (2 * |(roundDiv num den * den : ℤ) - num| = den → Even (roundDiv num den)) := by
  have whole := Nat.div_add_mod' num den
  have rest := Nat.mod_lt num positive
  unfold roundDiv
  dsimp only
  generalize num % den = r at whole rest ⊢
  generalize num / den = q at whole ⊢
  -- The distance is the remainder, or what the remainder lacks of a divisor.
  split
  · next down =>
    have below : ((q : ℤ) * den) - num = -r := by
      rw [← whole]
      push_cast
      ring
    rw [below, abs_neg, Nat.abs_cast]
    refine ⟨by omega, fun tie => Nat.even_iff.mpr ?_⟩
    omega
  · next up =>
    have above : (((q + 1 : Nat) : ℤ) * den) - num = ((den - r : Nat) : ℤ) := by
      rw [← whole]
      push_cast [Nat.cast_sub (Nat.le_of_lt rest)]
      ring
    rw [above, Nat.abs_cast]
    refine ⟨by omega, fun tie => Nat.even_iff.mpr ?_⟩
    omega

/-! ## Numerals -/

/-- A decimal number as it is written: whether a minus sign stands in front, and the digits on
either side of the point. -/
structure Numeral where
  negative : Bool
  whole : List Char
  places : List Char
deriving DecidableEq

namespace Numeral

def text (numeral : Numeral) : List Char :=
  (if numeral.negative then ['-'] else []) ++ numeral.whole ++ '.' :: numeral.places

/-- The number of units of the last place. -/
def units (numeral : Numeral) : Nat := Nat.ofDigitChars 10 (numeral.whole ++ numeral.places) 0

def value (numeral : Numeral) : ℚ :=
  (if numeral.negative then -1 else 1) * (numeral.units / 10 ^ numeral.places.length)

/-- There are digits on both sides of the point, and nothing but digits. -/
structure IsDecimal (numeral : Numeral) : Prop where
  whole_ne_nil : numeral.whole ≠ []
  whole : ∀ c ∈ numeral.whole, c.isDigit = true
  places_ne_nil : numeral.places ≠ []
  places : ∀ c ∈ numeral.places, c.isDigit = true

/-- No number with as many places lies nearer, and of two that are equally near this is the one
with an even last digit. -/
structure IsNearest (numeral : Numeral) (exact : ℚ) : Prop where
  within : |numeral.value - exact| ≤ 1 / 2 / 10 ^ numeral.places.length
  even : |numeral.value - exact| = 1 / 2 / 10 ^ numeral.places.length → Even numeral.units

end Numeral

namespace Decimal

variable {places den : Nat}

theorem length_padded (positive : 0 < places) {n : Nat} (small : n < 10 ^ places) :
    (padded places n).length = places := by
  have digits := (Nat.length_toDigits_le_iff (by decide) positive).mpr small
  rw [padded, List.length_leftpad]
  exact Nat.max_eq_left digits

theorem isDigit_of_mem_padded {n : Nat} {c : Char} (mem : c ∈ padded places n) :
    c.isDigit = true := by
  unfold padded List.leftpad at mem
  rcases List.mem_append.mp mem with zero | digit
  · rw [(List.mem_replicate.mp zero).2]
    decide
  · exact Nat.isDigit_of_mem_toDigits (by decide) (by decide) digit

/-- Zeros in front do not count. -/
theorem ofDigitChars_padded (places n : Nat) : Nat.ofDigitChars 10 (padded places n) 0 = n := by
  rw [padded, List.leftpad, Nat.ofDigitChars_append, Nat.ofDigitChars_replicate_zero, Nat.mul_zero,
    Nat.ofDigitChars_ten_toDigits]

/-- The numeral of so many units of the last place. -/
def numeral (negative : Bool) (places units : Nat) : Numeral where
  negative := negative
  whole := Nat.toDigits 10 (units / 10 ^ places)
  places := padded places (units % 10 ^ places)

theorem text_numeral (negative : Bool) (places num den : Nat) :
    (numeral negative places (roundDiv (num * 10 ^ places) den)).text =
      (if negative then ['-'] else []) ++ fixed places num den :=
  List.append_assoc ..

theorem length_places_numeral (negative : Bool) (positive : 0 < places) (units : Nat) :
    (numeral negative places units).places.length = places :=
  length_padded positive (Nat.mod_lt _ (Nat.pow_pos (by decide)))

theorem isDecimal_numeral (negative : Bool) (positive : 0 < places) (units : Nat) :
    (numeral negative places units).IsDecimal where
  whole_ne_nil := Nat.toDigits_ne_nil
  whole := fun _ mem => Nat.isDigit_of_mem_toDigits (by decide) (by decide) mem
  places_ne_nil := by
    rw [← List.length_pos_iff, length_places_numeral negative positive]
    exact positive
  places := fun _ mem => isDigit_of_mem_padded mem

theorem units_numeral (negative : Bool) (positive : 0 < places) (units : Nat) :
    (numeral negative places units).units = units := by
  have length := length_places_numeral negative positive units
  rw [Numeral.units, Nat.ofDigitChars_append, Nat.ofDigitChars_eq_ofDigitChars_zero, length]
  simp only [numeral]
  rw [Nat.ofDigitChars_ten_toDigits, ofDigitChars_padded]
  exact Nat.div_add_mod ..

theorem length_text_numeral_le (negative : Bool) (positive : 0 < places) {digits units : Nat}
    (wide : 0 < digits) (small : units < 10 ^ digits * 10 ^ places) :
    (numeral negative places units).text.length ≤ digits + places + 2 := by
  have sign : (if (numeral negative places units).negative then ['-'] else []).length ≤ 1 := by
    cases negative with
    | true => exact Nat.le_refl 1
    | false => exact Nat.zero_le 1
  have whole : (numeral negative places units).whole.length ≤ digits :=
    (Nat.length_toDigits_le_iff (by decide) wide).mpr
      (Nat.div_lt_of_lt_mul (by rwa [Nat.mul_comm]))
  have width := length_places_numeral negative positive units
  rw [Numeral.text, List.length_append, List.length_append, List.length_cons, width]
  omega

/-- The distance from what was meant, in the last place. -/
theorem abs_value_numeral_sub (negative : Bool) (positive : 0 < places) (units num : Nat)
    (divides : 0 < den) :
    |(numeral negative places units).value - (if negative then -1 else 1) * (num / den : ℚ)| =
      |(units * den : ℤ) - (num * 10 ^ places : Nat)| / den / 10 ^ places := by
  have nonzero : (den : ℚ) ≠ 0 := Nat.cast_ne_zero.mpr (Nat.ne_of_gt divides)
  have power : (10 : ℚ) ^ places ≠ 0 := pow_ne_zero _ (by decide)
  have sign : |(if negative then -1 else 1 : ℚ)| = 1 := by
    cases negative with
    | true => exact (abs_neg 1).trans abs_one
    | false => exact abs_one
  rw [Numeral.value, units_numeral negative positive, length_places_numeral negative positive]
  change |(if negative then -1 else 1 : ℚ) * _ - _| = _
  rw [← mul_sub, abs_mul, sign, one_mul, div_sub_div _ _ power nonzero, abs_div,
    abs_of_pos (a := (10 : ℚ) ^ places * den) (by positivity), div_div, mul_comm (den : ℚ)]
  push_cast
  rw [mul_comm (num : ℚ)]

theorem isNearest_numeral (negative : Bool) (positive : 0 < places) (num : Nat)
    (divides : 0 < den) :
    (numeral negative places (roundDiv (num * 10 ^ places) den)).IsNearest
      ((if negative then -1 else 1) * (num / den)) := by
  have close := abs_roundDiv_mul_sub (num * 10 ^ places) divides
  generalize roundDiv (num * 10 ^ places) den = units at close ⊢
  have apart := abs_value_numeral_sub negative positive units num divides
  generalize |(units * den : ℤ) - (num * 10 ^ places : Nat)| = error at close apart
  obtain ⟨within, even⟩ := close
  have divisor : (0 : ℚ) < den := Nat.cast_pos.mpr divides
  have power : (0 : ℚ) < 10 ^ places := by positivity
  constructor
  · rw [length_places_numeral negative positive, apart]
    refine div_le_div_of_nonneg_right ?_ power.le
    rw [div_le_div_iff₀ divisor two_pos, one_mul, mul_comm]
    exact_mod_cast within
  · rw [length_places_numeral negative positive, apart, units_numeral negative positive,
      div_left_inj' power.ne', div_eq_div_iff divisor.ne' two_ne_zero, one_mul, mul_comm]
    exact fun tie => even (by exact_mod_cast tie)

end Decimal

end Animatronic
