/-!
# Rounding

One rounding rule serves the whole library: a quotient goes to the nearest natural, and a quotient
that lies halfway between two naturals goes to the even one.  Arithmetic on `Binary32` rounds a
significand with it, and decimal output rounds a number of decimal places with it.
-/

namespace Animatronic

/-- `num / den` rounded to the nearest natural, a half going to the even neighbour. -/
def roundDiv (num den : Nat) : Nat :=
  let quotient := num / den
  let rest := num % den
  if 2 * rest < den ∨ (2 * rest = den ∧ quotient % 2 = 0) then quotient else quotient + 1

/-- A whole quotient needs no rounding. -/
theorem roundDiv_mul_right (n : Nat) {den : Nat} (positive : 0 < den) :
    roundDiv (n * den) den = n := by
  simp [roundDiv, Nat.mul_div_cancel _ positive, positive]

/-- The rounded quotient is the quotient or its successor. -/
theorem roundDiv_bounds (num den : Nat) :
    num / den ≤ roundDiv num den ∧ roundDiv num den ≤ num / den + 1 := by
  unfold roundDiv
  dsimp only
  split <;> omega

end Animatronic
