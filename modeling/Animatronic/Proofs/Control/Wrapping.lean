import Animatronic.Control.Angle
import Animatronic.Proofs.Binary32.Order

/-!
# Wrapped angles

The remainder of a division has no more significant bits than its operands, so that it is exact
(`Binary32.value_mod`).  One that is not negative is kept bit by bit.  One turn added to a negative
remainder may round up to a full turn again, and nowhere else; what is wrapped therefore lies in
the half-open turn, whatever it was (`Angle.wrap_bounds`), and is left alone when it is wrapped
again.
-/

namespace Animatronic

namespace Binary32

variable {x y : Binary32}

/-- A remainder is a multiple of the finer one of two grids, and no larger than what is on it. -/
theorem isExact_mod {a b : Nat} (first : IsExact a) (second : IsExact b) : IsExact (a % b) := by
  obtain ⟨p, s, small, rfl⟩ := first
  obtain ⟨q, t, smaller, rfl⟩ := second
  rcases Nat.le_total t s with finer | coarser
  · rcases Nat.eq_zero_or_pos q with rfl | positive
    · rw [Nat.zero_mul, Nat.mod_zero]
      exact ⟨p, s, small, rfl⟩
    · have onGrid : p * 2 ^ s = p * 2 ^ (s - t) * 2 ^ t := by
        rw [Nat.mul_assoc, ← Nat.pow_add, Nat.sub_add_cancel finer]
      rw [onGrid, Nat.mul_mod_mul_right]
      exact ⟨_, t, Nat.lt_trans (Nat.mod_lt _ positive) smaller, rfl⟩
  · have onGrid : q * 2 ^ t = q * 2 ^ (t - s) * 2 ^ s := by
      rw [Nat.mul_assoc, ← Nat.pow_add, Nat.sub_add_cancel coarser]
    rw [onGrid, Nat.mul_mod_mul_right]
    exact ⟨_, s, Nat.lt_of_le_of_lt (Nat.mod_le ..) small, rfl⟩

theorem mod_of_isFinite (first : x.isFinite = true) (second : y.isFinite = true)
    (nonzero : y.magnitude ≠ 0) :
    x % y = ofMagnitude x.isNegative (x.magnitude % y.magnitude) := by
  show x.rem y = _
  simp only [rem, isNaN_of_isFinite first, isNaN_of_isFinite second,
    isInfinite_of_isFinite first, isInfinite_of_isFinite second, nonzero, decide_false,
    Bool.or_self, Bool.false_eq_true, if_false]

/-- What is left of a magnitude is smaller than the divisor, and some pattern has it. -/
theorem sign_magnitude_mod (first : x.isFinite = true) (second : y.isFinite = true)
    (nonzero : y.magnitude ≠ 0) :
    (x % y).isFinite = true ∧ (x % y).isNegative = x.isNegative ∧
      (x % y).magnitude = x.magnitude % y.magnitude := by
  have below := Nat.mod_lt x.magnitude (Nat.pos_of_ne_zero nonzero)
  have finite := Nat.lt_trans below (magnitude_lt_of_isFinite second)
  have exact : IsExact (x.magnitude % y.magnitude) :=
    isExact_mod x.isExact_magnitude y.isExact_magnitude
  rw [mod_of_isFinite first second nonzero]
  exact ⟨isFinite_ofMagnitude _ finite, isNegative_ofMagnitude _ (Nat.le_of_lt finite),
    magnitude_ofMagnitude _ exact (Nat.le_of_lt finite)⟩

/-- A remainder by a finite number is finite and smaller than that number. -/
theorem mod_bounds (first : x.isFinite = true) (second : y.isFinite = true)
    (nonzero : y.magnitude ≠ 0) :
    (x % y).isFinite = true ∧ (x % y).magnitude < y.magnitude := by
  obtain ⟨finite, -, magnitude⟩ := sign_magnitude_mod first second nonzero
  exact ⟨finite, magnitude ▸ Nat.mod_lt _ (Nat.pos_of_ne_zero nonzero)⟩

/-- A remainder is exact: it is that of the values, with the sign of the dividend. -/
theorem value_mod (first : x.isFinite = true) (second : y.isFinite = true)
    (nonzero : y.magnitude ≠ 0) : (x % y).value = x.value.tmod y.value := by
  obtain ⟨-, sign, magnitude⟩ := sign_magnitude_mod first second nonzero
  have divisor : ∀ n : Int, n.tmod y.value = n.tmod y.magnitude := by
    intro n
    unfold value
    split
    · exact Int.tmod_neg n _
    · rfl
  rw [divisor, value, value, sign, magnitude]
  split
  · rw [Int.neg_tmod, Int.ofNat_tmod]
  · exact Int.ofNat_tmod _ _

/-- Nothing is taken away from a smaller number. -/
theorem mod_of_magnitude_lt (second : y.isFinite = true) (below : x.magnitude < y.magnitude) :
    x % y = x := by
  have first : x.isFinite = true :=
    isFinite_of_magnitude_lt (Nat.lt_trans below (magnitude_lt_of_isFinite second))
  rw [mod_of_isFinite first second (Nat.ne_zero_of_lt below), Nat.mod_eq_of_lt below,
    ofMagnitude_magnitude]

theorem nonneg_of_zero_le (le : zero ≤ x) : 0 ≤ x.value := (le_iff.mp le).2.2

theorem zero_le_of_nonneg (finite : x.isFinite = true) (nonneg : 0 ≤ x.value) : zero ≤ x :=
  le_iff.mpr ⟨by decide, isNaN_of_isFinite finite, nonneg⟩

end Binary32

namespace Angle

open Binary32 (zero nearest)

variable {angle : Binary32}

theorem remainder_tau (finite : angle.isFinite = true) :
    (remainder angle tau).isFinite = true ∧ 0 ≤ (remainder angle tau).value := by
  obtain ⟨rest, below⟩ := Binary32.mod_bounds finite (y := tau) (by decide) (by decide)
  unfold remainder
  dsimp only
  split
  · next positive => exact ⟨rest, Binary32.nonneg_of_zero_le positive⟩
  · -- A remainder is less than a turn below zero, so that one turn lifts it far enough.
    have turn : tau.abs = tau := by decide
    have value : tau.value = tau.magnitude := by decide
    have least := Binary32.natAbs_value (angle % tau)
    have lifted : 0 ≤ (angle % tau).value + tau.value := by omega
    have small : tau.magnitude < Binary32.overflowThreshold - Binary32.largestMagnitude := by
      decide
    rw [turn, Binary32.value_add rest (by decide) lifted]
    exact ⟨Binary32.isFinite_add rest (by decide) small, Int.natCast_nonneg _⟩

/-- Whatever is wrapped, it lies in the half-open turn. -/
theorem wrap_bounds (angle : Binary32) :
    (wrap angle).isFinite = true ∧ zero ≤ wrap angle ∧ wrap angle < tau := by
  have rests : zero.isFinite = true ∧ zero ≤ zero ∧ zero < tau := by decide
  unfold wrap
  split
  · next finite =>
    obtain ⟨still, nonneg⟩ := remainder_tau finite
    dsimp only
    split
    · exact rests
    · next within =>
      have number := Binary32.isNaN_of_isFinite still
      refine ⟨still, Binary32.zero_le_of_nonneg still nonneg,
        Binary32.lt_iff.mpr ⟨number, by decide, ?_⟩⟩
      exact Int.not_le.mp fun le => within (Binary32.le_iff.mpr ⟨by decide, number, le⟩)
  · exact rests

/-! ## What wrapping comes to -/

/-- A remainder that is not negative is kept as it is. -/
theorem wrap_of_nonneg (finite : angle.isFinite = true) (nonneg : 0 ≤ (angle % tau).value) :
    wrap angle = angle % tau := by
  obtain ⟨rest, below⟩ := Binary32.mod_bounds finite (y := tau) (by decide) (by decide)
  have kept : zero ≤ angle % tau := Binary32.zero_le_of_nonneg rest nonneg
  have within : ¬tau ≤ angle % tau := by
    intro turn
    have large := (Binary32.le_iff.mp turn).2.2
    rw [Binary32.value_eq_magnitude nonneg, show tau.value = tau.magnitude by decide] at large
    exact absurd (Int.ofNat_le.mp large) (Nat.not_le.mpr below)
  rw [wrap, if_pos finite, remainder]
  dsimp only
  rw [if_pos kept, if_neg within]

/-- A negative remainder is lifted by a turn, and a full turn is no turn. -/
theorem wrap_of_neg (finite : angle.isFinite = true) (negative : (angle % tau).value < 0) :
    wrap angle = if tau ≤ angle % tau + tau then zero else angle % tau + tau := by
  have lowered : ¬zero ≤ angle % tau := fun nonneg =>
    absurd (Binary32.nonneg_of_zero_le nonneg) (Int.not_le.mpr negative)
  rw [wrap, if_pos finite, remainder]
  dsimp only
  rw [if_neg lowered, show tau.abs = tau by decide]

/-- What is below a turn is not rounded past it. -/
theorem nearest_le_tau {quanta : Nat} (below : quanta ≤ tau.magnitude) :
    nearest quanta 1 ≤ tau.magnitude := by
  have exact := Binary32.nearest_of_isExact tau.isExact_magnitude (by decide) Nat.one_pos
  rw [Nat.mul_one] at exact
  rw [← exact]
  exact Binary32.nearest_mono Nat.one_pos Nat.one_pos (Nat.mul_le_mul_right 1 below)

/-- The lifted remainder is rounded, which may make it a full turn. -/
theorem value_wrap_of_neg (finite : angle.isFinite = true) (negative : (angle % tau).value < 0) :
    (wrap angle).value =
      (nearest ((angle % tau).value + tau.value).toNat 1 % tau.magnitude : Nat) := by
  obtain ⟨rest, below⟩ := Binary32.mod_bounds finite (y := tau) (by decide) (by decide)
  have turn : tau.value = tau.magnitude := by decide
  have least := Binary32.natAbs_value (angle % tau)
  have lifted := Binary32.value_add rest (y := tau) (by decide) (by omega)
  have atMost : nearest ((angle % tau).value + tau.value).toNat 1 ≤ tau.magnitude :=
    nearest_le_tau (by omega)
  have number : (angle % tau + tau).isNaN = false := Binary32.isNaN_add rest (by decide)
  generalize nearest ((angle % tau).value + tau.value).toNat 1 = rounded at lifted atMost ⊢
  rw [wrap_of_neg finite negative]
  split
  · next full =>
    have large := (Binary32.le_iff.mp full).2.2
    have same : rounded = tau.magnitude := by omega
    rw [same, Nat.mod_self]
    decide
  · next within =>
    have small : ¬tau.value ≤ (angle % tau + tau).value := fun large =>
      within (Binary32.le_iff.mpr ⟨by decide, number, large⟩)
    rw [lifted, Nat.mod_eq_of_lt (by omega)]

/-- An angle within the turn is left alone. -/
theorem wrap_of_within (finite : angle.isFinite = true) (nonneg : zero ≤ angle)
    (below : angle < tau) : wrap angle = angle := by
  have turn : tau.value = tau.magnitude := by decide
  have value := Binary32.value_eq_magnitude (Binary32.nonneg_of_zero_le nonneg)
  have small := (Binary32.lt_iff.mp below).2.2
  have same : angle % tau = angle := Binary32.mod_of_magnitude_lt (by decide) (by omega)
  have kept := wrap_of_nonneg finite (by rw [same]; exact Binary32.nonneg_of_zero_le nonneg)
  rw [kept, same]

/-- An angle and where it lies in the turn.  The remainder by a turn is exact, and truncated toward
zero; only one that is negative is changed. -/
structure WrapsTo (angle wrapped : Binary32) : Prop where
  finite : wrapped.isFinite = true
  nonneg : zero ≤ wrapped
  below : wrapped < tau
  settled : wrap wrapped = wrapped
  kept : angle.isFinite = true → 0 ≤ angle.value.tmod tau.value →
    wrapped = angle % tau ∧ wrapped.value = angle.value.tmod tau.value
  lifted : angle.isFinite = true → angle.value.tmod tau.value < 0 →
    wrapped.value =
      (nearest (angle.value.tmod tau.value + tau.value).toNat 1 % tau.magnitude : Nat)

/-- Any pattern at all is wrapped to a finite angle within the turn, and stays there. -/
theorem wrapsTo_wrap (angle : Binary32) : WrapsTo angle (wrap angle) := by
  obtain ⟨finite, nonneg, below⟩ := wrap_bounds angle
  have exact : angle.isFinite = true → (angle % tau).value = angle.value.tmod tau.value :=
    fun still => Binary32.value_mod still (by decide) (by decide)
  refine ⟨finite, nonneg, below, wrap_of_within finite nonneg below, fun still rest => ?_,
    fun still rest => ?_⟩
  · rw [← exact still] at rest
    have same := wrap_of_nonneg still rest
    exact ⟨same, by rw [same, exact still]⟩
  · rw [← exact still] at rest ⊢
    exact value_wrap_of_neg still rest

end Angle

end Animatronic
