import Animatronic.Control.Calibration
import Animatronic.Proofs.Control.Wrapping

/-!
# The range of targets

On the way from a raw target to an angle there are four operations, and each of them rounds.  What
is rounded grows with the target at every stage and stays below a number that rounding leaves alone
(`Calibration.Ramp`): the fraction of the full scale and the fraction with its margins stay below
one, and the angle below the upper end stop.

The end stop itself has been wrapped, whatever the readings were that it comes from, so that no
angle is ever commanded past it (`Calibration.CommandsInOrder`).
-/

namespace Animatronic

namespace Calibration

open Binary32 (zero one two nearest quantaPerUnit infiniteMagnitude IsExact)

/-! ## Ramps -/

/-- A finite number for each target, from zero to `top` quanta, that grows with the target. -/
structure Ramp (f : UInt16 → Binary32) (top : Nat) : Prop where
  finite : ∀ target, (f target).isFinite = true
  nonneg : ∀ target, 0 ≤ (f target).value
  le_top : ∀ target, (f target).magnitude ≤ top
  mono : ∀ {low high}, low ≤ high → (f low).magnitude ≤ (f high).magnitude

variable {f : UInt16 → Binary32} {top : Nat} {y : Binary32}

/-- Rounding makes a ramp of quotients that grow up to an exact one. -/
theorem Ramp.of_nearest {num : UInt16 → Nat} {den : Nat}
    (rounded : ∀ target, (f target).value = nearest (num target) den) (positive : 0 < den)
    (exact : IsExact top) (small : top < infiniteMagnitude)
    (bounded : ∀ target, num target ≤ top * den)
    (grows : ∀ {low high}, low ≤ high → num low ≤ num high) : Ramp f top := by
  have sized : ∀ target, (f target).magnitude = nearest (num target) den := fun target =>
    Binary32.magnitude_of_value (rounded target)
  have below : ∀ target, (f target).magnitude ≤ top := by
    intro target
    rw [sized, ← Binary32.nearest_of_isExact exact (Nat.le_of_lt small) positive]
    exact Binary32.nearest_mono positive positive (Nat.mul_le_mul_right den (bounded target))
  refine ⟨fun target => ?_, fun target => ?_, below, fun le => ?_⟩
  · exact Binary32.isFinite_of_magnitude_lt (Nat.lt_of_le_of_lt (below target) small)
  · rw [rounded]
    exact Int.natCast_nonneg _
  · rw [sized, sized]
    exact Binary32.nearest_mono positive positive (Nat.mul_le_mul_right den (grows le))

theorem Ramp.le_of_le (ramp : Ramp f top) {low high : UInt16} (le : low ≤ high) :
    f low ≤ f high :=
  Binary32.le_of_magnitude_le (ramp.finite low) (ramp.finite high) (ramp.nonneg low)
    (ramp.nonneg high) (ramp.mono le)

/-- A ramp divided by its top goes up to one. -/
theorem Ramp.div (ramp : Ramp f top) (finite : y.isFinite = true) (positive : 0 < y.value)
    (le : top ≤ y.magnitude) : Ramp (fun target => f target / y) quantaPerUnit := by
  have divisor : 0 < y.magnitude := by
    have same := Binary32.value_eq_magnitude (Int.le_of_lt positive)
    omega
  have quotient target :=
    Binary32.value_div (ramp.finite target) finite (ramp.nonneg target) positive
  refine .of_nearest quotient divisor Binary32.isExact_quantaPerUnit (by decide) (fun target => ?_)
    fun le => ?_
  · rw [Nat.mul_comm]
    exact Nat.mul_le_mul_left _ (Nat.le_trans (ramp.le_top target) le)
  · exact Nat.mul_le_mul_right _ (ramp.mono le)

/-- A ramp that goes up to one, scaled to go up to another number. -/
theorem Ramp.mul (ramp : Ramp f quantaPerUnit) (finite : y.isFinite = true)
    (nonneg : 0 ≤ y.value) :
    Ramp (fun target => f target * y) y.magnitude := by
  have unit : 0 < quantaPerUnit := by decide
  have small := Binary32.magnitude_lt_of_isFinite finite
  have product target :=
    Binary32.value_mul (ramp.finite target) finite (ramp.nonneg target) nonneg
  refine .of_nearest product unit y.isExact_magnitude small (fun target => ?_) fun le => ?_
  · rw [Nat.mul_comm]
    exact Nat.mul_le_mul_left _ (ramp.le_top target)
  · exact Nat.mul_le_mul_right _ (ramp.mono le)

/-- A lifted ramp stays below any exact number above the sum of the tops. -/
theorem Ramp.add {bound : Nat} (ramp : Ramp f top) (finite : y.isFinite = true)
    (nonneg : 0 ≤ y.value) (exact : IsExact bound) (small : bound < infiniteMagnitude)
    (le : top + y.magnitude ≤ bound) : Ramp (fun target => f target + y) bound := by
  have sum : ∀ target,
      (f target + y).value = nearest ((f target).magnitude + y.magnitude) 1 := by
    intro target
    rw [Binary32.value_add (ramp.finite target) finite
      (Int.add_nonneg (ramp.nonneg target) nonneg),
      Binary32.value_eq_magnitude (ramp.nonneg target), Binary32.value_eq_magnitude nonneg]
    rfl
  refine .of_nearest sum Nat.one_pos exact small (fun target => ?_) fun le => ?_
  · have below := ramp.le_top target
    omega
  · exact Nat.add_le_add_right (ramp.mono le) _

/-! ## From targets to angles -/

theorem magnitude_fullScale : fullScale.magnitude = 65535 <<< 149 := by decide +kernel

theorem ramp_target : Ramp (fun target => Binary32.ofInt target.toNat) fullScale.magnitude := by
  have small : fullScale.magnitude < infiniteMagnitude :=
    Binary32.magnitude_lt_of_isFinite (by decide +kernel)
  refine .of_nearest (fun target => Binary32.value_ofInt target.toNat) Nat.one_pos
    fullScale.isExact_magnitude small (fun target => ?_) fun le => ?_
  · have fits := target.toNat_lt
    rw [magnitude_fullScale, Nat.shiftLeft_eq, Nat.shiftLeft_eq, Nat.mul_one]
    exact Nat.mul_le_mul_right _ (by omega)
  · rw [Nat.shiftLeft_eq, Nat.shiftLeft_eq]
    exact Nat.mul_le_mul_right _ le

/-- The part of the range that the targets are spread over. -/
def span : Binary32 := one - two * standardMargin

/-- The fraction of the range that a target stands for. -/
def inset (target : UInt16) : Binary32 :=
  Binary32.ofInt target.toNat / fullScale * span + standardMargin

/-- The upper margin is wide enough for all that rounding adds. -/
theorem ramp_inset : Ramp inset quantaPerUnit := by
  have divisor : fullScale.isFinite = true ∧ 0 < fullScale.value := by decide +kernel
  have factor : span.isFinite = true ∧ 0 ≤ span.value := by decide +kernel
  have margin : standardMargin.isFinite = true ∧ 0 ≤ standardMargin.value := by decide +kernel
  have room : span.magnitude + standardMargin.magnitude ≤ quantaPerUnit := by decide +kernel
  have fraction := ramp_target.div divisor.1 divisor.2 (Nat.le_refl _)
  have spread := fraction.mul factor.1 factor.2
  exact spread.add margin.1 margin.2 Binary32.isExact_quantaPerUnit (by decide) room

/-! ## Sound calibrations -/

/-- A calibration with end stops that can be worked with. -/
structure IsSound (calibration : Calibration) : Prop where
  offset_finite : calibration.offset.isFinite = true
  upper_finite : calibration.upper.isFinite = true
  upper_nonneg : zero ≤ calibration.upper
  upper_le_tau : calibration.upper ≤ Angle.tau

/-- Every target is sent to an angle between the end stops, which is not a small one, and a larger
target to no smaller angle. -/
structure CommandsInOrder (calibration : Calibration) : Prop where
  finite : ∀ target, (calibration.scale target).isFinite = true
  nonneg : ∀ target, zero ≤ calibration.scale target
  le_upper : ∀ target, calibration.scale target ≤ calibration.upper
  rests : ∀ target, calibration.scale target = zero ∨ smallestTarget ≤ calibration.scale target
  mono : ∀ low high, low ≤ high → calibration.scale low ≤ calibration.scale high

variable {calibration : Calibration}

theorem isSound_uncalibrated : uncalibrated.IsSound := by
  constructor <;> decide

theorem isSound_ofEndStops (lower upper : Binary32) : (ofEndStops lower upper).IsSound := by
  obtain ⟨finite, nonneg, below⟩ :=
    Angle.wrap_bounds (upper - if lower.isFinite then lower else zero)
  obtain ⟨number, tau, less⟩ := Binary32.lt_iff.mp below
  refine ⟨?_, finite, nonneg, Binary32.le_iff.mpr ⟨number, tau, Int.le_of_lt less⟩⟩
  unfold ofEndStops
  dsimp only
  split
  · assumption
  · decide

theorem IsSound.ramp (sound : calibration.IsSound) :
    Ramp (fun target => inset target * calibration.upper) calibration.upper.magnitude :=
  ramp_inset.mul sound.upper_finite (Binary32.nonneg_of_zero_le sound.upper_nonneg)

theorem IsSound.ramp_le_upper (sound : calibration.IsSound) (target : UInt16) :
    inset target * calibration.upper ≤ calibration.upper :=
  Binary32.le_of_magnitude_le (sound.ramp.finite target) sound.upper_finite
    (sound.ramp.nonneg target) (Binary32.nonneg_of_zero_le sound.upper_nonneg)
    (sound.ramp.le_top target)

/-- The cut at the upper end stop never changes anything. -/
theorem IsSound.scale_eq (sound : calibration.IsSound)
    (standard : calibration.margin = standardMargin) (target : UInt16) :
    calibration.scale target =
      if inset target * calibration.upper < smallestTarget then zero
      else inset target * calibration.upper := by
  have finite := sound.ramp.finite target
  obtain ⟨number, top, le⟩ := Binary32.le_iff.mp (sound.ramp_le_upper target)
  have within : ¬calibration.upper < inset target * calibration.upper := fun past =>
    Int.not_lt.mpr le (Binary32.lt_iff.mp past).2.2
  have uncut : (inset target * calibration.upper).min calibration.upper =
      inset target * calibration.upper := by
    rw [Binary32.min, number, top, if_neg Bool.false_ne_true, if_neg Bool.false_ne_true,
      if_neg within]
  unfold scale
  dsimp only
  rw [standard]
  show (if !(inset target * calibration.upper).isFinite ||
      decide (inset target * calibration.upper < smallestTarget) then zero
    else (inset target * calibration.upper).min calibration.upper) = _
  rw [finite, uncut, Bool.not_true, Bool.false_or]
  simp only [decide_eq_true_eq]

theorem IsSound.commandsInOrder (sound : calibration.IsSound)
    (standard : calibration.margin = standardMargin) : calibration.CommandsInOrder := by
  have ramp := sound.ramp
  have number : ∀ target, (inset target * calibration.upper).isNaN = false := fun target =>
    Binary32.isNaN_of_isFinite (ramp.finite target)
  have shape := sound.scale_eq standard
  have nonneg : ∀ target, zero ≤ calibration.scale target := by
    intro target
    rw [shape]
    split
    · decide
    · exact Binary32.zero_le_of_nonneg (ramp.finite target) (ramp.nonneg target)
  refine ⟨fun target => ?_, nonneg, fun target => ?_, fun target => ?_, fun low high le => ?_⟩
  · rw [shape]
    split
    · decide
    · exact ramp.finite target
  · rw [shape]
    split
    · exact sound.upper_nonneg
    · exact sound.ramp_le_upper target
  · rw [shape]
    split
    · exact Or.inl rfl
    · next large => exact Or.inr (Binary32.le_of_not_lt (number target) (by decide) large)
  · rw [shape low]
    split
    · exact nonneg high
    · next large =>
      have grows := ramp.le_of_le le
      have larger : ¬inset high * calibration.upper < smallestTarget := by
        intro small
        refine large (Binary32.lt_iff.mpr ⟨number low, by decide, ?_⟩)
        exact Int.lt_of_le_of_lt (Binary32.le_iff.mp grows).2.2 (Binary32.lt_iff.mp small).2.2
      rw [shape high, if_neg larger]
      exact grows

/-- Whatever was read at the end stops, and before any sweep, targets are commanded in order and
between the end stops.  The smallest angle is the number nearest to a hundredth. -/
theorem targetsStayInRange :
    (∀ lower upper, (ofEndStops lower upper).IsSound ∧ (ofEndStops lower upper).CommandsInOrder) ∧
      (uncalibrated.IsSound ∧ uncalibrated.CommandsInOrder) ∧
      smallestTarget = Binary32.ofQuotient false quantaPerUnit 100 := by
  refine ⟨fun lower upper => ?_, ?_, by decide +kernel⟩
  · have sound := isSound_ofEndStops lower upper
    exact ⟨sound, sound.commandsInOrder rfl⟩
  · exact ⟨isSound_uncalibrated, isSound_uncalibrated.commandsInOrder rfl⟩

end Calibration

end Animatronic
