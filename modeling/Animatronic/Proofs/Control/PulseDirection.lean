import Animatronic.Proofs.Control.PulseHistory

/-!
# The direction of pulses

A pulse is meant to go toward the new step: forward if the step increases and backward if it
decreases, and a target with the old step is meant to start none.  Changes are detected on whole
targets though, and only the high byte of a target is its step.  A target that changes nothing but
the length of the pulse is a change as well, and its pulse goes backward.

`Renderer.TowardStep` is what is meant, of one compute call and all the calls that its pulse lasts.
It fails at the calls that start a pulse without a change of the step, and nowhere else
(`Renderer.pulse_direction`).
-/

namespace Animatronic

namespace Renderer

variable {calls before since : List Call} {aim target : UInt16}

/-- The compute call starts a pulse. -/
def Starts (calls : List Call) (target : UInt16) : Prop :=
  Pulsing (calls ++ [.compute target]) calls target []

/-- The pulse that a compute call starts goes toward the step of its target for as long as it
lasts, and a target with the step of the one before starts none and drives that step, however often
it is computed. -/
structure TowardStep (calls : List Call) (target : UInt16) : Prop where
  differs : Starts calls target → stepOf (lastTarget calls) ≠ stepOf target
  rises : stepOf (lastTarget calls) < stepOf target → ∀ later current since,
    Pulsing (later ++ [.compute current]) calls target since → vibrationDrive later current = 127
  falls : stepOf target < stepOf (lastTarget calls) → ∀ later current since,
    Pulsing (later ++ [.compute current]) calls target since → vibrationDrive later current = -127
  keeps : target ≠ lastTarget calls → stepOf (lastTarget calls) = stepOf target →
    ¬Starts calls target ∧ ∀ repeats,
      vibrationDrive (calls ++ List.replicate repeats (.compute target)) target = hold target

/-! ## The calls of a pulse -/

theorem starts_iff :
    Starts calls target ↔
      target ≠ lastTarget calls ∧ 0 < pulseOf target := by
  constructor
  · rintro ⟨⟨latest, -⟩, going⟩
    exact ⟨changes_compute_iff.mp latest.holds, going⟩
  · rintro ⟨changes, long⟩
    exact ⟨(uncut_append_change changes).mpr ⟨rfl, rfl, rfl⟩, long⟩

/-- After a change, computing for the same target again leaves it the latest one. -/
theorem uncut_repeated_iff (changes : target ≠ lastTarget calls) (repeats : Nat) :
    Uncut (calls ++ .compute target :: List.replicate repeats (.compute target)) before aim since ↔
      before = calls ∧ aim = target ∧ since = List.replicate repeats (.compute target) := by
  induction repeats generalizing since with
  | zero => exact uncut_append_change changes
  | succ repeats ih =>
    have same : target =
        lastTarget (calls ++ .compute target :: List.replicate repeats (.compute target)) := by
      rw [← List.replicate_succ, List.replicate_succ', ← List.append_assoc,
        lastTarget_append_compute]
    rw [List.replicate_succ', ← List.cons_append, ← List.append_assoc, uncut_append_same same]
    constructor
    · rintro ⟨rest, rfl, uncut⟩
      obtain ⟨rfl, rfl, rfl⟩ := ih.mp uncut
      exact ⟨rfl, rfl, rfl⟩
    · rintro ⟨rfl, rfl, rfl⟩
      exact ⟨_, rfl, ih.mpr ⟨rfl, rfl, rfl⟩⟩

theorem length_targets_replicate (repeats : Nat) (target : UInt16) :
    (targets (List.replicate repeats (.compute target))).length = repeats := by
  have same : Call.target? (.compute target) = some target := rfl
  rw [targets, List.filterMap_replicate_of_some same, List.length_replicate]

/-- A new target that is computed again and again is pulsing for as many calls as it encodes. -/
theorem vibrationDrive_repeated (changes : target ≠ lastTarget calls) (repeats : Nat) :
    vibrationDrive (calls ++ List.replicate repeats (.compute target)) target =
      if repeats < pulseOf target then direction (lastTarget calls) target
      else hold target := by
  have row : calls ++ List.replicate repeats (.compute target) ++ [.compute target] =
      calls ++ .compute target :: List.replicate repeats (.compute target) := by
    rw [List.append_assoc, ← List.replicate_succ', List.replicate_succ]
  split
  · next going =>
    have uncut := (uncut_repeated_iff changes repeats).mpr ⟨rfl, rfl, rfl⟩
    rw [← row] at uncut
    exact vibrationDrive_of_pulsing ⟨uncut, by rwa [length_targets_replicate]⟩
  · next ended =>
    refine vibrationDrive_of_not_pulsing ?_
    rintro ⟨before, aim, since, uncut, going⟩
    rw [row, uncut_repeated_iff changes repeats] at uncut
    obtain ⟨rfl, rfl, rfl⟩ := uncut
    rw [length_targets_replicate] at going
    exact ended going

/-! ## Where the direction is right -/

theorem direction_of_lt {previous next : UInt16} (rises : stepOf previous < stepOf next) :
    direction previous next = 127 :=
  if_pos rises

theorem direction_of_not_lt {previous next : UInt16} (falls : ¬stepOf previous < stepOf next) :
    direction previous next = -127 :=
  if_neg falls

/-- Pulses go toward the new step, but for those that start with a target of the old one. -/
theorem towardStep_iff : TowardStep calls target ↔
    ¬(Starts calls target ∧ stepOf (lastTarget calls) = stepOf target) := by
  constructor
  · rintro toward ⟨starts, same⟩
    exact toward.differs starts same
  · intro exempt
    refine ⟨fun starts same => exempt ⟨starts, same⟩, fun rises later current since pulsing => ?_,
      fun falls later current since pulsing => ?_, fun changes same => ?_⟩
    · rw [vibrationDrive_of_pulsing pulsing, direction_of_lt rises]
    · rw [vibrationDrive_of_pulsing pulsing, direction_of_not_lt (Int.lt_asymm falls)]
    · have idle : ¬Starts calls target := fun starts => exempt ⟨starts, same⟩
      refine ⟨idle, fun repeats => ?_⟩
      rw [vibrationDrive_repeated changes, if_neg]
      exact fun going => idle (starts_iff.mpr ⟨changes, Nat.zero_lt_of_lt going⟩)

/-- A compute call of the vibration board starts a pulse toward the new step or none, unless its
target differs from the one before in nothing but the length of the pulse.  Such a target is driven
backward at the limit for that length, before it is driven at the step it has in common with the
one before. -/
theorem pulse_direction (calls : List Call) (target : UInt16) :
    (TowardStep calls target ↔
        ¬(Starts calls target ∧ stepOf (lastTarget calls) = stepOf target)) ∧
      (target ≠ lastTarget calls → stepOf (lastTarget calls) = stepOf target → ∀ repeats,
        vibrationDrive (calls ++ List.replicate repeats (.compute target)) target =
          if repeats < pulseOf target then -127 else hold target) := by
  refine ⟨towardStep_iff, fun changes same repeats => ?_⟩
  rw [vibrationDrive_repeated changes, direction_of_not_lt]
  rw [same]
  exact Int.lt_irrefl _

/-- The step stays at 40, the pulse gets longer, and the drive goes backward. -/
theorem not_towardStep_with_longer_pulse :
    ¬TowardStep [.compute 0x2801, .compute 0x2801] 0x2803 ∧
      vibrationDrive [.compute 0x2801] 0x2801 = 40 ∧
      vibrationDrive [.compute 0x2801, .compute 0x2801] 0x2803 = -127 := by
  refine ⟨fun toward => ?_, by decide, by decide⟩
  refine toward.differs (starts_iff.mpr ?_) (by decide)
  decide

end Renderer

end Animatronic
