import Animatronic.Word

/-!
# Pulse steps

On the vibration board a target is a pair: the low byte is the length of a full-drive pulse in
ticks and the high byte the signed step drive that is held once the pulse ends.
-/

namespace Animatronic

/-- A pulse, its length given in ticks, and the step that follows it. -/
structure PulseStep where
  pulse : UInt8
  step : Int8
deriving DecidableEq

namespace PulseStep

/-- The low byte is the pulse, the high byte the step. -/
def ofTarget (target : UInt16) : PulseStep :=
  ⟨UInt8.ofNat target.toNat, (UInt8.ofNat (target.toNat / 256)).toInt8⟩

/-- The target that stands for a pulse and a step. -/
def target (pulseStep : PulseStep) : UInt16 :=
  UInt16.ofNat (Word.ofBytes [pulseStep.pulse, pulseStep.step.toUInt8])

/-- A target is put together again from its parts. -/
theorem target_ofTarget (target : UInt16) : (ofTarget target).target = target := by
  have spelled := Word.ofBytes_toBytes 2 target.toNat
  rw [Nat.mod_eq_of_lt target.toNat_lt] at spelled
  simp only [Word.toBytes] at spelled
  simp only [ofTarget, PulseStep.target, UInt8.toUInt8_toInt8, spelled,
    UInt16.ofNat_toNat]

/-- A target as a number, from its two bytes. -/
theorem toNat_target (pulseStep : PulseStep) :
    pulseStep.target.toNat = pulseStep.pulse.toNat + 256 * pulseStep.step.toUInt8.toNat := by
  have small : Word.ofBytes [pulseStep.pulse, pulseStep.step.toUInt8] < Nat.pow 256 2 :=
    Word.ofBytes_lt _
  exact UInt16.toNat_ofNat_of_lt' small

/-- The pulse is the low byte. -/
theorem toNat_pulse_ofTarget (target : UInt16) :
    (ofTarget target).pulse.toNat = target.toNat % 256 := by
  have whole := toNat_target (ofTarget target)
  rw [target_ofTarget] at whole
  have low := (ofTarget target).pulse.toNat_lt
  omega

/-- The step is the high byte, read as a signed number. -/
theorem toInt_step_ofTarget (target : UInt16) :
    (ofTarget target).step.toInt =
      if target.toNat / 256 < 128 then ((target.toNat / 256 : Nat) : Int)
      else ((target.toNat / 256 : Nat) : Int) - 256 := by
  have whole := toNat_target (ofTarget target)
  rw [target_ofTarget] at whole
  have low := (ofTarget target).pulse.toNat_lt
  have high : (ofTarget target).step.toUInt8.toNat = target.toNat / 256 := by omega
  have signed : (ofTarget target).step.toInt = _ :=
    BitVec.toInt_eq_toNat_cond (ofTarget target).step.toBitVec
  have byte : (ofTarget target).step.toBitVec.toNat = target.toNat / 256 := high
  rw [signed, byte]
  split <;> split <;> omega

end PulseStep

end Animatronic
