import Animatronic.Hardware.HallSensor
import Animatronic.Proofs.Control.Wrapping
import Mathlib.Data.List.Induction
import Mathlib.Data.List.TakeDrop

/-!
# Samples that fail

A sample that fails has used up one, two or three results of the converter, so that the results are
shared out among the samples differently wherever something has failed before.  Still every sample
is a course of its own (`HallSensor.IsCourse`): it begins with the reference, and its results are
those that come next (`HallSensor.Reads`).

The angle that a sensor holds is therefore that of the latest sample that was whole, and never one
of conversions that belong to two samples (`HallSensor.KeepsApart`).  All of this holds with any
arc tangent, and so do the bounds of the angle.
-/

namespace Animatronic

namespace HallSensor

open Binary32 (zero)

variable (atan2 : Binary32 → Binary32 → Binary32) {conversions : List Conversion}
  {readings rest : List (Option UInt16)} {last : Binary32}

/-- The conversions that a sample took, and the angle that it gave. -/
structure Sample where
  conversions : List Conversion
  angle : Binary32
deriving DecidableEq

/-- The samples that a sensor takes in turn. -/
def samples : Nat → HallSensor → List (Option UInt16) → List Sample
  | 0, _, _ => []
  | count + 1, sensor, readings =>
    let (sensor, conversions, readings) := sensor.sample atan2 readings
    ⟨conversions, sensor.last⟩ :: samples count sensor readings

/-- The angle that conversions stand for, if they are all three of a sample and none failed: the
wrapped arc tangent of how far the cosine and the sine are from the reference, in this order. -/
def ownAngle? : List Conversion → Option Binary32
  | [⟨.reference, some reference⟩, ⟨.cosine, some cosine⟩, ⟨.sine, some sine⟩] =>
    some (Angle.wrap (atan2
      (Binary32.ofInt cosine.toNat - Binary32.ofInt reference.toNat)
      (Binary32.ofInt sine.toNat - Binary32.ofInt reference.toNat)))
  | _ => none

def Sample.own? (sample : Sample) : Option Binary32 := ownAngle? atan2 sample.conversions

/-- The angle of the latest of some samples, if any was taken. -/
def latest? (samples : List Sample) : Option Binary32 := samples.getLast?.map Sample.angle

/-- The angle of the latest of some samples that was whole. -/
def latestWhole? (samples : List Sample) : Option Binary32 :=
  (samples.filterMap (Sample.own? atan2)).getLast?

/-! ## One sample -/

/-- The conversions of one sample: in their order, up to the first that fails. -/
structure IsCourse (conversions : List Conversion) : Prop where
  nonempty : conversions ≠ []
  ordered : conversions.map Conversion.channel <+: [.reference, .cosine, .sine]
  unfailing : ∀ conversion ∈ conversions.dropLast, conversion.result.isSome = true
  stopped : conversions.length < 3 → ∃ channel, conversions.getLast? = some ⟨channel, none⟩

/-- A sample takes a course of conversions, which have the results that come next, and leaves the
results behind them. -/
structure Reads (readings : List (Option UInt16)) (conversions : List Conversion)
    (rest : List (Option UInt16)) : Prop where
  course : IsCourse conversions
  results : conversions.map Conversion.result = readings.takeD conversions.length none
  rest_eq : rest = readings.drop conversions.length

theorem isCourse_one : IsCourse [⟨.reference, none⟩] where
  nonempty := List.cons_ne_nil _ _
  ordered := ⟨[.cosine, .sine], rfl⟩
  unfailing := fun _ mem => absurd mem List.not_mem_nil
  stopped := fun _ => ⟨_, rfl⟩

theorem isCourse_two (reference : UInt16) :
    IsCourse [⟨.reference, some reference⟩, ⟨.cosine, none⟩] where
  nonempty := List.cons_ne_nil _ _
  ordered := ⟨[.sine], rfl⟩
  unfailing := List.forall_mem_singleton.mpr rfl
  stopped := fun _ => ⟨_, rfl⟩

theorem isCourse_three (reference cosine : UInt16) (sine : Option UInt16) :
    IsCourse [⟨.reference, some reference⟩, ⟨.cosine, some cosine⟩, ⟨.sine, sine⟩] where
  nonempty := List.cons_ne_nil _ _
  ordered := ⟨[], rfl⟩
  unfailing := List.forall_mem_cons.mpr ⟨rfl, List.forall_mem_singleton.mpr rfl⟩
  stopped := fun short => absurd short (Nat.lt_irrefl 3)

/-- The result of a conversion is the next one, a failure if there is none. -/
theorem takeD_succ_eq (count : Nat) (readings : List (Option UInt16)) :
    readings.takeD (count + 1) none =
      readings.head?.join :: readings.tail.takeD count none := by
  cases readings <;> rfl

theorem reads_read (readings : List (Option UInt16)) :
    Reads readings (read atan2 readings).2.1 (read atan2 readings).2.2 ∧
      (read atan2 readings).1 = ownAngle? atan2 (read atan2 readings).2.1 := by
  have one : readings.takeD 1 none = [readings.head?.join] := takeD_succ_eq 0 readings
  have two : readings.takeD 2 none = [readings.head?.join, readings.tail.head?.join] := by
    rw [takeD_succ_eq, takeD_succ_eq, List.takeD_zero]
  have three : readings.takeD 3 none =
      [readings.head?.join, readings.tail.head?.join, readings.tail.tail.head?.join] := by
    rw [takeD_succ_eq, takeD_succ_eq, takeD_succ_eq, List.takeD_zero]
  have behindTwo : readings.tail.tail = readings.drop 2 := by
    rw [← List.drop_one, ← List.drop_one, List.drop_drop]
  have behindThree : readings.tail.tail.tail = readings.drop 3 := by
    rw [behindTwo, ← List.drop_one, List.drop_drop]
  unfold read convert
  dsimp only
  cases first : readings.head?.join with
  | none =>
    rw [first] at one
    exact ⟨⟨isCourse_one, one.symm, List.drop_one.symm⟩, rfl⟩
  | some reference =>
    dsimp only
    cases second : readings.tail.head?.join with
    | none =>
      rw [first, second] at two
      exact ⟨⟨isCourse_two reference, two.symm, behindTwo⟩, rfl⟩
    | some cosine =>
      rw [first, second] at three
      dsimp only
      cases third : readings.tail.tail.head?.join with
      | none =>
        rw [third] at three
        exact ⟨⟨isCourse_three reference cosine none, three.symm, behindThree⟩, rfl⟩
      | some sine =>
        rw [third] at three
        exact ⟨⟨isCourse_three reference cosine sine, three.symm, behindThree⟩, rfl⟩

/-- A sample gives its own angle if it was whole, and else the angle that was held. -/
theorem reads_sample (sensor : HallSensor) (readings : List (Option UInt16)) :
    Reads readings (sensor.sample atan2 readings).2.1 (sensor.sample atan2 readings).2.2 ∧
      (sensor.sample atan2 readings).1.last =
        (ownAngle? atan2 (sensor.sample atan2 readings).2.1).getD sensor.last := by
  obtain ⟨reads, own⟩ := reads_read atan2 readings
  refine ⟨reads, ?_⟩
  show (read atan2 readings).1.getD sensor.last = _
  rw [own]
  rfl

/-! ## Angles -/

/-- An angle within the turn. -/
def Within (angle : Binary32) : Prop :=
  angle.isFinite = true ∧ zero ≤ angle ∧ angle < Angle.tau

variable {atan2 : Binary32 → Binary32 → Binary32}

/-- Wrapping brings the angle into the turn, whatever the arc tangent gives. -/
theorem within_of_ownAngle {angle : Binary32} (own : ownAngle? atan2 conversions = some angle) :
    Within angle := by
  unfold ownAngle? at own
  split at own
  · rw [← Option.some.inj own]
    exact Angle.wrap_bounds _
  · cases own

theorem within_getD (within : Within last) :
    Within ((ownAngle? atan2 conversions).getD last) := by
  cases own : ownAngle? atan2 conversions with
  | none => exact within
  | some angle => exact within_of_ownAngle own

/-- A level is a finite number. -/
theorem isFinite_ofInt_toNat (level : UInt16) : (Binary32.ofInt level.toNat).isFinite = true := by
  have small : level.toNat <<< 149 < Binary32.overflowThreshold * 1 := by
    have word := level.toNat_lt
    rw [Nat.shiftLeft_eq]
    exact Nat.lt_trans (Nat.mul_lt_mul_of_pos_right word (Nat.two_pow_pos 149)) (by decide)
  rw [Binary32.ofInt, Int.natAbs_natCast]
  exact Binary32.isFinite_ofQuotient _ small

/-- Two levels at the reference are the point zero, with no sign. -/
theorem ownAngle_of_reference (level : UInt16) :
    ownAngle? atan2 [⟨.reference, some level⟩, ⟨.cosine, some level⟩, ⟨.sine, some level⟩] =
      some (Angle.wrap (atan2 zero zero)) := by
  rw [ownAngle?, Binary32.sub_self (isFinite_ofInt_toNat level)]

/-! ## Samples in turn -/

theorem takeD_add (first second : Nat) (readings : List (Option UInt16)) :
    readings.takeD (first + second) none =
      readings.takeD first none ++ (readings.drop first).takeD second none := by
  induction first generalizing readings with
  | zero => rw [Nat.zero_add, List.takeD_zero, List.nil_append, List.drop_zero]
  | succ first ih =>
    rw [Nat.succ_add, takeD_succ_eq, takeD_succ_eq, ih, List.cons_append, List.drop_tail]

/-- Each sample answers with its own angle if it was whole, and else as the sample before it;
before all samples there is `last`. -/
def Answers (atan2 : Binary32 → Binary32 → Binary32) (last : Binary32) (taken : List Sample) :
    Prop :=
  ∀ before sample after, taken = before ++ sample :: after →
    sample.angle = (sample.own? atan2).getD ((latest? before).getD last)

/-- What a sensor that held the angle `last` makes of a sequence of results.  The conversions of
its samples have these results in turn, and the angle that a sample gives is that of a single
sample, the latest whole one, or `last` if there is none. -/
structure KeepsApart (atan2 : Binary32 → Binary32 → Binary32) (last : Binary32)
    (readings : List (Option UInt16)) (taken : List Sample) : Prop where
  results : (taken.flatMap Sample.conversions).map Conversion.result =
    readings.takeD (taken.flatMap Sample.conversions).length none
  course : ∀ sample ∈ taken, IsCourse sample.conversions
  answers : Answers atan2 last taken
  source : ∀ before sample after, taken = before ++ sample :: after →
    sample.angle = (latestWhole? atan2 (before ++ [sample])).getD last
  within : ∀ sample ∈ taken, Within sample.angle

variable {given : Binary32} {taken before after : List Sample} {sample : Sample}

theorem Answers.of_append (answers : Answers atan2 last (before ++ after)) :
    Answers atan2 last before := by
  intro first sample between split
  refine answers first sample (between ++ after) ?_
  rw [split, List.append_assoc, List.cons_append]

/-- What is answered as before comes from the latest sample that was whole. -/
theorem Answers.latest_eq (answers : Answers atan2 last taken) :
    (latest? taken).getD last = (latestWhole? atan2 taken).getD last := by
  -- From the end: the last sample was whole, or it answers as those before it.
  induction taken using List.reverseRecOn with
  | nil => rfl
  | append_singleton before sample ih =>
    have earlier := ih answers.of_append
    rw [latest?, List.getLast?_concat, Option.map_some, Option.getD_some,
      answers before sample [] rfl, earlier, latestWhole?, latestWhole?, List.filterMap_append]
    cases own : sample.own? atan2 with
    | none =>
      rw [List.filterMap_cons_none own, List.filterMap_nil, List.append_nil, Option.getD_none]
    | some angle =>
      rw [List.filterMap_cons_some own, List.filterMap_nil, List.getLast?_concat, Option.getD_some,
        Option.getD_some]

theorem Answers.source (answers : Answers atan2 last taken)
    (split : taken = before ++ sample :: after) :
    sample.angle = (latestWhole? atan2 (before ++ [sample])).getD last := by
  have upTo : Answers atan2 last (before ++ [sample]) := by
    rw [split, ← List.singleton_append, ← List.append_assoc] at answers
    exact answers.of_append
  rw [← upTo.latest_eq, latest?, List.getLast?_concat]
  rfl

theorem Answers.cons (own : given = (ownAngle? atan2 conversions).getD last)
    (later : Answers atan2 given taken) : Answers atan2 last (⟨conversions, given⟩ :: taken) := by
  intro before sample after split
  cases before with
  | nil =>
    rw [← (List.cons.inj split).1]
    exact own
  | cons first before =>
    obtain ⟨rfl, behind⟩ := List.cons.inj split
    rw [later before sample after behind, latest?, latest?, List.getLast?_cons, Option.map_some,
      Option.getD_some]
    cases before.getLast? <;> rfl

/-- One sample in front of others, which go on with its angle and with the results that it left. -/
theorem KeepsApart.cons (reads : Reads readings conversions rest) (within : Within last)
    (own : given = (ownAngle? atan2 conversions).getD last)
    (later : KeepsApart atan2 given rest taken) :
    KeepsApart atan2 last readings (⟨conversions, given⟩ :: taken) := by
  have answers := Answers.cons own later.answers
  refine ⟨?_, ?_, answers, fun before sample after split => answers.source split, ?_⟩
  · rw [List.flatMap_cons, List.map_append, List.length_append, takeD_add, reads.results,
      later.results, reads.rest_eq]
  · exact List.forall_mem_cons.mpr ⟨reads.course, later.course⟩
  · exact List.forall_mem_cons.mpr ⟨own ▸ within_getD within, later.within⟩

variable (atan2)

theorem keepsApart_samples (count : Nat) (sensor : HallSensor) (readings : List (Option UInt16))
    (within : Within sensor.last) :
    KeepsApart atan2 sensor.last readings (samples atan2 count sensor readings) := by
  induction count generalizing sensor readings with
  | zero =>
    refine ⟨rfl, List.forall_mem_nil _, fun before sample after split => ?_,
      fun before sample after split => ?_, List.forall_mem_nil _⟩
    all_goals cases before <;> cases split
  | succ count ih =>
    obtain ⟨reads, own⟩ := reads_sample atan2 sensor readings
    exact KeepsApart.cons reads within own (ih _ _ (own ▸ within_getD within))

theorem length_samples (count : Nat) (sensor : HallSensor) (readings : List (Option UInt16)) :
    (samples atan2 count sensor readings).length = count := by
  induction count generalizing sensor readings with
  | zero => rfl
  | succ count ih => exact congrArg Nat.succ (ih _ _)

/-- However the conversions fail, and whatever the arc tangent, a sensor takes each result once and
mixes none of two samples.  A sample with both levels at the reference is no exception: its angle
is the wrapped arc tangent of two zeros, and lies within the turn like all others. -/
theorem keepsReadingsApart (count : Nat) (readings : List (Option UInt16)) :
    (samples atan2 count initial readings).length = count ∧
      KeepsApart atan2 zero readings (samples atan2 count initial readings) ∧
      ∀ level, ownAngle? atan2
          [⟨.reference, some level⟩, ⟨.cosine, some level⟩, ⟨.sine, some level⟩] =
        some (Angle.wrap (atan2 zero zero)) :=
  ⟨length_samples atan2 count initial readings,
    keepsApart_samples atan2 count initial readings (by unfold Within; decide),
    ownAngle_of_reference⟩

end HallSensor

end Animatronic
