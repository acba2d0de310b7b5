import Animatronic.Bus.Timing
import Animatronic.Frame.Encode

/-!
# Limits on payloads

The limit on a read is computed in 64 bits, where products saturate and a sum may be too large for
a duration.  A board asks for the limits on a whole payload and on the pieces of one, and for as
few bytes as these have nothing saturates: the limit is the exact time on the wire plus the slack,
and it exists if the slack leaves room for that time (`Timing.IsExact`).

For any number of bytes, saturated or not, more bytes have no shorter limit and a faster line has
no longer one (`Timing.IsMonotone`).
-/

namespace Animatronic

namespace Timing

variable {timing : Timing} {length : Nat} {limit : Microseconds}

/-! ## Exact limits -/

/-- The time that `length` bytes take on the wire, rounded down, whatever its size. -/
def exactTime (timing : Timing) (length : Nat) : Nat :=
  length * 10000000 / max timing.baud.toNat 1

/-- The slack leaves room for the time on the wire. -/
def HasLimit (timing : Timing) (length : Nat) : Prop :=
  timing.slack.toNat ≤ UInt64.size - 1 - timing.exactTime length

/-- The time on the wire plus the slack, if that is a duration. -/
def exactLimit (timing : Timing) (length : Nat) : Microseconds :=
  UInt64.ofNat (timing.exactTime length + timing.slack.toNat)

/-- How the limit on `length` bytes is computed, and what it is. -/
structure IsExact (timing : Timing) (length : Nat) : Prop where
  few : length ≤ 1024
  argument : (UInt64.ofNat length).toNat = length
  /-- Neither of the two products saturates. -/
  bits : saturatingMul length 10 = length * 10
  scaled : saturatingMul (length * 10) 1000000 = length * 10 * 1000000
  within : timing.HasLimit length →
    timing.payloadLimit (UInt64.ofNat length) = .ok (timing.exactLimit length) ∧
      (timing.exactLimit length).toNat = timing.exactTime length + timing.slack.toNat
  beyond : ¬timing.HasLimit length →
    timing.payloadLimit (UInt64.ofNat length) = .error .durationOverflow
  /-- Any slack at all makes up for the rounding, so that the bytes do not take longer. -/
  covers : timing.HasLimit length → 0 < timing.slack.toNat →
    length * 10000000 ≤ (timing.exactLimit length).toNat * max timing.baud.toNat 1

theorem saturatingMul_of_lt {a b : Nat} (small : a * b < UInt64.size) :
    saturatingMul a b = a * b :=
  Nat.min_eq_left (Nat.le_sub_one_of_lt small)

theorem toNat_ofNat_of_few (few : length ≤ Frame.maxPayload) :
    (UInt64.ofNat length).toNat = length :=
  UInt64.toNat_ofNat_of_lt' (Nat.lt_of_le_of_lt few (by decide))

theorem bits_lt (few : length ≤ Frame.maxPayload) : length * 10 < UInt64.size := by
  have size : UInt64.size = 18446744073709551616 := rfl
  have most : Frame.maxPayload = 1024 := rfl
  omega

theorem scaled_lt (few : length ≤ Frame.maxPayload) : length * 10 * 1000000 < UInt64.size := by
  have size : UInt64.size = 18446744073709551616 := rfl
  have most : Frame.maxPayload = 1024 := rfl
  omega

/-- So few bytes take their exact time. -/
theorem wireTime_eq_exactTime (timing : Timing) (few : length ≤ Frame.maxPayload) :
    timing.wireTime (UInt64.ofNat length) = timing.exactTime length := by
  rw [wireTime, exactTime, toNat_ofNat_of_few few, saturatingMul_of_lt (bits_lt few),
    saturatingMul_of_lt (scaled_lt few), Nat.mul_assoc]

theorem exactTime_lt (timing : Timing) (few : length ≤ Frame.maxPayload) :
    timing.exactTime length < UInt64.size := by
  have scaled := scaled_lt few
  rw [Nat.mul_assoc] at scaled
  exact Nat.lt_of_le_of_lt (Nat.div_le_self ..) scaled

theorem hasLimit_iff (few : length ≤ Frame.maxPayload) :
    timing.HasLimit length ↔ timing.exactTime length + timing.slack.toNat < UInt64.size := by
  have time := timing.exactTime_lt few
  unfold HasLimit
  omega

theorem exactTime_mono (timing : Timing) {a b : Nat} (le : a ≤ b) :
    timing.exactTime a ≤ timing.exactTime b :=
  Nat.div_le_div_right (Nat.mul_le_mul_right _ le)

/-- Where there is room for some bytes there is room for fewer. -/
theorem HasLimit.of_le {fewer : Nat} (within : timing.HasLimit length) (le : fewer ≤ length) :
    timing.HasLimit fewer :=
  Nat.le_trans within (Nat.sub_le_sub_left (timing.exactTime_mono le) _)

/-- A limit is the time on the wire and the slack together. -/
theorem payloadLimit_eq_ok_iff {length : UInt64} :
    timing.payloadLimit length = .ok limit ↔
      limit.toNat = timing.wireTime length + timing.slack.toNat := by
  unfold payloadLimit
  dsimp only
  constructor
  · intro known
    split at known
    · next small =>
      rw [← Except.ok.inj known]
      exact UInt64.toNat_ofNat_of_lt' small
    · cases known
  · intro sum
    rw [← sum, if_pos limit.toNat_lt, UInt64.ofNat_toNat]

/-- There is no limit past the largest duration. -/
theorem payloadLimit_of_le {length : UInt64}
    (large : UInt64.size ≤ timing.wireTime length + timing.slack.toNat) :
    timing.payloadLimit length = .error .durationOverflow :=
  if_neg (Nat.not_lt_of_le large)

theorem toNat_exactLimit (few : length ≤ Frame.maxPayload) (within : timing.HasLimit length) :
    (timing.exactLimit length).toNat = timing.exactTime length + timing.slack.toNat :=
  UInt64.toNat_ofNat_of_lt' ((hasLimit_iff few).mp within)

theorem payloadLimit_of_hasLimit (few : length ≤ Frame.maxPayload)
    (within : timing.HasLimit length) :
    timing.payloadLimit (UInt64.ofNat length) = .ok (timing.exactLimit length) := by
  rw [payloadLimit_eq_ok_iff, wireTime_eq_exactTime timing few]
  exact toNat_exactLimit few within

theorem payloadLimit_of_not_hasLimit (few : length ≤ Frame.maxPayload)
    (beyond : ¬timing.HasLimit length) :
    timing.payloadLimit (UInt64.ofNat length) = .error .durationOverflow := by
  refine payloadLimit_of_le ?_
  rw [wireTime_eq_exactTime timing few]
  exact Nat.le_of_not_lt fun small => beyond ((hasLimit_iff few).mpr small)

/-- The time on the wire is rounded down by less than a microsecond. -/
theorem le_succ_exactTime_mul (timing : Timing) (length : Nat) :
    length * 10000000 ≤ (timing.exactTime length + 1) * max timing.baud.toNat 1 := by
  have speed : 0 < max timing.baud.toNat 1 := Nat.lt_of_lt_of_le Nat.one_pos (Nat.le_max_right ..)
  rw [Nat.mul_comm (_ + 1)]
  exact Nat.le_of_lt (Nat.lt_mul_div_succ _ speed)

theorem isExact (timing : Timing) (few : length ≤ Frame.maxPayload) : timing.IsExact length where
  few := few
  argument := toNat_ofNat_of_few few
  bits := saturatingMul_of_lt (bits_lt few)
  scaled := saturatingMul_of_lt (scaled_lt few)
  within has := ⟨payloadLimit_of_hasLimit few has, toNat_exactLimit few has⟩
  beyond := payloadLimit_of_not_hasLimit few
  covers has slack := by
    rw [toNat_exactLimit few has]
    exact Nat.le_trans (timing.le_succ_exactTime_mul length)
      (Nat.mul_le_mul_right _ (Nat.add_le_add_left slack _))

/-- On the slowest line, which counts as one bit per second, the largest payload takes almost three
hours, and the slack that just leaves room for that makes the largest duration of all. -/
example :
    ((Timing.mk 0 2000 2000 18446744063469551615).payloadLimit 1024).toOption =
        some 18446744073709551615 ∧
      ((Timing.mk 0 2000 2000 18446744063469551616).payloadLimit 1024).toOption = none := by
  decide

/-! ## More bytes and faster lines -/

theorem saturatingMul_mono {a b : Nat} (factor : Nat) (le : a ≤ b) :
    saturatingMul a factor ≤ saturatingMul b factor := by
  have product : a * factor ≤ b * factor := Nat.mul_le_mul_right factor le
  unfold saturatingMul
  omega

theorem wireTime_mono (timing : Timing) {a b : UInt64} (le : a.toNat ≤ b.toNat) :
    timing.wireTime a ≤ timing.wireTime b :=
  Nat.div_le_div_right (saturatingMul_mono _ (saturatingMul_mono _ le))

theorem wireTime_anti (timing : Timing) {slow fast : UInt32} (le : slow ≤ fast)
    (length : UInt64) :
    { timing with baud := fast }.wireTime length ≤
      { timing with baud := slow }.wireTime length := by
  have speeds : max slow.toNat 1 ≤ max fast.toNat 1 := by
    have order := UInt32.le_iff_toNat_le.mp le
    omega
  exact Nat.div_le_div_left speeds (Nat.lt_of_lt_of_le Nat.one_pos (Nat.le_max_right ..))

/-- Whatever takes less time on the wire has a limit too, and no longer one. -/
theorem payloadLimit_le {other : Timing} {a b : UInt64}
    (time : other.wireTime a ≤ timing.wireTime b) (slack : other.slack = timing.slack)
    (known : timing.payloadLimit b = .ok limit) :
    ∃ less, other.payloadLimit a = .ok less ∧ less ≤ limit := by
  have sum := payloadLimit_eq_ok_iff.mp known
  have within : other.wireTime a + other.slack.toNat ≤ limit.toNat := by
    rw [sum, slack]
    exact Nat.add_le_add_right time _
  have small := Nat.lt_of_le_of_lt within limit.toNat_lt
  refine ⟨UInt64.ofNat (other.wireTime a + other.slack.toNat), if_pos small, ?_⟩
  rw [UInt64.le_iff_toNat_le, UInt64.toNat_ofNat_of_lt' small]
  exact within

/-- How limits compare, for any number of bytes. -/
structure IsMonotone (timing : Timing) : Prop where
  length : ∀ few many : UInt64, few ≤ many →
    ∀ limit, timing.payloadLimit many = .ok limit →
      ∃ less, timing.payloadLimit few = .ok less ∧ less ≤ limit
  baud : ∀ slow fast : UInt32, slow ≤ fast →
    ∀ length limit, { timing with baud := slow }.payloadLimit length = .ok limit →
      ∃ less, { timing with baud := fast }.payloadLimit length = .ok less ∧ less ≤ limit
  slack : ∀ length limit, timing.payloadLimit length = .ok limit → timing.slack ≤ limit

theorem isMonotone (timing : Timing) : timing.IsMonotone where
  length _ _ le _ known :=
    payloadLimit_le (timing.wireTime_mono (UInt64.le_iff_toNat_le.mp le)) rfl known
  baud _ _ le length _ known := payloadLimit_le (timing.wireTime_anti le length) rfl known
  slack _ _ known := by
    rw [UInt64.le_iff_toNat_le, payloadLimit_eq_ok_iff.mp known]
    exact Nat.le_add_left ..

/-! ## Bounded timings -/

/-- The limit on the largest payload is a duration. -/
def IsBounded (timing : Timing) : Prop :=
  timing.wireTime (UInt64.ofNat Frame.maxPayload) + timing.slack.toNat < UInt64.size

instance (timing : Timing) : Decidable timing.IsBounded :=
  inferInstanceAs (Decidable (_ < _))

theorem IsBounded.hasLimit (bounded : timing.IsBounded) : timing.HasLimit Frame.maxPayload := by
  unfold IsBounded at bounded
  rw [wireTime_eq_exactTime timing (Nat.le_refl _)] at bounded
  exact (hasLimit_iff (Nat.le_refl _)).mpr bounded

/-- Then there is a limit on every payload, and on every piece of one. -/
theorem IsBounded.payloadLimit {timing : Timing} (bounded : timing.IsBounded) {length : Nat}
    (fits : length ≤ Frame.maxPayload) :
    ∃ limit, timing.payloadLimit (UInt64.ofNat length) = .ok limit :=
  ⟨_, payloadLimit_of_hasLimit fits (bounded.hasLimit.of_le fits)⟩

end Timing

end Animatronic
