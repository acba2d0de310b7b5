import Animatronic.Setpoint.Batch

/-!
# The layout of a batch

A payload spells a batch exactly if it is the one that is written for this batch
(`Batch.parse_eq_ok_iff`): what is written is read back, and nothing else is read as that batch.

What is refused can be told without reading it (`Batch.IsMalformed`): a payload is too short for
its header, announces too many setpoints, or has not as many bytes as it announces.  There is one
fault for all three.
-/

namespace Animatronic

namespace Setpoint

/-- Bytes that make whole setpoints are written as they were read. -/
theorem flatMap_bytes_readAll {count : Nat} {body : List UInt8}
    (whole : body.length = count * wireLength) :
    (readAll body).flatMap bytes = body ∧ (readAll body).length = count := by
  induction count generalizing body with
  | zero =>
    rw [Nat.zero_mul, List.length_eq_zero_iff] at whole
    subst whole
    exact ⟨rfl, rfl⟩
  | succ count ih =>
    rw [Nat.succ_mul, wireLength] at whole
    rcases body with _ | ⟨u0, _ | ⟨u1, _ | ⟨t0, _ | ⟨t1, rest⟩⟩⟩⟩
    case cons.cons.cons.cons =>
      simp only [List.length_cons] at whole
      have left : rest.length = count * wireLength := by
        rw [wireLength]
        omega
      obtain ⟨written, length⟩ := ih left
      refine ⟨?_, congrArg Nat.succ length⟩
      rw [readAll, List.flatMap_cons, bytes, written, Word.toBytes_ofBytes_pair,
        Word.toBytes_ofBytes_pair]
      rfl
    all_goals
      simp only [List.length_cons, List.length_nil] at whole
      omega

end Setpoint

namespace Batch

variable {payload : List UInt8} {batch : Batch}

theorem length_setpoints_bytes (batch : Batch) :
    (batch.setpoints.flatMap Setpoint.bytes).length =
      batch.setpoints.length * Setpoint.wireLength := by
  rw [List.length_flatMap, List.map_congr_left fun setpoint _ => setpoint.length_bytes,
    List.map_const', List.sum_replicate_nat]

/-- What is written for a batch is read back. -/
theorem parse_bytes (batch : Batch) : parse batch.bytes = .ok batch := by
  have few : maxSetpoints < 65536 := by decide
  have fits := batch.fits
  have word : ∀ value : UInt16,
      UInt16.ofNat (Word.ofBytes (Word.toBytes 2 value.toNat)) = value := by
    intro value
    rw [Word.ofBytes_toBytes, Nat.mod_eq_of_lt value.toNat_lt, UInt16.ofNat_toNat]
  have count : Word.ofBytes (Word.toBytes 2 batch.setpoints.length) = batch.setpoints.length := by
    rw [Word.ofBytes_toBytes]
    exact Nat.mod_eq_of_lt (Nat.lt_of_le_of_lt fits few)
  have delay := word batch.delay
  have loops := word batch.loops
  simp only [Word.toBytes] at delay loops count
  simp only [bytes, Word.toBytes, List.cons_append, List.nil_append, parse, delay, loops, count,
    batch.length_setpoints_bytes, Setpoint.readAll_bytes]
  rw [if_neg (by omega), build, dif_pos fits]

theorem eq_bytes_of_parse (parsed : parse payload = .ok batch) : payload = batch.bytes := by
  unfold parse at parsed
  split at parsed
  · next d0 d1 l0 l1 c0 c1 body =>
    dsimp only at parsed
    split at parsed
    · cases parsed
    · next sound =>
      have whole : body.length = Word.ofBytes [c0, c1] * Setpoint.wireLength := by omega
      obtain ⟨written, length⟩ := Setpoint.flatMap_bytes_readAll whole
      have count : Word.toBytes 2 (Word.ofBytes [c0, c1]) = [c0, c1] :=
        Word.toBytes_ofBytes [c0, c1]
      unfold build at parsed
      split at parsed
      · rw [← Except.ok.inj parsed, bytes, length, written, count, Word.toBytes_ofBytes_pair,
          Word.toBytes_ofBytes_pair]
        rfl
      · cases parsed
  · cases parsed

/-- A payload spells the batch that it is written for, and no other. -/
theorem parse_eq_ok_iff : parse payload = .ok batch ↔ payload = batch.bytes := by
  constructor
  · exact eq_bytes_of_parse
  · rintro rfl
    exact batch.parse_bytes

/-! ## What is refused -/

/-- The number of setpoints that a payload announces in the last word of its header. -/
def announced (payload : List UInt8) : Nat := Word.ofBytes ((payload.drop 4).take 2)

/-- There are bytes missing or left over, or more setpoints than a batch may have. -/
def IsMalformed (payload : List UInt8) : Prop :=
  payload.length < 6 ∨ 254 < announced payload ∨ payload.length ≠ 6 + 4 * announced payload

theorem length_bytes (batch : Batch) : batch.bytes.length = 6 + 4 * batch.setpoints.length := by
  simp only [bytes, List.length_append, Word.length_toBytes, batch.length_setpoints_bytes,
    Setpoint.wireLength]
  omega

theorem announced_bytes (batch : Batch) : announced batch.bytes = batch.setpoints.length := by
  have small : batch.setpoints.length < Nat.pow 256 2 :=
    Nat.lt_of_le_of_lt batch.fits (by decide)
  have header : (batch.bytes.drop 4).take 2 = Word.toBytes 2 batch.setpoints.length := rfl
  rw [announced, header, Word.ofBytes_toBytes, Nat.mod_eq_of_lt small]

theorem not_isMalformed_bytes (batch : Batch) : ¬IsMalformed batch.bytes := by
  have fits : batch.setpoints.length ≤ 254 := batch.fits
  rw [IsMalformed, batch.length_bytes, batch.announced_bytes]
  omega

/-- As many whole setpoints as are announced, and not too many, make a batch. -/
theorem exists_parse_of_not_isMalformed (sound : ¬IsMalformed payload) :
    ∃ batch, parse payload = .ok batch := by
  simp only [IsMalformed, not_or, Nat.not_lt, Decidable.not_not] at sound
  obtain ⟨header, few, length⟩ := sound
  rcases payload with _ | ⟨d0, _ | ⟨d1, _ | ⟨l0, _ | ⟨l1, _ | ⟨c0, _ | ⟨c1, body⟩⟩⟩⟩⟩⟩
  case cons.cons.cons.cons.cons.cons =>
    have count :
        announced (d0 :: d1 :: l0 :: l1 :: c0 :: c1 :: body) = Word.ofBytes [c0, c1] := rfl
    rw [count] at few length
    simp only [List.length_cons] at length
    have whole : body.length = Word.ofBytes [c0, c1] * Setpoint.wireLength := by
      rw [Setpoint.wireLength]
      omega
    have fits : (Setpoint.readAll body).length ≤ maxSetpoints := by
      rw [(Setpoint.flatMap_bytes_readAll whole).2]
      exact few
    have accepted : ¬(Word.ofBytes [c0, c1] > maxSetpoints ∨
        body.length ≠ Word.ofBytes [c0, c1] * Setpoint.wireLength) :=
      not_or.mpr ⟨Nat.not_lt.mpr few, fun other => other whole⟩
    refine ⟨⟨UInt16.ofNat (Word.ofBytes [d0, d1]), UInt16.ofNat (Word.ofBytes [l0, l1]),
      Setpoint.readAll body, fits⟩, ?_⟩
    rw [parse, if_neg accepted, build, dif_pos fits]
  all_goals
    simp only [List.length_cons, List.length_nil] at header
    omega

theorem parse_cases (payload : List UInt8) :
    (∃ batch, parse payload = .ok batch) ∨ parse payload = .error .malformedPayload := by
  unfold parse build
  split
  · dsimp only
    split
    · exact Or.inr rfl
    · split
      · exact Or.inl ⟨_, rfl⟩
      · exact Or.inr rfl
  · exact Or.inr rfl

theorem parse_eq_error_iff : parse payload = .error .malformedPayload ↔ IsMalformed payload := by
  constructor
  · intro refused
    refine Classical.byContradiction fun sound => ?_
    obtain ⟨batch, read⟩ := exists_parse_of_not_isMalformed sound
    rw [refused] at read
    cases read
  · intro malformed
    rcases parse_cases payload with ⟨batch, read⟩ | refused
    · rw [eq_bytes_of_parse read] at malformed
      exact absurd malformed batch.not_isMalformed_bytes
    · exact refused

/-- What becomes of a payload that is read as a batch. -/
structure ReadsExactly (payload : List UInt8) : Prop where
  /-- Either it is read or it is refused, and always with the same fault. -/
  answered : (∃ batch, parse payload = .ok batch) ∨ parse payload = .error .malformedPayload
  /-- What is read is what is written for the batch, every byte of it. -/
  written : ∀ batch, parse payload = .ok batch →
    payload = batch.bytes ∧ batch.setpoints.length ≤ 254
  /-- It is refused if it is not what is written for some batch, and only then. -/
  refused : parse payload = .error .malformedPayload ↔ ∀ batch : Batch, payload ≠ batch.bytes
  malformed : parse payload = .error .malformedPayload ↔ IsMalformed payload
  /-- No other payload is read as the same batch. -/
  only : ∀ batch other, parse payload = .ok batch → parse other = .ok batch → other = payload

/-- Every batch has one written form, which fits in a frame and is read back as that batch.
Nothing but written forms of batches is read. -/
theorem readsExactly :
    (∀ batch : Batch, parse batch.bytes = .ok batch ∧
      batch.bytes.length = 6 + 4 * batch.setpoints.length ∧
        batch.bytes.length ≤ Frame.maxPayload) ∧
    ∀ payload, ReadsExactly payload := by
  refine ⟨fun batch => ⟨batch.parse_bytes, batch.length_bytes, ?_⟩, fun payload => ?_⟩
  · have fits : batch.setpoints.length ≤ 254 := batch.fits
    rw [batch.length_bytes, Frame.maxPayload]
    omega
  · refine
      { answered := parse_cases payload
        written := fun batch read => ⟨eq_bytes_of_parse read, batch.fits⟩
        refused := ⟨fun refused batch written => ?_, fun foreign => ?_⟩
        malformed := parse_eq_error_iff
        only := fun batch other read same => ?_ }
    · rw [parse_eq_ok_iff.mpr written] at refused
      cases refused
    · rcases parse_cases payload with ⟨batch, read⟩ | refused
      · exact absurd (eq_bytes_of_parse read) (foreign batch)
      · exact refused
    · rw [eq_bytes_of_parse read, eq_bytes_of_parse same]

end Batch

end Animatronic
