import Animatronic.Proofs.Checksum.Detection
import Animatronic.Proofs.Receiver.Reaction

/-!
# Damaged frames

A board looks at the address and the size of a frame before it knows whether the footer is right.
As long as these three bytes are sound it takes the frame in one piece, and then the footer
decides: `corruption_is_detected` drops every frame whose type, payload and footer are damaged in
one of the ways of `Checksum.Detects`.
-/

namespace Animatronic

/-- Damage to a header in its type byte only. -/
theorem Header.flipBit_kind (header : Header) (body : List UInt8) {position : Nat}
    (low : 8 ≤ position) (high : position < 16) :
    ∃ kind, flipBit (header.bytes ++ body) position =
      (Header.mk header.address kind header.size).bytes ++ body := by
  obtain ⟨bit, rfl⟩ := Nat.exists_eq_add_of_le' low
  refine ⟨header.kind ^^^ 1 <<< UInt8.ofNat bit, ?_⟩
  rw [Header.bytes, List.cons_append, List.cons_append, flipBit_cons_add,
    flipBit_cons_of_lt _ _ (by omega)]
  rfl

/-- Damage behind a header. -/
theorem Header.flipBit_body (header : Header) (body : List UInt8) {position : Nat}
    (low : 32 ≤ position) :
    flipBit (header.bytes ++ body) position = header.bytes ++ flipBit body (position - 32) := by
  obtain ⟨bit, rfl⟩ := Nat.exists_eq_add_of_le' low
  rw [Nat.add_sub_cancel]
  have places : bit + 32 = bit + 8 + 8 + 8 + 8 := rfl
  simp only [Header.bytes, Word.toBytes, List.cons_append, List.nil_append, places,
    flipBit_cons_add]

/-- Damage that spares the address and the size leaves a frame of the same shape. -/
theorem Header.exists_flipBits_eq {positions : List Nat}
    (spared : ∀ position ∈ positions, 8 ≤ position ∧ position < 16 ∨ 32 ≤ position)
    (header : Header) (body : List UInt8) :
    ∃ kind damaged,
      flipBits (header.bytes ++ body) positions =
          (Header.mk header.address kind header.size).bytes ++ damaged ∧
        damaged.length = body.length := by
  induction positions generalizing header body with
  | nil => exact ⟨header.kind, body, rfl, rfl⟩
  | cons position rest ih =>
    have later := ih fun other mem => spared other (List.mem_cons_of_mem _ mem)
    rw [flipBits, List.foldl_cons, ← flipBits]
    rcases spared position (List.mem_cons_self ..) with ⟨low, high⟩ | low
    · obtain ⟨kind, flipped⟩ := header.flipBit_kind body low high
      rw [flipped]
      exact later ⟨header.address, kind, header.size⟩ body
    · rw [header.flipBit_body body low]
      obtain ⟨kind, damaged, flipped, length⟩ := later header (flipBit body (position - 32))
      exact ⟨kind, damaged, flipped, length.trans (length_flipBit ..)⟩

namespace Receiver

/-- A frame that the footer does not close is taken off the line, and nothing else happens. -/
theorem visit_damaged {board : Board} {timing : Timing} (bounded : timing.IsBounded)
    (identity : Identity) {header : Header} {payload footer : List UInt8}
    (own : header.address = board.address)
    (fits : header.payloadLength ≤ Frame.maxPayload)
    (size : payload.length = header.payloadLength) (width : footer.length = 2)
    (wrong : footer ≠ Frame.footer .crc16 (header.bytes ++ payload)) (now : Visit)
    {line : ByteLine} {rest : List ByteLine.Item} (s : Scheduler)
    (items : line.items = (header.bytes ++ (payload ++ footer)).map .byte ++ rest) :
    ∃ act after,
      (Receiver.mk board .crc16 timing).visit identity now line s =
          (act, after, s.run now.history) ∧
        act.ending = .finished (.dropped .checksumMismatch) ∧
        (∀ effect ∈ act.effects, effect.isRead = true) ∧
        Effect.totalTaken act.effects = (header.bytes ++ (payload ++ footer)).length ∧
        after.items = rest ∧ after.failingWrites = line.failingWrites := by
  have mismatch : (Receiver.mk board .crc16 timing).closes header payload footer = false := by
    rw [← Bool.not_eq_true]
    intro closed
    have right : footer = Frame.footer .crc16 (header.bytes ++ payload) :=
      (closes_iff width).mp closed
    exact wrong right
  have polled := (Receiver.mk board .crc16 timing).consumes_damaged identity bounded own fits size
    width mismatch line.failingWrites (s.run now.history)
  obtain ⟨after, visited, left, writes⟩ := visit_of_consumes _ identity polled items
  refine ⟨_, after, visited, rfl, fun effect mem => Effect.isRead_of_mem_reads mem, ?_, ?_, writes⟩
  · rw [Effect.totalTaken_reads, sum_frameReads, List.length_append, List.length_append,
      Header.length_bytes, size, width, Nat.add_assoc]
    rfl
  · rw [left, leaves_reads]

/-- Detected damage leaves no frame that its footer closes. -/
theorem footer_ne_of_flipBits {header damaged : Header} {payload request footer : List UInt8}
    (fits : payload.length ≤ Frame.maxPayload) {positions : List Nat}
    (nonempty : positions ≠ []) (distinct : positions.Nodup)
    (detects : Checksum.Detects positions)
    (inside : ∀ position ∈ positions,
      position < 8 * (Frame.spell .crc16 header payload).length)
    (flipped : flipBits (Frame.spell .crc16 header payload) positions =
      damaged.bytes ++ (request ++ footer)) :
    footer ≠ Frame.footer .crc16 (damaged.bytes ++ request) := by
  rintro rfl
  have short : 8 * (Frame.spell .crc16 header payload).length ≤ 32767 := by
    rw [Frame.maxPayload] at fits
    rw [Frame.length_spell, Header.length, Checksum.width]
    omega
  rw [Frame.spell, ← List.append_assoc] at inside flipped short
  rw [← List.append_assoc] at flipped
  exact Checksum.footer_of_flipBits_ne nonempty distinct detects inside short flipped

/-- A frame whose address and size are sound is dropped if the footer detects the damage. -/
theorem visit_flipped {board : Board} {timing : Timing} (bounded : timing.IsBounded)
    (identity : Identity) {header : Header} {payload : List UInt8}
    (own : header.address = board.address)
    (fits : payload.length ≤ Frame.maxPayload) (size : header.payloadLength = payload.length)
    {positions : List Nat} (nonempty : positions ≠ []) (distinct : positions.Nodup)
    (detects : Checksum.Detects positions)
    (spared : ∀ position ∈ positions, 8 ≤ position ∧ position < 16 ∨
      32 ≤ position ∧ position < 8 * (Frame.spell .crc16 header payload).length)
    (now : Visit) {line : ByteLine} {rest : List ByteLine.Item} (s : Scheduler)
    (items : line.items =
      (flipBits (Frame.spell .crc16 header payload) positions).map .byte ++ rest) :
    ∃ act after,
      (Receiver.mk board .crc16 timing).visit identity now line s =
          (act, after, s.run now.history) ∧
        act.ending = .finished (.dropped .checksumMismatch) ∧
        (∀ effect ∈ act.effects, effect.isRead = true) ∧
        Effect.totalTaken act.effects = (Frame.spell .crc16 header payload).length ∧
        after.items = rest ∧ after.failingWrites = line.failingWrites := by
  obtain ⟨code, damaged, flipped, length⟩ := header.exists_flipBits_eq
    (fun position mem => (spared position mem).imp id And.left)
    (payload ++ Frame.footer .crc16 (header.bytes ++ payload))
  rw [← Frame.spell] at flipped
  have enough : header.payloadLength ≤ damaged.length := by
    rw [length, List.length_append, size]
    exact Nat.le_add_right _ _
  obtain ⟨request, footer, rfl, same⟩ := exists_append_of_le enough
  have width : footer.length = 2 := by
    rw [List.length_append, List.length_append, same, size, Frame.length_footer] at length
    exact Nat.add_left_cancel length
  have inside : ∀ position ∈ positions,
      position < 8 * (Frame.spell .crc16 header payload).length := by
    intro position mem
    rcases spared position mem with ⟨-, low⟩ | ⟨-, inside⟩
    · rw [Frame.length_spell, Header.length]
      omega
    · exact inside
  have wrong := footer_ne_of_flipBits fits nonempty distinct detects inside flipped
  have sound : (Header.mk header.address code header.size).address = board.address := own
  rw [flipped] at items
  rw [← size] at fits
  obtain ⟨act, after, visited, ending, reads, taken, left⟩ :=
    visit_damaged bounded identity sound fits same width wrong now s items
  refine ⟨act, after, visited, ending, reads, taken.trans ?_, left⟩
  rw [← flipped, length_flipBits]

/-- A frame for this board is dropped if its type, payload and footer are damaged in an odd number
of bits, in two bits, or in bits within sixteen in a row.  It is taken off the line as a whole, and
nothing is written or done. -/
theorem corruption_is_detected (board : Board) (timing : Timing) (bounded : timing.IsBounded)
    (identity : Identity) {kind : MessageType} {payload frame : List UInt8} {capacity : Nat}
    (fits : payload.length ≤ Frame.maxPayload)
    (encoded : Frame.encode .crc16 capacity board.address kind payload = .ok frame)
    {positions : List Nat} (nonempty : positions ≠ []) (distinct : positions.Nodup)
    (detects : Checksum.Detects positions)
    (spared : ∀ position ∈ positions,
      8 ≤ position ∧ position < 16 ∨ 32 ≤ position ∧ position < 8 * frame.length)
    (now : Visit) (line : ByteLine) (rest : List ByteLine.Item) (s : Scheduler)
    (items : line.items = (flipBits frame positions).map .byte ++ rest) :
    ∃ act after,
      (Receiver.mk board .crc16 timing).visit identity now line s =
          (act, after, s.run now.history) ∧
        act.ending = .finished (.dropped .checksumMismatch) ∧
        (∀ effect ∈ act.effects, effect.isRead = true) ∧
        Effect.totalTaken act.effects = frame.length ∧ after.items = rest := by
  obtain ⟨-, rfl⟩ := Frame.eq_spell_of_encode encoded
  have own : (Header.mk board.address kind.code (UInt16.ofNat payload.length)).address =
      board.address := rfl
  obtain ⟨act, after, visited, ending, reads, taken, left, -⟩ := visit_flipped bounded identity own
    fits (payloadLength_of_fits fits _ _) nonempty distinct detects spared now s items
  exact ⟨act, after, visited, ending, reads, taken, left⟩

/-- A batch of one setpoint, damaged in three bits far from each other: one in the type, one in the
loop count and one in the target. -/
theorem corruption_is_detected_in_a_batch :
    let payload : List UInt8 := [0, 0, 1, 0, 1, 0, 10, 0, 0x0A, 0x3F]
    ∃ frame, Frame.encode .crc16 16 Board.ribs.address .setSetpoints payload = .ok frame ∧
      ((Receiver.mk .ribs .crc16 .standard).visit (some .ribs)
          ⟨[], List.replicate Frame.maxPayload 0xA5, List.length_replicate⟩
          (.carrying (flipBits frame [8, 49, 110])) (.initial .vibration)).1.ending =
        .finished (.dropped .checksumMismatch) := by
  intro payload
  obtain ⟨frame, encoded, length⟩ : ∃ frame,
      Frame.encode .crc16 16 Board.ribs.address .setSetpoints payload = .ok frame ∧
        frame.length = 16 :=
    ⟨_, Frame.encode_eq_spell .crc16 _ .setSetpoints (by decide) (by decide), rfl⟩
  have spared : ∀ position ∈ [8, 49, 110],
      8 ≤ position ∧ position < 16 ∨ 32 ≤ position ∧ position < 8 * frame.length := by
    rw [length]
    decide
  obtain ⟨act, after, visited, ending, -⟩ := corruption_is_detected .ribs .standard
    (by decide) (some .ribs) (by decide) encoded (by decide) (by decide)
    (Or.inl (by decide)) spared ⟨[], List.replicate Frame.maxPayload 0xA5, List.length_replicate⟩
    (.carrying (flipBits frame [8, 49, 110])) [] (.initial .vibration)
    (List.append_nil _).symm
  refine ⟨frame, encoded, ?_⟩
  rw [visited]
  exact ending

end Receiver

end Animatronic
