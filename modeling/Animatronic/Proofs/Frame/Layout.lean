import Animatronic.Proofs.Receiver.Stream

/-!
# The layout of a frame

A payload is encoded exactly if its size fits in the header and the whole frame in the buffer, and
then the frame is the one that `Frame.spell` writes (`Frame.encode_eq_ok_iff`).  Whichever piece
does not fit, the fault is the same.

A frame can be taken apart again (`Frame.Spells`): four bytes of header, as many bytes of payload
as the header says, and a footer that spells the checksum of all bytes before it.  So no two
payloads are encoded as one frame, not even with checksums of different widths.
-/

namespace Animatronic

theorem MessageType.code_injective {a b : MessageType} (same : a.code = b.code) : a = b := by
  have read := congrArg MessageType.ofCode same
  rw [ofCode_code, ofCode_code] at read
  exact Except.ok.inj read

namespace Frame

/-- A whole frame with the right footer. -/
def spell (checksum : Checksum) (header : Header) (payload : List UInt8) : List UInt8 :=
  header.bytes ++ (payload ++ footer checksum (header.bytes ++ payload))

theorem length_spell (checksum : Checksum) (header : Header) (payload : List UInt8) :
    (spell checksum header payload).length = Header.length + payload.length + checksum.width := by
  rw [spell, List.length_append, List.length_append, Header.length_bytes, length_footer,
    Nat.add_assoc]

variable {checksum : Checksum} {capacity : Nat} {address : UInt8} {kind : MessageType}
  {payload frame : List UInt8}

/-! ## What is encoded -/

/-- What is encoded is a whole frame, if there is room for it. -/
theorem encode_eq_spell (checksum : Checksum) {capacity : Nat} (address : UInt8)
    (kind : MessageType) {payload : List UInt8} (small : payload.length < UInt16.size)
    (room : Header.length + payload.length + checksum.width ≤ capacity) :
    encode checksum capacity address kind payload =
      .ok (spell checksum ⟨address, kind.code, UInt16.ofNat payload.length⟩ payload) := by
  obtain ⟨header, named⟩ : ∃ header : Header,
      header = ⟨address, kind.code, UInt16.ofNat payload.length⟩ := ⟨_, rfl⟩
  have size := header.length_bytes
  have headed : appendWithin capacity [] header.bytes = some header.bytes := by
    refine appendWithin_eq_some_iff.mpr ⟨?_, List.nil_append _⟩
    rw [List.length_nil, size]
    omega
  have filled : appendWithin capacity header.bytes payload = some (header.bytes ++ payload) := by
    refine appendWithin_eq_some_iff.mpr ⟨?_, rfl⟩
    rw [size]
    omega
  have closed : appendWithin capacity (header.bytes ++ payload)
      (footer checksum (header.bytes ++ payload)) = some (spell checksum header payload) := by
    refine appendWithin_eq_some_iff.mpr ⟨?_, List.append_assoc ..⟩
    rw [List.length_append, size, length_footer]
    exact room
  simp only [encode, if_pos small, ← named, Option.bind_eq_bind, headed, filled, closed,
    Option.bind_some]

/-- Nothing else is encoded, and the last piece tells whether there was room for all of it. -/
theorem encode_eq_ok_iff :
    encode checksum capacity address kind payload = .ok frame ↔
      payload.length < UInt16.size ∧
        Header.length + payload.length + checksum.width ≤ capacity ∧
        frame = spell checksum ⟨address, kind.code, UInt16.ofNat payload.length⟩ payload := by
  constructor
  · intro encoded
    unfold encode at encoded
    split at encoded
    · next small =>
      dsimp only at encoded
      split at encoded
      · next built =>
        simp only [Option.bind_eq_bind, Option.bind_eq_some_iff, appendWithin_eq_some_iff] at built
        obtain ⟨_, ⟨-, rfl⟩, _, ⟨-, rfl⟩, room, rfl⟩ := built
        rw [List.length_append, List.length_append, List.length_nil, Header.length_bytes,
          length_footer, Nat.zero_add] at room
        refine ⟨small, room, ?_⟩
        rw [← Except.ok.inj encoded, spell, List.nil_append, List.append_assoc]
      · cases encoded
    · cases encoded
  · rintro ⟨small, room, rfl⟩
    exact encode_eq_spell checksum address kind small room

theorem eq_spell_of_encode
    (encoded : encode checksum capacity address kind payload = .ok frame) :
    payload.length < UInt16.size ∧
      frame = spell checksum ⟨address, kind.code, UInt16.ofNat payload.length⟩ payload := by
  obtain ⟨small, -, spelled⟩ := encode_eq_ok_iff.mp encoded
  exact ⟨small, spelled⟩

/-- There is only one way for a frame not to be encoded. -/
theorem encode_cases (checksum : Checksum) (capacity : Nat) (address : UInt8) (kind : MessageType)
    (payload : List UInt8) :
    (∃ frame, encode checksum capacity address kind payload = .ok frame) ∨
      encode checksum capacity address kind payload =
        .error (.payloadTooLarge (UInt16.ofNat (min payload.length 0xFFFF))) := by
  unfold encode
  split
  · next small =>
    have least : min payload.length 0xFFFF = payload.length :=
      Nat.min_eq_left (Nat.le_of_lt_succ small)
    dsimp only
    split
    · exact Or.inl ⟨_, rfl⟩
    · rw [least]
      exact Or.inr rfl
  · next large =>
    have least : min payload.length 0xFFFF = 0xFFFF :=
      Nat.min_eq_right (Nat.le_of_lt (Nat.not_lt.mp large))
    rw [least]
    exact Or.inr rfl

/-! ## Taking a frame apart -/

/-- The number that the bytes of a footer spell, collected in a register of 32 bits with the last
byte first. -/
def footerValue (bytes : List UInt8) : UInt32 :=
  bytes.foldr (fun byte value => value <<< 8 ||| byte.toUInt32) 0

/-- Bytes that are shifted in spell the same number as on the wire, as far as the register holds
it. -/
theorem footerValue_eq (bytes : List UInt8) :
    footerValue bytes = UInt32.ofNat (Word.ofBytes bytes) := by
  induction bytes with
  | nil => rfl
  | cons byte rest ih =>
    have low : byte.toNat < 2 ^ 8 := byte.toNat_lt
    have shifted : footerValue (byte :: rest) =
        UInt32.ofNat (Word.ofBytes rest) <<< 8 ||| byte.toUInt32 := by
      rw [← ih]
      rfl
    -- What is shifted out of the register is beyond 32 bits on the wire as well.
    have kept : (UInt32.ofNat (Word.ofBytes rest) <<< 8).toNat =
        (Word.ofBytes rest % 2 ^ 24) <<< 8 := by
      have eight : (8 : UInt32).toNat % 32 = 8 := rfl
      rw [UInt32.toNat_shiftLeft, eight, UInt32.toNat_ofNat', Nat.shiftLeft_eq, Nat.shiftLeft_eq]
      omega
    rw [shifted, Word.ofBytes]
    apply UInt32.toNat_inj.mp
    rw [UInt32.toNat_or, kept, UInt8.toNat_toUInt32, ← Nat.shiftLeft_add_eq_or_of_lt low,
      Nat.shiftLeft_eq, UInt32.toNat_ofNat']
    omega

/-- A footer is wide enough for its checksum. -/
theorem footerValue_footer (checksum : Checksum) (bytes : List UInt8) :
    footerValue (footer checksum bytes) = checksum.compute bytes := by
  rw [footerValue_eq, footer, Word.ofBytes_toBytes,
    Nat.mod_eq_of_lt (checksum.compute_lt bytes), UInt32.ofNat_toNat]

/-- The parts of a frame, each where the parts before it end. -/
structure Spells (checksum : Checksum) (address : UInt8) (kind : MessageType)
    (payload frame : List UInt8) : Prop where
  length : frame.length = 4 + payload.length + checksum.width
  header : ∃ raw : Bytes Header.length, raw.val = frame.take 4 ∧
    (Header.ofBytes raw).address = address ∧ (Header.ofBytes raw).kind = kind.code ∧
      (Header.ofBytes raw).payloadLength = payload.length
  body : (frame.drop 4).take payload.length = payload
  closing : footerValue (frame.drop (4 + payload.length)) =
    checksum.compute (frame.take (4 + payload.length))

theorem spells_spell (checksum : Checksum) (address : UInt8) (kind : MessageType)
    {payload : List UInt8} (small : payload.length < UInt16.size) :
    Spells checksum address kind payload
      (spell checksum ⟨address, kind.code, UInt16.ofNat payload.length⟩ payload) := by
  obtain ⟨header, named⟩ : ∃ header : Header,
      header = ⟨address, kind.code, UInt16.ofNat payload.length⟩ := ⟨_, rfl⟩
  have four : header.bytes.length = 4 := header.length_bytes
  have front : (spell checksum header payload).take 4 = header.bytes := List.take_left' four
  have filled : (header.bytes ++ payload).length = 4 + payload.length := by
    rw [List.length_append, four]
  have whole : spell checksum header payload =
      header.bytes ++ payload ++ Frame.footer checksum (header.bytes ++ payload) :=
    (List.append_assoc ..).symm
  rw [← named]
  refine
    { length := length_spell checksum header payload
      header := ⟨⟨header.bytes, header.length_bytes⟩, front.symm, ?_⟩
      body := ?_
      closing := ?_ }
  · rw [header.ofBytes_bytes, named]
    exact ⟨rfl, rfl, UInt16.toNat_ofNat_of_lt' small⟩
  · rw [spell, List.drop_left' four, List.take_left]
  · rw [whole, List.drop_left' filled, List.take_left' filled, footerValue_footer]

theorem spells_of_encode (encoded : encode checksum capacity address kind payload = .ok frame) :
    Spells checksum address kind payload frame := by
  obtain ⟨small, rfl⟩ := eq_spell_of_encode encoded
  exact spells_spell checksum address kind small

/-- The parts of a frame can be told from it, so that it has no others. -/
theorem Spells.unique {other : Checksum} {otherAddress : UInt8} {otherKind : MessageType}
    {otherPayload : List UInt8} (one : Spells checksum address kind payload frame)
    (two : Spells other otherAddress otherKind otherPayload frame) :
    other = checksum ∧ otherAddress = address ∧ otherKind = kind ∧ otherPayload = payload := by
  obtain ⟨raw, front, address, code, size⟩ := one.header
  obtain ⟨otherRaw, otherFront, otherAddress, otherCode, otherSize⟩ := two.header
  obtain rfl : otherRaw = raw := Subtype.ext (otherFront.trans front.symm)
  have sizes : otherPayload.length = payload.length := otherSize.symm.trans size
  have widths : other.width = checksum.width := by
    have length := one.length
    rw [two.length, sizes] at length
    exact Nat.add_left_cancel length
  refine ⟨?_, otherAddress.symm.trans address,
    MessageType.code_injective (otherCode.symm.trans code), ?_⟩
  · revert widths
    cases other <;> cases checksum <;> decide
  · rw [← two.body, sizes, one.body]

/-! ## Exactness -/

/-- What becomes of a payload that is to be encoded. -/
structure EncodesExactly (checksum : Checksum) (capacity : Nat) (address : UInt8)
    (kind : MessageType) (payload : List UInt8) : Prop where
  encoded : (∃ frame, encode checksum capacity address kind payload = .ok frame) ↔
    payload.length ≤ 65535 ∧ 4 + payload.length + checksum.width ≤ capacity
  /-- The fault tells the size of the payload, as far as a header could. -/
  refused : ¬(payload.length ≤ 65535 ∧ 4 + payload.length + checksum.width ≤ capacity) →
    ∃ size : UInt16, size.toNat = min payload.length 65535 ∧
      encode checksum capacity address kind payload = .error (.payloadTooLarge size)
  spells : ∀ frame, encode checksum capacity address kind payload = .ok frame →
    Spells checksum address kind payload frame
  /-- Nothing else is encoded as the same frame, whatever the buffer. -/
  only : ∀ otherChecksum otherCapacity otherAddress otherKind otherPayload frame,
    encode checksum capacity address kind payload = .ok frame →
      encode otherChecksum otherCapacity otherAddress otherKind otherPayload = .ok frame →
        otherChecksum = checksum ∧ otherAddress = address ∧ otherKind = kind ∧
          otherPayload = payload

/-- A payload has a frame exactly if its size fits in the header and the frame in the buffer.  The
frame spells the payload, with its address and its type, and belongs to no other. -/
theorem encodesExactly (checksum : Checksum) (capacity : Nat) (address : UInt8)
    (kind : MessageType) (payload : List UInt8) :
    EncodesExactly checksum capacity address kind payload := by
  have fits : (∃ frame, encode checksum capacity address kind payload = .ok frame) ↔
      payload.length ≤ 65535 ∧ 4 + payload.length + checksum.width ≤ capacity := by
    constructor
    · rintro ⟨frame, encoded⟩
      obtain ⟨small, room, -⟩ := encode_eq_ok_iff.mp encoded
      exact ⟨Nat.le_of_lt_succ small, room⟩
    · rintro ⟨small, room⟩
      exact ⟨_, encode_eq_spell checksum address kind (Nat.lt_succ_of_le small) room⟩
  refine
    { encoded := fits
      refused := fun unfit => ?_
      spells := fun _ => spells_of_encode
      only := fun _ _ _ _ _ _ encoded same =>
        (spells_of_encode encoded).unique (spells_of_encode same) }
  have size : min payload.length 65535 < UInt16.size :=
    Nat.lt_of_le_of_lt (Nat.min_le_right ..) (by decide)
  refine ⟨_, UInt16.toNat_ofNat_of_lt' size, ?_⟩
  exact (encode_cases checksum capacity address kind payload).resolve_left (mt fits.mp unfit)

end Frame

end Animatronic
