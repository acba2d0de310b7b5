import Animatronic.Bus.Receiver
import Mathlib.Data.List.Basic

/-!
# Reading a byte stream

The first byte of a stream tells whether a diagnostic or a frame begins there.  A stream that
begins with a frame is cut in only one way: its first four bytes spell the header, the header says
how long the payload is, and the footer comes behind that.  The checksum of a frame fits in its
footer, so a footer is the right one exactly if it is the one that would have been written
(`closes_iff`).
-/

namespace Animatronic

theorem exists_append_of_le {bytes : List UInt8} {n : Nat} (enough : n ≤ bytes.length) :
    ∃ front back : List UInt8, bytes = front ++ back ∧ front.length = n :=
  ⟨bytes.take n, bytes.drop n, (List.take_append_drop n bytes).symm, List.length_take_of_le enough⟩

/-! ## Diagnostics -/

theorem Diagnostic.decode_eq_none_iff {byte : UInt8} :
    decode byte = none ↔ ∀ asked : Diagnostic, asked.byte ≠ byte := by
  constructor
  · rintro undiagnosed asked rfl
    rw [decode_byte] at undiagnosed
    cases undiagnosed
  · intro plain
    have missing : ∀ kind : DiagnosticKind,
        (Board.all.find? fun board => byte = (Diagnostic.mk kind board).byte) = none := by
      intro kind
      rw [List.find?_eq_none]
      intro board _ same
      exact plain ⟨kind, board⟩ (of_decide_eq_true same).symm
    simp only [decode, missing, Option.map_none]
    rfl

/-! ## Headers -/

namespace Header

/-- Four bytes are written as they were read. -/
theorem bytes_ofBytes (raw : Bytes length) : (ofBytes raw).bytes = raw.val := by
  match raw with
  | ⟨[address, kind, low, high], _⟩ =>
    have small : Word.ofBytes [low, high] < UInt16.size := by
      have lowByte := low.toNat_lt
      have highByte := high.toNat_lt
      simp only [Word.ofBytes, UInt16.size]
      omega
    have word : Word.toBytes 2 (Word.ofBytes [low, high]) = [low, high] :=
      Word.toBytes_ofBytes [low, high]
    simp only [ofBytes, bytes, UInt16.toNat_ofNat_of_lt' small, word]

theorem bytes_injective {a b : Header} (same : a.bytes = b.bytes) : a = b := by
  rw [← a.ofBytes_bytes, ← b.ofBytes_bytes]
  exact congrArg ofBytes (Subtype.ext same)

/-- The bytes of a header behind its first one. -/
def tail (header : Header) : Bytes 3 :=
  ⟨header.kind :: Word.toBytes 2 header.size.toNat, by simp⟩

theorem ofBytes_joinHeader (header : Header) :
    ofBytes (Receiver.joinHeader header.address header.tail) = header :=
  header.ofBytes_bytes

/-- A stream of at least four bytes begins with a header. -/
theorem exists_of_length (first : UInt8) {more : List UInt8} (long : 3 ≤ more.length) :
    ∃ (header : Header) (body : List UInt8),
      header.address = first ∧ first :: more = header.bytes ++ body := by
  match more with
  | kind :: low :: high :: body =>
    refine ⟨ofBytes ⟨[first, kind, low, high], rfl⟩, body, rfl, ?_⟩
    rw [bytes_ofBytes]
    rfl

end Header

/-- What the bus carries in one piece: a diagnostic byte, or a frame with all of its bytes,
whatever they are. -/
inductive Transmission (checksum : Checksum)
  | diagnostic (asked : Diagnostic)
  | frame (header : Header) (body : List UInt8)
      (plain : ∀ asked : Diagnostic, asked.byte ≠ header.address)
      (whole : body.length = header.payloadLength + checksum.width)

def Transmission.bytes {checksum : Checksum} : Transmission checksum → List UInt8
  | diagnostic asked => [asked.byte]
  | frame header body _ _ => header.bytes ++ body

/-! ## Footers -/

namespace Checksum

/-- A register of the narrow checksum stays within sixteen bits. -/
theorem crc16_shift_lt {register : UInt32} (small : register.toNat < 65536) :
    (crc16.shift register).toNat < 65536 := by
  have half : (register >>> 1).toNat < 65536 := by
    rw [UInt32.toNat_shiftRight]
    exact Nat.lt_of_le_of_lt (Nat.shiftRight_le _ _) small
  unfold shift
  split
  · exact half
  · rw [UInt32.toNat_xor]
    exact Nat.xor_lt_two_pow (n := 16) half (by decide)

theorem crc16_update_lt {register : UInt32} (small : register.toNat < 65536) (byte : UInt8) :
    (crc16.update register byte).toNat < 65536 := by
  have start : (register ^^^ byte.toUInt32).toNat < 65536 := by
    rw [UInt32.toNat_xor, UInt8.toNat_toUInt32]
    exact Nat.xor_lt_two_pow (n := 16) small (Nat.lt_trans byte.toNat_lt (by decide))
  have shifted : ∀ count, (Nat.repeat crc16.shift count (register ^^^ byte.toUInt32)).toNat <
      65536 := by
    intro count
    induction count with
    | zero => exact start
    | succ count ih => exact crc16_shift_lt ih
  exact shifted 8

theorem crc16_updateMany_lt {register : UInt32} (small : register.toNat < 65536)
    (bytes : List UInt8) : (crc16.updateMany register bytes).toNat < 65536 := by
  induction bytes generalizing register with
  | nil => exact small
  | cons byte rest ih => exact ih (crc16_update_lt small byte)

/-- A checksum fits in a footer. -/
theorem compute_lt (checksum : Checksum) (bytes : List UInt8) :
    (checksum.compute bytes).toNat < Nat.pow 256 checksum.width := by
  cases checksum with
  | crc16 =>
    have start : crc16.initial.toNat < 65536 := by decide
    have register := crc16_updateMany_lt start bytes
    have plain : ∀ register : UInt32, crc16.value register = register := fun _ => UInt32.xor_zero
    rw [compute, plain]
    exact register
  | crc32 => exact (crc32.compute bytes).toNat_lt

end Checksum

namespace Receiver

variable {receiver : Receiver}

/-- A footer is right exactly if it is the one that a sender would have written. -/
theorem closes_iff {header : Header} {payload footer : List UInt8}
    (width : footer.length = receiver.checksum.width) :
    receiver.closes header payload footer = true ↔
      footer = Frame.footer receiver.checksum (header.bytes ++ payload) := by
  have whole : receiver.checksum.value
      (receiver.checksum.updateMany
        (receiver.checksum.updateMany receiver.checksum.initial header.bytes) payload) =
      receiver.checksum.compute (header.bytes ++ payload) := by
    rw [Checksum.compute, Checksum.updateMany_append]
  have fits := receiver.checksum.compute_lt (header.bytes ++ payload)
  rw [closes, whole, decide_eq_true_iff, Frame.footer]
  constructor
  · intro same
    rw [same, ← width, Word.toBytes_ofBytes]
  · intro written
    rw [written, Word.ofBytes_toBytes, Nat.mod_eq_of_lt fits]

end Receiver

end Animatronic
