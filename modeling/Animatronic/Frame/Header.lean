import Animatronic.Word

/-!
# Frame headers

A header is an address byte, a type byte and the size of the payload as a 16-bit word.
-/

namespace Animatronic

/-- The first bytes of a frame: for whom it is, what it asks for, and how long its payload is. -/
structure Header where
  address : UInt8
  kind : UInt8
  size : UInt16
deriving DecidableEq

namespace Header

/-- The number of header bytes. -/
def length : Nat := 4

def bytes (header : Header) : List UInt8 :=
  header.address :: header.kind :: Word.toBytes 2 header.size.toNat

/-- The header that four bytes spell, in wire order. -/
def ofBytes : Bytes Header.length → Header
  | ⟨[address, kind, low, high], _⟩ => ⟨address, kind, UInt16.ofNat (Word.ofBytes [low, high])⟩

/-- The payload length that the header announces. -/
def payloadLength (header : Header) : Nat := header.size.toNat

theorem length_bytes (header : Header) : header.bytes.length = Header.length := by
  simp [bytes, Header.length]

/-- A header is read back as it was written. -/
theorem ofBytes_bytes (header : Header) :
    ofBytes ⟨header.bytes, header.length_bytes⟩ = header := by
  have size : Word.ofBytes (Word.toBytes 2 header.size.toNat) = header.size.toNat := by
    rw [Word.ofBytes_toBytes]
    exact Nat.mod_eq_of_lt header.size.toNat_lt
  simp only [Word.toBytes] at size
  simp only [bytes, Word.toBytes, ofBytes, size, UInt16.ofNat_toNat]

end Header

end Animatronic
