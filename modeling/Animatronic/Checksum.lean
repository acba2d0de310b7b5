/-!
# Checksums

The bus closes a frame with a 16-bit check, and links set up for the wider footer with the 32-bit
one.  Both are reflected: a byte enters at the low end of the register, which is then shifted right
eight times, the polynomial being added whenever a one falls out.  They differ in four numbers
only.

A running checksum is its register, started with `initial`, fed with `update` or `updateMany` and
read out with `value`.
-/

namespace Animatronic

/-- The checksum units that can close a frame. -/
inductive Checksum
  | crc16
  | crc32
deriving DecidableEq

namespace Checksum

/-- The generator polynomial, reflected, without its leading term. -/
def polynomial : Checksum → UInt32
  | crc16 => 0xA001
  | crc32 => 0xEDB88320

/-- The register before the first byte. -/
def initial : Checksum → UInt32
  | crc16 => 0xFFFF
  | crc32 => 0xFFFFFFFF

/-- What the register is combined with to give the value. -/
def finalMask : Checksum → UInt32
  | crc16 => 0
  | crc32 => 0xFFFFFFFF

/-- The number of footer bytes. -/
def width : Checksum → Nat
  | crc16 => 2
  | crc32 => 4

/-- One bit leaves the register. -/
def shift (checksum : Checksum) (register : UInt32) : UInt32 :=
  if register &&& 1 = 0 then register >>> 1 else (register >>> 1) ^^^ checksum.polynomial

/-- One byte enters the register. -/
def update (checksum : Checksum) (register : UInt32) (byte : UInt8) : UInt32 :=
  Nat.repeat checksum.shift 8 (register ^^^ byte.toUInt32)

def updateMany (checksum : Checksum) (register : UInt32) (bytes : List UInt8) : UInt32 :=
  bytes.foldl checksum.update register

/-- The checksum that a register stands for. -/
def value (checksum : Checksum) (register : UInt32) : UInt32 :=
  register ^^^ checksum.finalMask

/-- The checksum of a byte string, from a fresh register. -/
def compute (checksum : Checksum) (bytes : List UInt8) : UInt32 :=
  checksum.value (checksum.updateMany checksum.initial bytes)

theorem updateMany_append (checksum : Checksum) (register : UInt32) (front back : List UInt8) :
    checksum.updateMany register (front ++ back) =
      checksum.updateMany (checksum.updateMany register front) back :=
  List.foldl_append

end Checksum

end Animatronic
