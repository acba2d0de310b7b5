/-!
# Words on the wire

Every number on the bus travels least significant byte first.  `Word.toBytes` and `Word.ofBytes`
are that rule for words of any width; the frame header, the footer, setpoints and gains are all
written and read with these two functions, which undo each other (`Word.ofBytes_toBytes`,
`Word.toBytes_ofBytes`).
-/

namespace Animatronic

/-- A byte string of exactly `n` bytes. -/
abbrev Bytes (n : Nat) := { bytes : List UInt8 // bytes.length = n }

namespace Word

/-- The `width` low bytes of `value`, least significant first. -/
def toBytes : Nat → Nat → List UInt8
  | 0, _ => []
  | width + 1, value => UInt8.ofNat value :: toBytes width (value / 256)

/-- The number that a byte string spells, least significant byte first. -/
def ofBytes : List UInt8 → Nat
  | [] => 0
  | byte :: rest => byte.toNat + 256 * ofBytes rest

@[simp] theorem length_toBytes (width value : Nat) : (toBytes width value).length = width := by
  induction width generalizing value with
  | zero => rfl
  | succ width ih => simp [toBytes, ih]

/-- A byte string spells a number below `256` to the power of its length. -/
theorem ofBytes_lt (bytes : List UInt8) : ofBytes bytes < Nat.pow 256 bytes.length := by
  induction bytes with
  | nil => exact Nat.one_pos
  | cons byte rest ih =>
    have small := byte.toNat_lt
    have widen : Nat.pow 256 (rest.length + 1) = Nat.pow 256 rest.length * 256 := rfl
    rw [List.length_cons, widen, ofBytes]
    omega

/-- Reading what was written gives the number back, up to the width. -/
theorem ofBytes_toBytes (width value : Nat) :
    ofBytes (toBytes width value) = value % Nat.pow 256 width := by
  induction width generalizing value with
  | zero => exact (Nat.mod_one value).symm
  | succ width ih =>
    have widen : Nat.pow 256 (width + 1) = 256 * Nat.pow 256 width := Nat.mul_comm _ _
    have low : (UInt8.ofNat value).toNat = value % 256 := UInt8.toNat_ofNat'
    rw [toBytes, ofBytes, ih, widen, low, Nat.mod_mul]

/-- Writing what was read gives the bytes back. -/
theorem toBytes_ofBytes (bytes : List UInt8) : toBytes bytes.length (ofBytes bytes) = bytes := by
  induction bytes with
  | nil => rfl
  | cons byte rest ih =>
    have small := byte.toNat_lt
    have tail : (byte.toNat + 256 * ofBytes rest) / 256 = ofBytes rest := by omega
    simp only [List.length_cons, toBytes, ofBytes, tail, ih, List.cons.injEq, and_true]
    apply UInt8.toNat_inj.mp
    simp only [UInt8.toNat_ofNat']
    omega

/-- Two bytes are written as they were read. -/
theorem toBytes_ofBytes_pair (low high : UInt8) :
    toBytes 2 (UInt16.ofNat (ofBytes [low, high])).toNat = [low, high] := by
  have small : ofBytes [low, high] < Nat.pow 256 2 := ofBytes_lt _
  rw [UInt16.toNat_ofNat_of_lt' small]
  exact toBytes_ofBytes [low, high]

/-- Four bytes are written as they were read. -/
theorem toBytes_ofBytes_four (a b c d : UInt8) :
    toBytes 4 (UInt32.ofNat (ofBytes [a, b, c, d])).toNat = [a, b, c, d] := by
  have small : ofBytes [a, b, c, d] < Nat.pow 256 4 := ofBytes_lt _
  rw [UInt32.toNat_ofNat_of_lt' small]
  exact toBytes_ofBytes [a, b, c, d]

end Word

end Animatronic
