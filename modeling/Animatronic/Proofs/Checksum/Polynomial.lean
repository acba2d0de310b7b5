import Animatronic.Proofs.Receiver.Stream
import Mathlib.Algebra.BigOperators.Group.Finset.Basic
import Mathlib.Algebra.BigOperators.Intervals
import Mathlib.Algebra.BigOperators.Ring.Finset
import Mathlib.Algebra.CharP.Two
import Mathlib.Tactic.Ring

/-!
# The narrow checksum as polynomial division

A byte string spells a polynomial with coefficients zero and one, the first byte first and of each
byte the lowest bit first.  The narrow checksum is its remainder on division by
`x ^ 16 + x ^ 15 + x ^ 2 + 1`, except that the register does not start empty.

We look at the value of these polynomials at a root of the generator, in any ring in which two is
zero (`Checksum.IsRoot`).  There one step of the register is multiplication by the root
(`evalRegister_shift`), and so the bytes of a frame with the right footer have a value that depends
on their number only (`evalBytes_of_footer`).
-/

namespace Animatronic

namespace Checksum

variable {R : Type} [CommRing R]

/-- Whether `x` is a root of the generator of the narrow checksum. -/
def IsRoot (x : R) : Prop := x ^ 16 = x ^ 15 + x ^ 2 + 1

/-- The value at `x` of what stands in a register of sixteen bits; the lowest one belongs to the
highest power. -/
def evalRegister (x : R) (register : UInt32) : R :=
  ∑ i ∈ Finset.range 16, if register.toNat.testBit i then x ^ (15 - i) else 0

/-- The value at `x` of a byte string with two bytes of zeros behind it. -/
def evalBytes (x : R) : List UInt8 → R
  | [] => 0
  | byte :: rest => x ^ (8 * rest.length + 8) * evalRegister x byte.toUInt32 + evalBytes x rest

variable [CharP R 2] {x : R} {register : UInt32}

/-! ## One register -/

theorem evalRegister_xor (x : R) (a b : UInt32) :
    evalRegister x (a ^^^ b) = evalRegister x a + evalRegister x b := by
  rw [evalRegister, evalRegister, evalRegister, ← Finset.sum_add_distrib]
  refine Finset.sum_congr rfl fun i _ => ?_
  rw [UInt32.toNat_xor, Nat.testBit_xor]
  cases a.toNat.testBit i <;> cases b.toNat.testBit i <;> simp [CharTwo.add_self_eq_zero]

omit [CharP R 2] in
/-- Moving the register down moves every power up, and the lowest bit comes out. -/
theorem mul_evalRegister (x : R) (small : register.toNat < 65536) :
    x * evalRegister x register =
      (if register.toNat.testBit 0 then x ^ 16 else 0) + evalRegister x (register >>> 1) := by
  have out : register.toNat.testBit 16 = false := Nat.testBit_lt_two_pow small
  have moved : ∀ i, (register >>> 1).toNat.testBit i = register.toNat.testBit (i + 1) := by
    intro i
    rw [UInt32.toNat_shiftRight]
    exact (Nat.testBit_shiftRight ..).trans (by rw [Nat.add_comm]; rfl)
  have below : evalRegister x (register >>> 1) =
      ∑ i ∈ Finset.range 15, if register.toNat.testBit (i + 1) then x ^ (15 - i) else 0 := by
    rw [evalRegister, Finset.sum_range_succ]
    simp only [moved, out, Bool.false_eq_true, if_false, add_zero]
  rw [below, evalRegister, Finset.mul_sum, Finset.sum_range_succ', add_comm]
  congr 1
  · split
    · exact (pow_succ' x 15).symm
    · exact mul_zero x
  · refine Finset.sum_congr rfl fun i mem => ?_
    have power : 15 - i = 15 - (i + 1) + 1 := by
      have := Finset.mem_range.mp mem
      omega
    rw [power, pow_succ', mul_ite, mul_zero]

omit [CharP R 2] in
theorem evalRegister_polynomial (x : R) :
    evalRegister x crc16.polynomial = x ^ 15 + x ^ 2 + 1 := by
  have number : crc16.polynomial.toNat = 40961 := rfl
  simp [evalRegister, Finset.sum_range_succ, number, Nat.testBit_eq_decide_div_mod_eq]

/-- A step of the register multiplies by the root. -/
theorem evalRegister_shift (root : IsRoot x) (small : register.toNat < 65536) :
    evalRegister x (crc16.shift register) = x * evalRegister x register := by
  have lowest : register &&& 1 = 0 ↔ register.toNat.testBit 0 = false := by
    rw [← UInt32.toNat_inj, UInt32.toNat_and, Nat.testBit_zero]
    simp [Nat.and_one_is_mod]
  rw [mul_evalRegister x small, shift]
  split
  · next even => rw [lowest.mp even, if_neg Bool.false_ne_true, zero_add]
  · next odd =>
    rw [if_pos (Bool.not_eq_false _ ▸ fun even => odd (lowest.mpr even)), evalRegister_xor,
      evalRegister_polynomial, ← root, add_comm]

/-! ## Byte strings -/

theorem evalRegister_update (root : IsRoot x) (small : register.toNat < 65536) (byte : UInt8) :
    evalRegister x (crc16.update register byte) =
      x ^ 8 * (evalRegister x register + evalRegister x byte.toUInt32) := by
  have entered : (register ^^^ byte.toUInt32).toNat < 65536 := by
    rw [UInt32.toNat_xor, UInt8.toNat_toUInt32]
    exact Nat.xor_lt_two_pow (n := 16) small (Nat.lt_trans byte.toNat_lt (by decide))
  have shifted : ∀ count,
      (Nat.repeat crc16.shift count (register ^^^ byte.toUInt32)).toNat < 65536 ∧
        evalRegister x (Nat.repeat crc16.shift count (register ^^^ byte.toUInt32)) =
          x ^ count * evalRegister x (register ^^^ byte.toUInt32) := by
    intro count
    induction count with
    | zero => exact ⟨entered, by rw [pow_zero, one_mul]; rfl⟩
    | succ count ih =>
      obtain ⟨small, value⟩ := ih
      refine ⟨crc16_shift_lt small, ?_⟩
      rw [Nat.repeat, evalRegister_shift root small, value, pow_succ', mul_assoc]
  rw [update, (shifted 8).2, evalRegister_xor]

theorem evalRegister_updateMany (root : IsRoot x) (small : register.toNat < 65536)
    (bytes : List UInt8) :
    evalRegister x (crc16.updateMany register bytes) =
      x ^ (8 * bytes.length) * evalRegister x register + evalBytes x bytes := by
  induction bytes generalizing register with
  | nil => simp [updateMany, evalBytes]
  | cons byte rest ih =>
    have later := ih (crc16_update_lt small byte)
    rw [evalRegister_update root small] at later
    rw [updateMany, List.foldl_cons, ← updateMany, later, evalBytes, List.length_cons]
    ring

omit [CharP R 2] in
theorem evalBytes_append (x : R) (front back : List UInt8) :
    evalBytes x (front ++ back) =
      x ^ (8 * back.length) * evalBytes x front + evalBytes x back := by
  induction front with
  | nil => rw [List.nil_append, evalBytes, mul_zero, zero_add]
  | cons byte front ih =>
    rw [List.cons_append, evalBytes, evalBytes, ih, List.length_append]
    ring

/-! ## Footers -/

omit [CharP R 2] in
/-- A byte in the register occupies its lower half. -/
theorem evalRegister_byte (x : R) (byte : UInt8) :
    evalRegister x byte.toUInt32 =
      ∑ i ∈ Finset.range 8, if byte.toNat.testBit i then x ^ (15 - i) else 0 := by
  have above : ∀ i, byte.toNat.testBit (8 + i) = false := fun i =>
    Nat.testBit_lt_two_pow (Nat.lt_of_lt_of_le byte.toNat_lt (Nat.pow_le_pow_right (by decide)
      (Nat.le_add_right 8 i)))
  rw [evalRegister, UInt8.toNat_toUInt32]
  rw [Finset.sum_range_add _ 8 8]
  simp only [above, Bool.false_eq_true, if_false, Finset.sum_const_zero, add_zero]

omit [CharP R 2] in
/-- A register written out is its own remainder. -/
theorem evalBytes_toBytes (x : R) (register : UInt32) :
    evalBytes x (Word.toBytes 2 register.toNat) = x ^ 16 * evalRegister x register := by
  have low : ∀ i ∈ Finset.range 8,
      (UInt8.ofNat register.toNat).toNat.testBit i = register.toNat.testBit i := by
    intro i mem
    rw [UInt8.toNat_ofNat', Nat.testBit_mod_two_pow, decide_eq_true (Finset.mem_range.mp mem),
      Bool.true_and]
  have high : ∀ i ∈ Finset.range 8,
      (UInt8.ofNat (register.toNat / 256)).toNat.testBit i = register.toNat.testBit (8 + i) := by
    intro i mem
    rw [UInt8.toNat_ofNat', Nat.testBit_mod_two_pow, decide_eq_true (Finset.mem_range.mp mem),
      Bool.true_and, Nat.add_comm]
    exact Nat.testBit_div_two_pow (n := 8) ..
  have lower : evalRegister x (UInt8.ofNat register.toNat).toUInt32 =
      ∑ i ∈ Finset.range 8, if register.toNat.testBit i then x ^ (15 - i) else 0 := by
    rw [evalRegister_byte]
    exact Finset.sum_congr rfl fun i mem => by rw [low i mem]
  have upper : evalRegister x (UInt8.ofNat (register.toNat / 256)).toUInt32 =
      x ^ 8 * ∑ i ∈ Finset.range 8,
        if register.toNat.testBit (8 + i) then x ^ (15 - (8 + i)) else 0 := by
    rw [evalRegister_byte, Finset.mul_sum]
    refine Finset.sum_congr rfl fun i mem => ?_
    have power : 15 - i = 8 + (15 - (8 + i)) := by
      have := Finset.mem_range.mp mem
      omega
    rw [high i mem, power, pow_add, mul_ite, mul_zero]
  rw [Word.toBytes, Word.toBytes, Word.toBytes, evalBytes, evalBytes, evalBytes, lower, upper,
    evalRegister, Finset.sum_range_add _ 8 8]
  simp only [List.length_cons, List.length_nil]
  ring

/-- All byte strings of one length that are closed by the right footer have the same value. -/
theorem evalBytes_of_footer (root : IsRoot x) (bytes : List UInt8) :
    evalBytes x (bytes ++ Frame.footer crc16 bytes) =
      x ^ (8 * bytes.length + 16) * evalRegister x crc16.initial := by
  have plain : crc16.compute bytes = crc16.updateMany crc16.initial bytes := UInt32.xor_zero
  have written : evalBytes x (Frame.footer crc16 bytes) =
      x ^ 16 * (x ^ (8 * bytes.length) * evalRegister x crc16.initial + evalBytes x bytes) := by
    have start : crc16.initial.toNat < 65536 := by decide
    rw [← evalRegister_updateMany root start, ← plain]
    exact evalBytes_toBytes x _
  have width : 8 * (Frame.footer crc16 bytes).length = 16 := by
    rw [Frame.length_footer]
    rfl
  rw [evalBytes_append, width, written, mul_add, add_comm, add_assoc, CharTwo.add_self_eq_zero]
  ring

end Checksum

end Animatronic
