/-!
# Single-precision numbers

A `Binary32` is a pattern of 32 bits: a sign, eight exponent bits and 23 fraction bits.  Every
finite one is a whole number of *quanta*, a quantum being the smallest positive value `2 ^ (-149)`,
so that `magnitude` and `value` are exact integers and no rational is needed anywhere.

Read as if it were a number, the pattern of an infinity has the magnitude `2 ^ 277`, one step above
the largest finite one.  This makes `value` the order key of everything that is not NaN, infinities
included.
-/

namespace Animatronic

/-- A single-precision number, as its pattern of bits. -/
structure Binary32 where
  bits : UInt32
deriving DecidableEq

namespace Binary32

/-! ## Fields and classes -/

def isNegative (x : Binary32) : Bool := 0x80000000 ≤ x.bits.toNat

/-- The eight exponent bits. -/
def exponent (x : Binary32) : Nat := x.bits.toNat / 0x800000 % 256

/-- The 23 fraction bits. -/
def fraction (x : Binary32) : Nat := x.bits.toNat % 0x800000

def isFinite (x : Binary32) : Bool := x.exponent ≠ 255

def isNaN (x : Binary32) : Bool := x.exponent = 255 ∧ x.fraction ≠ 0

def isInfinite (x : Binary32) : Bool := x.exponent = 255 ∧ x.fraction = 0

/-! ## Exact values -/

/-- The distance from zero, in quanta. -/
def magnitude (x : Binary32) : Nat :=
  if x.exponent = 0 then x.fraction else (0x800000 + x.fraction) <<< (x.exponent - 1)

/-- The signed number of quanta. -/
def value (x : Binary32) : Int :=
  if x.isNegative then -(x.magnitude : Int) else x.magnitude

/-- The number of quanta in one. -/
def quantaPerUnit : Nat := 1 <<< 149

/-- The magnitude of an infinity. -/
def infiniteMagnitude : Nat := 1 <<< 277

/-- The pattern with the given sign and magnitude.  Only the 24 leading bits of the magnitude are
kept, which is all of it for a magnitude that some pattern has. -/
def ofMagnitude (negative : Bool) (magnitude : Nat) : Binary32 :=
  let shift := magnitude.log2 - 23
  let body := 0x800000 * shift + magnitude >>> shift
  ⟨UInt32.ofNat (if negative then 0x80000000 + body else body)⟩

/-! ## Constants -/

def zero : Binary32 := ⟨0⟩
def one : Binary32 := ⟨0x3f800000⟩
def two : Binary32 := ⟨0x40000000⟩
def nan : Binary32 := ⟨0x7fc00000⟩

/-! ## Sign -/

/-- The number with its sign bit turned over. -/
def neg (x : Binary32) : Binary32 := ⟨x.bits ^^^ 0x80000000⟩

/-- The number with its sign bit cleared. -/
def abs (x : Binary32) : Binary32 := ⟨x.bits &&& 0x7fffffff⟩

instance : Neg Binary32 := ⟨neg⟩

/-! ## Order -/

/-- NaN is neither below nor above anything, and the two zeros are equal. -/
def lt (x y : Binary32) : Bool := !x.isNaN && !y.isNaN && x.value < y.value

def le (x y : Binary32) : Bool := !x.isNaN && !y.isNaN && x.value ≤ y.value

instance : LT Binary32 := ⟨fun x y => x.lt y = true⟩
instance : LE Binary32 := ⟨fun x y => x.le y = true⟩
instance (x y : Binary32) : Decidable (x < y) := inferInstanceAs (Decidable (x.lt y = true))
instance (x y : Binary32) : Decidable (x ≤ y) := inferInstanceAs (Decidable (x.le y = true))

theorem lt_iff {x y : Binary32} :
    x < y ↔ x.isNaN = false ∧ y.isNaN = false ∧ x.value < y.value := by
  show x.lt y = true ↔ _
  simp [lt, and_assoc]

theorem le_iff {x y : Binary32} :
    x ≤ y ↔ x.isNaN = false ∧ y.isNaN = false ∧ x.value ≤ y.value := by
  show x.le y = true ↔ _
  simp [le, and_assoc]

/-- The nearest point of the interval from `low` to `high`; NaN stays NaN. -/
def clamp (x low high : Binary32) : Binary32 :=
  let raised := if x < low then low else x
  if high < raised then high else raised

/-- The smaller of two numbers; a NaN gives way to the other operand. -/
def min (x y : Binary32) : Binary32 :=
  if x.isNaN then y else if y.isNaN then x else if y < x then y else x

end Binary32

end Animatronic
