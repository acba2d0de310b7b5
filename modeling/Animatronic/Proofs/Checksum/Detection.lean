import Animatronic.Proofs.Checksum.Generator

/-!
# Which damage the narrow footer detects

Bits of a byte string are numbered in the order in which they are on the wire, lowest bit of each
byte first.  Flipping a bit adds one power of the root to the value of the string, so damage that
is not detected adds up to zero at every root of the generator.  This cannot be

* for an odd number of bits, because one is a root; * for two bits that are less than `2 ^ 15 - 1`
apart, because there is a root of that order; * for bits within sixteen in a row, because the
generator has sixteen coefficients below its leading one (`footer_of_flipBits_ne`).
-/

namespace Animatronic

/-- A byte string with one bit turned over. -/
def flipBit (bytes : List UInt8) (position : Nat) : List UInt8 :=
  bytes.modify (position / 8) fun byte => byte ^^^ 1 <<< UInt8.ofNat (position % 8)

/-- A byte string with some bits turned over. -/
def flipBits (bytes : List UInt8) (positions : List Nat) : List UInt8 :=
  positions.foldl flipBit bytes

theorem flipBit_cons_of_lt (byte : UInt8) (rest : List UInt8) {position : Nat}
    (here : position < 8) :
    flipBit (byte :: rest) position = (byte ^^^ 1 <<< UInt8.ofNat position) :: rest := by
  rw [flipBit, Nat.div_eq_of_lt here, Nat.mod_eq_of_lt here]
  rfl

theorem flipBit_cons_add (byte : UInt8) (rest : List UInt8) (position : Nat) :
    flipBit (byte :: rest) (position + 8) = byte :: flipBit rest position := by
  rw [flipBit, Nat.add_div_right position (by decide), Nat.add_mod_right]
  rfl

@[simp] theorem length_flipBit (bytes : List UInt8) (position : Nat) :
    (flipBit bytes position).length = bytes.length := by
  rw [flipBit, List.length_modify]

@[simp] theorem length_flipBits (bytes : List UInt8) (positions : List Nat) :
    (flipBits bytes positions).length = bytes.length := by
  induction positions generalizing bytes with
  | nil => rfl
  | cons position rest ih => exact (ih _).trans (length_flipBit bytes position)

/-- What a byte with one bit set stands for. -/
theorem toNat_bit {position : Nat} (inside : position < 8) :
    (1 <<< UInt8.ofNat position : UInt8).toNat = 2 ^ position := by
  revert position
  decide

namespace Checksum

section Value

variable {R : Type} [CommRing R] [CharP R 2] {x : R} {bytes : List UInt8}

omit [CharP R 2] in
/-- A bit in a byte on its own. -/
theorem evalRegister_bit (x : R) {position : Nat} (inside : position < 8) :
    evalRegister x (1 <<< UInt8.ofNat position : UInt8).toUInt32 = x ^ (15 - position) := by
  rw [evalRegister_byte, toNat_bit inside]
  simp only [Nat.testBit_two_pow, decide_eq_true_eq]
  rw [Finset.sum_ite_eq (Finset.range 8) position, if_pos (Finset.mem_range.mpr inside)]

theorem evalBytes_flipBit (x : R) {position : Nat} (inside : position < 8 * bytes.length) :
    evalBytes x (flipBit bytes position) =
      evalBytes x bytes + x ^ (8 * bytes.length + 15 - position) := by
  induction bytes generalizing position with
  | nil => exact absurd inside (Nat.not_lt_zero _)
  | cons byte rest ih =>
    rw [List.length_cons] at inside ⊢
    by_cases here : position < 8
    · have power : 8 * (rest.length + 1) + 15 - position =
          8 * rest.length + 8 + (15 - position) := by omega
      rw [flipBit_cons_of_lt byte rest here, evalBytes, evalBytes, UInt8.toUInt32_xor,
        evalRegister_xor, evalRegister_bit x here, power, pow_add]
      ring
    · obtain ⟨later, rfl⟩ := Nat.exists_eq_add_of_le' (Nat.le_of_not_lt here)
      have power : 8 * (rest.length + 1) + 15 - (later + 8) = 8 * rest.length + 15 - later := by
        omega
      rw [flipBit_cons_add, evalBytes, evalBytes, length_flipBit, ih (by omega), power, add_assoc]

theorem evalBytes_flipBits (x : R) {positions : List Nat}
    (inside : ∀ position ∈ positions, position < 8 * bytes.length) :
    evalBytes x (flipBits bytes positions) =
      evalBytes x bytes + (positions.map fun p => x ^ (8 * bytes.length + 15 - p)).sum := by
  induction positions generalizing bytes with
  | nil => simp [flipBits]
  | cons position rest ih =>
    have kept : ∀ other ∈ rest, other < 8 * (flipBit bytes position).length := by
      rw [length_flipBit]
      exact fun other mem => inside other (List.mem_cons_of_mem _ mem)
    have later := ih kept
    rw [length_flipBit] at later
    rw [flipBits, List.foldl_cons, ← flipBits, later,
      evalBytes_flipBit x (inside position (List.mem_cons_self ..)), List.map_cons, List.sum_cons,
      add_assoc]

/-- Damage that is not detected adds up to zero at every root. -/
theorem sum_eq_zero_of_undetected (root : IsRoot x) {message other : List UInt8}
    {positions : List Nat}
    (inside : ∀ position ∈ positions,
      position < 8 * (message ++ Frame.footer crc16 message).length)
    (undetected : flipBits (message ++ Frame.footer crc16 message) positions =
      other ++ Frame.footer crc16 other) :
    (positions.map fun p =>
      x ^ (8 * (message ++ Frame.footer crc16 message).length + 15 - p)).sum = 0 := by
  have length : other.length = message.length := by
    have whole := congrArg List.length undetected
    rw [length_flipBits, List.length_append, List.length_append, Frame.length_footer,
      Frame.length_footer] at whole
    exact (Nat.add_right_cancel whole).symm
  have value := evalBytes_flipBits x inside
  rw [undetected, evalBytes_of_footer root, evalBytes_of_footer root, length] at value
  exact left_eq_add.mp value

end Value

/-- The damage that the footer of a frame always shows: an odd number of bits, two bits, or bits
within sixteen in a row. -/
def Detects (positions : List Nat) : Prop :=
  Odd positions.length ∨ positions.length = 2 ∨
    ∃ start, ∀ position ∈ positions, start ≤ position ∧ position < start + 16

variable {message other : List UInt8} {positions : List Nat}

theorem undetected_even
    (inside : ∀ position ∈ positions,
      position < 8 * (message ++ Frame.footer crc16 message).length)
    (undetected : flipBits (message ++ Frame.footer crc16 message) positions =
      other ++ Frame.footer crc16 other) : Even positions.length := by
  have root : IsRoot (1 : ZMod 2) := by unfold IsRoot; decide
  have sum := sum_eq_zero_of_undetected root inside undetected
  simp only [one_pow, List.map_const', List.sum_replicate, nsmul_one] at sum
  exact (ZMod.natCast_eq_zero_iff_even).mp sum

/-- The distance of two bits that are not detected is a multiple of the order of the root. -/
theorem undetected_pair {a b : Nat}
    (inside : ∀ position ∈ [a, b],
      position < 8 * (message ++ Frame.footer crc16 message).length)
    (undetected : flipBits (message ++ Frame.footer crc16 message) [a, b] =
      other ++ Frame.footer crc16 other) : 32767 ∣ a - b ∧ 32767 ∣ b - a := by
  have sum := sum_eq_zero_of_undetected (IsRoot.of_cofactor root_cofactor) inside undetected
  generalize (message ++ Frame.footer crc16 message).length = length at inside sum
  have period : ∀ power distance,
      AdjoinRoot.root cofactor ^ (power + distance) + AdjoinRoot.root cofactor ^ power = 0 →
        32767 ∣ distance := by
    intro power distance zero
    have unit := (IsRoot.of_cofactor root_cofactor).isUnit.pow power
    rw [pow_add, ← mul_add_one, unit.mul_right_eq_zero, CharTwo.add_eq_zero] at zero
    rw [← orderOf_root_cofactor]
    exact orderOf_dvd_of_pow_eq_one zero
  have last : a < 8 * length ∧ b < 8 * length := ⟨inside a (by simp), inside b (by simp)⟩
  simp only [List.map_cons, List.map_nil, List.sum_cons, List.sum_nil, add_zero] at sum
  rcases Nat.le_total a b with order | order
  · have apart : 8 * length + 15 - a = 8 * length + 15 - b + (b - a) := by omega
    rw [apart] at sum
    exact ⟨by rw [Nat.sub_eq_zero_of_le order]; exact dvd_zero _, period _ _ sum⟩
  · have apart : 8 * length + 15 - b = 8 * length + 15 - a + (a - b) := by omega
    rw [apart, add_comm] at sum
    exact ⟨period _ _ sum, by rw [Nat.sub_eq_zero_of_le order]; exact dvd_zero _⟩

/-- No bits within sixteen in a row go undetected. -/
theorem not_undetected_burst (nonempty : positions ≠ []) (distinct : positions.Nodup) {start : Nat}
    (close : ∀ position ∈ positions, start ≤ position ∧ position < start + 16)
    (inside : ∀ position ∈ positions,
      position < 8 * (message ++ Frame.footer crc16 message).length)
    (undetected : flipBits (message ++ Frame.footer crc16 message) positions =
      other ++ Frame.footer crc16 other) : False := by
  have sum := sum_eq_zero_of_undetected root_generator inside undetected
  generalize (message ++ Frame.footer crc16 message).length = length at inside sum
  -- The lowest power of the burst is a unit, and what is left has a degree below sixteen.
  have split : ∀ position ∈ positions,
      AdjoinRoot.root generator ^ (8 * length + 15 - position) =
        AdjoinRoot.root generator ^ (8 * length - start) *
          AdjoinRoot.root generator ^ (start + 15 - position) := by
    intro position mem
    rw [← pow_add]
    congr 1
    have := close position mem
    have := inside position mem
    omega
  have unit := root_generator.isUnit.pow (8 * length - start)
  rw [List.map_congr_left split, List.sum_map_mul_left, unit.mul_right_eq_zero] at sum
  have powers : (positions.map fun p => start + 15 - p).Nodup := by
    refine distinct.map_on fun a memA b memB same => ?_
    have := close a memA
    have := close b memB
    omega
  have nonempty : (positions.map fun p => start + 15 - p).toFinset.Nonempty := by
    obtain ⟨position, mem⟩ := List.exists_mem_of_ne_nil positions nonempty
    exact ⟨_, List.mem_toFinset.mpr (List.mem_map_of_mem mem)⟩
  refine sum_pow_root_ne_zero monic_generator nonempty ?_ ?_
  · intro power mem
    obtain ⟨position, within, rfl⟩ := List.mem_map.mp (List.mem_toFinset.mp mem)
    have := close position within
    rw [natDegree_generator]
    omega
  · rw [List.sum_toFinset _ powers, List.map_map]
    exact sum

/-- Such damage is always detected, as long as the frame has fewer than `2 ^ 15` bits. -/
theorem footer_of_flipBits_ne (nonempty : positions ≠ []) (distinct : positions.Nodup)
    (detects : Detects positions)
    (inside : ∀ position ∈ positions,
      position < 8 * (message ++ Frame.footer crc16 message).length)
    (short : 8 * (message ++ Frame.footer crc16 message).length ≤ 32767) :
    flipBits (message ++ Frame.footer crc16 message) positions ≠
      other ++ Frame.footer crc16 other := by
  intro undetected
  rcases detects with odd | two | ⟨start, close⟩
  · exact Nat.not_even_iff_odd.mpr odd (undetected_even inside undetected)
  · obtain ⟨a, b, rfl⟩ := List.length_eq_two.mp two
    have different : a ≠ b := by simpa using distinct
    have last : a ≤ 32766 ∧ b ≤ 32766 := by
      have := inside a (by simp)
      have := inside b (by simp)
      omega
    obtain ⟨down, up⟩ := undetected_pair inside undetected
    omega
  · exact not_undetected_burst nonempty distinct close inside undetected

end Checksum

end Animatronic
