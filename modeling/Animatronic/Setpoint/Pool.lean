import Animatronic.Setpoint.Batch

/-!
# The batch pool

Batches live in a fixed number of slots and are passed around by handle.  A batch is stored in the
lowest free slot; releasing a handle frees its slot, which keeps its delay and loop count until it
is stored into again.

A handle is an index and nothing more: reading through it does not ask whether the slot is in use.
That every handle in circulation belongs to a slot in use is up to the holder of the handles.
-/

namespace Animatronic

/-- One slot of a pool. -/
structure Slot where
  batch : Batch
  used : Bool
deriving DecidableEq

/-- A reference to a slot. -/
structure Handle where
  index : Nat
deriving DecidableEq

/-- A pool of exactly `capacity` slots. -/
structure Pool (capacity : Nat) where
  slots : List Slot
  length_slots : slots.length = capacity
deriving DecidableEq

namespace Pool

variable {capacity : Nat}

/-- A pool without batches. -/
def empty (capacity : Nat) : Pool capacity :=
  ⟨List.replicate capacity ⟨.stop, false⟩, List.length_replicate⟩

/-- The most slots that a one-byte handle can tell apart, one value being kept back. -/
def maxCapacity : Nat := 255

/-- A pool of the given capacity, if its handles fit in a byte. -/
def create (capacity : Nat) : Except Abort (Pool capacity) :=
  if capacity ≤ maxCapacity then .ok (empty capacity) else .error .poolTooLarge

/-- The pool with one slot replaced; an index outside of the pool changes nothing. -/
def set (pool : Pool capacity) (index : Nat) (slot : Slot) : Pool capacity :=
  ⟨pool.slots.set index slot, by rw [List.length_set, pool.length_slots]⟩

/-- Store a batch in the lowest free slot. -/
def acquire (pool : Pool capacity) (batch : Batch) : Except Fault (Handle × Pool capacity) :=
  match pool.slots.findIdx? fun slot => !slot.used with
  | some index => .ok (⟨index⟩, pool.set index ⟨batch, true⟩)
  | none => .error .poolExhausted

/-- The batch in the slot of a handle, if the pool has such a slot. -/
def get? (pool : Pool capacity) (handle : Handle) : Option Batch :=
  pool.slots[handle.index]?.map Slot.batch

/-- Free the slot of a handle. -/
def release (pool : Pool capacity) (handle : Handle) : Pool capacity :=
  match pool.get? handle with
  | some batch => pool.set handle.index ⟨batch.cleared, false⟩
  | none => pool

/-- The number of slots in use. -/
def inUse (pool : Pool capacity) : Nat := pool.slots.countP Slot.used

/-! ## What storing and releasing change -/

theorem get?_set_self (pool : Pool capacity) {index : Nat} (slot : Slot)
    (inside : index < capacity) : (pool.set index slot).get? ⟨index⟩ = some slot.batch := by
  simp [get?, set, pool.length_slots, inside]

theorem get?_set_of_ne (pool : Pool capacity) {index : Nat} (slot : Slot) {handle : Handle}
    (other : handle.index ≠ index) : (pool.set index slot).get? handle = pool.get? handle := by
  simp [get?, set, List.getElem?_set_ne other.symm]

/-- What is stored can be read back. -/
theorem get?_of_acquire {pool after : Pool capacity} {batch : Batch} {handle : Handle}
    (stored : pool.acquire batch = .ok (handle, after)) : after.get? handle = some batch := by
  unfold acquire at stored
  split at stored
  · next index found =>
    obtain ⟨rfl, rfl⟩ := Prod.mk.inj (Except.ok.inj stored)
    have inside : index < capacity := by
      have := (List.findIdx?_eq_some_iff_getElem.mp found).1
      rwa [pool.length_slots] at this
    exact pool.get?_set_self _ inside
  · simp at stored

/-- Releasing a handle touches no other slot. -/
theorem get?_release_of_ne (pool : Pool capacity) {handle other : Handle}
    (distinct : other.index ≠ handle.index) :
    (pool.release handle).get? other = pool.get? other := by
  unfold release
  split
  · exact pool.get?_set_of_ne _ distinct
  · rfl

end Pool

end Animatronic
