import Animatronic.Setpoint.Pool
import Mathlib.Data.List.Perm.Basic
import Mathlib.Data.List.Nodup

/-!
# Occupancy of the pool

A handle says nothing about whether its slot is in use, so the pool is judged together with the
handles in circulation.  `Pool.Holds pool handles` says that no two of the handles share a slot,
and that the slots in use are exactly theirs.  Storing a batch adds a handle that was not in
circulation and releasing one takes it out; neither touches what is read through the others.  This
is all that a holder of handles needs in order to treat them as the batches themselves.
-/

namespace Animatronic

namespace Pool

variable {capacity : Nat}

/-- Whether the slot of a handle is in use. -/
def isUsed (pool : Pool capacity) (handle : Handle) : Bool :=
  pool.slots[handle.index]?.any Slot.used

/-- The handles are those of the slots in use, each slot once. -/
structure Holds (pool : Pool capacity) (handles : List Handle) : Prop where
  distinct : handles.Nodup
  mem_iff : ∀ handle, handle ∈ handles ↔ pool.isUsed handle = true

/-! ## One slot at a time -/

theorem index_lt_of_isUsed {pool : Pool capacity} {handle : Handle}
    (used : pool.isUsed handle = true) : handle.index < capacity := by
  by_contra outside
  have length : pool.slots.length ≤ handle.index := by
    rw [pool.length_slots]
    omega
  rw [isUsed, List.getElem?_eq_none length] at used
  exact Bool.false_ne_true used

theorem isUsed_set_self (pool : Pool capacity) {index : Nat} (slot : Slot)
    (inside : index < capacity) : (pool.set index slot).isUsed ⟨index⟩ = slot.used := by
  simp [isUsed, set, pool.length_slots, inside]

theorem isUsed_set_of_ne (pool : Pool capacity) {index : Nat} (slot : Slot) {handle : Handle}
    (other : handle.index ≠ index) :
    (pool.set index slot).isUsed handle = pool.isUsed handle := by
  simp [isUsed, set, List.getElem?_set_ne other.symm]

/-- A slot in use can be read. -/
theorem get?_of_isUsed {pool : Pool capacity} {handle : Handle}
    (used : pool.isUsed handle = true) : ∃ batch, pool.get? handle = some batch := by
  have inside := index_lt_of_isUsed used
  rw [← pool.length_slots] at inside
  exact ⟨_, by rw [get?, List.getElem?_eq_getElem inside]; rfl⟩

theorem isUsed_release_self (pool : Pool capacity) (handle : Handle) :
    (pool.release handle).isUsed handle = false := by
  unfold release
  split
  · next batch found =>
    have inside : handle.index < capacity := by
      rw [← pool.length_slots]
      by_contra outside
      rw [get?, List.getElem?_eq_none (Nat.le_of_not_lt outside)] at found
      cases found
    exact pool.isUsed_set_self _ inside
  · next missing =>
    have absent : pool.slots[handle.index]? = none := by
      simpa [get?] using missing
    rw [isUsed, absent]
    rfl

theorem isUsed_release_of_ne (pool : Pool capacity) {handle other : Handle}
    (distinct : other ≠ handle) : (pool.release handle).isUsed other = pool.isUsed other := by
  have index : other.index ≠ handle.index := fun same => distinct (congrArg Handle.mk same)
  unfold release
  split
  · exact pool.isUsed_set_of_ne _ index
  · rfl

theorem isUsed_release_of_free {pool : Pool capacity} {handle : Handle} (other : Handle)
    (free : pool.isUsed handle = false) : (pool.release other).isUsed handle = false := by
  by_cases same : handle = other
  · rw [same, pool.isUsed_release_self]
  · rw [pool.isUsed_release_of_ne same, free]

/-- Storing takes a slot that was free. -/
theorem of_acquire {pool after : Pool capacity} {batch : Batch} {handle : Handle}
    (stored : pool.acquire batch = .ok (handle, after)) :
    handle.index < capacity ∧ pool.isUsed handle = false ∧
      after = pool.set handle.index ⟨batch, true⟩ := by
  unfold acquire at stored
  split at stored
  · next index found =>
    rcases Prod.mk.inj (Except.ok.inj stored) with ⟨rfl, rfl⟩
    rcases List.findIdx?_eq_some_iff_getElem.mp found with ⟨inside, free, -⟩
    refine ⟨by rwa [pool.length_slots] at inside, ?_, rfl⟩
    simp only [isUsed, List.getElem?_eq_getElem inside, Option.any_some]
    simpa using free
  · cases stored

/-! ## Counting the slots in use -/

/-- The handles of all slots in use, lowest first. -/
def usedHandles (pool : Pool capacity) : List Handle :=
  ((List.range capacity).map Handle.mk).filter pool.isUsed

theorem mem_usedHandles {pool : Pool capacity} {handle : Handle} :
    handle ∈ pool.usedHandles ↔ pool.isUsed handle = true := by
  rw [usedHandles, List.mem_filter]
  constructor
  · exact And.right
  · intro used
    refine ⟨List.mem_map.mpr ⟨handle.index, ?_, rfl⟩, used⟩
    exact List.mem_range.mpr (index_lt_of_isUsed used)

theorem nodup_usedHandles (pool : Pool capacity) : pool.usedHandles.Nodup := by
  refine List.Nodup.filter _ (List.Nodup.map ?_ List.nodup_range)
  intro a b same
  exact congrArg Handle.index same

private theorem countP_eq_length_filter_range {α : Type} (p : α → Bool) (items : List α) :
    items.countP p = ((List.range items.length).filter fun i => items[i]?.any p).length := by
  induction items with
  | nil => rfl
  | cons item items ih =>
    rw [List.length_cons, List.range_succ_eq_map, List.filter_cons, List.filter_map,
      List.countP_cons, ih]
    by_cases found : p item
    · simp [found, Function.comp_def]
    · simp [found, Function.comp_def]

theorem length_usedHandles (pool : Pool capacity) : pool.usedHandles.length = pool.inUse := by
  rw [inUse, countP_eq_length_filter_range, pool.length_slots, usedHandles, List.filter_map,
    List.length_map]
  rfl

namespace Holds

variable {pool : Pool capacity} {handles : List Handle}

/-- The number of slots in use is the number of handles in circulation. -/
theorem inUse_eq (held : pool.Holds handles) : pool.inUse = handles.length := by
  have same : pool.usedHandles.Perm handles := by
    rw [List.perm_ext_iff_of_nodup pool.nodup_usedHandles held.distinct]
    intro handle
    rw [mem_usedHandles, held.mem_iff]
  rw [← length_usedHandles, same.length_eq]

/-- The order of the handles does not matter. -/
theorem perm (held : pool.Holds handles) {others : List Handle} (same : handles.Perm others) :
    pool.Holds others :=
  ⟨same.nodup_iff.mp held.distinct, fun handle => same.mem_iff.symm.trans (held.mem_iff handle)⟩

theorem empty (capacity : Nat) : (Pool.empty capacity).Holds [] := by
  refine ⟨List.nodup_nil, fun handle => ⟨fun mem => absurd mem List.not_mem_nil, fun used => ?_⟩⟩
  rw [isUsed, Pool.empty, List.getElem?_replicate] at used
  split at used
  · exact absurd used Bool.false_ne_true
  · exact absurd used Bool.false_ne_true

/-- Every handle in circulation can be read. -/
theorem get?_of_mem (held : pool.Holds handles) {handle : Handle} (mem : handle ∈ handles) :
    ∃ batch, pool.get? handle = some batch :=
  get?_of_isUsed ((held.mem_iff handle).mp mem)

/-! ## Storing -/

/-- A pool with fewer handles in circulation than slots has room. -/
theorem acquire_ok (held : pool.Holds handles) (room : handles.length < capacity)
    (batch : Batch) : ∃ handle after, pool.acquire batch = .ok (handle, after) := by
  rw [← held.inUse_eq] at room
  unfold acquire
  split
  · exact ⟨_, _, rfl⟩
  · next full =>
    exfalso
    have all : ∀ slot ∈ pool.slots, slot.used = true := by
      intro slot mem
      simpa using List.findIdx?_eq_none_iff.mp full slot mem
    rw [inUse, List.countP_eq_length.mpr all, pool.length_slots] at room
    exact Nat.lt_irrefl _ room

variable {after : Pool capacity} {batch : Batch} {handle : Handle}

/-- The handle of a batch just stored was not in circulation. -/
theorem not_mem_of_acquire (held : pool.Holds handles)
    (stored : pool.acquire batch = .ok (handle, after)) : handle ∉ handles := by
  intro mem
  have free := (of_acquire stored).2.1
  rw [(held.mem_iff handle).mp mem] at free
  cases free

theorem acquire (held : pool.Holds handles)
    (stored : pool.acquire batch = .ok (handle, after)) : after.Holds (handle :: handles) := by
  rcases of_acquire stored with ⟨inside, _, rfl⟩
  refine ⟨List.nodup_cons.mpr ⟨held.not_mem_of_acquire stored, held.distinct⟩, fun other => ?_⟩
  rw [List.mem_cons]
  by_cases same : other = handle
  · subst same
    exact ⟨fun _ => pool.isUsed_set_self _ inside, fun _ => Or.inl rfl⟩
  · have index : other.index ≠ handle.index := fun eq => same (congrArg Handle.mk eq)
    rw [pool.isUsed_set_of_ne _ index, ← held.mem_iff other]
    exact ⟨fun mem => mem.resolve_left same, Or.inr⟩

/-- Storing leaves what is read through the handles in circulation as it is. -/
theorem get?_acquire (held : pool.Holds handles)
    (stored : pool.acquire batch = .ok (handle, after)) {other : Handle}
    (mem : other ∈ handles) : after.get? other = pool.get? other := by
  have distinct : other ≠ handle := by
    rintro rfl
    exact held.not_mem_of_acquire stored mem
  rcases of_acquire stored with ⟨_, _, rfl⟩
  exact pool.get?_set_of_ne _ fun eq => distinct (congrArg Handle.mk eq)

/-! ## Releasing -/

theorem release (held : pool.Holds (handle :: handles)) : (pool.release handle).Holds handles := by
  rcases List.nodup_cons.mp held.distinct with ⟨fresh, distinct⟩
  refine ⟨distinct, fun other => ?_⟩
  by_cases same : other = handle
  · subst same
    rw [pool.isUsed_release_self]
    exact ⟨fun mem => absurd mem fresh, fun used => absurd used Bool.false_ne_true⟩
  · rw [pool.isUsed_release_of_ne same, ← held.mem_iff other, List.mem_cons]
    exact ⟨Or.inr, fun mem => mem.resolve_left same⟩

/-- Releasing a handle leaves what is read through the others as it is. -/
theorem get?_release (held : pool.Holds (handle :: handles)) {other : Handle}
    (mem : other ∈ handles) : (pool.release handle).get? other = pool.get? other := by
  rcases List.nodup_cons.mp held.distinct with ⟨fresh, -⟩
  refine get?_release_of_ne pool fun index => ?_
  have same : other = handle := congrArg Handle.mk index
  subst same
  exact fresh mem

/-- Handles may be released one after the other. -/
theorem releaseAll {released : List Handle} (held : pool.Holds (released ++ handles)) :
    (released.foldl Pool.release pool).Holds handles ∧
      ∀ other ∈ handles, (released.foldl Pool.release pool).get? other = pool.get? other := by
  induction released generalizing pool with
  | nil => exact ⟨held, fun _ _ => rfl⟩
  | cons first released ih =>
    rcases ih (Holds.release held) with ⟨rest, same⟩
    refine ⟨rest, fun other mem => ?_⟩
    rw [List.foldl_cons, same other mem]
    exact Holds.get?_release held (List.mem_append_right _ mem)

end Holds

end Pool

end Animatronic
