import Animatronic.Proofs.Pool.Occupancy

/-!
# The pool as an arena

A released slot keeps what was in it, and reading does not ask whether a slot is in use.  That a
handle reads the batch it was given for rests on how handles are used: each of them is given back
once at most, and not used any more then.  An `Arena` is a pool together with the handles that its
users hold, which a user cannot but use in this way.

In every history of an arena the handles in use name different slots, namely all that are occupied,
and each of them reads its own batch (`Arena.Keeps`).
-/

namespace Animatronic

namespace Pool

variable {capacity : Nat} {pool after : Pool capacity} {batch : Batch} {handle : Handle}

/-! ## Handles in a byte -/

/-- Store a batch in the lowest free slot of a pool of any size.  The slot is occupied before its
index is put into a byte, so that beyond the last byte a batch would be lost in its slot. -/
def store (pool : Pool capacity) (batch : Batch) : Except Fault Handle × Pool capacity :=
  match pool.slots.findIdx? fun slot => !slot.used with
  | some index =>
    if index < 256 then (.ok ⟨index⟩, pool.set index ⟨batch, true⟩)
    else (.error .poolExhausted, pool.set index ⟨batch, true⟩)
  | none => (.error .poolExhausted, pool)

/-- A pool that can be created has no slot whose index does not fit in a byte. -/
theorem store_eq (small : capacity ≤ maxCapacity) (pool : Pool capacity) (batch : Batch) :
    pool.store batch =
      match pool.acquire batch with
      | .ok (handle, after) => (.ok handle, after)
      | .error fault => (.error fault, pool) := by
  unfold store acquire
  cases found : pool.slots.findIdx? fun slot => !slot.used with
  | none => rfl
  | some index =>
    have inside := (List.findIdx?_eq_some_iff_getElem.mp found).1
    rw [pool.length_slots] at inside
    have fits : index < 256 := Nat.lt_of_lt_of_le inside (Nat.le_trans small (by decide))
    dsimp only
    rw [if_pos fits]

/-! ## The lowest free slot -/

/-- All slots below the one that a batch is stored in are in use. -/
theorem isUsed_of_lt_of_acquire (stored : pool.acquire batch = .ok (handle, after)) {index : Nat}
    (lower : index < handle.index) : pool.isUsed ⟨index⟩ = true := by
  unfold acquire at stored
  split at stored
  · next lowest found =>
    obtain ⟨rfl, rfl⟩ := Prod.mk.inj (Except.ok.inj stored)
    obtain ⟨inside, -, below⟩ := List.findIdx?_eq_some_iff_getElem.mp found
    have used := below index lower
    rw [isUsed, List.getElem?_eq_getElem (Nat.lt_trans lower inside), Option.any_some]
    simpa using used
  · cases stored

theorem inUse_le (pool : Pool capacity) : pool.inUse ≤ capacity := by
  have most := List.countP_le_length (p := Slot.used) (l := pool.slots)
  rwa [pool.length_slots] at most

/-- In a full pool there is no free slot. -/
theorem acquire_of_full (full : pool.inUse = capacity) (batch : Batch) :
    pool.acquire batch = .error .poolExhausted := by
  have all : ∀ slot ∈ pool.slots, slot.used = true := by
    refine List.countP_eq_length.mp ?_
    rw [pool.length_slots]
    exact full
  have exhausted : (pool.slots.findIdx? fun slot => !slot.used) = none := by
    refine List.findIdx?_eq_none_iff.mpr fun slot mem => ?_
    rw [all slot mem, Bool.not_true]
  rw [acquire, exhausted]

end Pool

/-! ## Arenas -/

/-- A handle that was given for a batch. -/
structure Grant where
  handle : Handle
  batch : Batch
deriving DecidableEq

/-- A pool and the handles that it has given, in order, with nothing in the place of one that was
given back. -/
structure Arena (capacity : Nat) where
  pool : Pool capacity
  grants : List (Option Grant)
deriving DecidableEq

namespace Arena

variable {capacity : Nat}

/-- Something that a user of an arena does.  Handles are told apart by the number of handles that
were given before them. -/
inductive Call
  | acquire (batch : Batch)
  | acquireStop
  | get (number : Nat)
  | release (number : Nat)
deriving DecidableEq

inductive Answer
  | granted (handle : Handle)
  | refused (fault : Fault)
  | found (batch : Option Batch)
  | silent
deriving DecidableEq

/-- The grants whose handles have not been given back. -/
def live (a : Arena capacity) : List Grant := a.grants.filterMap id

/-- The grant of a handle, unless it was given back. -/
def grant? (a : Arena capacity) (number : Nat) : Option Grant := a.grants[number]?.join

/-- Store a batch and hand out its handle. -/
def acquire (a : Arena capacity) (batch : Batch) : Answer × Arena capacity :=
  match a.pool.store batch with
  | (.ok handle, pool) => (.granted handle, ⟨pool, a.grants ++ [some ⟨handle, batch⟩]⟩)
  | (.error fault, pool) => (.refused fault, { a with pool := pool })

/-- Carry out a call.  With a handle that nobody holds there is nothing to call. -/
def serve (a : Arena capacity) : Call → Answer × Arena capacity
  | .acquire batch => a.acquire batch
  | .acquireStop => a.acquire .stop
  | .get number =>
    match a.grant? number with
    | some grant => (.found (a.pool.get? grant.handle), a)
    | none => (.silent, a)
  | .release number =>
    match a.grant? number with
    | some grant => (.silent, ⟨a.pool.release grant.handle, a.grants.set number none⟩)
    | none => (.silent, a)

def run (a : Arena capacity) (calls : List Call) : Arena capacity :=
  calls.foldl (fun a call => (a.serve call).2) a

/-! ## What every call keeps -/

variable {a : Arena capacity} {number : Nat} {grant : Grant} {batch : Batch} {handle : Handle}

/-- The handles that are held occupy the slots in use, and each reads the batch it was given
for. -/
structure Keeps (a : Arena capacity) : Prop where
  holds : a.pool.Holds (a.live.map Grant.handle)
  reads : ∀ grant ∈ a.live, a.pool.get? grant.handle = some grant.batch

theorem grant?_eq_some_iff :
    a.grant? number = some grant ↔ a.grants[number]? = some (some grant) :=
  Option.join_eq_some_iff

/-- A grant that is taken out of its place is no longer live, and all others are. -/
theorem perm_live_of_grant {grants : List (Option Grant)}
    (given : grants[number]? = some (some grant)) :
    (grants.filterMap id).Perm (grant :: (grants.set number none).filterMap id) := by
  induction grants generalizing number with
  | nil => cases given
  | cons first rest ih =>
    cases number with
    | zero =>
      cases given
      exact List.Perm.refl _
    | succ number =>
      have later := ih given
      rw [List.set_cons_succ]
      cases first with
      | none => exact later
      | some other => exact (later.cons other).trans (List.Perm.swap grant other _)

theorem live_append_singleton (pool : Pool capacity) (grants : List (Option Grant))
    (grant : Grant) : (Arena.mk pool (grants ++ [some grant])).live =
      (Arena.mk pool grants).live ++ [grant] := List.filterMap_append

theorem keeps_empty (capacity : Nat) : (Arena.mk (Pool.empty capacity) []).Keeps :=
  ⟨Pool.Holds.empty capacity, List.forall_mem_nil _⟩

namespace Keeps

theorem inUse_eq (keeps : a.Keeps) : a.pool.inUse = a.live.length := by
  rw [keeps.holds.inUse_eq, List.length_map]

/-- While a slot is free a batch is stored, in the lowest free slot. -/
theorem acquire_of_room (keeps : a.Keeps) (small : capacity ≤ Pool.maxCapacity)
    (room : a.live.length < capacity) (batch : Batch) :
    ∃ handle after, a.pool.acquire batch = .ok (handle, after) ∧
      a.acquire batch = (.granted handle, ⟨after, a.grants ++ [some ⟨handle, batch⟩]⟩) := by
  obtain ⟨handle, after, stored⟩ :=
    keeps.holds.acquire_ok (by rwa [List.length_map]) batch
  refine ⟨handle, after, stored, ?_⟩
  rw [Arena.acquire, Pool.store_eq small, stored]

/-- When no slot is free nothing happens. -/
theorem acquire_of_full (keeps : a.Keeps) (small : capacity ≤ Pool.maxCapacity)
    (full : a.live.length = capacity) (batch : Batch) :
    a.acquire batch = (.refused .poolExhausted, a) := by
  rw [Arena.acquire, Pool.store_eq small,
    Pool.acquire_of_full (keeps.inUse_eq.trans full) batch]

theorem length_le (keeps : a.Keeps) : a.live.length ≤ capacity :=
  keeps.inUse_eq ▸ a.pool.inUse_le

theorem acquire (keeps : a.Keeps) (small : capacity ≤ Pool.maxCapacity) (batch : Batch) :
    (a.acquire batch).2.Keeps := by
  rcases Nat.lt_or_eq_of_le keeps.length_le with room | full
  · obtain ⟨handle, after, stored, granted⟩ := keeps.acquire_of_room small room batch
    rw [granted]
    refine ⟨?_, fun grant mem => ?_⟩
    · have held := keeps.holds.acquire stored
      rw [live_append_singleton, List.map_append]
      exact held.perm (List.perm_append_singleton _ _).symm
    · rw [live_append_singleton] at mem
      rcases List.mem_append.mp mem with old | new
      · rw [keeps.holds.get?_acquire stored (List.mem_map_of_mem old)]
        exact keeps.reads grant old
      · rw [List.mem_singleton.mp new]
        exact Pool.get?_of_acquire stored
  · rw [keeps.acquire_of_full small full batch]
    exact keeps

theorem release (keeps : a.Keeps) (given : a.grant? number = some grant) :
    (Arena.mk (a.pool.release grant.handle) (a.grants.set number none)).Keeps := by
  have perm := perm_live_of_grant (grant?_eq_some_iff.mp given)
  have held := keeps.holds.perm (perm.map Grant.handle)
  refine ⟨held.release, fun other mem => ?_⟩
  rw [held.get?_release (List.mem_map_of_mem mem)]
  exact keeps.reads other (perm.mem_iff.mpr (List.mem_cons_of_mem _ mem))

theorem serve (keeps : a.Keeps) (small : capacity ≤ Pool.maxCapacity) (call : Call) :
    (a.serve call).2.Keeps := by
  cases call with
  | acquire batch => exact keeps.acquire small batch
  | acquireStop => exact keeps.acquire small .stop
  | get number =>
    unfold Arena.serve
    dsimp only
    split <;> exact keeps
  | release number =>
    unfold Arena.serve
    dsimp only
    split
    · next given => exact keeps.release given
    · exact keeps

theorem run (keeps : a.Keeps) (small : capacity ≤ Pool.maxCapacity) (calls : List Call) :
    (a.run calls).Keeps := by
  induction calls generalizing a with
  | nil => exact keeps
  | cons call calls ih => exact ih (keeps.serve small call)

end Keeps

/-! ## What users see -/

/-- The batch that a call stores. -/
def Call.batch? : Call → Option Batch
  | acquire batch => some batch
  | acquireStop => some .stop
  | get _ | release _ => none

/-- A slot that no handle in use names, while all below it are named. -/
structure IsLowestFree (a : Arena capacity) (index : Nat) : Prop where
  inside : index < capacity
  free : ∀ grant ∈ a.live, grant.handle.index ≠ index
  below : ∀ lower < index, ∃ grant ∈ a.live, grant.handle.index = lower

/-- An arena, and what it answers to the next call. -/
structure IsOrderly (a : Arena capacity) : Prop where
  distinct : (a.live.map fun grant => grant.handle.index).Nodup
  inside : ∀ grant ∈ a.live, grant.handle.index < capacity
  inUse : a.pool.inUse = a.live.length
  get : ∀ number grant, a.grant? number = some grant →
    a.serve (.get number) = (.found (some grant.batch), a)
  room : a.live.length ≠ capacity → ∀ call batch, call.batch? = some batch →
    ∃ handle pool, IsLowestFree a handle.index ∧
      a.serve call = (.granted handle, ⟨pool, a.grants ++ [some ⟨handle, batch⟩]⟩)
  full : a.live.length = capacity → ∀ call batch, call.batch? = some batch →
    a.serve call = (.refused .poolExhausted, a)

theorem serve_of_batch {call : Call} (stores : call.batch? = some batch) :
    a.serve call = a.acquire batch := by
  cases call <;> cases stores <;> rfl

theorem serve_get (given : a.grant? number = some grant) :
    a.serve (.get number) = (.found (a.pool.get? grant.handle), a) := by
  unfold serve
  simp only [given]

theorem mem_live_of_grant (given : a.grant? number = some grant) : grant ∈ a.live :=
  (perm_live_of_grant (grant?_eq_some_iff.mp given)).mem_iff.mpr (List.mem_cons_self ..)

theorem Keeps.isLowestFree {after : Pool capacity} (keeps : a.Keeps)
    (stored : a.pool.acquire batch = .ok (handle, after)) : IsLowestFree a handle.index := by
  refine ⟨(Pool.of_acquire stored).1, fun grant mem same => ?_, fun lower less => ?_⟩
  · have held : grant.handle ∈ a.live.map Grant.handle := List.mem_map_of_mem mem
    rw [show grant.handle = handle from congrArg Handle.mk same] at held
    exact keeps.holds.not_mem_of_acquire stored held
  · have held := (keeps.holds.mem_iff ⟨lower⟩).mpr (Pool.isUsed_of_lt_of_acquire stored less)
    obtain ⟨grant, mem, named⟩ := List.mem_map.mp held
    exact ⟨grant, mem, congrArg Handle.index named⟩

theorem Keeps.isOrderly (keeps : a.Keeps) (small : capacity ≤ Pool.maxCapacity) :
    a.IsOrderly := by
  refine ⟨?_, fun grant mem => ?_, keeps.inUse_eq, fun number grant given => ?_,
    fun room call batch stores => ?_, fun full call batch stores => ?_⟩
  · have distinct := keeps.holds.distinct.map fun first second same => congrArg Handle.mk same
    rwa [List.map_map] at distinct
  · exact Pool.index_lt_of_isUsed ((keeps.holds.mem_iff _).mp (List.mem_map_of_mem mem))
  · rw [serve_get given, keeps.reads grant (mem_live_of_grant given)]
  · obtain ⟨handle, after, stored, granted⟩ :=
      keeps.acquire_of_room small (Nat.lt_of_le_of_ne keeps.length_le room) batch
    exact ⟨handle, after, keeps.isLowestFree stored, by rw [serve_of_batch stores, granted]⟩
  · rw [serve_of_batch stores, keeps.acquire_of_full small full batch]

/-! ## Batches last -/

/-- Only giving a handle back ends its grant. -/
theorem grant?_serve {call : Call} (given : a.grant? number = some grant)
    (other : call ≠ .release number) : (a.serve call).2.grant? number = some grant := by
  rw [grant?_eq_some_iff] at given ⊢
  have kept : ∀ batch, (a.acquire batch).2.grants[number]? = some (some grant) := by
    intro batch
    unfold acquire
    split
    · exact List.getElem?_append_left (List.getElem?_eq_some_iff.mp given).1 ▸ given
    · exact given
  cases call with
  | acquire batch => exact kept batch
  | acquireStop => exact kept .stop
  | get another =>
    unfold serve
    dsimp only
    split <;> exact given
  | release another =>
    have distinct : another ≠ number := fun same => other (congrArg Call.release same)
    unfold serve
    dsimp only
    split
    · exact (List.getElem?_set_ne distinct).trans given
    · exact given

theorem grant?_run {calls : List Call} (given : a.grant? number = some grant)
    (others : .release number ∉ calls) : (a.run calls).grant? number = some grant := by
  induction calls generalizing a with
  | nil => exact given
  | cons call calls ih =>
    rw [List.mem_cons, not_or] at others
    exact ih (grant?_serve given fun same => others.1 same.symm) others.2

/-- What is read through a handle is the batch that it was given for, for as long as it is not
given back and whatever else happens. -/
structure Lasts (a : Arena capacity) : Prop where
  read : ∀ call batch handle later, call.batch? = some batch →
    (a.serve call).1 = .granted handle → .release a.grants.length ∉ later →
    (((a.serve call).2.run later).serve (.get a.grants.length)).1 = .found (some batch)

theorem Keeps.lasts (keeps : a.Keeps) (small : capacity ≤ Pool.maxCapacity) : a.Lasts := by
  refine ⟨fun call batch handle later stores granted others => ?_⟩
  rcases Nat.lt_or_eq_of_le keeps.length_le with room | full
  · obtain ⟨given, after, -, served⟩ := keeps.acquire_of_room small room batch
    rw [serve_of_batch stores, served]
    have fresh : (Arena.mk after (a.grants ++ [some ⟨given, batch⟩])).grant? a.grants.length =
        some ⟨given, batch⟩ := grant?_eq_some_iff.mpr List.getElem?_concat_length
    have kept : (a.serve call).2.Keeps := keeps.serve small call
    rw [serve_of_batch stores, served] at kept
    rw [((kept.run small later).isOrderly small).get _ _ (grant?_run fresh others)]
  · rw [serve_of_batch stores, keeps.acquire_of_full small full batch] at granted
    cases granted

/-- Any use of a pool keeps the batches of the handles in use apart, and stores as long as a slot
is free. -/
theorem keepsBatches {pool : Pool capacity} (created : Pool.create capacity = .ok pool)
    (calls : List Call) :
    ((Arena.mk pool []).run calls).IsOrderly ∧ ((Arena.mk pool []).run calls).Lasts := by
  unfold Pool.create at created
  split at created
  · next small =>
    rw [← Except.ok.inj created]
    have keeps := (keeps_empty capacity).run small calls
    exact ⟨keeps.isOrderly small, keeps.lasts small⟩
  · cases created

/-- A batch that is stored where another one has been. -/
def passing : Batch := ⟨7, 1, [⟨10, 20⟩], by decide⟩

/-- Three slots fill up, the second one is freed, and the stop batch takes its place. -/
theorem keepsBatches_in_three_slots :
    Pool.create 3 = .ok (Pool.empty 3) ∧
      let calls : List Call :=
        [.acquire passing, .acquire passing, .acquire passing, .acquire passing, .release 1,
          .acquireStop]
      let a := (Arena.mk (Pool.empty 3) []).run calls
      a.live.map (fun grant => grant.handle.index) = [0, 2, 1] ∧ a.IsOrderly ∧ a.Lasts :=
  ⟨rfl, by decide, keepsBatches rfl _⟩

end Arena

end Animatronic
