import Animatronic.Proofs.Playlist.Simulation

/-!
# Accepted batches and their turns

The batches that a history admits to a scheduler are compared with those that become current.  A
batch is admitted by the request that accepts it, and `halt` admits the empty batch.  A batch has
its turn on the tick on which it becomes current (`Scheduler.activating`).

`trace_eq_playlist` says that the pool cannot be seen: whatever happens to a fresh scheduler, its
answers and glances are those of the playlist, and what its handles stand for is what the playlist
holds.  The turns, followed by what still waits, are the admitted batches in their order; only
`stop` and `halt` leave any of them out.
-/

namespace Animatronic

/-- The batches that an operation with a given answer adds to those that wait. -/
def Operation.admits : Operation → Answer → List Batch
  | .enqueue batch, .accepted => [batch]
  | .enqueueAll batches, .accepted => batches
  | .halt, .accepted => [.stop]
  | _, _ => []

namespace Playlist

/-- The batch that becomes current on the next tick. -/
def activating (p : Playlist) : Option Batch :=
  if p.running && p.loadNext.isDue then p.loadNext.next else none

/-- The batch that becomes current with an operation. -/
def turn (p : Playlist) : Operation → List Batch
  | .tick _ => p.activating.toList
  | _ => []

def admitted (p : Playlist) : List Operation → List Batch
  | [] => []
  | operation :: rest =>
    let (answer, p) := p.apply operation
    operation.admits answer ++ p.admitted rest

def turns (p : Playlist) : List Operation → List Batch
  | [] => []
  | operation :: rest => p.turn operation ++ (p.apply operation).2.turns rest

/-! ## What waits -/

variable {p : Playlist}

theorem pending_loadNext (p : Playlist) : p.loadNext.pending = p.pending := by
  unfold loadNext
  split
  · next unset queue => rw [pending, pending, unset, queue]; rfl
  · rfl

/-- The next batch leaves the waiting ones when it is due. -/
theorem pending_activate (p : Playlist) :
    (if p.isDue then p.next else none).toList ++ p.activate.pending = p.pending := by
  unfold activate
  split
  · obtain ⟨_, _, loaded⟩ := exists_loadSetpoint_eq
      { p with
        current := p.next
        next := none
        loopsLeft := p.next.elim 0 (·.loops.toNat)
        index := 0
        renderer := p.renderer.batchActivated }
    rw [switch, loaded]
    rfl
  · split <;> rfl

theorem pending_releaseEmpty (p : Playlist) : p.releaseEmpty.pending = p.pending := by
  unfold releaseEmpty
  split <;> rfl

theorem pending_finish (p : Playlist) : p.finish.2.pending = p.pending := by
  unfold finish
  split
  · obtain ⟨_, _, _, _, _, rendered⟩ := p.exists_render_eq
    rw [rendered]
    rfl
  · rfl

theorem activating_sense (p : Playlist) (sample : Binary32) :
    (p.sense sample).activating = p.activating := by
  obtain ⟨position, sensed⟩ := p.exists_sense_eq sample
  rw [sensed]
  rcases p with ⟨queue, current, next⟩
  cases next <;> cases queue <;> rfl

/-- A tick gives at most one of the waiting batches its turn, and that is the first. -/
theorem pending_tick (p : Playlist) (sample : Binary32) :
    p.activating.toList ++ (p.tick sample).2.pending = p.pending := by
  have kept : (p.sense sample).pending = p.pending := by
    obtain ⟨position, sensed⟩ := p.exists_sense_eq sample
    rw [sensed]
    rfl
  rw [← activating_sense p sample, ← kept, tick]
  generalize p.sense sample = p'
  by_cases running : p'.running = true
  · have activated := p'.loadNext.pending_activate
    rw [pending_loadNext] at activated
    rw [if_pos running, pending_finish, prepare, pending_releaseEmpty, activating, running,
      Bool.true_and]
    exact activated
  · rw [if_neg running, activating, Bool.eq_false_iff.mpr running]
    rfl

/-- An operation gives a turn to the first of those that wait or are admitted, and the others keep
waiting; only `stop` and `halt` leave some out. -/
theorem turn_append_pending (p : Playlist) (operation : Operation) :
    (p.turn operation ++ (p.apply operation).2.pending).Sublist
        (p.pending ++ operation.admits (p.apply operation).1) ∧
      (operation ≠ .stop → operation ≠ .halt →
        p.turn operation ++ (p.apply operation).2.pending =
          p.pending ++ operation.admits (p.apply operation).1) := by
  have settled : ∀ {left right : List Batch}, left = right →
      left.Sublist right ∧ (operation ≠ .stop → operation ≠ .halt → left = right) :=
    fun same => ⟨same ▸ List.Sublist.refl _, fun _ _ => same⟩
  cases operation with
  | start renderer => exact settled (List.append_nil p.pending).symm
  | stop => exact ⟨List.nil_sublist _, fun other => absurd rfl other⟩
  | enqueue batch =>
    refine settled ?_
    simp only [turn, apply, Operation.admits, enqueue]
    split
    · simp only [Answer.ofResult, pending, List.nil_append, List.append_assoc]
    · simp only [Answer.ofResult, List.nil_append, List.append_nil]
  | enqueueAll batches =>
    refine settled ?_
    simp only [turn, apply, Operation.admits, enqueueAll]
    split
    · simp only [Answer.ofResult, pending, List.nil_append, List.append_assoc]
    · simp only [Answer.ofResult, List.nil_append, List.append_nil]
  | halt =>
    refine ⟨?_, fun _ other => absurd rfl other⟩
    exact List.sublist_append_right p.pending [Batch.stop]
  | setCoefficients coefficients =>
    refine settled ?_
    simp only [turn, apply, Operation.admits, setCoefficients]
    split <;> simp only [pending, List.nil_append, List.append_nil]
  | filter sample =>
    refine settled ?_
    simp only [turn, apply, Operation.admits, filter]
    split <;> simp only [pending, List.nil_append, List.append_nil]
  | tick sample =>
    exact settled ((p.pending_tick sample).trans (List.append_nil p.pending).symm)

/-- Over a history, the turns and what waits at the end are what waited and what was admitted. -/
theorem turns_append_pending (p : Playlist) (history : List Operation) :
    (p.turns history ++ (p.run history).pending).Sublist (p.pending ++ p.admitted history) ∧
      (.stop ∉ history → .halt ∉ history →
        p.turns history ++ (p.run history).pending = p.pending ++ p.admitted history) := by
  induction history generalizing p with
  | nil =>
    have same : p.turns [] ++ (p.run []).pending = p.pending ++ p.admitted [] :=
      (List.append_nil p.pending).symm
    exact ⟨same ▸ List.Sublist.refl _, fun _ _ => same⟩
  | cons operation rest ih =>
    rcases p.turn_append_pending operation with ⟨below, equal⟩
    rcases ih (p.apply operation).2 with ⟨restBelow, restEqual⟩
    simp only [turns, admitted, List.append_assoc]
    constructor
    · refine (restBelow.append_left _).trans ?_
      rw [← List.append_assoc, ← List.append_assoc]
      exact below.append_right _
    · intro stops halts
      simp only [List.mem_cons, not_or] at stops halts
      have later := restEqual stops.2 halts.2
      have now := equal (Ne.symm stops.1) (Ne.symm halts.1)
      have onward : p.run (operation :: rest) = (p.apply operation).2.run rest := rfl
      rw [onward, later, ← List.append_assoc, now, List.append_assoc]

end Playlist

namespace Scheduler

/-- The batch in the slot of the next handle. -/
def nextBatch (s : Scheduler) : Option Batch := s.next.bind s.pool.get?

/-- The batch that becomes current on the next tick. -/
def activating (s : Scheduler) : Option Batch :=
  if s.running && s.loadNext.isDue then s.loadNext.nextBatch else none

/-- The batches in the slots of the handles that wait, in the order of their turn. -/
def pending (s : Scheduler) : List Batch :=
  (s.next.toList ++ s.queue).filterMap s.pool.get?

/-- The batch that becomes current with an operation. -/
def turn (s : Scheduler) : Operation → List Batch
  | .tick _ => s.activating.toList
  | _ => []

/-- All batches that a history admits, in order. -/
def admitted (s : Scheduler) : List Operation → List Batch
  | [] => []
  | operation :: rest =>
    let (answer, s) := s.apply operation
    operation.admits answer ++ s.admitted rest

/-- All batches that become current in a history, in order. -/
def turns (s : Scheduler) : List Operation → List Batch
  | [] => []
  | operation :: rest => s.turn operation ++ (s.apply operation).2.turns rest

variable {s : Scheduler} {p : Playlist}

theorem Tracks.pending_eq (tracks : s.Tracks p) : s.pending = p.pending := by
  rcases tracks with ⟨accounted, rfl⟩
  cases waiting : s.next with
  | none => simp [pending, Playlist.pending, playlist, waiting]
  | some handle =>
    cases found : s.pool.get? handle <;>
      simp [pending, Playlist.pending, playlist, waiting, found]

theorem Tracks.activating_eq (tracks : s.Tracks p) : s.activating = p.activating := by
  have loaded := tracks.loadNext
  have next : s.loadNext.nextBatch = p.loadNext.next := congrArg Playlist.next loaded.playlist_eq
  rw [activating, Playlist.activating, tracks.running_eq, loaded.isDue_eq, next]

theorem Tracks.admitted_eq (tracks : s.Tracks p) (history : List Operation) :
    s.admitted history = p.admitted history := by
  induction history generalizing s p with
  | nil => rfl
  | cons operation rest ih =>
    rcases tracks.apply operation with ⟨answer, after⟩
    simp only [admitted, Playlist.admitted]
    rw [ih after, answer]

theorem Tracks.turn_eq (tracks : s.Tracks p) (operation : Operation) :
    s.turn operation = p.turn operation := by
  cases operation with
  | tick sample => exact congrArg Option.toList tracks.activating_eq
  | _ => rfl

theorem Tracks.turns_eq (tracks : s.Tracks p) (history : List Operation) :
    s.turns history = p.turns history := by
  induction history generalizing s p with
  | nil => rfl
  | cons operation rest ih =>
    rw [turns, Playlist.turns, ih (tracks.apply operation).2, tracks.turn_eq]

/-- Nothing that a scheduler answers or shows depends on its batches being kept in a pool: over
every history it goes step by step with the playlist.  Batches have their turns as they were
admitted, and in that order; without `stop` and `halt` every one of them has had its turn or still
waits for it. -/
theorem trace_eq_playlist (renderer : Renderer) (history : List Operation) :
    (initial renderer).trace history = (Playlist.initial renderer).trace history ∧
      ((initial renderer).run history).playlist = (Playlist.initial renderer).run history ∧
      ((initial renderer).turns history ++ ((initial renderer).run history).pending).Sublist
        ((initial renderer).admitted history) ∧
      (.stop ∉ history → .halt ∉ history →
        (initial renderer).turns history ++ ((initial renderer).run history).pending =
          (initial renderer).admitted history) := by
  have start := tracks_initial renderer
  have stop := start.run history
  rcases (Playlist.initial renderer).turns_append_pending history with ⟨below, equal⟩
  rw [start.turns_eq, start.admitted_eq, stop.pending_eq]
  exact ⟨start.trace_eq history, stop.playlist_eq, below, equal⟩

end Scheduler

end Animatronic
