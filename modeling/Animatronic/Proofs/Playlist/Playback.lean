import Animatronic.Proofs.Playlist.Cue

/-!
# The playback law

A batch that becomes current is played from its first setpoint on, pass after pass, until its loops
are over or another batch takes its place.  After its last tick nothing is rendered and its slot is
free again.

A `Course` lists the samples of the ticks and the calls made between them.  `Scheduler.Meets` is
what tick `k` of a course finds; `Meets.tick` says what comes of that tick, and `Meets.next` what
the next one finds.
-/

namespace Animatronic

/-- The samples of the ticks to come, and the operations that follow each of them. -/
structure Course where
  samples : Nat → Binary32
  calls : Nat → List Operation

namespace Scheduler

/-- The scheduler on whose state tick `k` of a course falls. -/
def before (s : Scheduler) (course : Course) : Nat → Scheduler
  | 0 => s
  | k + 1 => ((s.before course k).tick (course.samples k)).2.run (course.calls k)

/-- The slot of a handle is in use in one state, and free in the other. -/
def Frees (s after : Scheduler) (handle : Handle) : Prop :=
  s.pool.isUsed handle = true ∧ after.pool.isUsed handle = false

/-- What tick `k` finds, counted from the tick on which the batch of the handle became current. -/
structure Meets (s : Scheduler) (sample : Binary32) (batch : Batch) (handle : Handle)
    (k : Nat) : Prop where
  reachable : s.Reachable
  running : s.running = true
  stands : (s.playlist.sense sample).prepare.Stands batch k
  held : k = 0 ∨ batch.PlaysAt (k - 1) →
    s.pool.isUsed handle = true ∧ (s.sense sample).loadNext.activate.current = some handle
  gone : k ≠ 0 → ¬batch.PlaysAt (k - 1) →
    (s.sense sample).loadNext.activate.current = none ∧
      (s.sense sample).loadNext.activate.pool = s.pool

variable {s : Scheduler} {sample : Binary32} {batch : Batch} {handle : Handle} {k : Nat}

theorem Reachable.isUsed_of_mem (reachable : s.Reachable) (mem : handle ∈ s.handles) :
    s.pool.isUsed handle = true :=
  (reachable.tracks.held.mem_iff handle).mp mem

theorem Reachable.isUsed_of_current (reachable : s.Reachable) (current : s.current = some handle) :
    s.pool.isUsed handle = true :=
  reachable.isUsed_of_mem (by simp [handles, current])

theorem tick_of_running (running : s.running = true) (sample : Binary32) :
    s.tick sample = (s.sense sample).prepare.finish := by
  obtain ⟨position, sensed⟩ := s.exists_sense_eq sample
  have still : (s.sense sample).running = true := by rw [sensed]; exact running
  exact if_pos still

/-- The batch is current after each tick that plays it, and nothing is current after any other.
Its slot is freed by the first tick that does not play it. -/
theorem Meets.tick (meets : s.Meets sample batch handle k) :
    (batch.PlaysAt k →
        (s.tick sample).2.rendered = batch.expansion[k % batch.span]? ∧
          (s.tick sample).2.rendered.isSome = true ∧ (s.tick sample).2.current = some handle) ∧
      (¬batch.PlaysAt k →
        (s.tick sample).2.rendered = none ∧ (s.tick sample).1 = 0 ∧
          (s.tick sample).2.active = false ∧ (s.tick sample).2.current = none) ∧
      (s.Frees (s.tick sample).2 handle ↔ batch.EndsAt k) := by
  have sensed := meets.reachable.tracks.sense sample
  have ticked := meets.reachable.tick sample
  rw [tick_of_running meets.running] at ticked ⊢
  rcases sensed.prepare.finish with ⟨drive, tracks⟩
  rcases meets.stands.finish (s.playlist.rendered_prepare_sense sample) with ⟨-, played, rested⟩
  rw [← tracks.playlist_eq] at played rested
  have cases := (s.sense sample).loadNext.activate.finish_releaseEmpty_cases
  have plays : batch.PlaysAt k → (s.sense sample).prepare.finish.2.current = some handle := by
    intro plays
    have running : (s.sense sample).prepare.finish.2.current.isSome = true := by
      rw [← tracks.current_isSome, (played plays).2.2]
      rfl
    rcases cases with ⟨kept, -⟩ | ⟨freed, -⟩
    · exact kept.trans (meets.held (Or.inr (plays.of_le (Nat.sub_le k 1)))).2
    · rw [prepare, freed] at running
      cases running
  have rests : ¬batch.PlaysAt k → (s.sense sample).prepare.finish.2.current = none := by
    intro past
    rw [← Option.isSome_eq_false_iff.trans Option.isNone_iff_eq_none, ← tracks.current_isSome,
      (rested past).2.2.2]
    rfl
  refine ⟨fun now => ?_, fun past => ?_, ?_⟩
  · exact ⟨(played now).1, (played now).2.1, plays now⟩
  · exact ⟨(rested past).1, drive.trans (rested past).2.1, (rested past).2.2.1, rests past⟩
  · rw [Batch.endsAt_iff]
    constructor
    · rintro ⟨used, free⟩
      have past : ¬batch.PlaysAt k := by
        intro now
        rw [ticked.isUsed_of_current (plays now)] at free
        cases free
      refine ⟨past, ?_⟩
      -- Were the batch gone before, the tick would leave the pool as it is.
      by_contra before
      rw [not_or] at before
      rcases meets.gone before.1 before.2 with ⟨idle, pool⟩
      have same : (s.sense sample).prepare.finish.2.pool = s.pool := by
        rcases cases with ⟨-, kept⟩ | ⟨-, released⟩
        · exact kept.trans pool
        · rw [releaseCurrent_of_none idle] at released
          exact released.trans pool
      rw [same, used] at free
      cases free
    · rintro ⟨past, before⟩
      rcases meets.held before with ⟨used, current⟩
      refine ⟨used, ?_⟩
      rcases cases with ⟨kept, -⟩ | ⟨-, released⟩
      · have freed := rests past
        rw [prepare, kept, current] at freed
        cases freed
      · rw [prepare, released, releaseCurrent, current]
        exact Pool.isUsed_release_self _ handle

/-- The tick on which a batch becomes current is tick zero. -/
theorem meets_zero (reachable : s.Reachable) (activates : s.activating = some batch)
    (next : s.loadNext.next = some handle) : s.Meets sample batch handle 0 := by
  have tracks := reachable.tracks
  have sensed := tracks.sense sample
  have turn : (s.playlist.sense sample).activating = some batch := by
    rw [Playlist.activating_sense, ← tracks.activating_eq, activates]
  have due : (s.sense sample).loadNext.isDue = true := by
    rw [sensed.loadNext.isDue_eq]
    unfold Playlist.activating at turn
    split at turn
    · next both => exact (Bool.and_eq_true_iff.mp both).2
    · cases turn
  have running : s.running = true := by
    unfold activating at activates
    split at activates
    · next both => exact (Bool.and_eq_true_iff.mp both).1
    · cases activates
  refine ⟨reachable, running, Playlist.stands_prepare_zero turn, fun _ => ⟨?_, ?_⟩,
    fun later => absurd rfl later⟩
  · rw [← pool_loadNext, ← tracks.loadNext.held.mem_iff handle]
    simp [handles, next]
  · rw [activate, if_pos due, current_switch, next_loadNext_sense, next]

/-- If no other batch becomes current, the next tick finds the batch a tick further on, whatever
calls are made in between. -/
theorem Meets.next (meets : s.Meets sample batch handle k) {calls : List Operation}
    (only : ∀ operation ∈ calls, operation.isCall = true)
    (alone : ((s.tick sample).2.run calls).activating = none) (later : Binary32) :
    ((s.tick sample).2.run calls).Meets later batch handle (k + 1) := by
  have reachable := (meets.reachable.tick sample).run calls
  have ticked := (meets.reachable.tracks.tick sample).2
  have tracks := ticked.run calls
  have stands : (s.playlist.tick sample).2.Stands batch (k + 1) := by
    have running : (s.playlist.sense sample).running = true := by
      obtain ⟨_, sensed⟩ := s.playlist.exists_sense_eq sample
      rw [sensed]
      exact meets.running
    rw [Playlist.tick, if_pos running]
    exact (meets.stands.finish (s.playlist.rendered_prepare_sense sample)).1
  have running : (s.playlist.tick sample).2.running = true :=
    (s.playlist.running_tick sample).trans meets.running
  rcases stands.run running only with ⟨called, still⟩
  have quiet : (((s.playlist.tick sample).2.run calls).sense later).activating = none := by
    rw [Playlist.activating_sense, ← tracks.activating_eq, alone]
  have going : (((s.playlist.tick sample).2.run calls).sense later).running = true := by
    obtain ⟨_, sensed⟩ := ((s.playlist.tick sample).2.run calls).exists_sense_eq later
    rw [sensed]
    exact still
  have waits : (((s.tick sample).2.run calls).sense later).loadNext.isDue = false := by
    rw [(tracks.sense later).loadNext.isDue_eq]
    exact Playlist.waits_of_activating going quiet
  obtain ⟨_, _, _, waited⟩ := exists_activate_loadNext_eq waits
  obtain ⟨_, sensed⟩ := ((s.tick sample).2.run calls).exists_sense_eq later
  have current : (((s.tick sample).2.run calls).sense later).loadNext.activate.current =
      (s.tick sample).2.current := by
    rw [waited, sensed]
    exact current_run_of_isCall only
  have pool : (((s.tick sample).2.run calls).sense later).loadNext.activate.pool =
      ((s.tick sample).2.run calls).pool := by
    rw [waited, sensed]
  rcases meets.tick with ⟨played, rested, -⟩
  refine ⟨reachable, tracks.running_eq.trans still, ?_, ?_, ?_⟩
  · rw [tracks.playlist_eq]
    exact (called.sense later).prepare going quiet
  · rintro (zero | plays)
    · cases zero
    · have kept := (played plays).2.2
      refine ⟨reachable.isUsed_of_current ?_, current.trans kept⟩
      exact (current_run_of_isCall only).trans kept
  · intro _ past
    exact ⟨current.trans (rested past).2.2.2, pool⟩

/-- A batch that becomes current on a tick of a running scheduler is played as its expansion says,
pass after pass, for as long as no other batch becomes current.  When its passes are over nothing
is rendered, the drive is zero and the scheduler is not active.  The slot of the batch is in use as
long as it plays, and is freed on the tick after its last one, or on the first if there is none. -/
theorem playback (course : Course) (k : Nat) (reachable : s.Reachable)
    (activates : s.activating = some batch)
    (calls : ∀ j < k, ∀ operation ∈ course.calls j, operation.isCall = true)
    (alone : ∀ j < k, (s.before course (j + 1)).activating = none) :
    ∃ handle, s.loadNext.next = some handle ∧
      let before := s.before course k
      let after := before.tick (course.samples k)
      (batch.PlaysAt k →
          after.2.rendered = batch.expansion[k % batch.span]? ∧ after.2.rendered.isSome = true ∧
            before.pool.isUsed handle = true ∧ after.2.current = some handle ∧
            after.2.pool.isUsed handle = true) ∧
        (¬batch.PlaysAt k →
          after.2.rendered = none ∧ after.1 = 0 ∧ after.2.active = false ∧
            after.2.current = none) ∧
        (before.Frees after.2 handle ↔ batch.EndsAt k) := by
  obtain ⟨handle, next⟩ : ∃ handle, s.loadNext.next = some handle := by
    unfold activating at activates
    split at activates
    · rcases Option.bind_eq_some_iff.mp activates with ⟨handle, next, -⟩
      exact ⟨handle, next⟩
    · cases activates
  have meets : (s.before course k).Meets (course.samples k) batch handle k := by
    induction k with
    | zero => exact meets_zero reachable activates next
    | succ k ih =>
      have earlier := ih (fun j lt => calls j (Nat.lt_succ_of_lt lt))
        (fun j lt => alone j (Nat.lt_succ_of_lt lt))
      exact earlier.next (calls k (Nat.lt_succ_self k)) (alone k (Nat.lt_succ_self k)) _
  rcases meets.tick with ⟨played, rested, frees⟩
  refine ⟨handle, next, fun plays => ?_, rested, frees⟩
  rcases played plays with ⟨rendered, shown, current⟩
  have ticked := meets.reachable.tick (course.samples k)
  have used := (meets.held (Or.inr (plays.of_le (Nat.sub_le k 1)))).1
  exact ⟨rendered, shown, used, current, ticked.isUsed_of_current current⟩

/-- One tick at `5` and two at `7`, played twice, while another batch waits behind. -/
theorem playback_second_pass :
    ∃ s : Scheduler, ∃ course : Course, ∃ batch : Batch,
      s.activating = some batch ∧ batch.loops = 2 ∧ batch.setpoints = [⟨0, 5⟩, ⟨2, 7⟩] ∧
        ((s.before course 4).tick (course.samples 4)).2.rendered = some 7 := by
  let batch : Batch := ⟨0, 2, [⟨0, 5⟩, ⟨2, 7⟩], by decide⟩
  let late : Batch := ⟨9, 1, [⟨1, 1⟩], by decide⟩
  let s := (initial .vibration).run [.start .vibration, .enqueue batch]
  let course : Course := ⟨fun _ => ⟨0x7fc00000⟩, fun j => if j = 1 then [.enqueue late] else []⟩
  have activates : s.activating = some batch := by decide
  obtain ⟨_, -, plays, -, -⟩ :=
    playback course 4 ⟨_, _, rfl⟩ activates (by decide) (by decide)
  rcases plays (Or.inr (by decide)) with ⟨rendered, -⟩
  exact ⟨s, course, batch, activates, rfl, rfl, rendered.trans (by decide)⟩

end Scheduler

end Animatronic
