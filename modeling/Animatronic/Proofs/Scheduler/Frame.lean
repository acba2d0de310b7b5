import Animatronic.Scheduler.Operation

/-!
# What the operations leave alone

Most steps of a scheduler touch few of its fields.  The statements here give the result of a step
as the old scheduler with those fields replaced, so that everything else is seen to be unchanged.
-/

namespace Animatronic

/-- An operation that is neither a tick nor `stop`. -/
def Operation.isCall : Operation → Bool
  | .stop | .tick _ => false
  | .start _ | .enqueue _ | .enqueueAll _ | .halt | .setCoefficients _ | .filter _ => true

namespace Scheduler

/-- A scheduler that some history leads to. -/
def Reachable (s : Scheduler) : Prop :=
  ∃ renderer history, (initial renderer).run history = s

variable {s : Scheduler}

theorem Reachable.run (reachable : s.Reachable) (history : List Operation) :
    (s.run history).Reachable := by
  obtain ⟨renderer, before, rfl⟩ := reachable
  exact ⟨renderer, before ++ history, List.foldl_append⟩

theorem Reachable.tick (reachable : s.Reachable) (sample : Binary32) :
    (s.tick sample).2.Reachable :=
  reachable.run [.tick sample]

/-! ## Playing -/

theorem exists_loadSetpoint_eq (s : Scheduler) :
    ∃ duration target, s.loadSetpoint = { s with duration := duration, target := target } := by
  unfold loadSetpoint
  split
  · exact ⟨_, _, rfl⟩
  · exact ⟨s.duration, s.target, rfl⟩

theorem advance_of_holding (holding : 0 < s.duration - 1) :
    s.advance = { s with duration := s.duration - 1 } :=
  if_pos holding

theorem advance_of_more (past : ¬0 < s.duration - 1) (more : s.index + 1 < s.currentLength) :
    s.advance = { s with duration := s.duration - 1, index := s.index + 1 }.loadSetpoint :=
  (if_neg past).trans (if_pos more)

theorem advance_of_last (past : ¬0 < s.duration - 1) (last : ¬s.index + 1 < s.currentLength) :
    s.advance =
      { s with
        duration := s.duration - 1
        index := 0
        loopsLeft := if s.currentIsInfinite then s.loopsLeft else s.loopsLeft - 1 }.loadSetpoint :=
  (if_neg past).trans (if_neg last)

theorem exists_advance_eq (s : Scheduler) :
    ∃ loopsLeft index duration target,
      s.advance =
        { s with
          loopsLeft := loopsLeft
          index := index
          duration := duration
          target := target } := by
  by_cases holding : 0 < s.duration - 1
  · exact ⟨_, _, _, _, advance_of_holding holding⟩
  · by_cases more : s.index + 1 < s.currentLength
    · obtain ⟨duration, target, loaded⟩ := exists_loadSetpoint_eq
        { s with duration := s.duration - 1, index := s.index + 1 }
      exact ⟨_, _, _, _, (advance_of_more holding more).trans loaded⟩
    · obtain ⟨duration, target, loaded⟩ := exists_loadSetpoint_eq
        { s with
          duration := s.duration - 1
          index := 0
          loopsLeft := if s.currentIsInfinite then s.loopsLeft else s.loopsLeft - 1 }
      exact ⟨_, _, _, _, (advance_of_last holding more).trans loaded⟩

theorem exists_render_eq (s : Scheduler) :
    ∃ renderer loopsLeft index duration target,
      s.render.2 =
        { s with
          loopsLeft := loopsLeft
          index := index
          duration := duration
          target := target
          active := true
          renderer := renderer
          rendered := some s.target } :=
  ⟨_, exists_advance_eq _⟩

theorem exists_sense_eq (s : Scheduler) (sample : Binary32) :
    ∃ position, s.sense sample = { s with filtered := position, rendered := none } := by
  unfold sense filter
  split
  · exact ⟨_, rfl⟩
  · exact ⟨s.filtered, rfl⟩

theorem pool_loadNext (s : Scheduler) : s.loadNext.pool = s.pool := by
  unfold loadNext
  split <;> rfl

theorem current_loadNext (s : Scheduler) : s.loadNext.current = s.current := by
  unfold loadNext
  split <;> rfl

theorem next_loadNext_sense (s : Scheduler) (sample : Binary32) :
    (s.sense sample).loadNext.next = s.loadNext.next := by
  obtain ⟨position, sensed⟩ := s.exists_sense_eq sample
  rw [sensed]
  obtain ⟨pool, queue, current, next⟩ := s
  cases next <;> cases queue <;> rfl

/-- A batch that becomes current is moved there, and its first setpoint taken up. -/
theorem exists_switch_eq (s : Scheduler) :
    ∃ loopsLeft index duration target renderer,
      s.switch =
        { s.promote with
          loopsLeft := loopsLeft
          index := index
          duration := duration
          target := target
          renderer := renderer } := by
  obtain ⟨duration, target, loaded⟩ := exists_loadSetpoint_eq
    { s.promote with
      loopsLeft := s.promote.currentLoops
      index := 0
      renderer := s.promote.renderer.batchActivated }
  exact ⟨_, _, duration, target, _, loaded⟩

theorem current_switch (s : Scheduler) : s.switch.current = s.next := by
  obtain ⟨_, _, _, _, _, switched⟩ := s.exists_switch_eq
  rw [switched]
  rfl

/-- As long as no batch becomes current, a tick only moves handles up and counts the delay down. -/
theorem exists_activate_loadNext_eq (waits : s.loadNext.isDue = false) :
    ∃ queue next delay,
      s.loadNext.activate = { s with queue := queue, next := next, delay := delay } := by
  have loaded : ∃ queue next delay,
      s.loadNext = { s with queue := queue, next := next, delay := delay } := by
    unfold loadNext
    split
    · exact ⟨_, _, _, rfl⟩
    · exact ⟨s.queue, s.next, s.delay, rfl⟩
  obtain ⟨queue, next, delay, loaded⟩ := loaded
  rw [activate, if_neg (Bool.eq_false_iff.mp waits), loaded]
  split
  · exact ⟨_, _, _, rfl⟩
  · exact ⟨_, _, _, rfl⟩

/-! ## Giving the current batch up -/

theorem current_releaseCurrent (s : Scheduler) : s.releaseCurrent.current = none := by
  unfold releaseCurrent
  split
  · rfl
  · assumption

theorem pending_releaseCurrent (s : Scheduler) :
    s.releaseCurrent.next = s.next ∧ s.releaseCurrent.queue = s.queue := by
  unfold releaseCurrent
  split <;> exact ⟨rfl, rfl⟩

theorem releaseCurrent_of_none (idle : s.current = none) : s.releaseCurrent = s := by
  rw [releaseCurrent, idle]

/-- Once it is clear what is current, a tick keeps it or gives it up. -/
theorem finish_releaseEmpty_cases (s : Scheduler) :
    (s.releaseEmpty.finish.2.current = s.current ∧ s.releaseEmpty.finish.2.pool = s.pool) ∨
      (s.releaseEmpty.finish.2.current = none ∧
        s.releaseEmpty.finish.2.pool = s.releaseCurrent.pool) := by
  have rests : ∀ idle : Scheduler, idle.current = none →
      idle.finish.2.current = none ∧ idle.finish.2.pool = idle.pool := by
    intro idle free
    have still : idle.hasUpdate = false := by rw [hasUpdate, free]; rfl
    rw [finish, still, if_neg Bool.false_ne_true, rest, releaseCurrent_of_none free]
    exact ⟨free, rfl⟩
  unfold releaseEmpty
  split
  · obtain ⟨current, pool⟩ := rests s.releaseCurrent s.current_releaseCurrent
    exact Or.inr ⟨current, pool⟩
  · unfold finish
    split
    · obtain ⟨_, _, _, _, _, rendered⟩ := s.exists_render_eq
      rw [rendered]
      exact Or.inl ⟨rfl, rfl⟩
    · exact Or.inr ⟨s.current_releaseCurrent, rfl⟩

/-! ## Calls between ticks -/

theorem exists_enqueue_eq (s : Scheduler) (batch : Batch) :
    ∃ pool queue, (s.enqueue batch).2 = { s with pool := pool, queue := queue } := by
  unfold enqueue
  split
  · split
    · exact ⟨_, _, rfl⟩
    · exact ⟨s.pool, s.queue, rfl⟩
  · exact ⟨s.pool, s.queue, rfl⟩

theorem exists_repeat_unqueue_eq (s : Scheduler) (count : Nat) :
    ∃ pool queue, Nat.repeat unqueue count s = { s with pool := pool, queue := queue } := by
  induction count with
  | zero => exact ⟨s.pool, s.queue, rfl⟩
  | succ count ih =>
    obtain ⟨pool, queue, repeated⟩ := ih
    rw [Nat.repeat, repeated, unqueue]
    split
    · exact ⟨_, _, rfl⟩
    · exact ⟨pool, queue, rfl⟩

theorem exists_enqueueEach_eq (s : Scheduler) (done : Nat) (batches : List Batch) :
    ∃ pool queue, (s.enqueueEach done batches).2 = { s with pool := pool, queue := queue } := by
  induction batches generalizing s done with
  | nil => exact ⟨s.pool, s.queue, rfl⟩
  | cons batch rest ih =>
    obtain ⟨pool, queue, kept⟩ := s.exists_enqueue_eq batch
    unfold enqueueEach
    split
    · next after accepted =>
      obtain rfl : after = { s with pool := pool, queue := queue } := by rw [← kept, accepted]
      exact ih _ (done + 1)
    · next fault after refused =>
      obtain rfl : after = { s with pool := pool, queue := queue } := by rw [← kept, refused]
      exact exists_repeat_unqueue_eq _ done

theorem exists_enqueueAll_eq (s : Scheduler) (batches : List Batch) :
    ∃ pool queue, (s.enqueueAll batches).2 = { s with pool := pool, queue := queue } := by
  unfold enqueueAll
  split
  · exact ⟨s.pool, s.queue, rfl⟩
  · split
    · exact ⟨s.pool, s.queue, rfl⟩
    · exact s.exists_enqueueEach_eq 0 batches

/-- Calls between ticks leave the current batch where it is, and only `halt` changes what is
next. -/
theorem places_apply_of_isCall {operation : Operation} (call : operation.isCall = true) :
    (s.apply operation).2.current = s.current ∧
      (operation ≠ .halt → (s.apply operation).2.next = s.next) := by
  have only : ∀ {after : Scheduler},
      (∃ pool queue, after = { s with pool := pool, queue := queue }) →
        after.current = s.current ∧ (operation ≠ .halt → after.next = s.next) := by
    rintro _ ⟨pool, queue, rfl⟩
    exact ⟨rfl, fun _ => rfl⟩
  cases operation with
  | stop => cases call
  | tick sample => cases call
  | start renderer => exact ⟨rfl, fun _ => rfl⟩
  | enqueue batch => exact only (s.exists_enqueue_eq batch)
  | enqueueAll batches => exact only (s.exists_enqueueAll_eq batches)
  | halt =>
    refine ⟨?_, fun halts => absurd rfl halts⟩
    simp only [apply, halt]
    split <;> rfl
  | setCoefficients coefficients =>
    simp only [apply, setCoefficients]
    split <;> exact ⟨rfl, fun _ => rfl⟩
  | filter sample =>
    simp only [apply, filter]
    split <;> exact ⟨rfl, fun _ => rfl⟩

theorem current_apply_of_isCall {operation : Operation} (call : operation.isCall = true) :
    (s.apply operation).2.current = s.current :=
  (places_apply_of_isCall call).1

theorem current_run_of_isCall {calls : List Operation}
    (only : ∀ operation ∈ calls, operation.isCall = true) : (s.run calls).current = s.current := by
  induction calls generalizing s with
  | nil => rfl
  | cons operation rest ih =>
    have later := ih (s := (s.apply operation).2)
      fun other mem => only other (List.mem_cons_of_mem _ mem)
    exact later.trans (current_apply_of_isCall (only operation (List.mem_cons_self ..)))

end Scheduler

end Animatronic
