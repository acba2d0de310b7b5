import Animatronic.Proofs.Playlist.Activation
import Animatronic.Proofs.Playlist.EmergencyStop
import Animatronic.Proofs.Playlist.Position
import Animatronic.Proofs.Scheduler.Capacity

/-!
# Stopping and starting again

`stop` gives up every batch and every counter, and leaves the filtered position and the renderer.
The renderer is not looked at before `start` replaces it (`Playlist.Paused`), and the position is
the same that the samples alone would have led to (`Playlist.filtered_run`).  So nothing of what
happened before a stop can be told from anything that is reported after the next start:
`StopsClean` compares two runs, one over a whole history and one over its samples.

What is enqueued between the stop and the start waits, and is played from the first tick on.
-/

namespace Animatronic

/-- What can be told from an operation: its answer, what shows after it, and the number of slots in
use then. -/
structure Report where
  answer : Answer
  glance : Glance
  batchesInUse : Nat
deriving DecidableEq

/-- What a history reports, operation by operation. -/
def Scheduler.reports (s : Scheduler) : List Operation → List Report
  | [] => []
  | operation :: rest =>
    let (answer, s) := s.apply operation
    ⟨answer, s.glance, s.batchesInUse⟩ :: s.reports rest

namespace Playlist

variable {p q : Playlist} {renderer : Renderer} {operation : Operation} {history : List Operation}

def batchesInUse (p : Playlist) : Nat :=
  p.queue.length + p.next.toList.length + p.current.toList.length

def reports (p : Playlist) : List Operation → List Report
  | [] => []
  | operation :: rest =>
    let (answer, p) := p.apply operation
    ⟨answer, p.glance, p.batchesInUse⟩ :: p.reports rest

/-! ## Samples alone -/

/-- Samples give a playlist that has not been started a position and nothing else. -/
theorem exists_run_samples_eq (renderer : Renderer) (position : Option Binary32)
    (only : ∀ operation ∈ history, operation.isSample = true) :
    ∃ position', ({ initial renderer with filtered := position } : Playlist).run history =
      { initial renderer with filtered := position' } := by
  induction history generalizing position with
  | nil => exact ⟨position, rfl⟩
  | cons operation rest ih =>
    have applied : ∃ between,
        (({ initial renderer with filtered := position } : Playlist).apply operation).2 =
          { initial renderer with filtered := between } := by
      cases operation with
      | filter sample =>
        simp only [apply, filter]
        split
        · exact ⟨_, rfl⟩
        · exact ⟨position, rfl⟩
      | tick sample =>
        obtain ⟨between, sensed⟩ :=
          exists_sense_eq { initial renderer with filtered := position } sample
        rw [apply, tick_of_stopped rfl, sensed]
        exact ⟨between, rfl⟩
      | _ => exact absurd (only _ (List.mem_cons_self ..)) Bool.false_ne_true
    obtain ⟨between, applied⟩ := applied
    rw [run, List.foldl_cons, applied]
    exact ih between fun other mem => only other (List.mem_cons_of_mem _ mem)

/-! ## The renderer of a stopped playlist -/

/-- Both are the same, or neither runs and they differ in their renderers only. -/
def Paused (p q : Playlist) : Prop :=
  p = q ∨ p.running = false ∧ ∃ renderer, q = { p with renderer := renderer }

/-- After a stop, the samples of the history before are all that is left of it. -/
theorem paused_stop (unmoved : p.filtered = none) (fresh : Renderer) (history : List Operation) :
    Paused (p.run history).stop ((initial fresh).run (history.filter Operation.isSample)) := by
  obtain ⟨position, sampled⟩ : ∃ position,
      (initial fresh).run (history.filter Operation.isSample) =
        { initial fresh with filtered := position } :=
    exists_run_samples_eq fresh none fun operation mem => (List.mem_filter.mp mem).2
  have same : (p.run history).filtered = position :=
    (filtered_run (q := initial fresh) unmoved history).trans (congrArg Playlist.filtered sampled)
  rw [sampled, ← same]
  exact Or.inr ⟨rfl, fresh, rfl⟩

theorem Paused.apply (paused : Paused p q) (operation : Operation) :
    Paused (p.apply operation).2 (q.apply operation).2 := by
  rcases paused with rfl | ⟨stopped, other, rfl⟩
  · exact Or.inl rfl
  · cases operation with
    | start renderer => exact Or.inl rfl
    | stop => exact Or.inr ⟨rfl, other, rfl⟩
    | halt => exact Or.inr ⟨stopped, other, rfl⟩
    | enqueue batch =>
      simp only [Playlist.apply, enqueue]
      split <;> exact Or.inr ⟨stopped, other, rfl⟩
    | enqueueAll batches =>
      simp only [Playlist.apply, enqueueAll]
      split <;> exact Or.inr ⟨stopped, other, rfl⟩
    | setCoefficients coefficients =>
      simp only [Playlist.apply, setCoefficients]
      split <;> split <;> exact Or.inr ⟨stopped, _, rfl⟩
    | filter sample =>
      simp only [Playlist.apply, Playlist.filter]
      split <;> exact Or.inr ⟨stopped, other, rfl⟩
    | tick sample =>
      simp only [Playlist.apply]
      rw [tick_of_stopped stopped, tick_of_stopped (p := { p with renderer := other }) stopped]
      unfold sense Playlist.filter
      dsimp only
      split <;> exact Or.inr ⟨stopped, other, rfl⟩

theorem Paused.run (paused : Paused p q) (history : List Operation) :
    Paused (p.run history) (q.run history) := by
  induction history generalizing p q with
  | nil => exact paused
  | cons operation rest ih => exact ih (paused.apply operation)

theorem Paused.start_eq (paused : Paused p q) (renderer : Renderer) :
    p.start renderer = q.start renderer := by
  rcases paused with rfl | ⟨-, other, rfl⟩ <;> rfl

/-! ## Waiting for the start -/

/-- Nothing plays and nothing is next; what waits is in the queue. -/
structure Parked (p : Playlist) : Prop where
  stopped : p.running = false
  current : p.current = none
  next : p.next = none

theorem parked_stop (p : Playlist) : p.stop.Parked := ⟨rfl, rfl, rfl⟩

theorem stopped_apply (stopped : p.running = false)
    (starts : ∀ renderer, operation ≠ .start renderer) :
    (p.apply operation).2.running = false := by
  by_cases call : operation.isCall = true
  · exact (flags_apply_of_isCall call starts).1.trans stopped
  · cases operation with
    | stop => rfl
    | tick sample => exact (p.running_tick sample).trans stopped
    | _ => exact absurd rfl call

theorem stopped_run (stopped : p.running = false)
    (starts : ∀ renderer, .start renderer ∉ history) :
    (p.run history).running = false := by
  induction history generalizing p with
  | nil => exact stopped
  | cons operation rest ih =>
    refine ih (stopped_apply stopped fun renderer is => ?_) fun renderer mem => ?_
    · exact starts renderer (is ▸ List.mem_cons_self ..)
    · exact starts renderer (List.mem_cons_of_mem _ mem)

/-- What is admitted joins the queue, ticks or not. -/
theorem Parked.apply (parked : p.Parked) (starts : ∀ renderer, operation ≠ .start renderer)
    (stops : operation ≠ .stop) (halts : operation ≠ .halt) :
    (p.apply operation).2.Parked ∧
      (p.apply operation).2.queue = p.queue ++ operation.admits (p.apply operation).1 := by
  have stopped := stopped_apply parked.stopped starts
  by_cases call : operation.isCall = true
  · have called := p.called_apply call
    obtain ⟨queue, next, -⟩ := called.waiting halts
    exact ⟨⟨stopped, (congrArg Prod.fst called.place).trans parked.current,
      next.trans parked.next⟩, queue⟩
  · cases operation with
    | stop => exact absurd rfl stops
    | tick sample =>
      obtain ⟨_, sensed⟩ := p.exists_sense_eq sample
      simp only [Playlist.apply, tick_of_stopped parked.stopped, sensed]
      exact ⟨⟨parked.stopped, parked.current, parked.next⟩, (List.append_nil p.queue).symm⟩
    | _ => exact absurd rfl call

theorem Parked.run (parked : p.Parked) (starts : ∀ renderer, .start renderer ∉ history)
    (stops : .stop ∉ history) (halts : .halt ∉ history) :
    (p.run history).Parked ∧ (p.run history).queue = p.queue ++ p.admitted history := by
  induction history generalizing p with
  | nil => exact ⟨parked, (List.append_nil p.queue).symm⟩
  | cons operation rest ih =>
    simp only [List.mem_cons, not_or] at starts stops halts
    obtain ⟨between, queue⟩ := parked.apply (fun renderer => Ne.symm (starts renderer).1)
      (Ne.symm stops.1) (Ne.symm halts.1)
    obtain ⟨after, waiting⟩ := ih between (fun renderer => (starts renderer).2) stops.2 halts.2
    refine ⟨after, ?_⟩
    rw [queue, List.append_assoc] at waiting
    exact waiting

theorem tickCount_append_tick (before : List Operation) (sample : Binary32) :
    Operation.tickCount (before ++ [.tick sample]) = Operation.tickCount before + 1 := by
  induction before with
  | nil => rfl
  | cons operation rest ih =>
    rw [List.cons_append, Operation.tickCount, ih, Operation.tickCount, Nat.add_assoc]

theorem activations_append (p : Playlist) (now : Nat) (front back : List Operation) :
    p.activations now (front ++ back) =
      p.activations now front ++
        (p.run front).activations (now + Operation.tickCount front) back := by
  induction front generalizing p now with
  | nil => rfl
  | cons operation rest ih =>
    rw [List.cons_append, activations, ih, activations, List.append_assoc, Operation.tickCount,
      Nat.add_assoc]
    rfl

end Playlist

namespace Scheduler

variable {s : Scheduler} {p : Playlist} {batch : Batch} {i : Nat}

theorem Tracks.batchesInUse_eq (tracks : s.Tracks p) : s.batchesInUse = p.batchesInUse := by
  obtain ⟨accounted, rfl⟩ := tracks
  rw [accounted.batchesInUse_eq_add, Playlist.batchesInUse, accounted.length_queue,
    Option.length_toList, Option.length_toList, Option.length_toList, Option.length_toList,
    accounted.next_isSome, accounted.current_isSome]

theorem Tracks.reports_eq (tracks : s.Tracks p) (history : List Operation) :
    s.reports history = p.reports history := by
  induction history generalizing s p with
  | nil => rfl
  | cons operation rest ih =>
    obtain ⟨answer, after⟩ := tracks.apply operation
    simp only [reports, Playlist.reports]
    rw [answer, after.glance_eq, after.batchesInUse_eq, ih after]

/-- When nothing is next, each batch in the queue becomes current once the delays up to its own and
a tick for each batch have passed. -/
theorem Reachable.activating_of_queued (reachable : s.Reachable) (running : s.running = true)
    (next : s.next = none) (queued : s.playlist.queue[i]? = some batch)
    {before : List Operation} (stops : .stop ∉ before) (halts : .halt ∉ before)
    (clock : Operation.tickCount before =
      i + Batch.totalDelay (s.playlist.queue.take (i + 1))) :
    (s.run before).activating = some batch := by
  have tracks := reachable.tracks
  have going := tracks.running_eq.symm.trans running
  let history := before ++ [Operation.tick Binary32.zero]
  let turn : Dated := ⟨Operation.tickCount before + 1, batch⟩
  have due : turn ∈ s.outlook history := by
    have entry := timetable_line queued 0 history
    have date : 0 + (i + 1) + Batch.totalDelay (s.playlist.queue.take (i + 1)) =
        Operation.tickCount before + 1 := by omega
    rw [date] at entry
    have alone : s.nextBatch = none := by rw [nextBatch, next, Option.bind_none]
    rw [outlook, firstTurn, alone, next]
    exact List.mem_of_getElem? entry
  have mem : turn ∈ s.playlist.activations 0 history := by
    rw [Playlist.activations_eq going (by simp [history, stops]) (by simp [history, halts]),
      ← tracks.arrivals_eq, ← tracks.outlook_eq, Playlist.tickCount_append_tick, Nat.zero_add]
    exact List.mem_filter.mpr ⟨due, decide_eq_true (Nat.le_refl _)⟩
  rw [Playlist.activations_append] at mem
  rcases List.mem_append.mp mem with earlier | now
  · rw [Playlist.activations_eq going stops halts] at earlier
    have past := of_decide_eq_true (List.mem_filter.mp earlier).2
    simp only [turn] at past
    omega
  · rw [(tracks.run before).activating_eq]
    simpa [Playlist.activations, Playlist.turn, turn] using now

/-- On the tick of its turn a batch shows its first target, if it has anything to play. -/
theorem Reachable.rendered_of_activating (reachable : s.Reachable)
    (activates : s.activating = some batch) (plays : batch.PlaysAt 0) (sample : Binary32) :
    (s.tick sample).2.rendered = batch.expansion.head? ∧
      (s.tick sample).2.rendered.isSome = true := by
  have ticked := (reachable.tracks.tick sample).2
  have turn : (s.playlist.sense sample).activating = some batch := by
    rw [Playlist.activating_sense, ← reachable.tracks.activating_eq, activates]
  have running : s.playlist.running = true := by
    unfold activating at activates
    split at activates
    · next both => exact (Bool.and_eq_true_iff.mp both).1
    · cases activates
  obtain ⟨-, played, -⟩ := (Playlist.stands_prepare_zero turn).finish
    (s.playlist.rendered_prepare_sense sample)
  obtain ⟨shown, rendered, -⟩ := played plays
  have same : (s.tick sample).2.rendered =
      (s.playlist.sense sample).prepare.finish.2.rendered := by
    rw [← Playlist.tick_of_running running]
    exact congrArg Playlist.rendered ticked.playlist_eq
  rw [same]
  rw [Nat.zero_mod, ← List.head?_eq_getElem?] at shown
  exact ⟨shown, rendered⟩

/-- A scheduler that has been stopped, next to one that has only been given samples. -/
structure StopsClean (stopped sampled : Scheduler) : Prop where
  /-- Whatever happens before the next start, from then on both report the same. -/
  reports : ∀ meanwhile renderer continuation,
    (stopped.run meanwhile).reports (.start renderer :: continuation) =
      (sampled.run meanwhile).reports (.start renderer :: continuation)
  /-- Until then every tick drives nothing and renders nothing. -/
  idle : ∀ meanwhile, (∀ renderer, .start renderer ∉ meanwhile) → ∀ sample,
    let after := (stopped.run meanwhile).tick sample
    after.1 = 0 ∧ after.2.rendered = none
  /-- Everything that is enqueued before the next start waits for it, in order. -/
  kept : ∀ meanwhile, (∀ renderer, .start renderer ∉ meanwhile) →
    .stop ∉ meanwhile → .halt ∉ meanwhile →
      (stopped.run meanwhile).pending = stopped.admitted meanwhile
  /-- After the start each of these batches has its turn when the delays up to its own are over,
  and shows its first target then. -/
  played : ∀ meanwhile, (∀ renderer, .start renderer ∉ meanwhile) →
    .stop ∉ meanwhile → .halt ∉ meanwhile →
      let waiting := stopped.admitted meanwhile
      ∀ (i : Nat) (batch : Batch), waiting[i]? = some batch →
        ∀ renderer before, .stop ∉ before → .halt ∉ before →
          Operation.tickCount before = i + Batch.totalDelay (waiting.take (i + 1)) →
            let s := ((stopped.run meanwhile).start renderer).run before
            s.activating = some batch ∧
              (batch.PlaysAt 0 → ∀ sample,
                (s.tick sample).2.rendered = batch.expansion.head? ∧
                  (s.tick sample).2.rendered.isSome = true)

/-- Whatever has happened to a scheduler, stopping it and starting it again leaves nothing of it
but the filtered position. -/
theorem stopsClean (renderer fresh : Renderer) (history : List Operation) :
    StopsClean ((initial renderer).run history).stop
      ((initial fresh).run (history.filter Operation.isSample)) := by
  have reachable : ((initial renderer).run history).stop.Reachable :=
    Reachable.run ⟨renderer, history, rfl⟩ [.stop]
  have stopped := ((tracks_initial renderer).run history).stop
  have sampled := (tracks_initial fresh).run (history.filter Operation.isSample)
  have parked := Playlist.parked_stop ((Playlist.initial renderer).run history)
  refine
    { reports := fun meanwhile next continuation => ?_
      idle := fun meanwhile starts sample => ?_
      kept := fun meanwhile starts stops halts => ?_
      played := fun meanwhile starts stops halts i batch found => ?_ }
  · have paused := (Playlist.paused_stop (p := .initial renderer) rfl fresh history).run meanwhile
    rw [(stopped.run meanwhile).reports_eq, (sampled.run meanwhile).reports_eq, Playlist.reports,
      Playlist.reports, Playlist.apply, Playlist.apply, paused.start_eq next]
  · obtain ⟨drive, after⟩ := (stopped.run meanwhile).tick sample
    rw [Playlist.tick_of_stopped (Playlist.stopped_run rfl starts)] at drive after
    exact ⟨drive, congrArg Playlist.rendered after.playlist_eq⟩
  · obtain ⟨after, queue⟩ := parked.run starts stops halts
    rw [(stopped.run meanwhile).pending_eq, Playlist.pending, after.next, queue,
      stopped.admitted_eq]
    rfl
  · intro renderer before stops' halts' clock
    obtain ⟨after, queue⟩ := parked.run starts stops halts
    have tracks := (stopped.run meanwhile).start renderer
    have started := (reachable.run meanwhile).run [.start renderer]
    have alone := (tracks.eq_none (tracks.playlist_eq ▸ after.current)
      (tracks.playlist_eq ▸ after.next)).2
    have same := (congrArg Playlist.queue tracks.playlist_eq).trans
      (queue.trans (stopped.admitted_eq meanwhile).symm)
    have turn := started.activating_of_queued rfl alone (same ▸ found) stops' halts' (same ▸ clock)
    exact ⟨turn, fun plays => (started.run before).rendered_of_activating turn plays⟩

/-- A batch that is enqueued between the stop and the start plays on the first tick after it. -/
example :
    let early : Batch := ⟨0, Batch.forever, [⟨1, 7⟩], by decide⟩
    let late : Batch := ⟨0, 1, [⟨1, 9⟩], by decide⟩
    ((initial .vibration).run
      [.start .vibration, .enqueue early, .tick .zero, .stop, .enqueue late, .tick .zero,
        .start .vibration, .tick .zero]).rendered = some 9 := by
  decide

end Scheduler

end Animatronic
