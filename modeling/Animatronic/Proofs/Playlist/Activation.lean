import Animatronic.Proofs.Playlist.Playback
import Animatronic.Proofs.Playlist.Timetable

/-!
# When batches become current

A running scheduler that is neither stopped nor halted works off its queue by the clock: how far
the current batch has come plays no part, and neither do the samples or the requests in between.
Each batch becomes current on the tick that the timetable has for it, in the order of acceptance
and once, and the batch that is current at the time has given up its slot by then.
-/

namespace Animatronic

namespace Playlist

theorem current_activate_loadNext {p : Playlist} {batch : Batch}
    (activates : p.activating = some batch) : p.loadNext.activate.current = some batch := by
  unfold activating at activates
  split at activates
  · next due =>
    rw [Bool.and_eq_true] at due
    rw [activate, if_pos due.2]
    unfold switch loadSetpoint
    split <;> exact activates
  · cases activates

end Playlist

namespace Scheduler

variable {s : Scheduler} {p : Playlist} {handle : Handle}

/-! ## The current batch gives way -/

theorem pool_switch (s : Scheduler) : s.switch.pool = s.releaseCurrent.pool := by
  obtain ⟨_, _, _, _, _, switched⟩ := s.exists_switch_eq
  rw [switched]
  rfl

theorem pool_releaseCurrent (current : s.current = some handle) :
    s.releaseCurrent.pool = s.pool.release handle := by
  rw [releaseCurrent, current]

theorem isDue_loadNext_sense (s : Scheduler) (sample : Binary32) :
    (s.sense sample).loadNext.isDue = s.loadNext.isDue := by
  obtain ⟨position, sensed⟩ := s.exists_sense_eq sample
  rw [sensed]
  obtain ⟨pool, queue, current, next⟩ := s
  cases next <;> cases queue <;> rfl

theorem activating_of_waits (waits : s.loadNext.isDue = false) : s.activating = none := by
  rw [activating, waits, Bool.and_false, if_neg Bool.false_ne_true]

/-- Whatever a tick does to the batches, a slot that it has freed stays free. -/
theorem isUsed_finish_of_free (free : s.pool.isUsed handle = false) :
    s.releaseEmpty.finish.2.pool.isUsed handle = false := by
  rcases s.finish_releaseEmpty_cases with ⟨-, kept⟩ | ⟨-, released⟩
  · rw [kept, free]
  · rw [released, releaseCurrent]
    split
    · exact Pool.isUsed_release_of_free _ free
    · exact free

/-- A tick leaves the current batch where it is, or frees its slot; and it does so if another batch
becomes current. -/
theorem Reachable.tick_current (reachable : s.Reachable) (current : s.current = some handle)
    (sample : Binary32) :
    ((s.tick sample).2.current = some handle ∧ s.activating = none) ∨
      s.Frees (s.tick sample).2 handle := by
  have used := reachable.isUsed_of_current current
  obtain ⟨position, sensed⟩ := s.exists_sense_eq sample
  by_cases running : s.running = true
  · rw [tick_of_running running, prepare]
    cases due : (s.sense sample).loadNext.isDue with
    | true =>
      refine Or.inr ⟨used, isUsed_finish_of_free ?_⟩
      have loaded : (s.sense sample).loadNext.current = some handle := by
        rw [current_loadNext, sensed]
        exact current
      rw [activate, if_pos due, pool_switch, pool_releaseCurrent loaded]
      exact Pool.isUsed_release_self _ handle
    | false =>
      obtain ⟨_, _, _, waited⟩ := exists_activate_loadNext_eq due
      rcases (s.sense sample).loadNext.activate.finish_releaseEmpty_cases with
        ⟨kept, -⟩ | ⟨-, gone⟩
      · refine Or.inl ⟨?_, activating_of_waits (s.isDue_loadNext_sense sample ▸ due)⟩
        rw [kept, waited, sensed]
        exact current
      · refine Or.inr ⟨used, ?_⟩
        have held : (s.sense sample).loadNext.activate.current = some handle := by
          rw [waited, sensed]
          exact current
        rw [gone, pool_releaseCurrent held]
        exact Pool.isUsed_release_self _ handle
  · refine Or.inl ⟨?_, ?_⟩
    · have still : ¬(s.sense sample).running = true := by rwa [sensed]
      rw [Scheduler.tick, if_neg still, sensed]
      exact current
    · rw [activating, Bool.eq_false_iff.mpr running, Bool.false_and, if_neg Bool.false_ne_true]

/-- On the tick of its turn a batch takes the current place, and on no other tick does any. -/
theorem Reachable.current_activate (reachable : s.Reachable) (running : s.running = true)
    (sample : Binary32) :
    (∀ batch, s.activating = some batch →
        (s.sense sample).loadNext.activate.currentBatch = some batch) ∧
      (s.activating = none → (s.sense sample).loadNext.activate.current = s.current) := by
  have tracks := reachable.tracks
  have sensed := tracks.sense sample
  constructor
  · intro batch activates
    rw [tracks.activating_eq, ← Playlist.activating_sense _ sample] at activates
    have current := congrArg Playlist.current sensed.loadNext.activate.playlist_eq
    exact current.trans (Playlist.current_activate_loadNext activates)
  · intro alone
    rw [tracks.activating_eq] at alone
    have waits := Playlist.waits_of_activating (tracks.running_eq.symm.trans running) alone
    rw [← tracks.loadNext.isDue_eq, ← isDue_loadNext_sense s sample] at waits
    obtain ⟨_, _, _, waited⟩ := exists_activate_loadNext_eq waits
    obtain ⟨_, same⟩ := s.exists_sense_eq sample
    rw [waited, same]

/-- By the tick on which a batch becomes current, some tick has freed the slot of the batch that
was current before. -/
theorem Reachable.exists_frees (reachable : s.Reachable) (current : s.current = some handle)
    {before : List Operation} (stops : .stop ∉ before) (sample : Binary32)
    (activates : (s.run before).activating.isSome = true) :
    ∃ front own back, before ++ [.tick sample] = front ++ .tick own :: back ∧
      (s.run front).Frees ((s.run front).tick own).2 handle := by
  induction before generalizing s with
  | nil =>
    rcases reachable.tick_current current sample with ⟨-, unactivated⟩ | frees
    · have activated : s.activating.isSome = true := activates
      rw [unactivated] at activated
      cases activated
    · exact ⟨[], sample, [], rfl, frees⟩
  | cons operation rest ih =>
    simp only [List.mem_cons, not_or] at stops
    -- The batch stays current up to some tick, and that one frees its slot.
    have onward : (s.apply operation).2.current = some handle →
        ∃ front own back, operation :: rest ++ [.tick sample] = front ++ .tick own :: back ∧
          (s.run front).Frees ((s.run front).tick own).2 handle := by
      intro kept
      obtain ⟨front, own, back, split, frees⟩ :=
        ih (reachable.run [operation]) kept stops.2 activates
      exact ⟨operation :: front, own, back, congrArg (List.cons operation) split, frees⟩
    by_cases call : operation.isCall = true
    · exact onward ((current_apply_of_isCall call).trans current)
    · cases operation with
      | stop => exact absurd rfl stops.1
      | tick own =>
        rcases reachable.tick_current current own with ⟨kept, -⟩ | frees
        · exact onward kept
        · exact ⟨[], own, rest ++ [.tick sample], rfl, frees⟩
      | _ => exact absurd rfl call

/-! ## The turns of a history -/

/-- The batches that a history admits, each with the number of ticks before. -/
def arrivals (s : Scheduler) (now : Nat) : List Operation → List Dated
  | [] => []
  | operation :: rest =>
    let (answer, s) := s.apply operation
    (operation.admits answer).map (Dated.mk now) ++ s.arrivals (now + operation.elapsed) rest

/-- The batches that become current in a history, each with its tick.  Ticks are counted from
`now + 1`. -/
def activations (s : Scheduler) (now : Nat) : List Operation → List Dated
  | [] => []
  | operation :: rest =>
    (s.turn operation).map (Dated.mk (now + 1)) ++
      (s.apply operation).2.activations (now + operation.elapsed) rest

theorem Tracks.arrivals_eq (tracks : s.Tracks p) (now : Nat) (history : List Operation) :
    s.arrivals now history = p.arrivals now history := by
  induction history generalizing s p now with
  | nil => rfl
  | cons operation rest ih =>
    obtain ⟨answer, after⟩ := tracks.apply operation
    simp only [arrivals, Playlist.arrivals]
    rw [ih after, answer]

theorem Tracks.activations_eq (tracks : s.Tracks p) (now : Nat) (history : List Operation) :
    s.activations now history = p.activations now history := by
  induction history generalizing s p now with
  | nil => rfl
  | cons operation rest ih =>
    rw [activations, Playlist.activations, ih (tracks.apply operation).2, tracks.turn_eq]

/-- The batches in the queue and those that arrive in a history, with the numbers of ticks
before. -/
def line (s : Scheduler) (history : List Operation) : List Dated :=
  s.playlist.queue.map (Dated.mk 0) ++ s.arrivals 0 history

/-- The tick on which the next batch is to become current, if there is one. -/
def firstTurn (s : Scheduler) : Nat := if s.next.isSome then s.delay + 1 else 0

/-- The ticks on which the next batch, those in the queue and those that arrive in a history are to
become current. -/
def outlook (s : Scheduler) (history : List Operation) : List Dated :=
  s.nextBatch.toList.map (Dated.mk s.firstTurn) ++ timetable s.firstTurn (s.line history)

theorem Accounted.outlook_eq (accounted : s.Accounted) (history : List Operation) :
    s.outlook history = s.playlist.outlook 0 (s.arrivals 0 history) := by
  have known : s.nextBatch.isSome = s.next.isSome := accounted.next_isSome
  rw [outlook, firstTurn, ← known, Playlist.outlook]
  cases pending : s.nextBatch with
  | none =>
    have unset : s.playlist.next = none := pending
    rw [unset]
    rfl
  | some batch =>
    have waiting : s.playlist.next = some batch := pending
    rw [waiting]
    simp only [Option.toList_some, List.map_cons, List.map_nil, List.singleton_append,
      Option.isSome_some, if_true, Nat.zero_add]
    rfl

/-- The batches in the queue are early for any timetable. -/
theorem early_of_queued {i : Nat} (queued : i < s.playlist.queue.length) (last : Nat)
    (history : List Operation) : Early last (s.line history) i := by
  intro j arrival le found
  rw [line, List.getElem?_append_left (by rw [List.length_map]; omega), List.getElem?_map,
    Option.map_eq_some_iff] at found
  obtain ⟨_, -, rfl⟩ := found
  exact Nat.zero_le _

theorem batches_take_line {i : Nat} (queued : i ≤ s.playlist.queue.length)
    (history : List Operation) :
    ((s.line history).take i).map Dated.batch = s.playlist.queue.take i := by
  rw [line, List.take_append_of_le_length (by rwa [List.length_map]), ← List.map_take,
    List.map_map]
  exact List.map_id _

/-- A batch in the queue has its turn when all the delays up to its own have been waited out. -/
theorem timetable_line {i : Nat} {batch : Batch} (queued : s.playlist.queue[i]? = some batch)
    (last : Nat) (history : List Operation) :
    (timetable last (s.line history))[i]? =
      some ⟨last + (i + 1) + Batch.totalDelay (s.playlist.queue.take (i + 1)), batch⟩ := by
  have inside : i < s.playlist.queue.length := (List.getElem?_eq_some_iff.mp queued).1
  have found : (s.line history)[i]? = some ⟨0, batch⟩ := by
    rw [line, List.getElem?_append_left (by rwa [List.length_map]), List.getElem?_map, queued]
    rfl
  rw [timetable_getElem? found (early_of_queued inside last history),
    batches_take_line inside history]

/-- What becomes of the batches that wait before a history and arrive in it. -/
structure KeepsTime (s : Scheduler) (history : List Operation) : Prop where
  /-- Those and only those batches become current that the outlook has for the ticks of the
  history, and on these ticks. -/
  activations : s.activations 0 history =
    (s.outlook history).filter (·.tick ≤ Operation.tickCount history)
  /-- With no batch next, the queue is worked off from the first tick on. -/
  queued : s.next = none → ∀ (i : Nat) (batch : Batch), s.playlist.queue[i]? = some batch →
    (s.outlook history)[i]? =
      some ⟨i + 1 + Batch.totalDelay (s.playlist.queue.take (i + 1)), batch⟩
  /-- A next batch has its turn when the rest of its delay is over, and the queue follows. -/
  pending : ∀ next, s.nextBatch = some next →
    (s.outlook history)[0]? = some ⟨s.delay + 1, next⟩ ∧
      ∀ (i : Nat) (batch : Batch), s.playlist.queue[i]? = some batch →
        (s.outlook history)[i + 1]? =
          some ⟨s.delay + 1 + (i + 1) + Batch.totalDelay (s.playlist.queue.take (i + 1)), batch⟩
  /-- The batches that arrive extend the queue, as long as it does not run dry. -/
  arriving : ∀ (i : Nat) (arrival : Dated), (s.line history)[i]? = some arrival →
    Early s.firstTurn (s.line history) i →
      (s.outlook history)[s.next.toList.length + i]? =
        some ⟨s.firstTurn + (i + 1) +
          Batch.totalDelay (((s.line history).take (i + 1)).map Dated.batch), arrival.batch⟩
  /-- Each batch has its turn once and in the order of acceptance. -/
  order : (s.activations 0 history).map Dated.batch ++ (s.run history).pending =
    s.pending ++ s.admitted history
  /-- On the tick of its turn a batch is put in the current place, and on no other tick is any. -/
  current : ∀ before sample after, history = before ++ .tick sample :: after →
    let activated := ((s.run before).sense sample).loadNext.activate
    (∀ batch, (s.run before).activating = some batch → activated.currentBatch = some batch) ∧
      ((s.run before).activating = none → activated.current = (s.run before).current)
  /-- By the first turn the batch that is current in the beginning has given up its slot. -/
  released : ∀ handle, s.current = some handle →
    ∀ before sample after, history = before ++ .tick sample :: after →
      (s.run before).activating.isSome = true →
        ∃ front own back, before ++ [.tick sample] = front ++ .tick own :: back ∧
          (s.run front).Frees ((s.run front).tick own).2 handle

/-- A running scheduler that is neither stopped nor halted works off its queue by the clock. -/
theorem keepsTime (reachable : s.Reachable) (running : s.running = true)
    (history : List Operation) (stops : .stop ∉ history) (halts : .halt ∉ history) :
    s.KeepsTime history := by
  have tracks := reachable.tracks
  have known : s.nextBatch.isSome = s.next.isSome := tracks.next_isSome
  have lead : s.nextBatch.toList.length = s.next.toList.length := by
    rw [Option.length_toList, Option.length_toList, known]
  have behind : ∀ i, (s.outlook history)[s.next.toList.length + i]? =
      (timetable s.firstTurn (s.line history))[i]? := by
    intro i
    rw [outlook, List.getElem?_append_right (by rw [List.length_map, lead]; omega),
      List.length_map, lead, Nat.add_sub_cancel_left]
  refine
    { activations := ?_
      queued := fun unset i batch queued => ?_
      pending := fun next pending => ?_
      arriving := fun i arrival found early => (behind i).trans (timetable_getElem? found early)
      order := ?_
      current := fun before sample after split => ?_
      released := fun handle current before sample after split activates => ?_ }
  · have turns := Playlist.activations_eq (tracks.running_eq.symm.trans running) stops halts 0
    rw [← tracks.arrivals_eq, ← tracks.outlook_eq, Nat.zero_add] at turns
    rw [tracks.activations_eq, turns]
  · have turn := behind i
    rw [timetable_line queued, unset, firstTurn, unset] at turn
    simpa using turn
  · have waiting : s.next.isSome = true := by
      rw [← known, pending]
      rfl
    have first : s.firstTurn = s.delay + 1 := if_pos waiting
    have one : s.next.toList.length = 1 := by
      rw [← lead, pending]
      rfl
    refine ⟨?_, fun i batch queued => ?_⟩
    · rw [outlook, first, pending]
      rfl
    · have turn := behind i
      rw [timetable_line queued, one, first, Nat.add_comm 1 i] at turn
      exact turn
  · have later := (s.playlist.turns_append_pending history).2 stops halts
    rw [tracks.activations_eq, Playlist.batch_activations, (tracks.run history).pending_eq,
      tracks.pending_eq, tracks.admitted_eq]
    exact later
  · subst split
    have going : (s.run before).running = true := by
      rw [(tracks.run before).running_eq]
      exact Playlist.running_run (tracks.running_eq.symm.trans running)
        fun mem => stops (List.mem_append_left _ mem)
    exact (reachable.run before).current_activate going sample
  · subst split
    exact reachable.exists_frees current (fun mem => stops (List.mem_append_left _ mem)) sample
      activates

/-- Behind a batch that plays for ever, two batches wait and one arrives while the first is in its
delay of three ticks. -/
theorem keepsTime_behind_endless_batch :
    ∃ (s : Scheduler) (history : List Operation) (first second late : Batch),
      s.current.isSome = true ∧ s.playlist.queue = [first, second] ∧ first.delay = 3 ∧
        s.activations 0 history = [⟨4, first⟩, ⟨5, second⟩, ⟨7, late⟩] := by
  let endless : Batch := ⟨0, Batch.forever, [⟨1, 1⟩], by decide⟩
  let first : Batch := ⟨3, 1, [⟨1, 2⟩], by decide⟩
  let second : Batch := ⟨0, 1, [⟨9, 3⟩], by decide⟩
  let late : Batch := ⟨1, 1, [⟨1, 4⟩], by decide⟩
  let ticks (n : Nat) : List Operation := List.replicate n (.tick ⟨0⟩)
  let s := (initial .vibration).run
    [.start .vibration, .enqueue endless, .tick ⟨0⟩, .enqueueAll [first, second]]
  let history := ticks 2 ++ .enqueue late :: ticks 6
  have reachable : s.Reachable := ⟨_, _, rfl⟩
  have kept := keepsTime reachable (by decide) history (by decide) (by decide)
  exact ⟨s, history, first, second, late, by decide, by decide, rfl,
    kept.activations.trans (by decide)⟩

end Scheduler

end Animatronic
