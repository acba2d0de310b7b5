import Animatronic.Proofs.Playlist.Cue

/-!
# The timetable of the waiting batches

As long as nothing is stopped or halted, the ticks on which batches become current can be told from
when they were accepted.  Each batch is loaded on the tick after its predecessor became current, or
after it was accepted if that is later, and becomes current when its delay is over (`timetable`).

`Playlist.outlook` is the timetable of what waits and of what is still to arrive.  Every operation
leaves the outlook as it is, but for the batch that has its turn (`outlook_apply`), so that a whole
history gives the batches their turns as the outlook at its beginning says (`activations_eq`).
Batches that arrive before their predecessors have had their turns follow each other without a gap,
and then their ticks are sums of delays (`timetable_getElem?`).
-/

namespace Animatronic

/-- A batch, and the number of ticks up to some event in its life. -/
structure Dated where
  tick : Nat
  batch : Batch
deriving DecidableEq

/-- The number of ticks that an operation takes. -/
def Operation.elapsed : Operation → Nat
  | .tick _ => 1
  | _ => 0

/-- The number of ticks in a history. -/
def Operation.tickCount : List Operation → Nat
  | [] => 0
  | operation :: rest => operation.elapsed + tickCount rest

/-- The delays of some batches, taken together. -/
def Batch.totalDelay (batches : List Batch) : Nat :=
  batches.foldr (fun batch total => batch.delay.toNat + total) 0

/-- The ticks on which batches become current, from the numbers of ticks after which they were
accepted.  `last` is the tick of the batch before them. -/
def timetable (last : Nat) : List Dated → List Dated
  | [] => []
  | arrival :: rest =>
    let tick := max last arrival.tick + 1 + arrival.batch.delay.toNat
    ⟨tick, arrival.batch⟩ :: timetable tick rest

/-! ## Reading a timetable -/

/-- The batch at place `i`, and each one in front of it, is accepted before the turn of its
predecessor.  `last` is the tick of the batch before the first. -/
def Early (last : Nat) (arrivals : List Dated) (i : Nat) : Prop :=
  ∀ j arrival, j ≤ i → arrivals[j]? = some arrival →
    arrival.tick ≤ last + j + Batch.totalDelay ((arrivals.take j).map Dated.batch)

/-- Between the turns of early batches there is nothing but their delays. -/
theorem timetable_getElem? {arrivals : List Dated} {arrival : Dated} {last i : Nat}
    (found : arrivals[i]? = some arrival) (early : Early last arrivals i) :
    (timetable last arrivals)[i]? =
      some ⟨last + (i + 1) + Batch.totalDelay ((arrivals.take (i + 1)).map Dated.batch),
        arrival.batch⟩ := by
  induction arrivals generalizing last i with
  | nil => cases found
  | cons first rest ih =>
    have here : first.tick ≤ last := early 0 first (Nat.zero_le i) rfl
    rw [timetable, Nat.max_eq_left here]
    cases i with
    | zero =>
      obtain rfl : first = arrival := Option.some.inj found
      simp [Batch.totalDelay]
    | succ i =>
      have rests : Early (last + 1 + first.batch.delay.toNat) rest i := by
        intro j earlier le known
        have bound := early (j + 1) earlier (Nat.succ_le_succ le) known
        simp only [Batch.totalDelay, List.take_succ_cons, List.map_cons, List.foldr_cons]
          at bound ⊢
        omega
      rw [List.getElem?_cons_succ, ih found rests]
      simp only [Batch.totalDelay, List.take_succ_cons, List.map_cons, List.foldr_cons,
        Option.some.injEq, Dated.mk.injEq, and_true]
      omega

theorem lt_tick_of_mem_timetable {arrivals : List Dated} {last : Nat} {entry : Dated}
    (mem : entry ∈ timetable last arrivals) : last < entry.tick := by
  induction arrivals generalizing last with
  | nil => cases mem
  | cons first rest ih =>
    rcases List.mem_cons.mp mem with rfl | later
    · dsimp only
      omega
    · have after := ih later
      omega

/-- It does not matter when batches were accepted, if it was before their predecessor's turn. -/
theorem timetable_map_append {last early late : Nat} (before : early ≤ last) (too : late ≤ last)
    (batches : List Batch) (arrivals : List Dated) :
    timetable last (batches.map (Dated.mk early) ++ arrivals) =
      timetable last (batches.map (Dated.mk late) ++ arrivals) := by
  induction batches generalizing last with
  | nil => rfl
  | cons batch rest ih =>
    have tick : last ≤ last + 1 + batch.delay.toNat := by omega
    simp only [List.map_cons, List.cons_append, timetable, Nat.max_eq_left before,
      Nat.max_eq_left too]
    exact congrArg (List.cons _) (ih (Nat.le_trans before tick) (Nat.le_trans too tick))

/-- Batches that are accepted later do not wait for an earlier turn. -/
theorem timetable_of_late {arrivals : List Dated} {now : Nat}
    (late : ∀ arrival ∈ arrivals, now + 1 ≤ arrival.tick) :
    timetable now arrivals = timetable (now + 1) arrivals := by
  cases arrivals with
  | nil => rfl
  | cons first rest =>
    have after := late first (List.mem_cons_self ..)
    rw [timetable, timetable, Nat.max_eq_right (by omega), Nat.max_eq_right after]

namespace Playlist

variable {p : Playlist}

/-- The batches that a history admits, each with the number of ticks before. -/
def arrivals (p : Playlist) (now : Nat) : List Operation → List Dated
  | [] => []
  | operation :: rest =>
    let (answer, p) := p.apply operation
    (operation.admits answer).map (Dated.mk now) ++ p.arrivals (now + operation.elapsed) rest

/-- The batches that become current in a history, each with its tick.  Ticks are counted from
`now + 1`. -/
def activations (p : Playlist) (now : Nat) : List Operation → List Dated
  | [] => []
  | operation :: rest =>
    (p.turn operation).map (Dated.mk (now + 1)) ++
      (p.apply operation).2.activations (now + operation.elapsed) rest

/-- The ticks on which the waiting batches and the arriving ones are to become current, if `now`
ticks have passed. -/
def outlook (p : Playlist) (now : Nat) (arriving : List Dated) : List Dated :=
  let waiting := p.queue.map (Dated.mk now) ++ arriving
  match p.next with
  | none => timetable now waiting
  | some batch => ⟨now + p.delay + 1, batch⟩ :: timetable (now + p.delay + 1) waiting

theorem batch_activations (p : Playlist) (now : Nat) (history : List Operation) :
    (p.activations now history).map Dated.batch = p.turns history := by
  induction history generalizing p now with
  | nil => rfl
  | cons operation rest ih =>
    simp only [activations, turns, List.map_append, List.map_map, ih]
    exact congrArg (· ++ _) (List.map_id _)

theorem le_tick_of_mem_arrivals {now : Nat} {history : List Operation} {arrival : Dated}
    (mem : arrival ∈ p.arrivals now history) : now ≤ arrival.tick := by
  induction history generalizing p now with
  | nil => cases mem
  | cons operation rest ih =>
    rcases List.mem_append.mp mem with here | later
    · obtain ⟨batch, -, rfl⟩ := List.mem_map.mp here
      exact Nat.le_refl now
    · exact Nat.le_trans (Nat.le_add_right ..) (ih later)

/-! ## The phases of a tick -/

variable {now : Nat} {arriving : List Dated}

theorem outlook_loadNext (p : Playlist) (now : Nat) (arriving : List Dated) :
    p.loadNext.outlook now arriving = p.outlook now arriving := by
  unfold loadNext
  split
  · next batch rest unset queue =>
    have tick : now + batch.delay.toNat + 1 = now + 1 + batch.delay.toNat := by omega
    simp only [outlook, unset, queue, List.map_cons, List.cons_append, timetable, Nat.max_self,
      tick]
  · rfl

theorem queue_of_loadNext (unset : p.loadNext.next = none) : p.loadNext.queue = [] := by
  rcases p with ⟨queue, current, next⟩
  cases next with
  | some batch => cases unset
  | none =>
    cases queue with
    | nil => rfl
    | cons batch rest => cases unset

theorem queue_switch (p : Playlist) : p.switch.next = none ∧ p.switch.queue = p.queue := by
  unfold switch loadSetpoint
  split <;> exact ⟨rfl, rfl⟩

/-- The next batch is a tick closer to its turn, or has it.  What waits behind it keeps its
place. -/
theorem outlook_activate (loaded : p.next = none → p.queue = [])
    (late : ∀ arrival ∈ arriving, now + 1 ≤ arrival.tick) :
    p.outlook now arriving =
      (if p.isDue then p.next else none).toList.map (Dated.mk (now + 1)) ++
        p.activate.outlook (now + 1) arriving := by
  cases next : p.next with
  | none =>
    have still : p.activate = p := by simp [activate, isDue, next]
    have idle : (if p.isDue then none else none : Option Batch) = none := ite_self none
    rw [still, idle, outlook, outlook, next, loaded next]
    exact timetable_of_late late
  | some batch =>
    by_cases due : p.delay = 0
    · have turn : p.isDue = true := by simp [isDue, next, due]
      obtain ⟨unset, queue⟩ := p.queue_switch
      rw [activate, if_pos turn, if_pos turn, outlook, outlook, next, unset, queue, due,
        Nat.add_zero]
      exact congrArg (List.cons _) (timetable_map_append (by omega) (by omega) p.queue arriving)
    · have waits : ¬p.isDue = true := by simp [isDue, due]
      have counted : p.activate = { p with delay := p.delay - 1 } := by
        rw [activate, if_neg waits, next]
        rfl
      have tick : now + 1 + (p.delay - 1) + 1 = now + p.delay + 1 := by omega
      rw [counted, if_neg waits, outlook, outlook, next]
      simp only [tick, Option.toList_none, List.map_nil, List.nil_append]
      exact congrArg (List.cons _) (timetable_map_append (by omega) (by omega) p.queue arriving)

theorem outlook_releaseEmpty (p : Playlist) (now : Nat) (arriving : List Dated) :
    p.releaseEmpty.outlook now arriving = p.outlook now arriving := by
  unfold releaseEmpty
  split <;> rfl

theorem outlook_finish (p : Playlist) (now : Nat) (arriving : List Dated) :
    p.finish.2.outlook now arriving = p.outlook now arriving := by
  unfold finish
  split
  · obtain ⟨_, _, _, _, _, rendered⟩ := p.exists_render_eq
    rw [rendered]
    rfl
  · rfl

theorem outlook_sense (p : Playlist) (sample : Binary32) (now : Nat) (arriving : List Dated) :
    (p.sense sample).outlook now arriving = p.outlook now arriving := by
  obtain ⟨_, sensed⟩ := p.exists_sense_eq sample
  rw [sensed]
  rfl

/-- A tick gives the batch its turn that is due on it, and keeps everybody else's. -/
theorem outlook_tick (running : p.running = true) (sample : Binary32)
    (late : ∀ arrival ∈ arriving, now + 1 ≤ arrival.tick) :
    p.outlook now arriving =
      p.activating.toList.map (Dated.mk (now + 1)) ++
        (p.tick sample).2.outlook (now + 1) arriving := by
  have going := (p.running_sense sample).trans running
  rw [← outlook_sense p sample, ← activating_sense p sample, tick_of_running running,
    outlook_finish, prepare, outlook_releaseEmpty, activating, going, Bool.true_and,
    ← outlook_loadNext]
  exact outlook_activate queue_of_loadNext late

/-! ## Histories -/

/-- Any other operation keeps the outlook, what it admits being at the end of the queue now. -/
theorem outlook_apply (running : p.running = true) {operation : Operation}
    (stops : operation ≠ .stop) (halts : operation ≠ .halt)
    (late : ∀ arrival ∈ arriving, now + operation.elapsed ≤ arrival.tick) :
    p.outlook now ((operation.admits (p.apply operation).1).map (Dated.mk now) ++ arriving) =
      (p.turn operation).map (Dated.mk (now + 1)) ++
        (p.apply operation).2.outlook (now + operation.elapsed) arriving := by
  cases operation with
  | stop => exact absurd rfl stops
  | halt => exact absurd rfl halts
  | start renderer => rfl
  | enqueue batch =>
    simp only [turn, apply, enqueue]
    split
    · simp [Operation.admits, Answer.ofResult, Operation.elapsed, outlook]
    · rfl
  | enqueueAll batches =>
    simp only [turn, apply, enqueueAll]
    split
    · simp [Operation.admits, Answer.ofResult, Operation.elapsed, outlook]
    · rfl
  | setCoefficients coefficients =>
    simp only [turn, apply, setCoefficients]
    split <;> rfl
  | filter sample =>
    simp only [turn, apply, filter]
    split <;> rfl
  | tick sample => exact outlook_tick running sample late

theorem running_apply (running : p.running = true) {operation : Operation}
    (stops : operation ≠ .stop) : (p.apply operation).2.running = true := by
  by_cases call : operation.isCall = true
  · exact (p.called_apply call).still_running running
  · cases operation with
    | stop => exact absurd rfl stops
    | tick sample => exact (p.running_tick sample).trans running
    | _ => exact absurd rfl call

theorem running_run (running : p.running = true) {history : List Operation}
    (stops : .stop ∉ history) : (p.run history).running = true := by
  induction history generalizing p with
  | nil => exact running
  | cons operation rest ih =>
    simp only [List.mem_cons, not_or] at stops
    exact ih (running_apply running (Ne.symm stops.1)) stops.2

theorem lt_tick_of_mem_outlook {entry : Dated} (mem : entry ∈ p.outlook now arriving) :
    now < entry.tick := by
  unfold outlook at mem
  dsimp only at mem
  split at mem
  · exact lt_tick_of_mem_timetable mem
  · rcases List.mem_cons.mp mem with rfl | later
    · dsimp only
      omega
    · have after := lt_tick_of_mem_timetable later
      omega

theorem elapsed_of_turn {operation : Operation} {batch : Batch} (mem : batch ∈ p.turn operation) :
    operation.elapsed = 1 := by
  cases operation with
  | tick sample => rfl
  | _ => cases mem

/-- As long as nothing is stopped or halted, batches become current as the outlook says. -/
theorem activations_eq (running : p.running = true) {history : List Operation}
    (stops : .stop ∉ history) (halts : .halt ∉ history) (now : Nat) :
    p.activations now history =
      (p.outlook now (p.arrivals now history)).filter
        (·.tick ≤ now + Operation.tickCount history) := by
  induction history generalizing p now with
  | nil =>
    refine (List.filter_eq_nil_iff.mpr fun entry mem due => ?_).symm
    have after := lt_tick_of_mem_outlook mem
    have before := of_decide_eq_true due
    rw [Operation.tickCount] at before
    omega
  | cons operation rest ih =>
    simp only [List.mem_cons, not_or] at stops halts
    have later := ih (running_apply running (Ne.symm stops.1)) stops.2 halts.2
      (now + operation.elapsed)
    have step := outlook_apply running (Ne.symm stops.1) (Ne.symm halts.1)
      fun arrival (mem : arrival ∈
        (p.apply operation).2.arrivals (now + operation.elapsed) rest) =>
          le_tick_of_mem_arrivals mem
    have here : ∀ entry ∈ (p.turn operation).map (Dated.mk (now + 1)),
        decide (entry.tick ≤ now + Operation.tickCount (operation :: rest)) = true := by
      intro entry mem
      obtain ⟨batch, turn, rfl⟩ := List.mem_map.mp mem
      have once := elapsed_of_turn turn
      rw [Operation.tickCount, once, decide_eq_true_iff]
      exact Nat.add_le_add_left (Nat.le_add_right ..) now
    rw [activations, arrivals, step, List.filter_append, List.filter_eq_self.mpr here, later,
      Operation.tickCount, Nat.add_assoc]

end Playlist

end Animatronic
