import Animatronic.Proofs.Playlist.Transparency

/-!
# The place in a batch

`Batch.expansion` writes one pass through a batch out, tick by tick, and `Batch.span` is the length
of that pass.  A batch plays on tick `k`, counted from zero at the tick on which it became current,
for as many ticks as its loop count asks for (`Batch.PlaysAt`).

The invariant is `Playlist.Cued`: what is left of the pass, from tick `k` on, is the rest of the
playing setpoint and the setpoints behind it.  `Playlist.Stands` adds the state in which the batch
has been given up.  Each phase of a tick and each call keeps it, and a whole tick moves it from `k`
to `k + 1` (`Stands.finish`).
-/

namespace Animatronic

/-- The number of ticks for which a setpoint plays. -/
def Setpoint.ticks (setpoint : Setpoint) : Nat := max 1 setpoint.duration.toNat

/-- The targets of a list of setpoints, tick by tick. -/
def Setpoint.expand (setpoints : List Setpoint) : List UInt16 :=
  setpoints.flatMap fun setpoint => List.replicate setpoint.ticks setpoint.target

namespace Batch

/-- One pass through a batch, tick by tick. -/
def expansion (batch : Batch) : List UInt16 := Setpoint.expand batch.setpoints

/-- The number of ticks of one pass. -/
def span (batch : Batch) : Nat :=
  batch.setpoints.foldr (fun setpoint total => setpoint.ticks + total) 0

/-- Whether the batch still plays on tick `k` after it became current on tick zero. -/
def PlaysAt (batch : Batch) (k : Nat) : Prop :=
  (batch.isInfinite = true ∧ batch.setpoints ≠ []) ∨ k < batch.loops.toNat * batch.span

theorem length_expansion (batch : Batch) : batch.expansion.length = batch.span := by
  unfold expansion span Setpoint.expand
  induction batch.setpoints with
  | nil => rfl
  | cons setpoint rest ih =>
    rw [List.flatMap_cons, List.length_append, List.length_replicate, ih, List.foldr_cons]

/-- Whether tick `k` is the one on which the batch is given up. -/
def EndsAt (batch : Batch) (k : Nat) : Prop :=
  ¬(batch.isInfinite = true ∧ batch.setpoints ≠ []) ∧ k = batch.loops.toNat * batch.span

theorem PlaysAt.of_le {batch : Batch} {k l : Nat} (plays : batch.PlaysAt l) (le : k ≤ l) :
    batch.PlaysAt k :=
  plays.imp_right (Nat.lt_of_le_of_lt le)

theorem endsAt_iff (batch : Batch) (k : Nat) :
    batch.EndsAt k ↔ ¬batch.PlaysAt k ∧ (k = 0 ∨ batch.PlaysAt (k - 1)) := by
  unfold EndsAt PlaysAt
  generalize (batch.isInfinite = true ∧ batch.setpoints ≠ []) = forever
  by_cases always : forever
  · simp only [always, not_true_eq_false, false_and, true_or]
  · simp only [always, not_false_eq_true, true_and, false_or]
    omega

theorem not_playsAt_of_empty {batch : Batch} (empty : batch.setpoints = []) (k : Nat) :
    ¬batch.PlaysAt k := by
  rintro (⟨_, nonempty⟩ | bound)
  · exact nonempty empty
  · rw [span, empty] at bound
    exact Nat.not_lt_zero _ bound

end Batch

theorem Setpoint.expand_drop {setpoints : List Setpoint} {i : Nat}
    (inside : i < setpoints.length) :
    expand (setpoints.drop i) =
      List.replicate setpoints[i].ticks setpoints[i].target ++
        expand (setpoints.drop (i + 1)) := by
  rw [List.drop_eq_getElem_cons inside, expand, List.flatMap_cons]
  rfl

namespace Playlist

variable {p : Playlist} {batch : Batch} {k : Nat}

/-- The batch is current, and from tick `k` on its pass goes on with the rest of the playing
setpoint and the setpoints behind it.  A finite batch has a pass less to go for each one that is
over. -/
structure Cued (p : Playlist) (batch : Batch) (k : Nat) : Prop where
  current : p.current = some batch
  inside : p.index < batch.setpoints.length
  ahead : batch.expansion.drop (k % batch.span) =
    List.replicate (max 1 p.duration) p.target ++
      Setpoint.expand (batch.setpoints.drop (p.index + 1))
  loops : batch.isInfinite = false → p.loopsLeft + k / batch.span = batch.loops.toNat

/-- The current batch and the place in it. -/
def place (p : Playlist) : Option Batch × Nat × Nat × Nat × UInt16 :=
  (p.current, p.loopsLeft, p.index, p.duration, p.target)

/-- The batch is cued for tick `k`, or it has been given up and does not play any more. -/
def Stands (p : Playlist) (batch : Batch) (k : Nat) : Prop :=
  p.Cued batch k ∨ (p.current = none ∧ ¬batch.PlaysAt k)

theorem Stands.of_place_eq {q : Playlist} (stands : p.Stands batch k) (same : q.place = p.place) :
    q.Stands batch k := by
  rcases q with ⟨queue, current, next, delay, loopsLeft, index, duration, target⟩
  cases same
  rcases stands with cued | ⟨idle, past⟩
  · exact Or.inl ⟨cued.current, cued.inside, cued.ahead, cued.loops⟩
  · exact Or.inr ⟨idle, past⟩

/-! ## The place in the pass -/

theorem Cued.rest_lt (cued : p.Cued batch k) :
    k % batch.span + max 1 p.duration +
      (Setpoint.expand (batch.setpoints.drop (p.index + 1))).length = batch.span := by
  have length := congrArg List.length cued.ahead
  rw [List.length_drop, batch.length_expansion, List.length_append, List.length_replicate]
    at length
  omega

theorem Cued.playsAt_iff (cued : p.Cued batch k) :
    batch.PlaysAt k ↔ batch.isInfinite = true ∨ 0 < p.loopsLeft := by
  have nonempty : batch.setpoints ≠ [] := by
    intro empty
    have inside := cued.inside
    rw [empty] at inside
    exact Nat.not_lt_zero _ inside
  have positive : 0 < batch.span := by
    have rest := cued.rest_lt
    omega
  unfold Batch.PlaysAt
  cases infinite : batch.isInfinite with
  | true => simp [nonempty]
  | false =>
    have loops := cued.loops infinite
    rw [← Nat.div_lt_iff_lt_mul positive]
    simp only [Bool.false_eq_true, false_and, false_or]
    omega

/-- The playing target is the one that the pass has for this tick. -/
theorem Cued.target_eq (cued : p.Cued batch k) :
    batch.expansion[k % batch.span]? = some p.target := by
  have positive : 0 < max 1 p.duration := by omega
  have head : (batch.expansion.drop (k % batch.span))[0]? = some p.target := by
    rw [cued.ahead, List.getElem?_append_left (by rwa [List.length_replicate]),
      List.getElem?_replicate_of_lt positive]
  rwa [List.getElem?_drop, Nat.add_zero] at head

theorem loadSetpoint_of_lt (current : p.current = some batch)
    (inside : p.index < batch.setpoints.length) :
    p.loadSetpoint =
      { p with
        duration := batch.setpoints[p.index].duration.toNat
        target := batch.setpoints[p.index].target } := by
  have found : p.current.bind (·.setpoints[p.index]?) = some batch.setpoints[p.index] := by
    rw [current, Option.bind_some, List.getElem?_eq_getElem inside]
  rw [loadSetpoint, found]

/-- Taking up the setpoint at the present place cues the batch, if the pass goes on from there. -/
theorem Cued.of_loadSetpoint (current : p.current = some batch)
    (inside : p.index < batch.setpoints.length)
    (ahead : batch.expansion.drop (k % batch.span) =
      Setpoint.expand (batch.setpoints.drop p.index))
    (loops : batch.isInfinite = false → p.loopsLeft + k / batch.span = batch.loops.toNat) :
    p.loadSetpoint.Cued batch k := by
  rw [loadSetpoint_of_lt current inside]
  exact ⟨current, inside, ahead.trans (Setpoint.expand_drop inside), loops⟩

private theorem succ_mod_of_lt (k span : Nat) (within : k % span + 1 < span) :
    (k + 1) % span = k % span + 1 ∧ (k + 1) / span = k / span := by
  have positive : 0 < span := by omega
  have whole := Nat.mod_add_div k span
  have split : k + 1 = k % span + 1 + span * (k / span) := by omega
  constructor
  · rw [split, Nat.add_mul_mod_self_left, Nat.mod_eq_of_lt within]
  · rw [split, Nat.add_mul_div_left _ _ positive, Nat.div_eq_of_lt within, Nat.zero_add]

private theorem succ_mod_of_eq (k span : Nat) (past : k % span + 1 = span) :
    (k + 1) % span = 0 ∧ (k + 1) / span = k / span + 1 := by
  have positive : 0 < span := by omega
  have whole := Nat.mod_add_div k span
  have split : k + 1 = span * (k / span + 1) := by
    rw [Nat.mul_add, Nat.mul_one]
    omega
  constructor
  · rw [split, Nat.mul_mod_right]
  · rw [split, Nat.mul_div_cancel_left _ positive]

/-- After a tick the batch is cued for the next one. -/
theorem Cued.advance (cued : p.Cued batch k) (plays : batch.PlaysAt k) :
    p.advance.Cued batch (k + 1) := by
  have length : p.currentLength = batch.setpoints.length := by
    rw [currentLength, cued.current]
    rfl
  have infinite : p.currentIsInfinite = batch.isInfinite := by
    rw [currentIsInfinite, cued.current]
    rfl
  have inside := cued.inside
  have rest := cued.rest_lt
  have step : batch.expansion.drop (k % batch.span + 1) =
      List.replicate (max 1 p.duration - 1) p.target ++
        Setpoint.expand (batch.setpoints.drop (p.index + 1)) := by
    rw [List.drop_add_one_eq_tail_drop, cued.ahead]
    obtain ⟨ticks, positive⟩ : ∃ ticks, max 1 p.duration = ticks + 1 :=
      ⟨max 1 p.duration - 1, by omega⟩
    rw [positive, List.replicate_succ, List.cons_append, List.tail_cons, Nat.add_sub_cancel]
  by_cases holding : 0 < p.duration - 1
  · -- The setpoint goes on, one tick shorter.
    rcases succ_mod_of_lt k batch.span (by omega) with ⟨place, pass⟩
    have ticks : max 1 p.duration - 1 = max 1 (p.duration - 1) := by omega
    rw [advance_of_holding holding]
    exact ⟨cued.current, inside, by rw [place, step, ticks], by rw [pass]; exact cued.loops⟩
  · have ticks : max 1 p.duration = 1 := by omega
    rw [ticks, Nat.sub_self, List.replicate_zero, List.nil_append] at step
    by_cases more : p.index + 1 < p.currentLength
    · -- The next setpoint of the pass is taken up.
      rw [length] at more
      have next := congrArg List.length (Setpoint.expand_drop more)
      rw [List.length_append, List.length_replicate, Setpoint.ticks] at next
      rcases succ_mod_of_lt k batch.span (by omega) with ⟨place, pass⟩
      rw [advance_of_more holding (length ▸ more)]
      exact Cued.of_loadSetpoint cued.current more (by rw [place, step])
        (by rw [pass]; exact cued.loops)
    · -- The pass is over, and the next one begins.
      rw [length] at more
      have last : batch.setpoints.drop (p.index + 1) = [] := List.drop_eq_nil_of_le (by omega)
      rw [last, Setpoint.expand, List.flatMap_nil, List.length_nil] at rest
      rcases succ_mod_of_eq k batch.span (by omega) with ⟨place, pass⟩
      have first : 0 < batch.setpoints.length := by omega
      rw [advance_of_last holding (length ▸ more), infinite]
      refine Cued.of_loadSetpoint cued.current first ?_ ?_
      · rw [place, List.drop_zero, List.drop_zero]
        rfl
      · intro finite
        have loops := cued.loops finite
        have left : 0 < p.loopsLeft := by
          rcases cued.playsAt_iff.mp plays with forever | left
          · rw [finite] at forever
            cases forever
          · exact left
        rw [pass]
        simp only [finite, Bool.false_eq_true, if_false]
        omega

/-! ## The phases of a tick -/

theorem Stands.loadNext (stands : p.Stands batch k) : p.loadNext.Stands batch k := by
  unfold Playlist.loadNext
  split
  · exact stands.of_place_eq rfl
  · exact stands

theorem Stands.activate (stands : p.Stands batch k) (waits : p.isDue = false) :
    p.activate.Stands batch k := by
  unfold Playlist.activate
  rw [if_neg (Bool.eq_false_iff.mp waits)]
  split
  · exact stands.of_place_eq rfl
  · exact stands

theorem Stands.releaseEmpty (stands : p.Stands batch k) : p.releaseEmpty.Stands batch k := by
  unfold Playlist.releaseEmpty
  split
  · next empty =>
    refine Or.inr ⟨rfl, ?_⟩
    rcases stands with cued | ⟨_, past⟩
    · rw [cued.current, Option.any_some, List.isEmpty_iff] at empty
      exact Batch.not_playsAt_of_empty empty k
    · exact past
  · exact stands

/-- A batch that becomes current is cued from its beginning, or has nothing to play. -/
theorem stands_switch (next : p.next = some batch) : p.switch.releaseEmpty.Stands batch 0 := by
  have current : p.switch.current = some batch := by
    unfold switch loadSetpoint
    split <;> exact next
  by_cases empty : batch.setpoints = []
  · refine Or.inr ⟨?_, Batch.not_playsAt_of_empty empty 0⟩
    unfold Playlist.releaseEmpty
    rw [current, Option.any_some, empty]
    rfl
  · refine Stands.releaseEmpty (Or.inl ?_)
    refine Cued.of_loadSetpoint next (List.length_pos_iff.mpr empty) ?_ ?_
    · rw [Nat.zero_mod, List.drop_zero, List.drop_zero]
      rfl
    · intro _
      rw [next, Nat.zero_div]
      rfl

/-- On the tick on which it becomes current, a batch is cued for tick zero. -/
theorem stands_prepare_zero (activates : p.activating = some batch) :
    p.prepare.Stands batch 0 := by
  unfold activating at activates
  split at activates
  · next due =>
    rw [Bool.and_eq_true] at due
    rw [prepare, activate, if_pos due.2]
    exact stands_switch activates
  · cases activates

theorem waits_of_activating (running : p.running = true) (alone : p.activating = none) :
    p.loadNext.isDue = false := by
  rw [activating, running, Bool.true_and] at alone
  cases due : p.loadNext.isDue with
  | false => rfl
  | true =>
    rw [if_pos due] at alone
    rw [isDue, alone] at due
    cases due

/-- On every other tick, a batch stands where it stood. -/
theorem Stands.prepare (stands : p.Stands batch k) (running : p.running = true)
    (alone : p.activating = none) : p.prepare.Stands batch k :=
  (stands.loadNext.activate (waits_of_activating running alone)).releaseEmpty

/-- A batch that stands at tick `k` plays on that tick as its expansion says, and stands at the
next tick afterwards. -/
theorem Stands.finish (stands : p.Stands batch k) (silent : p.rendered = none) :
    p.finish.2.Stands batch (k + 1) ∧
      (batch.PlaysAt k →
        p.finish.2.rendered = batch.expansion[k % batch.span]? ∧
          p.finish.2.rendered.isSome = true ∧ p.finish.2.current = some batch) ∧
      (¬batch.PlaysAt k →
        p.finish.2.rendered = none ∧ p.finish.1 = 0 ∧ p.finish.2.active = false ∧
          p.finish.2.current = none) := by
  have update : p.hasUpdate = true ↔ batch.PlaysAt k := by
    rcases stands with cued | ⟨idle, past⟩
    · rw [cued.playsAt_iff, hasUpdate, currentIsInfinite, cued.current]
      simp
    · simp [hasUpdate, idle, past]
  unfold Playlist.finish
  by_cases plays : batch.PlaysAt k
  · rw [if_pos (update.mpr plays)]
    rcases p.exists_render_eq with ⟨_, _, _, _, _, rendered⟩
    have shown : p.render.2.rendered = some p.target := by rw [rendered]
    have kept : p.render.2.current = p.current := by rw [rendered]
    rcases stands with cued | ⟨_, past⟩
    · refine ⟨Or.inl ?_, fun _ => ⟨?_, ?_, ?_⟩, fun past => absurd plays past⟩
      · exact Cued.advance ⟨cued.current, cued.inside, cued.ahead, cued.loops⟩ plays
      · rw [cued.target_eq, shown]
      · rw [shown]
        rfl
      · exact kept.trans cued.current
    · exact absurd plays past
  · rw [if_neg (update.not.mpr plays)]
    refine ⟨Or.inr ⟨rfl, ?_⟩, fun plays' => absurd plays' plays, fun _ => ⟨silent, rfl, rfl, rfl⟩⟩
    exact fun later => plays (later.of_le (Nat.le_succ k))

/-! ## Between the ticks -/

/-- What a call may make of a playlist.  It leaves the place in the current batch alone, and a
running playlist running.  All but `halt` leave what is next alone as well. -/
structure Called (p : Playlist) (operation : Operation) (answer : Answer) (q : Playlist) :
    Prop where
  place : q.place = p.place
  running : q.running = true ∨ (q.running = p.running ∧ q.active = p.active)
  waiting : operation ≠ .halt →
    q.queue = p.queue ++ operation.admits answer ∧ q.next = p.next ∧ q.delay = p.delay
  halted : operation = .halt → q.queue = [] ∧ q.next = some .stop ∧ q.delay = 0

theorem called_apply (p : Playlist) {operation : Operation} (call : operation.isCall = true) :
    p.Called operation (p.apply operation).1 (p.apply operation).2 := by
  by_cases halts : operation = .halt
  · subst halts
    exact ⟨rfl, Or.inr ⟨rfl, rfl⟩, fun other => absurd rfl other, fun _ => ⟨rfl, rfl, rfl⟩⟩
  have waits : ∀ {answer : Answer} {q : Playlist}, q.place = p.place →
      q.running = p.running → q.active = p.active →
        q.queue = p.queue ++ operation.admits answer → q.next = p.next → q.delay = p.delay →
          p.Called operation answer q :=
    fun place running active queue next delay =>
      ⟨place, Or.inr ⟨running, active⟩, fun _ => ⟨queue, next, delay⟩, fun is => absurd is halts⟩
  have nothing : p.queue = p.queue ++ [] := (List.append_nil p.queue).symm
  cases operation with
  | stop => cases call
  | tick sample => cases call
  | halt => exact absurd rfl halts
  | start renderer =>
    exact ⟨rfl, Or.inl rfl, fun _ => ⟨nothing, rfl, rfl⟩, fun is => absurd is halts⟩
  | enqueue batch =>
    simp only [apply, enqueue]
    split
    · exact waits rfl rfl rfl rfl rfl rfl
    · exact waits rfl rfl rfl nothing rfl rfl
  | enqueueAll batches =>
    simp only [apply, enqueueAll]
    split
    · exact waits rfl rfl rfl rfl rfl rfl
    · exact waits rfl rfl rfl nothing rfl rfl
  | setCoefficients coefficients =>
    simp only [apply, setCoefficients]
    split <;> exact waits rfl rfl rfl nothing rfl rfl
  | filter sample =>
    simp only [apply, filter]
    split <;> exact waits rfl rfl rfl nothing rfl rfl

/-- Of the calls, only `start` touches the flags. -/
theorem flags_apply_of_isCall {operation : Operation} (call : operation.isCall = true)
    (starts : ∀ renderer, operation ≠ .start renderer) :
    (p.apply operation).2.running = p.running ∧ (p.apply operation).2.active = p.active := by
  cases operation with
  | start renderer => exact absurd rfl (starts renderer)
  | stop => cases call
  | tick sample => cases call
  | halt => exact ⟨rfl, rfl⟩
  | enqueue batch =>
    simp only [apply, enqueue]
    split <;> exact ⟨rfl, rfl⟩
  | enqueueAll batches =>
    simp only [apply, enqueueAll]
    split <;> exact ⟨rfl, rfl⟩
  | setCoefficients coefficients =>
    simp only [apply, setCoefficients]
    split <;> exact ⟨rfl, rfl⟩
  | filter sample =>
    simp only [apply, filter]
    split <;> exact ⟨rfl, rfl⟩

theorem Called.still_running {operation : Operation} {answer : Answer} {q : Playlist}
    (called : p.Called operation answer q) (running : p.running = true) : q.running = true :=
  called.running.elim id fun same => same.1.trans running

theorem Stands.apply (stands : p.Stands batch k) {operation : Operation}
    (call : operation.isCall = true) (running : p.running = true) :
    (p.apply operation).2.Stands batch k ∧ (p.apply operation).2.running = true := by
  have called := p.called_apply call
  exact ⟨stands.of_place_eq called.place, called.still_running running⟩

theorem Stands.run (stands : p.Stands batch k) (running : p.running = true)
    {calls : List Operation} (only : ∀ operation ∈ calls, operation.isCall = true) :
    (p.run calls).Stands batch k ∧ (p.run calls).running = true := by
  induction calls generalizing p with
  | nil => exact ⟨stands, running⟩
  | cons operation rest ih =>
    rcases stands.apply (only operation (List.mem_cons_self ..)) running with ⟨after, still⟩
    exact ih after still fun other mem => only other (List.mem_cons_of_mem _ mem)

theorem Stands.sense (stands : p.Stands batch k) (sample : Binary32) :
    (p.sense sample).Stands batch k := by
  rcases p.exists_sense_eq sample with ⟨position, sensed⟩
  rw [sensed]
  exact stands.of_place_eq rfl

end Playlist

end Animatronic
