import Animatronic.Proofs.History
import Animatronic.Proofs.Playlist.EmergencyStop

/-!
# Rendering again after a pause

The scheduler is active exactly if its last tick rendered with the renderer that is installed now,
and it resets the renderer on each rendering tick that finds it inactive (`Interrupted`).  What a
renderer has gathered before is erased by the reset, whatever it was (`Renderer.Alike`).

So two inactive states that agree in everything else cannot be told apart by the drives and the
targets of any continuation.  `Playlist.Similar` is the relation between them: their renderers are
alike, and equal as soon as one tick has rendered; the playing targets are equal as long as there
is something to play.
-/

namespace Animatronic

/-! ## What a reset erases -/

namespace Renderer

variable {a b : Renderer}

/-- A reset makes the two equal. -/
def Alike (a b : Renderer) : Prop := ∀ position, a.reset position = b.reset position

theorem Alike.batchActivated (alike : a.Alike b) : a.batchActivated.Alike b.batchActivated := by
  have commutes : ∀ (renderer : Renderer) (position : Binary32),
      renderer.batchActivated.reset position = (renderer.reset position).batchActivated := by
    intro renderer position
    cases renderer <;> rfl
  intro position
  rw [commutes, commutes, alike position]

/-- New gains are installed in both or in neither. -/
theorem Alike.setCoefficients (alike : a.Alike b) (coefficients : Coefficients) :
    (∃ fault, a.setCoefficients coefficients = .error fault ∧
        b.setCoefficients coefficients = .error fault) ∨
      ∃ a' b', a.setCoefficients coefficients = .ok a' ∧
        b.setCoefficients coefficients = .ok b' ∧ a'.Alike b' := by
  have same := alike Binary32.zero
  cases a with
  | pid first =>
    cases b with
    | pid second =>
      refine Or.inr ⟨_, _, rfl, rfl, fun position => ?_⟩
      exact Except.ok.inj (congrArg (·.setCoefficients coefficients) (alike position))
    | pulse second => cases same
  | pulse first =>
    cases b with
    | pid second => cases same
    | pulse second => exact Or.inl ⟨_, rfl, rfl⟩

/-- A PID loop is told by its gains, its calibration and the target it holds. -/
theorem alike_pid {first second : PidRenderer} (kp : first.pid.kp = second.pid.kp)
    (ki : first.pid.ki = second.pid.ki) (kd : first.pid.kd = second.pid.kd)
    (calibration : first.calibration = second.calibration) (held : first.held = second.held) :
    (pid first).Alike (pid second) := by
  intro position
  simp only [reset, PidRenderer.reset, Pid.reset, kp, ki, kd, calibration, held]

end Renderer

namespace Playlist

variable {p q : Playlist} {batch : Batch} {k : Nat} {sample : Binary32} {operation : Operation}

/-! ## The playing target -/

/-- The playing target is that of the setpoint at the present place. -/
theorem Cued.target_eq_setpoint (cued : p.Cued batch k)
    (inside : p.index < batch.setpoints.length) : p.target = batch.setpoints[p.index].target := by
  have ahead := cued.ahead
  have pass : batch.expansion =
      Setpoint.expand (batch.setpoints.take p.index) ++
        Setpoint.expand (batch.setpoints.drop p.index) := by
    rw [Batch.expansion, Setpoint.expand, Setpoint.expand, Setpoint.expand, ← List.flatMap_append,
      List.take_append_drop]
  -- Both targets are the last one in front of the setpoints that are still to come.
  rw [Setpoint.expand_drop inside, ← List.append_assoc] at pass
  rw [← List.take_append_drop (k % batch.span) batch.expansion, ahead, ← List.append_assoc] at pass
  have last := congrArg List.getLast? (List.append_cancel_right pass)
  have ticks : 0 < batch.setpoints[p.index].ticks := by
    rw [Setpoint.ticks]
    omega
  rw [List.getLast?_append, List.getLast?_append, List.getLast?_replicate, List.getLast?_replicate,
    if_neg (by omega), if_neg (by omega)] at last
  exact Option.some.inj last

/-- Two playlists at the same place of a batch play the same target. -/
theorem Placed.target_eq (placed : p.Placed) (other : q.Placed) (current : p.current = some batch)
    (same : q.current = some batch) (index : p.index = q.index) : q.target = p.target := by
  have cued : ∀ {r : Playlist}, r.Placed → r.current = some batch → ∃ k, r.Cued batch k := by
    intro r placed current
    obtain ⟨own, k, cued | ⟨idle, -⟩⟩ := placed.stands
    · obtain rfl : own = batch := Option.some.inj (cued.current.symm.trans current)
      exact ⟨k, cued⟩
    · rw [idle] at current
      cases current
  obtain ⟨_, first⟩ := cued placed current
  obtain ⟨_, second⟩ := cued other same
  rw [first.target_eq_setpoint first.inside, second.target_eq_setpoint second.inside]
  simp only [index]

/-! ## Two runs -/

/-- The two differ in their renderers, which are alike, and perhaps in the target shown last; and
if there is nothing to play, in the playing target.  While they are active the renderers are
equal. -/
def Similar (p q : Playlist) : Prop :=
  ∃ target renderer rendered,
    q = { p with target := target, renderer := renderer, rendered := rendered } ∧
      (∀ batch, p.current = some batch → batch.setpoints ≠ [] → target = p.target) ∧
      p.renderer.Alike renderer ∧ (p.active = true → renderer = p.renderer)

theorem Similar.refl (p : Playlist) : p.Similar p :=
  ⟨_, _, _, rfl, fun _ _ _ => rfl, fun _ => rfl, fun _ => rfl⟩

theorem Similar.filter (similar : p.Similar q) (sample : Binary32) :
    (p.filter sample).Similar (q.filter sample) := by
  obtain ⟨target, renderer, rendered, rfl, aimed, alike, kept⟩ := similar
  unfold Playlist.filter
  dsimp only
  split <;> exact ⟨target, renderer, rendered, rfl, aimed, alike, kept⟩

theorem Similar.sense (similar : p.Similar q) (sample : Binary32) :
    (p.sense sample).Similar (q.sense sample) := by
  obtain ⟨target, renderer, rendered, same, aimed, alike, kept⟩ := similar.filter sample
  rw [Playlist.sense, Playlist.sense, same]
  exact ⟨target, renderer, none, rfl, aimed, alike, kept⟩

theorem Similar.loadNext (similar : p.Similar q) : p.loadNext.Similar q.loadNext := by
  obtain ⟨target, renderer, rendered, rfl, aimed, alike, kept⟩ := similar
  obtain ⟨queue, current, next⟩ := p
  cases next <;> cases queue <;> exact ⟨target, renderer, rendered, rfl, aimed, alike, kept⟩

/-- A batch with something to play brings its own target along. -/
theorem Similar.switch (similar : p.Similar q) : p.switch.Similar q.switch := by
  obtain ⟨target, renderer, rendered, rfl, aimed, alike, kept⟩ := similar
  have kept : p.active = true → renderer.batchActivated = p.renderer.batchActivated :=
    fun active => congrArg Renderer.batchActivated (kept active)
  unfold Playlist.switch loadSetpoint
  dsimp only
  split
  · exact ⟨_, _, rendered, rfl, fun _ _ _ => rfl, alike.batchActivated, kept⟩
  · next empty =>
    refine ⟨target, _, rendered, rfl, fun batch current nonempty => ?_, alike.batchActivated, kept⟩
    rw [show p.next = some batch from current, Option.bind_some,
      List.getElem?_eq_none_iff] at empty
    exact absurd (List.eq_nil_of_length_eq_zero (Nat.le_zero.mp empty)) nonempty

theorem Similar.activate (similar : p.Similar q) : p.activate.Similar q.activate := by
  have switched := similar.switch
  obtain ⟨target, renderer, rendered, rfl, aimed, alike, kept⟩ := similar
  unfold Playlist.activate
  have due : ({ p with target := target, renderer := renderer, rendered := rendered } :
      Playlist).isDue = p.isDue := rfl
  rw [due]
  split
  · exact switched
  · dsimp only
    split <;> exact ⟨target, renderer, rendered, rfl, aimed, alike, kept⟩

theorem Similar.prepare (similar : p.Similar q) : p.prepare.Similar q.prepare := by
  obtain ⟨target, renderer, rendered, same, aimed, alike, kept⟩ := similar.loadNext.activate
  unfold Playlist.prepare Playlist.releaseEmpty
  rw [same]
  dsimp only
  split
  · exact ⟨target, renderer, rendered, rfl, fun _ is => (by cases is), alike, kept⟩
  · exact ⟨target, renderer, rendered, rfl, aimed, alike, kept⟩

/-- What plays after the empty batches have been given up has something to play. -/
theorem exists_of_hasUpdate_prepare (update : p.prepare.hasUpdate = true) :
    ∃ batch, p.prepare.current = some batch ∧ batch.setpoints ≠ [] := by
  rw [hasUpdate, Bool.and_eq_true] at update
  obtain ⟨batch, current⟩ := Option.isSome_iff_exists.mp update.1
  refine ⟨batch, current, fun empty => ?_⟩
  unfold prepare releaseEmpty at current
  split at current
  · cases current
  · next nonempty =>
    rw [current, Option.any_some, empty] at nonempty
    exact nonempty rfl

/-- Once a tick has rendered, nothing is left of the difference. -/
theorem Similar.render_eq (similar : p.Similar q)
    (plays : ∃ batch, p.current = some batch ∧ batch.setpoints ≠ []) : p.render = q.render := by
  obtain ⟨target, renderer, rendered, rfl, aimed, alike, kept⟩ := similar
  obtain ⟨batch, current, nonempty⟩ := plays
  obtain rfl := aimed batch current nonempty
  have ready : (if p.active then p.renderer else p.renderer.reset p.position) =
      if p.active then renderer else renderer.reset p.position := by
    split
    · next active => rw [kept active]
    · exact alike _
  unfold Playlist.render
  rw [ready]
  rfl

theorem Similar.tick (similar : p.Similar q) (sample : Binary32) :
    (p.tick sample).1 = (q.tick sample).1 ∧
      (p.tick sample).2.rendered = (q.tick sample).2.rendered ∧
      (p.tick sample).2.Similar (q.tick sample).2 := by
  have sensed := similar.sense sample
  have prepared := sensed.prepare
  have silent := p.rendered_prepare_sense sample
  have silent' := q.rendered_prepare_sense sample
  have running : q.running = p.running := by
    obtain ⟨_, _, _, rfl, -⟩ := similar
    rfl
  cases runs : p.running with
  | false =>
    rw [tick_of_stopped runs, tick_of_stopped (running.trans runs)]
    exact ⟨rfl, rfl, sensed⟩
  | true =>
    rw [tick_of_running runs, tick_of_running (running.trans runs)]
    have update : (q.sense sample).prepare.hasUpdate = (p.sense sample).prepare.hasUpdate := by
      obtain ⟨_, _, _, same, -⟩ := prepared
      rw [same]
      rfl
    unfold finish
    rw [update]
    by_cases plays : (p.sense sample).prepare.hasUpdate = true
    · rw [if_pos plays, if_pos plays, prepared.render_eq (exists_of_hasUpdate_prepare plays)]
      exact ⟨rfl, rfl, Similar.refl _⟩
    · rw [if_neg plays, if_neg plays]
      refine ⟨rfl, silent.trans silent'.symm, ?_⟩
      obtain ⟨target, renderer, rendered, same, -, alike, -⟩ := prepared
      rw [same]
      exact ⟨target, renderer, rendered, rfl, fun _ is => (by cases is), alike,
        fun is => (by cases is)⟩

theorem Similar.setCoefficients (similar : p.Similar q) (coefficients : Coefficients) :
    (p.setCoefficients coefficients).1 = (q.setCoefficients coefficients).1 ∧
      (p.setCoefficients coefficients).2.Similar (q.setCoefficients coefficients).2 := by
  obtain ⟨target, renderer, rendered, rfl, aimed, alike, kept⟩ := similar
  unfold Playlist.setCoefficients
  rcases alike.setCoefficients coefficients with ⟨fault, refused, refused'⟩ |
    ⟨first, second, installed, installed', alike'⟩
  · rw [refused, refused']
    exact ⟨rfl, target, renderer, rendered, rfl, aimed, alike, kept⟩
  · rw [installed, installed']
    refine ⟨rfl, target, second, rendered, rfl, aimed, alike', fun active => ?_⟩
    rw [kept active, installed] at installed'
    exact (Except.ok.inj installed').symm

/-- No operation tells the two apart. -/
theorem Similar.apply (similar : p.Similar q) (operation : Operation) :
    (p.apply operation).1 = (q.apply operation).1 ∧
      (p.apply operation).2.Similar (q.apply operation).2 := by
  cases operation with
  | tick sample =>
    obtain ⟨drive, -, after⟩ := similar.tick sample
    exact ⟨congrArg Answer.drive drive, after⟩
  | filter sample => exact ⟨rfl, similar.filter sample⟩
  | setCoefficients coefficients =>
    obtain ⟨answer, after⟩ := similar.setCoefficients coefficients
    exact ⟨congrArg Answer.ofResult answer, after⟩
  | start renderer =>
    obtain ⟨target, _, rendered, rfl, aimed, -, -⟩ := similar
    exact ⟨rfl, target, renderer, rendered, rfl, aimed, fun _ => rfl, fun _ => rfl⟩
  | stop =>
    obtain ⟨_, renderer, _, rfl, -, alike, -⟩ := similar
    exact ⟨rfl, 0, renderer, none, rfl, fun _ is => (by cases is), alike, fun is => (by cases is)⟩
  | halt =>
    obtain ⟨target, renderer, rendered, rfl, aimed, alike, kept⟩ := similar
    exact ⟨rfl, target, renderer, rendered, rfl, aimed, alike, kept⟩
  | enqueue batch =>
    obtain ⟨target, renderer, rendered, rfl, aimed, alike, kept⟩ := similar
    simp only [Playlist.apply, enqueue]
    split <;> exact ⟨rfl, target, renderer, rendered, rfl, aimed, alike, kept⟩
  | enqueueAll batches =>
    obtain ⟨target, renderer, rendered, rfl, aimed, alike, kept⟩ := similar
    simp only [Playlist.apply, enqueueAll]
    split <;> exact ⟨rfl, target, renderer, rendered, rfl, aimed, alike, kept⟩

theorem Similar.run (similar : p.Similar q) (history : List Operation) :
    (p.run history).Similar (q.run history) := by
  induction history generalizing p q with
  | nil => exact similar
  | cons operation rest ih => exact ih (similar.apply operation).2

/-! ## The active flag -/

theorem active_tick (placed : p.Placed) (sample : Binary32) :
    (p.tick sample).2.active = (p.tick sample).2.rendered.isSome := by
  cases running : p.running with
  | false =>
    obtain ⟨_, sensed⟩ := p.exists_sense_eq sample
    rw [tick_of_stopped running, sensed]
    exact (placed.idle running).1
  | true =>
    rw [tick_of_running running, finish]
    split
    · obtain ⟨_, _, _, _, _, rendered⟩ := (p.sense sample).prepare.exists_render_eq
      rw [rendered]
      rfl
    · rw [rest, p.rendered_prepare_sense sample]
      rfl

end Playlist

namespace Scheduler

variable {s t : Scheduler} {history : List Operation}

/-! ## When the renderer is reset -/

/-- The rest of a rendering tick once the renderer is ready. -/
def renderWith (s : Scheduler) (ready : Renderer) : Int8 × Scheduler :=
  let (drive, renderer) := (ready.beforeTick s.position).compute s.target
  let s := { s with renderer := renderer.afterTick, active := true, rendered := some s.target }
  (Drive.clamp drive, s.advance)

/-- Whichever tick is the last of a history, it has rendered nothing or a renderer has been
installed since. -/
def Interrupted (s : Scheduler) (history : List Operation) : Prop :=
  ∀ before sample after, history = before ++ .tick sample :: after →
    (∀ other, .tick other ∉ after) →
      (s.run (before ++ [.tick sample])).rendered = none ∨ ∃ renderer, .start renderer ∈ after

theorem interrupted_nil (s : Scheduler) : s.Interrupted [] := by
  intro before sample after split
  cases before <;> cases split

theorem interrupted_append_tick (s : Scheduler) (history : List Operation) (sample : Binary32) :
    s.Interrupted (history ++ [.tick sample]) ↔
      (s.run (history ++ [.tick sample])).rendered = none := by
  constructor
  · intro interrupted
    rcases interrupted history sample [] rfl (fun _ => List.not_mem_nil) with silent | ⟨_, mem⟩
    · exact silent
    · cases mem
  · intro silent before own after split only
    rcases History.append_singleton_eq_iff.mp split with ⟨rfl, is, rfl⟩ | ⟨rest, rfl, -⟩
    · rw [is]
      exact Or.inl silent
    · exact absurd (List.mem_append_right _ (List.mem_singleton_self _)) (only sample)

theorem interrupted_append_start (s : Scheduler) (history : List Operation) (renderer : Renderer) :
    s.Interrupted (history ++ [.start renderer]) := by
  intro before own after split only
  rcases History.append_singleton_eq_iff.mp split with ⟨-, is, -⟩ | ⟨rest, rfl, -⟩
  · cases is
  · exact Or.inr ⟨renderer, List.mem_append_right _ (List.mem_singleton_self _)⟩

/-- Other operations do not count. -/
theorem interrupted_append (s : Scheduler) (history : List Operation) {operation : Operation}
    (ticks : ∀ sample, operation ≠ .tick sample)
    (starts : ∀ renderer, operation ≠ .start renderer) :
    s.Interrupted (history ++ [operation]) ↔ s.Interrupted history := by
  constructor
  · intro interrupted before own after split only
    have longer : history ++ [operation] = before ++ .tick own :: (after ++ [operation]) := by
      rw [split, List.append_assoc, List.cons_append]
    have quiet : ∀ other, Operation.tick other ∉ after ++ [operation] := by
      intro other mem
      rcases List.mem_append.mp mem with mem | mem
      · exact only other mem
      · exact ticks other (List.mem_singleton.mp mem).symm
    refine (interrupted before own _ longer quiet).imp_right fun ⟨renderer, mem⟩ => ⟨renderer, ?_⟩
    rcases List.mem_append.mp mem with mem | mem
    · exact mem
    · exact absurd (List.mem_singleton.mp mem).symm (starts renderer)
  · intro interrupted before own after split only
    rcases History.append_singleton_eq_iff.mp split with ⟨-, is, -⟩ | ⟨rest, rfl, shorter⟩
    · exact absurd is.symm (ticks own)
    · refine (interrupted before own rest shorter fun other mem => ?_).imp_right
        fun ⟨renderer, mem⟩ => ⟨renderer, List.mem_append_left _ mem⟩
      exact only other (List.mem_append_left _ mem)

theorem Reachable.active_tick (reachable : s.Reachable) (sample : Binary32) :
    (s.tick sample).2.active = (s.tick sample).2.rendered.isSome := by
  have flag := Playlist.active_tick reachable.placed sample
  rwa [← (reachable.tracks.tick sample).2.playlist_eq] at flag

/-- A running scheduler is inactive if its rendering has been interrupted, and only then. -/
theorem active_eq_false_iff (renderer : Renderer) (history : List Operation)
    (running : ((initial renderer).run history).running = true) :
    ((initial renderer).run history).active = false ↔ (initial renderer).Interrupted history := by
  induction history using List.reverseRecOn with
  | nil => exact ⟨fun _ => interrupted_nil _, fun _ => rfl⟩
  | append_singleton history operation ih =>
    have reachable : ((initial renderer).run history).Reachable := ⟨renderer, history, rfl⟩
    have after := (reachable.tracks.apply operation).2
    rw [run_append_singleton] at running ⊢
    by_cases starts : ∃ other, operation = .start other
    · obtain ⟨other, rfl⟩ := starts
      exact ⟨fun _ => interrupted_append_start _ _ other, fun _ => rfl⟩
    rw [not_exists] at starts
    by_cases call : operation.isCall = true
    · obtain ⟨flag, active⟩ := Playlist.flags_apply_of_isCall
        (p := ((initial renderer).run history).playlist) call starts
      rw [← after.playlist_eq] at flag active
      have ticks : ∀ sample, operation ≠ .tick sample := by
        rintro sample rfl
        cases call
      rw [interrupted_append _ _ ticks starts, ← ih (flag.symm.trans running)]
      exact ⟨active.symm.trans, active.trans⟩
    · cases operation with
      | stop => cases running
      | tick sample =>
        have flag := reachable.active_tick sample
        rw [interrupted_append_tick, run_append_singleton, ← Option.isNone_iff_eq_none,
          ← Option.isSome_eq_false_iff]
        exact ⟨flag.symm.trans, flag.trans⟩
      | _ => exact absurd rfl call

/-- A tick that renders does so with the renderer reset, unless the scheduler is active. -/
theorem Reachable.tick_of_rendered (reachable : s.Reachable) {sample : Binary32}
    (rendered : (s.tick sample).2.rendered.isSome = true) :
    s.running = true ∧ s.tick sample = (s.sense sample).prepare.renderWith
      (if s.active then (s.sense sample).prepare.renderer
        else (s.sense sample).prepare.renderer.reset (s.sense sample).prepare.position) := by
  have tracks := (reachable.tracks.sense sample).prepare
  obtain ⟨_, sensed⟩ := s.playlist.exists_sense_eq sample
  obtain ⟨_, _, _, _, _, _, _, _, _, prepared⟩ := (s.playlist.sense sample).exists_prepare_eq
  have flag : (s.sense sample).prepare.active = s.active := by
    have same := congrArg Playlist.active tracks.playlist_eq
    rw [prepared, sensed] at same
    exact same
  have silent : (s.sense sample).prepare.rest.rendered = none :=
    (congrArg Playlist.rendered tracks.rest.playlist_eq).trans
      (s.playlist.rendered_prepare_sense sample)
  cases running : s.running with
  | false =>
    obtain ⟨_, same⟩ := s.exists_sense_eq sample
    rw [Scheduler.tick, same, if_neg (by simp [running])] at rendered
    cases rendered
  | true =>
    refine ⟨rfl, ?_⟩
    rw [tick_of_running running, finish] at rendered ⊢
    by_cases plays : (s.sense sample).prepare.hasUpdate = true
    · rw [if_pos plays, ← flag]
      rfl
    · rw [if_neg plays, silent] at rendered
      cases rendered

/-! ## Two schedulers at rest -/

/-- Two schedulers run and are inactive, and agree in everything but what their PID loops have
gathered. -/
structure AgreesAtRest (s t : Scheduler) (first second : PidRenderer) : Prop where
  running : s.running = true ∧ t.running = true
  inactive : s.active = false ∧ t.active = false
  renderers : s.renderer = .pid first ∧ t.renderer = .pid second
  gains : first.pid.kp = second.pid.kp ∧ first.pid.ki = second.pid.ki ∧
    first.pid.kd = second.pid.kd
  calibration : first.calibration = second.calibration
  held : first.held = second.held
  queue : s.playlist.queue = t.playlist.queue
  next : s.nextBatch = t.nextBatch
  current : s.currentBatch = t.currentBatch
  counters : s.delay = t.delay ∧ s.loopsLeft = t.loopsLeft ∧ s.index = t.index ∧
    s.duration = t.duration
  filtered : s.filtered = t.filtered

theorem AgreesAtRest.similar {first second : PidRenderer} (agrees : s.AgreesAtRest t first second)
    (reachable : s.Reachable) (other : t.Reachable) : s.playlist.Similar t.playlist := by
  obtain ⟨delay, loops, index, duration⟩ := agrees.counters
  refine ⟨t.target, t.renderer, t.rendered, ?_, fun batch current _ => ?_, ?_, fun active => ?_⟩
  · simp only [playlist, Playlist.mk.injEq, true_and, and_true]
    exact ⟨agrees.queue.symm, agrees.current.symm, agrees.next.symm, delay.symm, loops.symm,
      index.symm, duration.symm, agrees.running.2.trans agrees.running.1.symm,
      agrees.inactive.2.trans agrees.inactive.1.symm, agrees.filtered.symm⟩
  · exact reachable.placed.target_eq other.placed current (agrees.current.symm.trans current) index
  · have loop : s.playlist.renderer = .pid first := agrees.renderers.1
    rw [loop, agrees.renderers.2]
    obtain ⟨kp, ki, kd⟩ := agrees.gains
    exact Renderer.alike_pid kp ki kd agrees.calibration agrees.held
  · have idle : s.playlist.active = false := agrees.inactive.1
    rw [idle] at active
    cases active

/-- What a scheduler does about its renderer when it has been through a history. -/
structure ResetsRenderer (start : Scheduler) (history : List Operation) : Prop where
  /-- After each tick the scheduler is active if the tick has rendered, and only then. -/
  active : ∀ sample,
    let after := ((start.run history).tick sample).2
    after.active = after.rendered.isSome
  /-- A rendering tick resets the renderer if the rendering was interrupted, and only then. -/
  resets : ∀ sample,
    let s := start.run history
    let prepared := (s.sense sample).prepare
    (s.tick sample).2.rendered.isSome = true →
      (start.Interrupted history →
          s.tick sample = prepared.renderWith (prepared.renderer.reset prepared.position)) ∧
        (¬start.Interrupted history → s.tick sample = prepared.renderWith prepared.renderer)
  /-- What a PID loop has gathered before makes no difference: any other scheduler that agrees in
  the rest gives the same answers, drives included, and shows the same targets. -/
  erased : ∀ (other : Scheduler) (first second : PidRenderer), other.Reachable →
    (start.run history).AgreesAtRest other first second → ∀ continuation,
      (∀ operation, (((start.run history).run continuation).apply operation).1 =
          ((other.run continuation).apply operation).1) ∧
        ∀ sample, (((start.run history).run continuation).tick sample).2.rendered =
          ((other.run continuation).tick sample).2.rendered

/-- Whatever has happened to a scheduler, it starts to render from the position alone. -/
theorem resetsRenderer (renderer : Renderer) (history : List Operation) :
    (initial renderer).ResetsRenderer history := by
  have reachable : ((initial renderer).run history).Reachable := ⟨renderer, history, rfl⟩
  refine
    { active := reachable.active_tick
      resets := fun sample rendered => ?_
      erased := fun other first second reachable' agrees continuation => ?_ }
  · obtain ⟨running, rendered⟩ := reachable.tick_of_rendered rendered
    rw [← active_eq_false_iff renderer history running, rendered]
    refine ⟨fun idle => ?_, fun active => ?_⟩
    · rw [idle, if_neg Bool.false_ne_true]
    · rw [Bool.not_eq_false] at active
      rw [active, if_pos rfl]
  · have tracks := reachable.tracks.run continuation
    have tracks' := reachable'.tracks.run continuation
    have similar := (agrees.similar reachable reachable').run continuation
    refine ⟨fun operation => ?_, fun sample => ?_⟩
    · rw [(tracks.apply operation).1, (tracks'.apply operation).1]
      exact (similar.apply operation).1
    · obtain ⟨-, shown, -⟩ := similar.tick sample
      have shows := congrArg Playlist.rendered (tracks.tick sample).2.playlist_eq
      have shows' := congrArg Playlist.rendered (tracks'.tick sample).2.playlist_eq
      exact shows.trans (shown.trans shows'.symm)

/-- Two loops that have gathered different errors agree at rest once they are installed. -/
example :
    let gathered : PidRenderer :=
      { PidRenderer.ofCalibration .uncalibrated with pid := { Pid.idle with integrator := .two } }
    ((initial .vibration).run [.start (.pid gathered)]).AgreesAtRest
      ((initial .vibration).run [.start (.position .uncalibrated)])
      gathered (.ofCalibration .uncalibrated) := by
  constructor <;> decide

end Scheduler

end Animatronic
