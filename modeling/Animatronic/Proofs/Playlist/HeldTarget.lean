import Animatronic.Proofs.Playlist.Reactivation

/-!
# Held targets

Gains may bring a target along, which a PID loop holds in place of those of the playing batch.
What it holds can be told from the history (`Scheduler.StillHeld`): it is the target that was the
last to come with gains, as long as no batch has become current and no renderer has been installed
since (`Scheduler.releases`).

A rendering tick steers toward the held target, or toward the playing one if none is held
(`PidRenderer.steer`).  The playback goes on as if there were no held targets: a history without
them leads to the same playlist but for the renderer (`Playlist.Parallel`).
-/

namespace Animatronic

/-- The target that comes with an operation. -/
def Operation.carried : Operation → Option UInt16
  | .setCoefficients coefficients => coefficients.target
  | _ => none

/-- The operation without the target that comes with it. -/
def Operation.withoutTarget : Operation → Operation
  | .setCoefficients coefficients => .setCoefficients { coefficients with target := none }
  | operation => operation

/-! ## The PID loop -/

/-- A rendering tick of a PID loop, which starts out from the position unless it is active.  It
moves toward the angle of the held target, or of the playing one if it holds none. -/
def PidRenderer.steer (loop : PidRenderer) (active : Bool) (position : Binary32)
    (target : UInt16) : Int8 × PidRenderer :=
  let ready := if active then loop.pid else loop.pid.reset position
  let angle := loop.calibration.scale (loop.held.getD target)
  let (output, pid) := (ready.setTarget angle).update position
  (Drive.clamp (Drive.ofNumber output), { loop with pid := pid, position := position })

/-- The target that a renderer holds.  Without a PID loop it holds none. -/
def Renderer.held : Renderer → Option UInt16
  | .pid loop => loop.held
  | .pulse _ => none

/-- The phases of a rendering tick. -/
theorem Renderer.compute_pid (loop : PidRenderer) (active : Bool) (position : Binary32)
    (target : UInt16) :
    let ready := if active then Renderer.pid loop else (Renderer.pid loop).reset position
    let computed := (ready.beforeTick position).compute target
    Drive.clamp computed.1 = (loop.steer active position target).1 ∧
      computed.2.afterTick = .pid (loop.steer active position target).2 := by
  cases active <;> exact ⟨rfl, rfl⟩

namespace Playlist

variable {p q : Playlist} {loop : PidRenderer} {sample : Binary32}

/-- The renderer is told of a batch that becomes current on this tick. -/
theorem renderer_prepare (running : p.running = true) :
    p.prepare.renderer =
      if p.activating.isSome then p.renderer.batchActivated else p.renderer := by
  have kept : p.loadNext.renderer = p.renderer := by
    unfold loadNext
    split <;> rfl
  have due : p.activating.isSome = p.loadNext.isDue := by
    unfold activating isDue
    rw [running, Bool.true_and]
    cases p.loadNext.next <;> cases decide (p.loadNext.delay = 0) <;> rfl
  have released : p.prepare.renderer = p.loadNext.activate.renderer := by
    unfold prepare releaseEmpty
    split <;> rfl
  rw [released, renderer_activate, kept, due]

/-- Besides the ticks, only new renderers and new gains change the renderer. -/
theorem renderer_apply {operation : Operation} (starts : ∀ renderer, operation ≠ .start renderer)
    (gains : ∀ coefficients, operation ≠ .setCoefficients coefficients)
    (ticks : ∀ sample, operation ≠ .tick sample) :
    (p.apply operation).2.renderer = p.renderer := by
  cases operation with
  | start renderer => exact absurd rfl (starts renderer)
  | setCoefficients coefficients => exact absurd rfl (gains coefficients)
  | tick sample => exact absurd rfl (ticks sample)
  | stop => rfl
  | halt => rfl
  | enqueue batch =>
    simp only [apply, enqueue]
    split <;> rfl
  | enqueueAll batches =>
    simp only [apply, enqueueAll]
    split <;> rfl
  | filter sample =>
    simp only [apply, filter]
    split <;> rfl

/-- The target that is rendered is that of the setpoint at the present place. -/
theorem Placed.setpoint_of_rendered {target : UInt16} (placed : p.Placed)
    (rendered : (p.tick sample).2.rendered = some target) :
    let ready := (p.sense sample).prepare
    ∃ setpoint, ready.current.bind (·.setpoints[ready.index]?) = some setpoint ∧
      setpoint.target = target := by
  cases running : p.running with
  | false =>
    obtain ⟨_, sensed⟩ := p.exists_sense_eq sample
    rw [tick_of_stopped running, sensed] at rendered
    cases rendered
  | true =>
    obtain ⟨batch, k, stands, -⟩ := placed.exists_stands running sample
    rw [tick_of_running running, finish] at rendered
    by_cases update : (p.sense sample).prepare.hasUpdate = true
    · rw [if_pos update] at rendered
      obtain ⟨_, _, _, _, _, shown⟩ := (p.sense sample).prepare.exists_render_eq
      rw [shown] at rendered
      rcases stands with cued | ⟨idle, -⟩
      · refine ⟨_, ?_, (cued.target_eq_setpoint cued.inside).symm.trans (Option.some.inj rendered)⟩
        rw [cued.current]
        exact List.getElem?_eq_getElem cued.inside
      · rw [hasUpdate, idle] at update
        cases update
    · rw [if_neg update, rest, p.rendered_prepare_sense sample] at rendered
      cases rendered

/-! ## Playing without held targets -/

/-- The two differ in their renderers only. -/
def Parallel (p q : Playlist) : Prop := ∃ renderer, q = { p with renderer := renderer }

theorem Parallel.loadSetpoint (parallel : p.Parallel q) :
    p.loadSetpoint.Parallel q.loadSetpoint := by
  obtain ⟨renderer, rfl⟩ := parallel
  unfold Playlist.loadSetpoint
  dsimp only
  split <;> exact ⟨renderer, rfl⟩

theorem Parallel.filter (parallel : p.Parallel q) (sample : Binary32) :
    (p.filter sample).Parallel (q.filter sample) := by
  obtain ⟨renderer, rfl⟩ := parallel
  unfold Playlist.filter
  dsimp only
  split <;> exact ⟨renderer, rfl⟩

theorem Parallel.activate (parallel : p.Parallel q) : p.activate.Parallel q.activate := by
  obtain ⟨renderer, rfl⟩ := parallel
  unfold Playlist.activate
  have due : ({ p with renderer := renderer } : Playlist).isDue = p.isDue := rfl
  rw [due]
  split
  · exact Parallel.loadSetpoint ⟨renderer.batchActivated, rfl⟩
  · dsimp only
    split <;> exact ⟨renderer, rfl⟩

theorem Parallel.prepare (parallel : p.Parallel q) : p.prepare.Parallel q.prepare := by
  have loaded : p.loadNext.Parallel q.loadNext := by
    obtain ⟨renderer, rfl⟩ := parallel
    obtain ⟨queue, current, next⟩ := p
    cases next <;> cases queue <;> exact ⟨renderer, rfl⟩
  obtain ⟨renderer, same⟩ := loaded.activate
  unfold Playlist.prepare releaseEmpty
  rw [same]
  dsimp only
  split <;> exact ⟨renderer, rfl⟩

theorem Parallel.advance (parallel : p.Parallel q) : p.advance.Parallel q.advance := by
  obtain ⟨renderer, rfl⟩ := parallel
  by_cases holding : 0 < p.duration - 1
  · rw [advance_of_holding holding,
      advance_of_holding (p := { p with renderer := renderer }) holding]
    exact ⟨renderer, rfl⟩
  · by_cases more : p.index + 1 < p.currentLength
    · rw [advance_of_more holding more,
        advance_of_more (p := { p with renderer := renderer }) holding more]
      exact Parallel.loadSetpoint ⟨renderer, rfl⟩
    · rw [advance_of_last holding more,
        advance_of_last (p := { p with renderer := renderer }) holding more]
      exact Parallel.loadSetpoint ⟨renderer, rfl⟩

theorem Parallel.finish (parallel : p.Parallel q) : p.finish.2.Parallel q.finish.2 := by
  obtain ⟨renderer, rfl⟩ := parallel
  unfold Playlist.finish
  have update : ({ p with renderer := renderer } : Playlist).hasUpdate = p.hasUpdate := rfl
  rw [update]
  split
  · exact Parallel.advance ⟨_, rfl⟩
  · exact ⟨renderer, rfl⟩

theorem Parallel.tick (parallel : p.Parallel q) (sample : Binary32) :
    (p.tick sample).2.Parallel (q.tick sample).2 := by
  have sensed : (p.sense sample).Parallel (q.sense sample) := by
    obtain ⟨renderer, same⟩ := parallel.filter sample
    rw [sense, sense, same]
    exact ⟨renderer, rfl⟩
  have running : q.running = p.running := by
    obtain ⟨_, rfl⟩ := parallel
    rfl
  cases runs : p.running with
  | false =>
    rw [tick_of_stopped runs, tick_of_stopped (running.trans runs)]
    exact sensed
  | true =>
    rw [tick_of_running runs, tick_of_running (running.trans runs)]
    exact sensed.prepare.finish

/-- Gains are a matter of the renderer, which may refuse them. -/
theorem parallel_setCoefficients (p : Playlist) (coefficients : Coefficients) :
    p.Parallel (p.setCoefficients coefficients).2 := by
  unfold Playlist.setCoefficients
  split
  · exact ⟨_, rfl⟩
  · exact ⟨p.renderer, rfl⟩

/-- What comes with the gains makes no difference to the playback. -/
theorem Parallel.apply (parallel : p.Parallel q) (operation : Operation) :
    (p.apply operation).2.Parallel (q.apply operation.withoutTarget).2 := by
  cases operation with
  | tick sample => exact parallel.tick sample
  | filter sample => exact parallel.filter sample
  | setCoefficients coefficients =>
    obtain ⟨_, first⟩ := p.parallel_setCoefficients coefficients
    obtain ⟨_, second⟩ := q.parallel_setCoefficients { coefficients with target := none }
    obtain ⟨_, rfl⟩ := parallel
    simp only [Playlist.apply, Operation.withoutTarget]
    rw [first, second]
    exact ⟨_, rfl⟩
  | start renderer =>
    obtain ⟨_, rfl⟩ := parallel
    exact ⟨renderer, rfl⟩
  | stop =>
    obtain ⟨renderer, rfl⟩ := parallel
    exact ⟨renderer, rfl⟩
  | halt =>
    obtain ⟨renderer, rfl⟩ := parallel
    exact ⟨renderer, rfl⟩
  | enqueue batch =>
    obtain ⟨renderer, rfl⟩ := parallel
    simp only [Playlist.apply, Operation.withoutTarget, enqueue]
    split <;> exact ⟨renderer, rfl⟩
  | enqueueAll batches =>
    obtain ⟨renderer, rfl⟩ := parallel
    simp only [Playlist.apply, Operation.withoutTarget, enqueueAll]
    split <;> exact ⟨renderer, rfl⟩

theorem Parallel.run (parallel : p.Parallel q) (history : List Operation) :
    (p.run history).Parallel (q.run (history.map Operation.withoutTarget)) := by
  induction history generalizing p q with
  | nil => exact parallel
  | cons operation rest ih => exact ih (parallel.apply operation)

end Playlist

namespace Scheduler

variable {s start : Scheduler} {history : List Operation} {operation : Operation}
  {loop : PidRenderer} {sample : Binary32} {target : UInt16}

/-! ## What is still held -/

/-- The operation ends the time of a held target: a renderer is installed, or a batch becomes
current. -/
def releases (s : Scheduler) : Operation → Bool
  | .start _ => true
  | .tick _ => s.activating.isSome
  | _ => false

/-- Of a history, the last target that came with gains, if it has not been released since. -/
def StillHeld (start : Scheduler) (history : List Operation) (target : UInt16) : Prop :=
  ∃ before operation after,
    History.Latest (fun _ operation => operation.carried.isSome) history before operation after ∧
      operation.carried = some target ∧
      History.Without (fun before operation => (start.run before).releases operation)
        (before ++ [operation]) after

theorem not_stillHeld_nil : ¬start.StillHeld [] target := by
  rintro ⟨_, _, _, latest, -, -⟩
  exact History.not_latest_nil latest

theorem stillHeld_append_of_some {carried : UInt16} (carries : operation.carried = some carried) :
    start.StillHeld (history ++ [operation]) target ↔ carried = target := by
  have holds : operation.carried.isSome = true := by rw [carries]; rfl
  constructor
  · rintro ⟨before, own, after, latest, is, -⟩
    obtain ⟨rfl, rfl, rfl⟩ := (History.latest_append_of holds).mp latest
    exact Option.some.inj (carries.symm.trans is)
  · rintro rfl
    exact ⟨history, operation, [], (History.latest_append_of holds).mpr ⟨rfl, rfl, rfl⟩, carries,
      History.without_nil _ _⟩

theorem stillHeld_append_of_none (bare : operation.carried = none) :
    start.StillHeld (history ++ [operation]) target ↔
      (start.run history).releases operation = false ∧ start.StillHeld history target := by
  have other : ¬operation.carried.isSome = true := by rw [bare]; exact Bool.false_ne_true
  constructor
  · rintro ⟨before, own, after, latest, is, without⟩
    obtain ⟨rest, rfl, shorter⟩ := (History.latest_append_of_not other).mp latest
    obtain ⟨kept, last⟩ := History.without_append_singleton.mp without
    rw [List.append_assoc, List.singleton_append, ← shorter.split, Bool.not_eq_true] at last
    exact ⟨last, before, own, rest, shorter, is, kept⟩
  · rintro ⟨last, before, own, rest, latest, is, kept⟩
    refine ⟨before, own, rest ++ [operation],
      (History.latest_append_of_not other).mpr ⟨rest, rfl, latest⟩, is, ?_⟩
    refine History.without_append_singleton.mpr ⟨kept, ?_⟩
    rw [List.append_assoc, List.singleton_append, ← latest.split, Bool.not_eq_true]
    exact last

/-! ## Rendering -/

/-- The drive of a rendering tick and the loop after it; the playback moves on. -/
theorem renderWith_pid (is : s.renderer = .pid loop) (active : Bool) :
    let rendered := s.renderWith (if active then s.renderer else s.renderer.reset s.position)
    rendered.1 = (loop.steer active s.position s.target).1 ∧
      rendered.2.renderer = .pid (loop.steer active s.position s.target).2 ∧
      rendered.2.position = s.position ∧ rendered.2.rendered = some s.target := by
  obtain ⟨drive, after⟩ := Renderer.compute_pid loop active s.position s.target
  rw [is]
  unfold renderWith
  dsimp only
  obtain ⟨_, _, _, _, advanced⟩ := exists_advance_eq
    { s with
      renderer := (((if active then Renderer.pid loop else (Renderer.pid loop).reset
        s.position).beforeTick s.position).compute s.target).2.afterTick
      active := true
      rendered := some s.target }
  rw [advanced]
  exact ⟨drive, after, rfl, rfl⟩

theorem Reachable.renderer_prepare (reachable : s.Reachable) (running : s.running = true)
    (is : s.renderer = .pid loop) (sample : Binary32) :
    (s.sense sample).prepare.renderer =
      .pid { loop with held := if s.activating.isSome then none else loop.held } := by
  have tracks := reachable.tracks.sense sample
  have prepared := congrArg Playlist.renderer tracks.prepare.playlist_eq
  have own : (s.playlist.sense sample).renderer = .pid loop := by
    obtain ⟨_, sensed⟩ := s.playlist.exists_sense_eq sample
    rw [sensed]
    exact is
  have runs := (s.playlist.running_sense sample).trans running
  rw [Playlist.renderer_prepare runs, Playlist.activating_sense, own,
    ← reachable.tracks.activating_eq] at prepared
  refine prepared.trans ?_
  split <;> rfl

/-- A tick changes what is held only by making a batch current. -/
theorem Reachable.exists_renderer_tick (reachable : s.Reachable) (is : s.renderer = .pid loop)
    (sample : Binary32) :
    ∃ pid position, (s.tick sample).2.renderer =
      .pid ⟨pid, loop.calibration, position, if s.activating.isSome then none else loop.held⟩ := by
  cases running : s.running with
  | false =>
    have alone : s.activating = none := by
      rw [activating, running, Bool.false_and]
      rfl
    have kept := congrArg Playlist.renderer (reachable.tracks.tick sample).2.playlist_eq
    obtain ⟨_, sensed⟩ := s.playlist.exists_sense_eq sample
    rw [Playlist.tick_of_stopped running, sensed] at kept
    rw [alone]
    exact ⟨_, _, kept.trans is⟩
  | true =>
    have ready := reachable.renderer_prepare running is sample
    rw [tick_of_running running, finish]
    split
    · have active := (renderWith_pid ready (s.sense sample).prepare.active).2.1
      exact ⟨_, _, active⟩
    · have kept : (s.sense sample).prepare.rest.renderer = (s.sense sample).prepare.renderer := by
        unfold rest releaseCurrent
        split <;> rfl
      exact ⟨_, _, kept.trans ready⟩

/-- What is held after an operation came with it, or was held before and has not been released. -/
theorem Reachable.exists_renderer_apply (reachable : s.Reachable) (is : s.renderer = .pid loop)
    (fresh : ∀ renderer, operation = .start renderer →
      ∃ calibration, renderer = .position calibration) :
    ∃ after, (s.apply operation).2.renderer = .pid after ∧
      after.held = (operation.carried <|> if s.releases operation then none else loop.held) := by
  have tracked : (s.apply operation).2.renderer = (s.playlist.apply operation).2.renderer :=
    congrArg Playlist.renderer (reachable.tracks.apply operation).2.playlist_eq
  cases operation with
  | start renderer =>
    obtain ⟨calibration, rfl⟩ := fresh renderer rfl
    exact ⟨_, rfl, rfl⟩
  | tick sample =>
    obtain ⟨_, _, after⟩ := reachable.exists_renderer_tick is sample
    exact ⟨_, after, rfl⟩
  | setCoefficients coefficients =>
    refine ⟨loop.setCoefficients coefficients, ?_, rfl⟩
    simp only [apply, setCoefficients, is, Renderer.setCoefficients]
  | _ =>
    refine ⟨loop, tracked.trans ((Playlist.renderer_apply ?_ ?_ ?_).trans is), rfl⟩
    all_goals exact fun _ is => (by cases is)

/-- A position board always has a PID loop, and that holds what is still held. -/
theorem exists_renderer_run (calibration : Calibration)
    (fresh : ∀ renderer, .start renderer ∈ history →
      ∃ calibration, renderer = .position calibration) :
    let start := initial (.position calibration)
    ∃ loop, (start.run history).renderer = .pid loop ∧
      ∀ target, loop.held = some target ↔ start.StillHeld history target := by
  induction history using List.reverseRecOn with
  | nil => exact ⟨_, rfl, fun target => iff_of_false nofun not_stillHeld_nil⟩
  | append_singleton history operation ih =>
    obtain ⟨loop, is, held⟩ := ih fun renderer mem => fresh renderer (List.mem_append_left _ mem)
    have reachable : ((initial (.position calibration)).run history).Reachable :=
      ⟨_, history, rfl⟩
    obtain ⟨after, own, now⟩ := reachable.exists_renderer_apply is fun renderer starts =>
      fresh renderer (List.mem_append_right _ (List.mem_singleton.mpr starts.symm))
    refine ⟨after, (run_append_singleton ..).symm ▸ own, fun target => ?_⟩
    rw [now]
    cases comes : operation.carried with
    | some carried =>
      rw [stillHeld_append_of_some comes]
      exact Option.some_inj
    | none =>
      rw [stillHeld_append_of_none comes, ← held target]
      cases ((initial (.position calibration)).run history).releases operation with
      | true => exact iff_of_false nofun fun kept => Bool.noConfusion kept.1
      | false => exact (and_iff_right rfl).symm

/-- A rendering tick steers toward what is held after it, or toward the target that it shows. -/
theorem Reachable.tick_pid (reachable : s.Reachable) (is : s.renderer = .pid loop)
    (rendered : (s.tick sample).2.rendered = some target) :
    let after := (s.tick sample).2
    let steered := { loop with held := after.renderer.held }.steer s.active after.position target
    (s.tick sample).1 = steered.1 ∧ after.renderer = .pid steered.2 := by
  obtain ⟨running, ticked⟩ := reachable.tick_of_rendered (Option.isSome_of_eq_some rendered)
  have ready := reachable.renderer_prepare running is sample
  obtain ⟨drive, after, position, shown⟩ := renderWith_pid ready s.active
  rw [← ticked] at drive after position shown
  obtain rfl := Option.some.inj (rendered.symm.trans shown)
  have held : (s.tick sample).2.renderer.held =
      if s.activating.isSome then none else loop.held := by
    rw [after]
    rfl
  dsimp only
  rw [held, position]
  exact ⟨drive, after⟩

/-- The target that is rendered is that of the playing setpoint. -/
theorem Reachable.currentSetpoint_of_rendered (reachable : s.Reachable)
    (rendered : (s.tick sample).2.rendered = some target) :
    ∃ setpoint, (s.sense sample).prepare.currentSetpoint = some setpoint ∧
      setpoint.target = target := by
  have shown := congrArg Playlist.rendered (reachable.tracks.tick sample).2.playlist_eq
  have ready := (reachable.tracks.sense sample).prepare.playlist_eq
  have playing := reachable.placed.setpoint_of_rendered (shown.symm.trans rendered)
  rw [← ready] at playing
  exact playing

/-! ## The law -/

/-- What a scheduler with a PID loop does about the targets that come with gains when it has been
through a history. -/
structure HoldsTarget (start : Scheduler) (history : List Operation) : Prop where
  pid : ∃ loop, (start.run history).renderer = .pid loop
  /-- It holds the last one of them until a batch becomes current or a renderer is installed. -/
  held : ∀ target,
    (start.run history).renderer.held = some target ↔ start.StillHeld history target
  /-- Gains without a target leave the held one alone. -/
  keeps : ∀ coefficients, coefficients.target = none →
    ((start.run history).apply (.setCoefficients coefficients)).2.renderer.held =
      (start.run history).renderer.held
  /-- A rendering tick shows the target of the playing setpoint, and steers toward it unless
  another one is held on this tick. -/
  steers : ∀ sample target,
    let s := start.run history
    let after := (s.tick sample).2
    after.rendered = some target →
      (∃ setpoint, (s.sense sample).prepare.currentSetpoint = some setpoint ∧
          setpoint.target = target) ∧
        ∃ loop, s.renderer = .pid loop ∧
          let steered :=
            { loop with held := after.renderer.held }.steer s.active after.position target
          (s.tick sample).1 = steered.1 ∧ after.renderer = .pid steered.2
  /-- Without the targets, the same history leads to the same playlist with another renderer. -/
  plays : ∃ renderer, (start.run (history.map Operation.withoutTarget)).playlist =
    { (start.run history).playlist with renderer := renderer }

/-- A target that came with gains wins over those of the batches until the next of them becomes
current, and it has no say in anything but the drive. -/
theorem holdsTarget (calibration : Calibration) (history : List Operation)
    (fresh : ∀ renderer, .start renderer ∈ history →
      ∃ calibration, renderer = .position calibration) :
    (initial (.position calibration)).HoldsTarget history := by
  obtain ⟨loop, is, held⟩ := exists_renderer_run calibration fresh
  have reachable : ((initial (.position calibration)).run history).Reachable := ⟨_, history, rfl⟩
  refine
    { pid := ⟨loop, is⟩
      held := fun target => ?_
      keeps := fun coefficients bare => ?_
      steers := fun sample target rendered =>
        ⟨reachable.currentSetpoint_of_rendered rendered, loop, is, reachable.tick_pid is rendered⟩
      plays := ?_ }
  · rw [is]
    exact held target
  · have other : ∀ renderer, Operation.setCoefficients coefficients = .start renderer →
        ∃ calibration, renderer = .position calibration := nofun
    obtain ⟨after, own, now⟩ := reachable.exists_renderer_apply is other
    rw [own, is]
    exact now.trans (by rw [Operation.carried, bare]; rfl)
  · have start := tracks_initial (.position calibration)
    have parallel : (Playlist.initial (.position calibration)).Parallel
        (Playlist.initial (.position calibration)) := ⟨_, rfl⟩
    rw [(start.run _).playlist_eq, (start.run history).playlist_eq]
    exact parallel.run history

/-- While an endless batch plays, a target comes with gains.  The next tick holds it and still
shows the target of the batch, and the tick after a halt lets it go. -/
theorem holdsTarget_until_halt :
    let batch : Batch := ⟨0, Batch.forever, [⟨1, 100⟩], by decide⟩
    let start := initial (.position .uncalibrated)
    let history : List Operation :=
      [.start (.position .uncalibrated), .enqueue batch, .tick .zero,
        .setCoefficients ⟨.zero, .zero, .zero, some 9000⟩, .tick .zero]
    .start (.position .uncalibrated) ∈ history ∧ start.HoldsTarget history ∧
      (start.run history).renderer.held = some 9000 ∧ (start.run history).rendered = some 100 ∧
      (start.run (history ++ [.halt, .tick .zero])).renderer.held = none := by
  intro batch start history
  have fresh : ∀ renderer, .start renderer ∈ history →
      ∃ calibration, renderer = .position calibration := by
    intro renderer mem
    simp only [history, List.mem_cons, Operation.start.injEq, reduceCtorEq, List.not_mem_nil,
      or_false] at mem
    exact ⟨.uncalibrated, mem⟩
  exact ⟨List.mem_cons_self, holdsTarget .uncalibrated history fresh, by decide, by decide,
    by decide⟩

end Scheduler

end Animatronic
