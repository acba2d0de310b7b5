import Animatronic.Proofs.Binary32.Finite
import Animatronic.Proofs.Playlist.Simulation

/-!
# Bounds of the control loop

Gains, samples and targets come unchecked from the bus and the sensor.  Whatever they are, the
state of a PID loop stays finite with its integrator in the drive range (`Pid.IsSound`), and so
does all that it gives out.  Each request restores by itself what it might have broken: an error or
an output that is not finite becomes zero, and the setpoint moves by a step that is too small to
carry a finite number past the largest one.

A scheduler takes over no sample that is not finite, and clamps every drive, so that its position
stays finite and its drives stay in range with any renderer at all.
-/

namespace Animatronic

/-! ## The PID loop -/

namespace Pid

open Binary32 (zero)

variable {pid : Pid} {x : Binary32}

/-- Something that is asked of a PID loop. -/
inductive Request
  | setGains (kp ki kd : Binary32) (tickRate : UInt32)
  | reset (position : Binary32)
  | setTarget (target : Binary32)
  | update (position : Binary32)
deriving DecidableEq

/-- The loop after a request.  What `setTarget` answers is the setpoint that it leaves. -/
def serve (pid : Pid) : Request → Pid
  | .setGains kp ki kd tickRate => pid.setGains kp ki kd tickRate
  | .reset position => pid.reset position
  | .setTarget target => pid.setTarget target
  | .update position => (pid.update position).2

def serveAll (pid : Pid) (requests : List Request) : Pid := requests.foldl serve pid

/-- A finite number in the drive range. -/
def InRange (x : Binary32) : Prop :=
  x.isFinite = true ∧ -Drive.limitAsNumber ≤ x ∧ x ≤ Drive.limitAsNumber

/-- What a loop keeps about its numbers. -/
structure IsSound (pid : Pid) : Prop where
  setpoint : pid.setpoint.isFinite = true
  lastError : pid.lastError.isFinite = true
  integrator : InRange pid.integrator

theorem inRange_zero : InRange zero := by
  unfold InRange
  decide

theorem isSound_idle : idle.IsSound := ⟨rfl, rfl, inRange_zero⟩

theorem isFinite_finiteOrZero (x : Binary32) : (finiteOrZero x).isFinite = true := by
  unfold finiteOrZero
  split
  · assumption
  · rfl

theorem inRange_bounded (x : Binary32) : InRange (bounded x) := by
  unfold bounded finiteOrZero
  split
  · next finite =>
    have number : x.isNaN = false := by
      by_contra nan
      rw [Bool.not_eq_false] at nan
      have still := Binary32.isNaN_clamp nan (-Drive.limitAsNumber) Drive.limitAsNumber
      rw [Binary32.isNaN_of_isFinite finite] at still
      cases still
    exact ⟨finite, Binary32.clamp_bounds number (by decide)⟩
  · exact inRange_zero

/-- A step of the setpoint is finite, and small next to the largest number. -/
theorem step_bounds (number : x.isNaN = false) :
    (x.clamp (-maxStep) maxStep).isFinite = true ∧
      (x.clamp (-maxStep) maxStep).magnitude ≤ maxStep.magnitude := by
  obtain ⟨lower, upper⟩ := Binary32.clamp_bounds number (show -maxStep ≤ maxStep by decide)
  have small := Binary32.magnitude_le_of_between lower upper (by decide)
  have finite : maxStep.magnitude < Binary32.infiniteMagnitude := by decide
  exact ⟨Binary32.isFinite_of_magnitude_lt (Nat.lt_of_le_of_lt small finite), small⟩

theorem isFinite_setpoint_setTarget (pid : Pid) (target : Binary32) :
    (pid.setTarget target).setpoint.isFinite = true := by
  have base := isFinite_finiteOrZero pid.setpoint
  unfold setTarget
  dsimp only
  split
  · next finite =>
    obtain ⟨step, small⟩ := step_bounds (Binary32.isNaN_sub finite base)
    have room : maxStep.magnitude < Binary32.overflowThreshold - Binary32.largestMagnitude := by
      decide
    exact Binary32.isFinite_add base step (Nat.lt_of_le_of_lt small room)
  · exact base

theorem IsSound.setTarget (sound : pid.IsSound) (target : Binary32) :
    (pid.setTarget target).IsSound := by
  have setpoint := pid.isFinite_setpoint_setTarget target
  unfold Pid.setTarget at setpoint ⊢
  dsimp only at setpoint ⊢
  split at setpoint
  · next finite =>
    rw [if_pos finite]
    exact ⟨setpoint, sound.lastError, sound.integrator⟩
  · next other =>
    rw [if_neg other]
    exact ⟨setpoint, sound.lastError, sound.integrator⟩

theorem IsSound.update (sound : pid.IsSound) (position : Binary32) :
    InRange (pid.update position).1 ∧ (pid.update position).2.IsSound :=
  ⟨inRange_bounded _, sound.setpoint, isFinite_finiteOrZero _, inRange_bounded _⟩

theorem isSound_reset (pid : Pid) (position : Binary32) : (pid.reset position).IsSound :=
  ⟨isFinite_finiteOrZero _, inRange_zero.1, inRange_zero⟩

/-- Gains are not looked at. -/
theorem IsSound.setGains (sound : pid.IsSound) (kp ki kd : Binary32) (tickRate : UInt32) :
    (pid.setGains kp ki kd tickRate).IsSound :=
  ⟨sound.setpoint, sound.lastError, sound.integrator⟩

theorem IsSound.serve (sound : pid.IsSound) (request : Request) : (pid.serve request).IsSound := by
  cases request with
  | setGains kp ki kd tickRate => exact sound.setGains kp ki kd tickRate
  | reset position => exact pid.isSound_reset position
  | setTarget target => exact sound.setTarget target
  | update position => exact (sound.update position).2

theorem IsSound.serveAll (sound : pid.IsSound) (requests : List Request) :
    (pid.serveAll requests).IsSound := by
  induction requests generalizing pid with
  | nil => exact sound
  | cons request rest ih => exact ih (sound.serve request)

end Pid

/-! ## Renderers -/

namespace Renderer

/-- The PID loop of a renderer, if it has one, keeps its numbers in bounds. -/
def IsSound : Renderer → Prop
  | pid renderer => renderer.pid.IsSound
  | pulse _ => True

variable {renderer : Renderer}

theorem isSound_reset (renderer : Renderer) (position : Binary32) :
    (renderer.reset position).IsSound := by
  cases renderer with
  | pid renderer => exact renderer.pid.isSound_reset position
  | pulse renderer => exact True.intro

theorem IsSound.batchActivated (sound : renderer.IsSound) : renderer.batchActivated.IsSound := by
  cases renderer <;> exact sound

theorem IsSound.setCoefficients (sound : renderer.IsSound) {coefficients : Coefficients}
    {after : Renderer} (installed : renderer.setCoefficients coefficients = .ok after) :
    after.IsSound := by
  cases renderer with
  | pid renderer =>
    cases installed
    exact Pid.IsSound.setGains sound ..
  | pulse renderer => cases installed

/-- The phases of a rendering tick. -/
theorem IsSound.rendered (sound : renderer.IsSound) (position : Binary32) (target : UInt16) :
    ((renderer.beforeTick position).compute target).2.afterTick.IsSound := by
  cases renderer with
  | pid renderer => exact ((Pid.IsSound.setTarget sound _).update _).2
  | pulse renderer => exact sound

end Renderer

/-! ## Histories -/

namespace Playlist

variable {p : Playlist}

/-- The position is finite.  A renderer that has rendered keeps its numbers in bounds, whatever
they were when it was installed, for it has been reset. -/
structure IsSound (p : Playlist) : Prop where
  filtered : ∀ position, p.filtered = some position → position.isFinite = true
  renderer : p.active = true → p.renderer.IsSound

theorem IsSound.filter (sound : p.IsSound) (sample : Binary32) : (p.filter sample).IsSound := by
  unfold Playlist.filter
  split
  · next accepted =>
    rw [Bool.and_eq_true] at accepted
    refine ⟨fun position is => ?_, sound.renderer⟩
    cases is
    exact accepted.1
  · exact sound

theorem IsSound.activate (sound : p.IsSound) : p.activate.IsSound := by
  have renderer := p.renderer_activate
  obtain ⟨_, _, _, _, _, _, _, _, activated⟩ := p.exists_activate_eq
  rw [activated] at renderer ⊢
  refine ⟨sound.filtered, fun active => ?_⟩
  dsimp only at renderer ⊢
  rw [renderer]
  split
  · exact (sound.renderer active).batchActivated
  · exact sound.renderer active

theorem IsSound.prepare (sound : p.IsSound) : p.prepare.IsSound := by
  have loaded : p.loadNext.IsSound := by
    unfold loadNext
    split <;> exact ⟨sound.filtered, sound.renderer⟩
  have activated := loaded.activate
  unfold Playlist.prepare releaseEmpty
  split
  · exact ⟨activated.filtered, activated.renderer⟩
  · exact activated

theorem IsSound.render (sound : p.IsSound) : p.render.2.IsSound := by
  have ready : (if p.active then p.renderer else p.renderer.reset p.position).IsSound := by
    split
    · next active => exact sound.renderer active
    · exact p.renderer.isSound_reset _
  unfold Playlist.render
  dsimp only
  obtain ⟨_, _, _, _, advanced⟩ := exists_advance_eq
    { p with
      renderer := (((if p.active then p.renderer else p.renderer.reset p.position).beforeTick
        p.position).compute p.target).2.afterTick
      active := true
      rendered := some p.target }
  rw [advanced]
  exact ⟨sound.filtered, fun _ => ready.rendered _ _⟩

theorem IsSound.tick (sound : p.IsSound) (sample : Binary32) : (p.tick sample).2.IsSound := by
  have sensed : (p.sense sample).IsSound :=
    ⟨(sound.filter sample).filtered, (sound.filter sample).renderer⟩
  unfold Playlist.tick finish
  dsimp only
  split
  · split
    · exact sensed.prepare.render
    · exact ⟨sensed.prepare.filtered, fun active => (by cases active)⟩
  · exact sensed

theorem IsSound.apply (sound : p.IsSound) (operation : Operation) :
    (p.apply operation).2.IsSound := by
  cases operation with
  | start renderer => exact ⟨sound.filtered, fun active => (by cases active)⟩
  | stop => exact ⟨sound.filtered, fun active => (by cases active)⟩
  | halt => exact ⟨sound.filtered, sound.renderer⟩
  | filter sample => exact sound.filter sample
  | tick sample => exact sound.tick sample
  | enqueue batch =>
    simp only [Playlist.apply, enqueue]
    split <;> exact ⟨sound.filtered, sound.renderer⟩
  | enqueueAll batches =>
    simp only [Playlist.apply, enqueueAll]
    split <;> exact ⟨sound.filtered, sound.renderer⟩
  | setCoefficients coefficients =>
    simp only [Playlist.apply, setCoefficients]
    split
    · next installed =>
      exact ⟨sound.filtered, fun active => (sound.renderer active).setCoefficients installed⟩
    · exact sound

theorem IsSound.run (sound : p.IsSound) (history : List Operation) : (p.run history).IsSound := by
  induction history generalizing p with
  | nil => exact sound
  | cons operation rest ih => exact ih (sound.apply operation)

theorem isSound_initial (renderer : Renderer) : (initial renderer).IsSound :=
  ⟨fun _ is => (by cases is), fun active => (by cases active)⟩

end Playlist

namespace Scheduler

/-- Every tick of any scheduler gives a drive in range. -/
theorem drive_bounds (s : Scheduler) (sample : Binary32) :
    -Drive.limit ≤ (s.tick sample).1 ∧ (s.tick sample).1 ≤ Drive.limit := by
  have rests : -Drive.limit ≤ 0 ∧ 0 ≤ Drive.limit := by decide
  unfold tick finish
  dsimp only
  split
  · split
    · exact Drive.clamp_bounds _
    · exact rests
  · exact rests

/-- Whatever comes in, nothing goes to the motor but drives in range, and no number is kept that is
not finite. -/
structure StaysBounded (s : Scheduler) : Prop where
  position : s.position.isFinite = true
  /-- From its first rendering tick on, the renderer keeps its PID loop in bounds. -/
  renderer : s.active = true → s.renderer.IsSound
  drive : ∀ sample, -Drive.limit ≤ (s.tick sample).1 ∧ (s.tick sample).1 ≤ Drive.limit

/-- Hostile gains, samples and targets neither leave a PID loop with a number that is not finite
nor get one out of it, and a scheduler stays within its bounds with any renderer. -/
theorem staysBounded :
    (∀ requests,
      let pid := Pid.idle.serveAll requests
      pid.IsSound ∧ (∀ target, (pid.setTarget target).setpoint.isFinite = true) ∧
        ∀ position, Pid.InRange (pid.update position).1) ∧
    ∀ renderer history, ((initial renderer).run history).StaysBounded := by
  refine ⟨fun requests => ?_, fun renderer history => ?_⟩
  · have sound := Pid.isSound_idle.serveAll requests
    exact ⟨sound, Pid.isFinite_setpoint_setTarget _, fun position => (sound.update position).1⟩
  · have sound := (Playlist.isSound_initial renderer).run history
    rw [← ((tracks_initial renderer).run history).playlist_eq] at sound
    refine ⟨?_, sound.renderer, drive_bounds _⟩
    cases known : ((initial renderer).run history).filtered with
    | none =>
      rw [Scheduler.position, known]
      rfl
    | some position =>
      rw [Scheduler.position, known]
      exact sound.filtered position known

end Scheduler

end Animatronic
