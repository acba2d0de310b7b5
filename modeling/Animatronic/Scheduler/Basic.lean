import Animatronic.Control.Renderer
import Animatronic.Setpoint.Pool

/-!
# The scheduler

Accepted batches wait in a queue.  The front of the queue is loaded as the *next* batch, waits out
its delay, and then becomes the *current* batch, taking over from whatever was playing.  The
current batch is played setpoint by setpoint and loop by loop; on each tick its target is handed to
the renderer, which computes the drive.

Batches are kept in a pool, and the queue, the next and the current batch are handles into it.  The
pool has room for a full queue and those two, so that a board never runs out of slots.

A tick goes through fixed phases, in this order:

* the sampled position is filtered (`filter`);
* an empty next place is filled from the queue (`loadNext`);
* the next batch loses a tick of its delay, or becomes current (`activate`);
* a current batch without setpoints is released (`releaseEmpty`);
* if the current batch has something left to play, its target is rendered and the playback moves on
  (`render`, `advance`); otherwise it is released and the scheduler is idle (`rest`).
-/

namespace Animatronic

namespace Scheduler

/-- The number of batches that may wait in the queue. -/
def queueDepth : Nat := 8

/-- A slot for each batch in the queue, and two for the next and the current batch. -/
def poolCapacity : Nat := queueDepth + 2

/-- The length of a tick, in microseconds. -/
def tickPeriod : Nat := 1000000 / tickRate.toNat

/-- A position change up to this many radians counts as noise of the sensor. -/
def noiseFloor : Binary32 := ⟨0x3c23d70a⟩

end Scheduler

/-- A scheduler.  `queue` holds the waiting batches, front first, and `delay` the ticks left before
the next batch becomes current.  Of the current batch `loopsLeft` passes are left; the setpoint at
`index` is playing, its `target` for `duration` more ticks.  The scheduler is `active` if the last
tick rendered with the renderer that is installed now, and `rendered` is the target that it
rendered.  There is a `filtered` position once a finite sample has been seen. -/
structure Scheduler where
  pool : Pool Scheduler.poolCapacity
  queue : List Handle
  current : Option Handle
  next : Option Handle
  delay : Nat
  loopsLeft : Nat
  index : Nat
  duration : Nat
  target : UInt16
  running : Bool
  active : Bool
  renderer : Renderer
  filtered : Option Binary32
  rendered : Option UInt16
deriving DecidableEq

namespace Scheduler

/-- A scheduler that has not been started. -/
def initial (renderer : Renderer) : Scheduler where
  pool := Pool.empty poolCapacity
  queue := []
  current := none
  next := none
  delay := 0
  loopsLeft := 0
  index := 0
  duration := 0
  target := 0
  running := false
  active := false
  renderer := renderer
  filtered := none
  rendered := none

/-! ## Views -/

/-- The filtered position in calibrated radians; zero before the first finite sample. -/
def position (s : Scheduler) : Binary32 := s.filtered.getD Binary32.zero

/-- The number of batches that wait in the queue. -/
def queued (s : Scheduler) : Nat := s.queue.length

/-- The number of pool slots in use. -/
def batchesInUse (s : Scheduler) : Nat := s.pool.inUse

def currentBatch (s : Scheduler) : Option Batch := s.current.bind s.pool.get?

def currentIsInfinite (s : Scheduler) : Bool := s.currentBatch.any Batch.isInfinite

/-- The number of setpoints in the current batch. -/
def currentLength (s : Scheduler) : Nat := s.currentBatch.elim 0 (·.setpoints.length)

/-- The number of times that the current batch is to be played. -/
def currentLoops (s : Scheduler) : Nat := s.currentBatch.elim 0 (·.loops.toNat)

/-- The setpoint at the present place of the current batch, if there is one. -/
def currentSetpoint (s : Scheduler) : Option Setpoint :=
  s.currentBatch.bind (·.setpoints[s.index]?)

/-! ## Requests -/

/-- Install a renderer and render from the next tick on. -/
def start (s : Scheduler) (renderer : Renderer) : Scheduler :=
  { s with renderer := renderer, active := false, running := true }

/-- Give up the current batch. -/
def releaseCurrent (s : Scheduler) : Scheduler :=
  match s.current with
  | some handle => { s with current := none, pool := s.pool.release handle }
  | none => s

/-- Give up the next batch and all that wait behind it. -/
def releasePending (s : Scheduler) : Scheduler :=
  { s with
    queue := []
    next := none
    pool := (s.queue ++ s.next.toList).foldl Pool.release s.pool }

/-- Stop rendering and give up every batch, waiting or playing. -/
def stop (s : Scheduler) : Scheduler :=
  { s.releasePending.releaseCurrent with
    delay := 0
    loopsLeft := 0
    index := 0
    duration := 0
    target := 0
    active := false
    running := false
    rendered := none }

/-- Let a batch wait behind those that wait already. -/
def enqueue (s : Scheduler) (batch : Batch) : Except Fault Unit × Scheduler :=
  if s.queued < queueDepth then
    match s.pool.acquire batch with
    | .ok (handle, pool) => (.ok (), { s with pool := pool, queue := s.queue ++ [handle] })
    | .error fault => (.error fault, s)
  else (.error .queueFull, s)

/-- Take back the batch that was the last to be queued. -/
def unqueue (s : Scheduler) : Scheduler :=
  match s.queue.getLast? with
  | some handle => { s with queue := s.queue.dropLast, pool := s.pool.release handle }
  | none => s

/-- Let batches wait one after the other.  When one is refused, the `queued` batches of the group
that wait already are taken back, the last one first. -/
def enqueueEach (s : Scheduler) (queued : Nat) : List Batch → Except Fault Unit × Scheduler
  | [] => (.ok (), s)
  | batch :: rest =>
    match s.enqueue batch with
    | (.ok (), s) => s.enqueueEach (queued + 1) rest
    | (.error fault, s) => (.error fault, Nat.repeat unqueue queued s)

/-- Let all of the batches wait, in order, or none of them. -/
def enqueueAll (s : Scheduler) (batches : List Batch) : Except Fault Unit × Scheduler :=
  if queueDepth - s.queued < batches.length then (.error .queueFull, s)
  else if poolCapacity - s.batchesInUse < batches.length then (.error .poolExhausted, s)
  else s.enqueueEach 0 batches

/-- Give up all that waits and make the empty batch the next one.  It has no delay, so motion halts
on the next tick. -/
def halt (s : Scheduler) : Except Fault Unit × Scheduler :=
  let s := s.releasePending
  match s.pool.acquire .stop with
  | .ok (handle, pool) => (.ok (), { s with pool := pool, next := some handle, delay := 0 })
  | .error fault => (.error fault, s)

/-- Install new gains in the renderer. -/
def setCoefficients (s : Scheduler) (coefficients : Coefficients) :
    Except Fault Unit × Scheduler :=
  match s.renderer.setCoefficients coefficients with
  | .ok renderer => (.ok (), { s with renderer := renderer })
  | .error fault => (.error fault, s)

/-! ## The phases of a tick -/

/-- Whether a finite sample is further from a known position than the noise floor. -/
def isMove (position sample : Binary32) : Bool := noiseFloor < (position - sample).abs

/-- Take over a sample as the position, unless it is not finite or differs by noise only. -/
def filter (s : Scheduler) (sample : Binary32) : Scheduler :=
  if sample.isFinite && s.filtered.all (isMove · sample) then { s with filtered := some sample }
  else s

/-- Fill an empty next place from the queue. -/
def loadNext (s : Scheduler) : Scheduler :=
  match s.next, s.queue with
  | none, handle :: rest =>
    { s with
      queue := rest
      next := some handle
      delay := (s.pool.get? handle).elim 0 (·.delay.toNat) }
  | _, _ => s

/-- Take up the setpoint at the present place of the current batch, if there is one. -/
def loadSetpoint (s : Scheduler) : Scheduler :=
  match s.currentSetpoint with
  | some setpoint => { s with duration := setpoint.duration.toNat, target := setpoint.target }
  | none => s

/-- The next batch takes the place of the current one. -/
def promote (s : Scheduler) : Scheduler :=
  { s.releaseCurrent with current := s.next, next := none }

/-- Begin to play the current batch. -/
def begin (s : Scheduler) : Scheduler :=
  { s with
    loopsLeft := s.currentLoops
    index := 0
    renderer := s.renderer.batchActivated }.loadSetpoint

/-- Make the next batch current. -/
def switch (s : Scheduler) : Scheduler := s.promote.begin

/-- Whether the next batch becomes current on this tick. -/
def isDue (s : Scheduler) : Bool := s.next.isSome && s.delay = 0

/-- The next batch loses a tick of its delay, or becomes current if none is left. -/
def activate (s : Scheduler) : Scheduler :=
  if s.isDue then s.switch
  else if s.next.isSome then { s with delay := s.delay - 1 }
  else s

/-- Give up a current batch that has no setpoints. -/
def releaseEmpty (s : Scheduler) : Scheduler :=
  if s.currentBatch.any (·.setpoints.isEmpty) then s.releaseCurrent else s

/-- Whether the current batch has something left to play. -/
def hasUpdate (s : Scheduler) : Bool :=
  s.current.isSome && (s.currentIsInfinite || 0 < s.loopsLeft)

/-- One tick of the playing setpoint is over.  After its last tick the next setpoint is taken up,
and after the last setpoint the next pass begins. -/
def advance (s : Scheduler) : Scheduler :=
  let s := { s with duration := s.duration - 1 }
  if 0 < s.duration then s
  else if s.index + 1 < s.currentLength then { s with index := s.index + 1 }.loadSetpoint
  else
    let loopsLeft := if s.currentIsInfinite then s.loopsLeft else s.loopsLeft - 1
    { s with index := 0, loopsLeft := loopsLeft }.loadSetpoint

/-- Compute the drive for the playing target and move the playback on. -/
def render (s : Scheduler) : Int8 × Scheduler :=
  let ready := if s.active then s.renderer else s.renderer.reset s.position
  let (drive, renderer) := (ready.beforeTick s.position).compute s.target
  let s := { s with renderer := renderer.afterTick, active := true, rendered := some s.target }
  (Drive.clamp drive, s.advance)

/-- Nothing is left to play. -/
def rest (s : Scheduler) : Scheduler := { s.releaseCurrent with active := false }

/-- The state in which a running scheduler decides whether to render. -/
def prepare (s : Scheduler) : Scheduler := s.loadNext.activate.releaseEmpty

/-- Render if there is something left to play, and rest otherwise. -/
def finish (s : Scheduler) : Int8 × Scheduler := if s.hasUpdate then s.render else (0, s.rest)

/-- A tick begins: the sample is taken over, and nothing has been rendered yet. -/
def sense (s : Scheduler) (sample : Binary32) : Scheduler :=
  { s.filter sample with rendered := none }

/-- One tick with a sampled position: the drive to apply, and the scheduler after it. -/
def tick (s : Scheduler) (sample : Binary32) : Int8 × Scheduler :=
  let s := s.sense sample
  if s.running then s.prepare.finish else (0, s)

end Scheduler

end Animatronic
