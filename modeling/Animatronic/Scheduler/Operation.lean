import Animatronic.Notice
import Animatronic.Scheduler.Basic

/-!
# Operations

A history of a scheduler is a list of operations.  `Scheduler.apply` carries one out and gives its
answer, `Scheduler.run` carries out a history, and `Scheduler.notices` lists what an operation
writes to the log.
-/

namespace Animatronic

/-- Something that happens to a scheduler. -/
inductive Operation
  | start (renderer : Renderer)
  | stop
  | enqueue (batch : Batch)
  | enqueueAll (batches : List Batch)
  | halt
  | setCoefficients (coefficients : Coefficients)
  | filter (sample : Binary32)
  | tick (sample : Binary32)
deriving DecidableEq

/-- What an operation answers. -/
inductive Answer
  | silent
  | accepted
  | refused (fault : Fault)
  | drive (drive : Int8)
deriving DecidableEq

/-- The answer of a request that may be refused. -/
def Answer.ofResult : Except Fault Unit → Answer
  | .ok () => accepted
  | .error fault => refused fault

namespace Scheduler

/-- Carry out an operation. -/
def apply (s : Scheduler) : Operation → Answer × Scheduler
  | .start renderer => (.silent, s.start renderer)
  | .stop => (.silent, s.stop)
  | .enqueue batch =>
    let (result, s) := s.enqueue batch
    (.ofResult result, s)
  | .enqueueAll batches =>
    let (result, s) := s.enqueueAll batches
    (.ofResult result, s)
  | .halt =>
    let (result, s) := s.halt
    (.ofResult result, s)
  | .setCoefficients coefficients =>
    let (result, s) := s.setCoefficients coefficients
    (.ofResult result, s)
  | .filter sample => (.silent, s.filter sample)
  | .tick sample =>
    let (drive, s) := s.tick sample
    (.drive drive, s)

/-- Carry out a history. -/
def run (s : Scheduler) (history : List Operation) : Scheduler :=
  history.foldl (fun s operation => (s.apply operation).2) s

/-! ## The log -/

/-- What the activation phase writes. -/
def activationNotices (s : Scheduler) : List Notice :=
  if s.isDue then
    s.promote.currentBatch.toList.map fun batch =>
      .batchActivated batch.setpoints.length batch.loops
  else []

/-- What a tick writes: which batch became current, and how playing came to an end. -/
def tickNotices (s : Scheduler) : List Notice :=
  if s.running then
    let loaded := s.loadNext
    let ready := loaded.activate.releaseEmpty
    let ending :=
      if ready.hasUpdate then []
      else
        (if ready.current.isSome then [Notice.batchExhausted] else []) ++
          (if ready.active then [Notice.motionIdle] else [])
    loaded.activationNotices ++ ending
  else []

/-- What an operation writes to the log. -/
def notices (s : Scheduler) : Operation → List Notice
  | .start _ => [.motionStarted]
  | .stop => [.motionStopped]
  | .halt => [.haltRequested]
  | .tick _ => s.tickNotices
  | .enqueue _ | .enqueueAll _ | .setCoefficients _ | .filter _ => []

end Scheduler

end Animatronic
