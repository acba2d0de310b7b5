import Animatronic.Scheduler.Operation

/-!
# Playlists

A playlist is a scheduler without a pool.  Its queue is a list of at most `Scheduler.queueDepth`
batches, front first, and the next and the current batch are batches and not handles, so nothing
has to be stored or released and nothing can be mixed up.  Requests and ticks are those of the
scheduler; only the batches are at hand wherever the scheduler looks them up.

A `Glance` is what can be seen of either from outside, and `trace` lists the answer and the glance
after each operation of a history.
-/

namespace Animatronic

/-- What a scheduler shows between operations. -/
structure Glance where
  rendered : Option UInt16
  queued : Nat
  running : Bool
  active : Bool
  position : Binary32
deriving DecidableEq

namespace Scheduler

def glance (s : Scheduler) : Glance :=
  ⟨s.rendered, s.queued, s.running, s.active, s.position⟩

/-- The answer to each operation of a history, and what shows after it. -/
def trace (s : Scheduler) : List Operation → List (Answer × Glance)
  | [] => []
  | operation :: rest =>
    let (answer, s) := s.apply operation
    (answer, s.glance) :: s.trace rest

end Scheduler

/-- A scheduler that keeps its batches themselves.  The other fields are those of `Scheduler`. -/
structure Playlist where
  queue : List Batch
  current : Option Batch
  next : Option Batch
  delay : Nat
  loopsLeft : Nat
  index : Nat
  duration : Nat
  target : UInt16
  running : Bool
  active : Bool
  renderer : Renderer
  filtered : Option Binary32
  rendered : Option UInt16
deriving DecidableEq

namespace Playlist

/-- A playlist that has not been started. -/
def initial (renderer : Renderer) : Playlist where
  queue := []
  current := none
  next := none
  delay := 0
  loopsLeft := 0
  index := 0
  duration := 0
  target := 0
  running := false
  active := false
  renderer := renderer
  filtered := none
  rendered := none

/-! ## Views -/

def position (p : Playlist) : Binary32 := p.filtered.getD Binary32.zero

def glance (p : Playlist) : Glance :=
  ⟨p.rendered, p.queue.length, p.running, p.active, p.position⟩

/-- The batches that have been accepted and not yet become current, in the order of their turn. -/
def pending (p : Playlist) : List Batch := p.next.toList ++ p.queue

def currentIsInfinite (p : Playlist) : Bool := p.current.any Batch.isInfinite

def currentLength (p : Playlist) : Nat := p.current.elim 0 (·.setpoints.length)

/-! ## Requests -/

def start (p : Playlist) (renderer : Renderer) : Playlist :=
  { p with renderer := renderer, active := false, running := true }

def stop (p : Playlist) : Playlist :=
  { p with
    queue := []
    current := none
    next := none
    delay := 0
    loopsLeft := 0
    index := 0
    duration := 0
    target := 0
    active := false
    running := false
    rendered := none }

/-- A batch waits behind the others as long as the queue is not full. -/
def enqueue (p : Playlist) (batch : Batch) : Except Fault Unit × Playlist :=
  if p.queue.length < Scheduler.queueDepth then (.ok (), { p with queue := p.queue ++ [batch] })
  else (.error .queueFull, p)

/-- A group of batches waits if there is room for all of them. -/
def enqueueAll (p : Playlist) (batches : List Batch) : Except Fault Unit × Playlist :=
  if p.queue.length + batches.length ≤ Scheduler.queueDepth then
    (.ok (), { p with queue := p.queue ++ batches })
  else (.error .queueFull, p)

/-- Nothing waits any more, and the empty batch is next. -/
def halt (p : Playlist) : Except Fault Unit × Playlist :=
  (.ok (), { p with queue := [], next := some .stop, delay := 0 })

def setCoefficients (p : Playlist) (coefficients : Coefficients) :
    Except Fault Unit × Playlist :=
  match p.renderer.setCoefficients coefficients with
  | .ok renderer => (.ok (), { p with renderer := renderer })
  | .error fault => (.error fault, p)

/-! ## The phases of a tick -/

def filter (p : Playlist) (sample : Binary32) : Playlist :=
  if sample.isFinite && p.filtered.all (Scheduler.isMove · sample) then
    { p with filtered := some sample }
  else p

def loadNext (p : Playlist) : Playlist :=
  match p.next, p.queue with
  | none, batch :: rest =>
    { p with queue := rest, next := some batch, delay := batch.delay.toNat }
  | _, _ => p

def loadSetpoint (p : Playlist) : Playlist :=
  match p.current.bind (·.setpoints[p.index]?) with
  | some setpoint => { p with duration := setpoint.duration.toNat, target := setpoint.target }
  | none => p

/-- The next batch becomes current and is played from its beginning. -/
def switch (p : Playlist) : Playlist :=
  { p with
    current := p.next
    next := none
    loopsLeft := p.next.elim 0 (·.loops.toNat)
    index := 0
    renderer := p.renderer.batchActivated }.loadSetpoint

def isDue (p : Playlist) : Bool := p.next.isSome && p.delay = 0

def activate (p : Playlist) : Playlist :=
  if p.isDue then p.switch
  else if p.next.isSome then { p with delay := p.delay - 1 }
  else p

def releaseEmpty (p : Playlist) : Playlist :=
  if p.current.any (·.setpoints.isEmpty) then { p with current := none } else p

def hasUpdate (p : Playlist) : Bool :=
  p.current.isSome && (p.currentIsInfinite || 0 < p.loopsLeft)

def advance (p : Playlist) : Playlist :=
  let p := { p with duration := p.duration - 1 }
  if 0 < p.duration then p
  else if p.index + 1 < p.currentLength then { p with index := p.index + 1 }.loadSetpoint
  else
    let loopsLeft := if p.currentIsInfinite then p.loopsLeft else p.loopsLeft - 1
    { p with index := 0, loopsLeft := loopsLeft }.loadSetpoint

variable {p : Playlist}

theorem advance_of_holding (holding : 0 < p.duration - 1) :
    p.advance = { p with duration := p.duration - 1 } :=
  if_pos holding

theorem advance_of_more (past : ¬0 < p.duration - 1) (more : p.index + 1 < p.currentLength) :
    p.advance = { p with duration := p.duration - 1, index := p.index + 1 }.loadSetpoint :=
  (if_neg past).trans (if_pos more)

theorem advance_of_last (past : ¬0 < p.duration - 1) (last : ¬p.index + 1 < p.currentLength) :
    p.advance =
      { p with
        duration := p.duration - 1
        index := 0
        loopsLeft := if p.currentIsInfinite then p.loopsLeft else p.loopsLeft - 1 }.loadSetpoint :=
  (if_neg past).trans (if_neg last)

theorem exists_loadSetpoint_eq (p : Playlist) :
    ∃ duration target, p.loadSetpoint = { p with duration := duration, target := target } := by
  unfold loadSetpoint
  split
  · exact ⟨_, _, rfl⟩
  · exact ⟨p.duration, p.target, rfl⟩

/-- Playing on moves the place in the current batch and nothing else. -/
theorem exists_advance_eq (p : Playlist) :
    ∃ loopsLeft index duration target,
      p.advance =
        { p with
          loopsLeft := loopsLeft
          index := index
          duration := duration
          target := target } := by
  by_cases holding : 0 < p.duration - 1
  · exact ⟨_, _, _, _, advance_of_holding holding⟩
  · by_cases more : p.index + 1 < p.currentLength
    · obtain ⟨duration, target, loaded⟩ := exists_loadSetpoint_eq
        { p with duration := p.duration - 1, index := p.index + 1 }
      exact ⟨_, _, _, _, (advance_of_more holding more).trans loaded⟩
    · obtain ⟨duration, target, loaded⟩ := exists_loadSetpoint_eq
        { p with
          duration := p.duration - 1
          index := 0
          loopsLeft := if p.currentIsInfinite then p.loopsLeft else p.loopsLeft - 1 }
      exact ⟨_, _, _, _, (advance_of_last holding more).trans loaded⟩

def render (p : Playlist) : Int8 × Playlist :=
  let ready := if p.active then p.renderer else p.renderer.reset p.position
  let (drive, renderer) := (ready.beforeTick p.position).compute p.target
  let p := { p with renderer := renderer.afterTick, active := true, rendered := some p.target }
  (Drive.clamp drive, p.advance)

/-- Rendering shows the target that is playing, and moves on. -/
theorem exists_render_eq (p : Playlist) :
    ∃ renderer loopsLeft index duration target,
      p.render.2 =
        { p with
          loopsLeft := loopsLeft
          index := index
          duration := duration
          target := target
          active := true
          renderer := renderer
          rendered := some p.target } :=
  ⟨_, exists_advance_eq _⟩

def rest (p : Playlist) : Playlist := { p with current := none, active := false }

def prepare (p : Playlist) : Playlist := p.loadNext.activate.releaseEmpty

theorem exists_activate_eq (p : Playlist) :
    ∃ current next delay loopsLeft index duration target renderer,
      p.activate =
        { p with
          current := current
          next := next
          delay := delay
          loopsLeft := loopsLeft
          index := index
          duration := duration
          target := target
          renderer := renderer } := by
  unfold activate
  split
  · obtain ⟨duration, target, loaded⟩ := exists_loadSetpoint_eq
      { p with
        current := p.next
        next := none
        loopsLeft := p.next.elim 0 (·.loops.toNat)
        index := 0
        renderer := p.renderer.batchActivated }
    exact ⟨_, _, _, _, _, duration, target, _, loaded⟩
  · split
    · exact ⟨_, _, p.delay - 1, _, _, _, _, _, rfl⟩
    · exact ⟨_, _, p.delay, _, _, _, _, _, rfl⟩

/-- The renderer is told of a batch that becomes current, and of nothing else. -/
theorem renderer_activate (p : Playlist) :
    p.activate.renderer = if p.isDue then p.renderer.batchActivated else p.renderer := by
  unfold activate
  split
  · obtain ⟨_, _, loaded⟩ := exists_loadSetpoint_eq
      { p with
        current := p.next
        next := none
        loopsLeft := p.next.elim 0 (·.loops.toNat)
        index := 0
        renderer := p.renderer.batchActivated }
    rw [switch, loaded]
  · split <;> rfl

/-- Until something is rendered, a tick changes the batches and the place in the current one. -/
theorem exists_prepare_eq (p : Playlist) :
    ∃ queue current next delay loopsLeft index duration target renderer,
      p.prepare =
        { p with
          queue := queue
          current := current
          next := next
          delay := delay
          loopsLeft := loopsLeft
          index := index
          duration := duration
          target := target
          renderer := renderer } := by
  have loaded : ∃ queue next delay,
      p.loadNext = { p with queue := queue, next := next, delay := delay } := by
    unfold loadNext
    split
    · exact ⟨_, _, _, rfl⟩
    · exact ⟨p.queue, p.next, p.delay, rfl⟩
  rcases loaded with ⟨queue, next, delay, loaded⟩
  obtain ⟨_, _, _, _, _, _, _, _, activated⟩ := exists_activate_eq p.loadNext
  rw [prepare, releaseEmpty]
  split
  · rw [activated, loaded]
    exact ⟨_, none, _, _, _, _, _, _, _, rfl⟩
  · rw [activated, loaded]
    exact ⟨_, _, _, _, _, _, _, _, _, rfl⟩

def finish (p : Playlist) : Int8 × Playlist := if p.hasUpdate then p.render else (0, p.rest)

def sense (p : Playlist) (sample : Binary32) : Playlist :=
  { p.filter sample with rendered := none }

def tick (p : Playlist) (sample : Binary32) : Int8 × Playlist :=
  let p := p.sense sample
  if p.running then p.prepare.finish else (0, p)

/-- A sample changes the position only. -/
theorem exists_sense_eq (p : Playlist) (sample : Binary32) :
    ∃ position, p.sense sample = { p with filtered := position, rendered := none } := by
  unfold sense filter
  split
  · exact ⟨_, rfl⟩
  · exact ⟨p.filtered, rfl⟩

theorem running_sense (p : Playlist) (sample : Binary32) :
    (p.sense sample).running = p.running := by
  obtain ⟨_, sensed⟩ := p.exists_sense_eq sample
  rw [sensed]

theorem tick_of_running (running : p.running = true) (sample : Binary32) :
    p.tick sample = (p.sense sample).prepare.finish :=
  if_pos ((p.running_sense sample).trans running)

theorem tick_of_stopped (stopped : p.running = false) (sample : Binary32) :
    p.tick sample = (0, p.sense sample) :=
  if_neg (Bool.eq_false_iff.mp ((p.running_sense sample).trans stopped))

theorem rendered_prepare_sense (p : Playlist) (sample : Binary32) :
    (p.sense sample).prepare.rendered = none := by
  obtain ⟨_, _, _, _, _, _, _, _, _, prepared⟩ := (p.sense sample).exists_prepare_eq
  rw [prepared]
  rfl

theorem running_tick (p : Playlist) (sample : Binary32) :
    (p.tick sample).2.running = p.running := by
  obtain ⟨_, sensed⟩ := p.exists_sense_eq sample
  obtain ⟨_, _, _, _, _, _, _, _, _, prepared⟩ := (p.sense sample).exists_prepare_eq
  rw [tick]
  split
  · rw [finish]
    split
    · obtain ⟨_, _, _, _, _, rendered⟩ := (p.sense sample).prepare.exists_render_eq
      rw [rendered, prepared, sensed]
    · rw [rest, prepared, sensed]
  · rw [sensed]

/-- Of a tick, only its sample can move the position. -/
theorem filtered_tick (p : Playlist) (sample : Binary32) :
    (p.tick sample).2.filtered = (p.filter sample).filtered := by
  have prepared : (p.sense sample).prepare.filtered = (p.filter sample).filtered := by
    obtain ⟨_, _, _, _, _, _, _, _, _, prepared⟩ := (p.sense sample).exists_prepare_eq
    rw [prepared]
    rfl
  rw [tick]
  split
  · rw [finish]
    split
    · obtain ⟨_, _, _, _, _, rendered⟩ := (p.sense sample).prepare.exists_render_eq
      rw [rendered]
      exact prepared
    · exact prepared
  · rfl

/-! ## Histories -/

def apply (p : Playlist) : Operation → Answer × Playlist
  | .start renderer => (.silent, p.start renderer)
  | .stop => (.silent, p.stop)
  | .enqueue batch =>
    let (result, p) := p.enqueue batch
    (.ofResult result, p)
  | .enqueueAll batches =>
    let (result, p) := p.enqueueAll batches
    (.ofResult result, p)
  | .halt =>
    let (result, p) := p.halt
    (.ofResult result, p)
  | .setCoefficients coefficients =>
    let (result, p) := p.setCoefficients coefficients
    (.ofResult result, p)
  | .filter sample => (.silent, p.filter sample)
  | .tick sample =>
    let (drive, p) := p.tick sample
    (.drive drive, p)

def run (p : Playlist) (history : List Operation) : Playlist :=
  history.foldl (fun p operation => (p.apply operation).2) p

def trace (p : Playlist) : List Operation → List (Answer × Glance)
  | [] => []
  | operation :: rest =>
    let (answer, p) := p.apply operation
    (answer, p.glance) :: p.trace rest

end Playlist

end Animatronic
