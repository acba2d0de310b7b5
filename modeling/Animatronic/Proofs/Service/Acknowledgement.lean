import Animatronic.Proofs.Scheduler.Addition
import Animatronic.Proofs.Setpoint.Layout
import Animatronic.Service

/-!
# What an acknowledgement stands for

The sender of a request sees the reply and nothing else.  `Service.Acknowledges` pairs every
request with the reply that acknowledges it and with the effect that it then has had, down to the
slots of the pool, and `Service.Feasible` says when a request can be granted at all.

In every state that a history leads to, a request that is feasible is acknowledged and has had this
effect, and any other request is refused and has had none (`Service.accountable`).
-/

namespace Animatronic

/-- The type of the reply that acknowledges a request. -/
def MessageType.acknowledgement : MessageType → Option MessageType
  | ping => some pong
  | selfTest => some selfTestResult
  | readValue => some value
  | setCoefficients => some setCoefficientsAck
  | setSetpoints => some setSetpointsAck
  | sleep => some sleepAck
  | pong | selfTestResult | value | setCoefficientsAck | setSetpointsAck | sleepAck | error => none

theorem MessageType.acknowledgement_injective {a b kind : MessageType}
    (first : a.acknowledgement = some kind) (second : b.acknowledgement = some kind) : a = b := by
  cases a <;> cases first <;> cases b <;> cases second <;> rfl

/-- Gains are spelled by twelve bytes, or by fourteen if a target comes with them. -/
theorem Coefficients.exists_parse_eq_ok_iff {payload : List UInt8} :
    (∃ coefficients, parse payload = .ok coefficients) ↔
      payload.length = 12 ∨ payload.length = 14 := by
  constructor
  · rintro ⟨coefficients, parsed⟩
    rw [eq_bytes_of_parse parsed, length_bytes]
    split
    · exact Or.inr rfl
    · exact Or.inl rfl
  · rintro (short | long)
    · match payload, short with
      | [_, _, _, _, _, _, _, _, _, _, _, _], _ => exact ⟨_, rfl⟩
    · match payload, long with
      | [_, _, _, _, _, _, _, _, _, _, _, _, _, _], _ => exact ⟨_, rfl⟩

/-- A target comes with the gains exactly if there are two more bytes. -/
theorem Coefficients.target_isSome_iff {payload : List UInt8} {coefficients : Coefficients}
    (spelled : payload = coefficients.bytes) :
    coefficients.target.isSome = true ↔ payload.length = 14 := by
  rw [spelled, length_bytes]
  cases coefficients.target with
  | none => exact ⟨nofun, nofun⟩
  | some _ => exact ⟨fun _ => rfl, fun _ => rfl⟩

namespace Service

/-- Whether the scheduler can do what a request with this payload asks for. -/
def Feasible (s : Scheduler) (payload : List UInt8) : MessageType → Prop
  | .ping | .readValue | .sleep => True
  | .selfTest => s.queued ≤ 6
  | .setCoefficients =>
    (payload.length = 12 ∨ payload.length = 14) ∧ ∃ renderer, s.renderer = .pid renderer
  | .setSetpoints => (∃ batch : Batch, payload = batch.bytes) ∧ s.queued < 8
  | .pong | .selfTestResult | .value | .setCoefficientsAck | .setSetpointsAck | .sleepAck
  | .error => False

/-- A request, the reply that acknowledges it, and the scheduler after it. -/
inductive Acknowledges (identity : Identity) (s : Scheduler) :
    MessageType → List UInt8 → Response → Scheduler → Prop
  | pong (payload : List UInt8) : Acknowledges identity s .ping payload ⟨.pong, []⟩ s
  | value (payload : List UInt8) :
    Acknowledges identity s .readValue payload ⟨.value, positionLine s⟩ s
  | selfTestResult (payload : List UInt8) {after : Scheduler}
    (added : s.Appends [parkBatch identity, swingBatch identity] after) :
    Acknowledges identity s .selfTest payload ⟨.selfTestResult, asciiBytes banner.toList⟩ after
  /-- The gains are stored for a thousand ticks per second. -/
  | setCoefficientsAck {payload : List UInt8} {renderer : PidRenderer}
    {coefficients : Coefficients} (installed : s.renderer = .pid renderer)
    (spelled : payload = coefficients.bytes) :
    Acknowledges identity s .setCoefficients payload ⟨.setCoefficientsAck, []⟩
      { s with
        renderer := .pid
          { renderer with
            pid :=
              { renderer.pid with
                kp := coefficients.kp
                ki := coefficients.ki / Binary32.ofInt 1000
                kd := coefficients.kd * Binary32.ofInt 1000 }
            held := if payload.length = 14 then coefficients.target else renderer.held } }
  | setSetpointsAck (batch : Batch) {after : Scheduler} (added : s.Appends [batch] after) :
    Acknowledges identity s .setSetpoints batch.bytes ⟨.setSetpointsAck, []⟩ after
  | sleepAck (payload : List UInt8) {after : Scheduler} (halted : s.halt = (.ok (), after))
    (cleared : after.playlist = { s.playlist with queue := [], next := some .stop, delay := 0 }) :
    Acknowledges identity s .sleep payload ⟨.sleepAck, []⟩ after

variable {identity : Identity} {s after : Scheduler} {payload : List UInt8}
  {request kind : MessageType}

theorem Acknowledges.kind_eq {reply : Response}
    (acknowledges : Acknowledges identity s request payload reply after) :
    request.acknowledgement = some reply.kind := by
  cases acknowledges <;> rfl

/-! ## One request at a time -/

/-- A request is granted with its effect, or refused with none. -/
def Settled (identity : Identity) (s : Scheduler) (request : MessageType) (payload : List UInt8)
    (served : Served (Except Fault Response)) : Prop :=
  (Feasible s payload request ∧
      ∃ reply, served.result = .ok reply ∧
        Acknowledges identity s request payload reply served.scheduler) ∨
    (¬Feasible s payload request ∧ served.scheduler = s ∧ ∃ fault, served.result = .error fault)

theorem settled_selfTest (accounted : s.Accounted) (payload : List UInt8) :
    Settled identity s .selfTest payload
      (handle identity MessageType.selfTest.code payload s) := by
  have short := accounted.short
  rw [Scheduler.queueDepth] at short
  by_cases room : s.queued ≤ 6
  · have fits : [parkBatch identity, swingBatch identity].length ≤
        Scheduler.queueDepth - s.queued := by
      rw [Scheduler.queueDepth]
      simp only [List.length_cons, List.length_nil]
      omega
    obtain ⟨after, accepted, added⟩ := accounted.appends_enqueueAll fits
    have tested : selfTest identity s =
        ⟨.ok (asciiBytes banner.toList), after, [.selfTestQueued]⟩ := by
      rw [selfTest, accepted]
    refine Or.inl ⟨room, ⟨.selfTestResult, asciiBytes banner.toList⟩, ?_, ?_⟩
    · simp only [handle, MessageType.ofCode_code, tested, Except.map]
    · simp only [handle, MessageType.ofCode_code, tested]
      exact .selfTestResult payload added
  · have long : Scheduler.queueDepth - s.queued <
        [parkBatch identity, swingBatch identity].length := by
      rw [Scheduler.queueDepth]
      simp only [List.length_cons, List.length_nil]
      omega
    have tested : selfTest identity s = ⟨.error .queueFull, s, []⟩ := by
      rw [selfTest, Scheduler.enqueueAll_of_long long]
    refine Or.inr ⟨room, ?_, .queueFull, ?_⟩
    · simp only [handle, MessageType.ofCode_code, tested]
    · simp only [handle, MessageType.ofCode_code, tested, Except.map]

theorem settled_setCoefficients (s : Scheduler) (payload : List UInt8) :
    Settled identity s .setCoefficients payload (setCoefficients payload s) := by
  unfold setCoefficients
  cases parsed : Coefficients.parse payload with
  | error fault =>
    refine Or.inr ⟨fun feasible => ?_, rfl, fault, rfl⟩
    obtain ⟨coefficients, too⟩ := Coefficients.exists_parse_eq_ok_iff.mpr feasible.1
    rw [parsed] at too
    cases too
  | ok coefficients =>
    have length := Coefficients.exists_parse_eq_ok_iff.mp ⟨coefficients, parsed⟩
    have spelled := Coefficients.parse_eq_ok_iff.mp parsed
    have targeted := Coefficients.target_isSome_iff spelled
    dsimp only
    unfold Scheduler.setCoefficients
    cases installed : s.renderer with
    | pulse renderer =>
      refine Or.inr ⟨fun feasible => ?_, rfl, .noPidLoop, rfl⟩
      obtain ⟨other, too⟩ := feasible.2
      rw [installed] at too
      cases too
    | pid renderer =>
      have holds : (coefficients.target <|> renderer.held) =
          if payload.length = 14 then coefficients.target else renderer.held := by
        cases target : coefficients.target with
        | some value =>
          rw [target] at targeted
          rw [if_pos (targeted.mp rfl)]
          rfl
        | none =>
          rw [target] at targeted
          rw [if_neg fun long => nomatch targeted.mpr long]
          rfl
      have acknowledges : Acknowledges identity s .setCoefficients payload _ _ :=
        .setCoefficientsAck installed spelled
      rw [← holds] at acknowledges
      exact Or.inl ⟨⟨length, renderer, installed⟩, _, rfl, acknowledges⟩

theorem settled_setSetpoints (accounted : s.Accounted) (payload : List UInt8) :
    Settled identity s .setSetpoints payload (setSetpoints payload s) := by
  unfold setSetpoints
  cases parsed : Batch.parse payload with
  | error fault =>
    refine Or.inr ⟨fun feasible => ?_, rfl, fault, rfl⟩
    obtain ⟨batch, rfl⟩ := feasible.1
    rw [batch.parse_bytes] at parsed
    cases parsed
  | ok batch =>
    obtain rfl := Batch.parse_eq_ok_iff.mp parsed
    dsimp only
    by_cases room : s.queued < Scheduler.queueDepth
    · obtain ⟨after, accepted, added⟩ := accounted.appends_enqueue room batch
      rw [accepted]
      exact Or.inl ⟨⟨⟨batch, rfl⟩, room⟩, _, rfl, .setSetpointsAck batch added⟩
    · have full : s.queued = Scheduler.queueDepth :=
        Nat.le_antisymm accounted.short (Nat.le_of_not_lt room)
      rw [Scheduler.enqueue_of_full full]
      exact Or.inr ⟨fun feasible => room feasible.2, rfl, .queueFull, rfl⟩

theorem settled_sleep (accounted : s.Accounted) (payload : List UInt8) :
    Settled identity s .sleep payload (sleep s) := by
  obtain ⟨accepted, tracks⟩ := Scheduler.Tracks.halt ⟨accounted, rfl⟩
  have halted : s.halt = (.ok (), s.halt.2) := Prod.ext accepted rfl
  unfold sleep
  rw [halted]
  exact Or.inl ⟨trivial, _, rfl, .sleepAck payload halted tracks.playlist_eq⟩

/-- No message type is treated otherwise. -/
theorem settled_handle (accounted : s.Accounted) (identity : Identity) (request : MessageType)
    (payload : List UInt8) :
    Settled identity s request payload (handle identity request.code payload s) := by
  cases request with
  | ping => exact Or.inl ⟨trivial, _, rfl, .pong payload⟩
  | readValue => exact Or.inl ⟨trivial, _, rfl, .value payload⟩
  | selfTest => exact settled_selfTest accounted payload
  | setCoefficients => exact settled_setCoefficients s payload
  | setSetpoints => exact settled_setSetpoints accounted payload
  | sleep => exact settled_sleep accounted payload
  | pong | selfTestResult | value | setCoefficientsAck | setSetpointsAck | sleepAck | error =>
    exact Or.inr ⟨id, rfl, _, rfl⟩

/-! ## All requests -/

/-- What the sender of a request can tell from the answer. -/
structure Accountable (identity : Identity) (s : Scheduler) (code : UInt8) (payload : List UInt8) :
    Prop where
  /-- A fault stands for no effect at all. -/
  refused : ∀ fault, (handle identity code payload s).result = .error fault →
    (handle identity code payload s).scheduler = s
  /-- A reply stands for the effect of the request that it acknowledges. -/
  answered : ∀ reply, (handle identity code payload s).result = .ok reply →
    ∃ request, request.code = code ∧
      Acknowledges identity s request payload reply (handle identity code payload s).scheduler
  /-- A request is acknowledged exactly if it is feasible. -/
  granted : ∀ request kind, request.acknowledgement = some kind →
    ((∃ bytes, (handle identity code payload s).result = .ok ⟨kind, bytes⟩) ↔
      request.code = code ∧ Feasible s payload request)

/-- Whatever has happened to a scheduler, and whatever is asked of it in whatever payload: it is
acknowledged exactly if it has been done, and what is refused has not been begun. -/
theorem accountable (reachable : s.Reachable) (identity : Identity) (code : UInt8)
    (payload : List UInt8) : Accountable identity s code payload := by
  have accounted := reachable.tracks.toAccounted
  cases known : MessageType.ofCode code with
  | error fault =>
    have refused : handle identity code payload s = ⟨.error fault, s, []⟩ := by
      simp only [handle, known]
    refine ⟨fun _ _ => by rw [refused], fun reply ok => ?_, fun request kind _ => ⟨?_, ?_⟩⟩
    · rw [refused] at ok
      cases ok
    · rintro ⟨bytes, ok⟩
      rw [refused] at ok
      cases ok
    · rintro ⟨rfl, -⟩
      rw [request.ofCode_code] at known
      cases known
  | ok asked =>
    obtain rfl := MessageType.code_of_ofCode known
    have settled := settled_handle accounted identity asked payload
    refine ⟨fun fault refused => ?_, fun reply answered => ?_, fun request kind paired => ⟨?_, ?_⟩⟩
    · rcases settled with ⟨-, reply, answered, -⟩ | ⟨-, kept, -⟩
      · rw [answered] at refused
        cases refused
      · exact kept
    · rcases settled with ⟨-, other, too, acknowledges⟩ | ⟨-, -, fault, refused⟩
      · rw [answered] at too
        rw [Except.ok.inj too]
        exact ⟨asked, rfl, acknowledges⟩
      · rw [answered] at refused
        cases refused
    · rintro ⟨bytes, answered⟩
      rcases settled with ⟨feasible, reply, too, acknowledges⟩ | ⟨-, -, fault, refused⟩
      · rw [answered] at too
        have same : asked.acknowledgement = some kind := by
          rw [acknowledges.kind_eq, ← Except.ok.inj too]
        obtain rfl := MessageType.acknowledgement_injective paired same
        exact ⟨rfl, feasible⟩
      · rw [answered] at refused
        cases refused
    · rintro ⟨code, feasible⟩
      have same : request = asked := by
        rw [← code, request.ofCode_code] at known
        exact Except.ok.inj known
      subst same
      rcases settled with ⟨-, reply, answered, acknowledges⟩ | ⟨infeasible, -⟩
      · rw [acknowledges.kind_eq] at paired
        rw [← Option.some.inj paired]
        exact ⟨reply.payload, answered⟩
      · exact absurd feasible infeasible

/-- With seven batches waiting a self-test is refused and has no effect, and one more batch is
acknowledged. -/
theorem accountable_with_seven_waiting :
    ∃ s : Scheduler, s.queued = 7 ∧
      (∀ fault, (handle (some .spine) 0x03 [] s).result = .error fault →
        (handle (some .spine) 0x03 [] s).scheduler = s) ∧
      ¬(∃ bytes, (handle (some .spine) 0x03 [] s).result = .ok ⟨.selfTestResult, bytes⟩) ∧
      ∃ bytes, (handle (some .spine) 0x21 Batch.stop.bytes s).result =
        .ok ⟨.setSetpointsAck, bytes⟩ := by
  let s := (Scheduler.initial .vibration).run [.enqueueAll (List.replicate 7 .stop)]
  have reachable : s.Reachable := ⟨_, _, rfl⟩
  have tested := accountable reachable (some .spine) 0x03 []
  have queued := accountable reachable (some .spine) 0x21 Batch.stop.bytes
  refine ⟨s, by decide, tested.refused, fun answered => ?_, ?_⟩
  · have waiting : s.queued ≤ 6 := ((tested.granted .selfTest _ rfl).mp answered).2
    exact absurd waiting (by decide)
  · exact (queued.granted .setSetpoints _ rfl).mpr ⟨rfl, ⟨.stop, rfl⟩, by decide⟩

end Service

end Animatronic
