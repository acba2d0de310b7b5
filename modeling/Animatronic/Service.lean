import Animatronic.Board.Diagnostic
import Animatronic.Scheduler.Operation

/-!
# The service of a board

The service acts on the scheduler and makes the reply.  A framed request is answered by a typed
reply or by a fault; a diagnostic is answered by bare bytes, which for a fault are its text.

A reply that acknowledges something has had its effect, and a fault has had none.
-/

namespace Animatronic

/-- A reply: its type and its payload. -/
structure Response where
  kind : MessageType
  payload : List UInt8
deriving DecidableEq

/-- What a request leads to: its result, the scheduler after it, and what is logged. -/
structure Served (α : Type) where
  result : α
  scheduler : Scheduler
  notices : List Notice

namespace Service

/-! ## Text replies -/

/-- The bytes of an ASCII text. -/
def asciiBytes (text : List Char) : List UInt8 := text.map fun c => UInt8.ofNat c.toNat

/-- A line of text as a reply payload.  The payload is a buffer of limited capacity, and a piece
that does not fit in it is left out. -/
def textLine (text : List Char) : List UInt8 :=
  let append (buffer piece : List UInt8) :=
    (appendWithin Frame.maxReplyPayload buffer piece).getD buffer
  append (append [] (asciiBytes text)) (asciiBytes ['\r', '\n'])

/-- What a board says when it begins its self-test. -/
def banner : String := "Testing motor control...\r\n"

/-- The position with four decimal places. -/
def positionLine (s : Scheduler) : List UInt8 := textLine (s.position.toFixed 4)

/-! ## The self-test -/

/-- The targets of the self-test: where the motor is held, and the two ends of its swing. -/
structure SelfTestTargets where
  hold : UInt16
  low : UInt16
  high : UInt16

/-- The vibration motor is stepped, and all other motors are moved between two positions. -/
def selfTestTargets (identity : Identity) : SelfTestTargets :=
  if identity.isPulsed then
    { hold := PulseStep.target ⟨10, 63⟩
      low := PulseStep.target ⟨10, 10⟩
      high := PulseStep.target ⟨10, 80⟩ }
  else { hold := 15488, low := 1500, high := 10000 }

/-- Hold one target for good. -/
def parkBatch (identity : Identity) : Batch where
  delay := 0
  loops := Batch.forever
  setpoints := [⟨0xFFFF, (selfTestTargets identity).hold⟩]
  fits := (by decide : 1 ≤ Batch.maxSetpoints)

/-- After two seconds, swing between two targets four times. -/
def swingBatch (identity : Identity) : Batch where
  delay := 2000
  loops := 4
  setpoints := [⟨1000, (selfTestTargets identity).low⟩, ⟨2000, (selfTestTargets identity).high⟩]
  fits := (by decide : 2 ≤ Batch.maxSetpoints)

/-- Queue the canned motion, and answer with the banner. -/
def selfTest (identity : Identity) (s : Scheduler) : Served (Except Fault (List UInt8)) :=
  match s.enqueueAll [parkBatch identity, swingBatch identity] with
  | (.ok (), s) => ⟨.ok (asciiBytes banner.toList), s, [.selfTestQueued]⟩
  | (.error fault, s) => ⟨.error fault, s, []⟩

/-! ## Requests -/

/-- Install the gains that a payload spells. -/
def setCoefficients (payload : List UInt8) (s : Scheduler) : Served (Except Fault Response) :=
  match Coefficients.parse payload with
  | .error fault => ⟨.error fault, s, []⟩
  | .ok coefficients =>
    match s.setCoefficients coefficients with
    | (.error fault, s) => ⟨.error fault, s, []⟩
    | (.ok (), s) =>
      ⟨.ok ⟨.setCoefficientsAck, []⟩, s,
        [.coefficientsInstalled coefficients.kp coefficients.ki coefficients.kd]⟩

/-- Queue the batch that a payload spells. -/
def setSetpoints (payload : List UInt8) (s : Scheduler) : Served (Except Fault Response) :=
  match Batch.parse payload with
  | .error fault => ⟨.error fault, s, []⟩
  | .ok batch =>
    match s.enqueue batch with
    | (.error fault, s) => ⟨.error fault, s, [.batchRejected fault]⟩
    | (.ok (), s) => ⟨.ok ⟨.setSetpointsAck, []⟩, s, []⟩

/-- Halt all motion. -/
def sleep (s : Scheduler) : Served (Except Fault Response) :=
  match s.halt with
  | (.error fault, s) => ⟨.error fault, s, [.haltRequested]⟩
  | (.ok (), s) => ⟨.ok ⟨.sleepAck, []⟩, s, [.haltRequested]⟩

/-- Service a framed request whose checksum was right.  Replies are no requests, and neither is a
code without a meaning. -/
def handle (identity : Identity) (code : UInt8) (payload : List UInt8) (s : Scheduler) :
    Served (Except Fault Response) :=
  match MessageType.ofCode code with
  | .error fault => ⟨.error fault, s, []⟩
  | .ok kind =>
    match kind with
    | .ping => ⟨.ok ⟨.pong, []⟩, s, []⟩
    | .selfTest =>
      let served := selfTest identity s
      { served with result := served.result.map (Response.mk .selfTestResult) }
    | .readValue => ⟨.ok ⟨.value, positionLine s⟩, s, []⟩
    | .setCoefficients => setCoefficients payload s
    | .setSetpoints => setSetpoints payload s
    | .sleep => sleep s
    | .pong | .selfTestResult | .value | .setCoefficientsAck | .setSetpointsAck | .sleepAck
    | .error => ⟨.error (.unknownMessageType kind.code), s, []⟩

/-- Answer a diagnostic. -/
def diagnose (identity : Identity) (kind : DiagnosticKind) (s : Scheduler) :
    Served (List UInt8) :=
  match kind with
  | .ping => ⟨[MessageType.pong.code], s, []⟩
  | .selfTest =>
    let served := selfTest identity s
    match served.result with
    | .ok reply => { served with result := reply }
    | .error fault => { served with result := textLine fault.message.toList }
  | .readValue => ⟨positionLine s, s, []⟩

end Service

end Animatronic
