import Animatronic.Fault

/-!
# Message types

A frame carries a type byte.  Thirteen codes have a meaning: the requests, the reply to each of
them, and the error reply.
-/

namespace Animatronic

/-- What a frame asks for, or what it answers. -/
inductive MessageType
  | ping
  | pong
  | selfTest
  | selfTestResult
  | readValue
  | value
  | setCoefficients
  | setCoefficientsAck
  | setSetpoints
  | setSetpointsAck
  | sleep
  | sleepAck
  | error
deriving DecidableEq

namespace MessageType

/-- Every message type. -/
def all : List MessageType :=
  [ping, pong, selfTest, selfTestResult, readValue, value, setCoefficients, setCoefficientsAck,
    setSetpoints, setSetpointsAck, sleep, sleepAck, error]

def code : MessageType → UInt8
  | ping => 0x01
  | pong => 0x02
  | selfTest => 0x03
  | selfTestResult => 0x04
  | readValue => 0x05
  | value => 0x06
  | setCoefficients => 0x1F
  | setCoefficientsAck => 0x20
  | setSetpoints => 0x21
  | setSetpointsAck => 0x22
  | sleep => 0x23
  | sleepAck => 0x24
  | error => 0xFF

def name : MessageType → String
  | ping => "Ping"
  | pong => "Pong"
  | selfTest => "SelfTest"
  | selfTestResult => "SelfTestResult"
  | readValue => "ReadValue"
  | value => "Value"
  | setCoefficients => "SetCoefficients"
  | setCoefficientsAck => "SetCoefficientsAck"
  | setSetpoints => "SetSetpoints"
  | setSetpointsAck => "SetSetpointsAck"
  | sleep => "Sleep"
  | sleepAck => "SleepAck"
  | error => "Error"

/-- The message type with a given code. -/
def ofCode (code : UInt8) : Except Fault MessageType :=
  match all.find? fun kind => kind.code = code with
  | some kind => .ok kind
  | none => .error (.unknownMessageType code)

/-- A code is read back as the type it was written for. -/
theorem ofCode_code (kind : MessageType) : ofCode kind.code = .ok kind := by
  cases kind <;> rfl

/-- Only the code of a type is read as that type. -/
theorem code_of_ofCode {code : UInt8} {kind : MessageType} (known : ofCode code = .ok kind) :
    kind.code = code := by
  unfold ofCode at known
  split at known
  · next found => simpa [Except.ok.inj known] using List.find?_some found
  · simp at known

end MessageType

end Animatronic
