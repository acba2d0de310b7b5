import Animatronic.Board.Diagnostic
import Animatronic.Frame.MessageType

/-!
# Outcomes

Receiving ends in one of six ways, each of which accounts for one diagnostic byte or one frame.
-/

namespace Animatronic

/-- What became of something received: a `diagnostic` for this board was answered or one for
another board consumed, a frame for another board was consumed, a request was `replied` to with a
reply of this type or `rejected` with this code, or a frame was `dropped` without a reply. -/
inductive Outcome
  | diagnostic (diagnostic : Diagnostic)
  | otherDiagnostic
  | notAddressed
  | replied (kind : MessageType)
  | rejected (code : Int16)
  | dropped (fault : Fault)
deriving DecidableEq

/-- An outcome as log lines show it. -/
def Outcome.text : Outcome → String
  | diagnostic asked => s!"Diagnostic({asked.text})"
  | otherDiagnostic => "OtherDiagnostic"
  | notAddressed => "NotAddressed"
  | replied kind => s!"Replied({kind.name})"
  | rejected code => s!"Rejected({code.toInt})"
  | dropped fault => s!"Dropped({fault.name})"

end Animatronic
