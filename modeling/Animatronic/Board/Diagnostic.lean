import Animatronic.Board.Basic

/-!
# Diagnostics

A single printable byte asks one thing of one board: `'0' + n` is a ping of board `n`,
`'a' + n - 1` starts its self-test and `'A' + n - 1` reads its position.  No address byte is a
diagnostic byte, so the first byte of the line tells the two apart.
-/

namespace Animatronic

/-- What a diagnostic byte asks for. -/
inductive DiagnosticKind
  | ping
  | selfTest
  | readValue
deriving DecidableEq

namespace DiagnosticKind

def name : DiagnosticKind → String
  | ping => "Ping"
  | selfTest => "SelfTest"
  | readValue => "ReadValue"

/-- The byte that asks this of board number one. -/
def base : DiagnosticKind → UInt8
  | ping => 0x31
  | selfTest => 0x61
  | readValue => 0x41

end DiagnosticKind

/-- What is asked, and of which board. -/
structure Diagnostic where
  kind : DiagnosticKind
  board : Board
deriving DecidableEq

namespace Diagnostic

/-- The byte that a board answers to. -/
def byte (diagnostic : Diagnostic) : UInt8 :=
  diagnostic.kind.base + (diagnostic.board.number - 1)

/-- The diagnostic that a byte asks for, if it is one of the fifteen. -/
def decode (byte : UInt8) : Option Diagnostic :=
  let ask (kind : DiagnosticKind) : Option Diagnostic :=
    (Board.all.find? fun board => byte = (Diagnostic.mk kind board).byte).map (Diagnostic.mk kind)
  ask .ping <|> ask .selfTest <|> ask .readValue

/-- Every diagnostic byte is decoded to what it asks. -/
theorem decode_byte (diagnostic : Diagnostic) : decode diagnostic.byte = some diagnostic := by
  obtain ⟨kind, board⟩ := diagnostic
  cases kind <;> cases board <;> decide

/-- The address bytes of frames are no diagnostics. -/
theorem decode_address (board : Board) : decode board.address = none := by
  cases board <;> decide

/-- A diagnostic as log lines show it. -/
def text (diagnostic : Diagnostic) : String :=
  s!"Diagnostic \x7b kind: {diagnostic.kind.name}, board: {diagnostic.board.name} \x7d"

end Diagnostic

end Animatronic
