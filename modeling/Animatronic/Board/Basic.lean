/-!
# Boards

Five boards share one bus.  Each has an address byte with a single bit set, which frames carry in
their header, and a number from one to five, which the diagnostic bytes are built from.  There is
no broadcast address.

What a board finds on its address straps is an `Identity`: one of the five boards, or nothing.  A
board without identity never joins the bus.
-/

namespace Animatronic

/-- The boards of the creature, from rear to head. -/
inductive Board
  | ribs
  | purr
  | spine
  | headYaw
  | headPitch
deriving DecidableEq

namespace Board

/-- Every board, in the order of their numbers. -/
def all : List Board := [ribs, purr, spine, headYaw, headPitch]

/-- The address byte carried in frame headers. -/
def address : Board → UInt8
  | ribs => 0x01
  | purr => 0x02
  | spine => 0x04
  | headYaw => 0x08
  | headPitch => 0x10

/-- The board number used by the diagnostic bytes. -/
def number : Board → UInt8
  | ribs => 1
  | purr => 2
  | spine => 3
  | headYaw => 4
  | headPitch => 5

def name : Board → String
  | ribs => "Ribs"
  | purr => "Purr"
  | spine => "Spine"
  | headYaw => "HeadYaw"
  | headPitch => "HeadPitch"

/-- Whether a frame with this address byte is for the board: exact comparison, nothing else. -/
def isAddressedBy (board : Board) (address : UInt8) : Bool := address = board.address

/-- An address byte belongs to one board. -/
theorem address_injective {a b : Board} (same : a.address = b.address) : a = b := by
  revert same
  cases a <;> cases b <;> decide

end Board

/-! ## Identity -/

/-- Which board this is, if the straps say so. -/
abbrev Identity := Option Board

namespace Identity

/-- The board wired by strap bits, ordered `H1 H0 L1 L0`.  The table was measured on the wiring;
any other pattern names no board. -/
def ofStrapBits (bits : UInt8) : Identity :=
  match bits with
  | 0b0000 => some .headPitch
  | 0b1010 => some .headYaw
  | 0b0101 => some .spine
  | 0b1111 => some .purr
  | 0b1101 => some .ribs
  | _ => none

/-- The address byte; a board without identity has none of the five and would show zero. -/
def address (identity : Identity) : UInt8 := (identity.map Board.address).getD 0

def number (identity : Identity) : Option UInt8 := identity.map Board.number

def name (identity : Identity) : String := (identity.map Board.name).getD "Invalid"

/-- One board drives a vibration motor, in pulses; all others hold a position. -/
def isPulsed (identity : Identity) : Bool := identity = some .purr

/-- The direction in which the motor turns to reach its lower end stop. -/
def lowerDirection (identity : Identity) : Int8 := if identity = some .headYaw then -1 else 1

end Identity

end Animatronic
