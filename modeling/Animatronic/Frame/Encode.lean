import Animatronic.Checksum
import Animatronic.Frame.Header
import Animatronic.Frame.MessageType

/-!
# Frames

A frame is a header, a payload and a footer.  The footer is the checksum of all bytes before it,
least significant byte first, in as many bytes as the checksum is wide.

A frame is assembled in a buffer of limited capacity, piece by piece.  If one of the pieces does
not fit, there is no frame, and the fault tells the payload size.
-/

namespace Animatronic

/-- `buffer` with `more` behind it, if both fit in `capacity` bytes. -/
def appendWithin (capacity : Nat) (buffer more : List UInt8) : Option (List UInt8) :=
  if buffer.length + more.length ≤ capacity then some (buffer ++ more) else none

/-- A buffer takes what fits in it, and nothing else. -/
theorem appendWithin_eq_some_iff {capacity : Nat} {buffer more result : List UInt8} :
    appendWithin capacity buffer more = some result ↔
      buffer.length + more.length ≤ capacity ∧ buffer ++ more = result := by
  simp [appendWithin]

namespace Frame

/-- The largest payload that a board accepts. -/
def maxPayload : Nat := 1024

/-- The largest payload of a reply, which is the longest diagnostic line. -/
def maxReplyPayload : Nat := 64

/-- A header, the largest reply payload and the widest footer. -/
def maxReply : Nat := Header.length + maxReplyPayload + 4

/-- The footer that closes a frame whose bytes so far are `bytes`. -/
def footer (checksum : Checksum) (bytes : List UInt8) : List UInt8 :=
  Word.toBytes checksum.width (checksum.compute bytes).toNat

@[simp] theorem length_footer (checksum : Checksum) (bytes : List UInt8) :
    (footer checksum bytes).length = checksum.width :=
  Word.length_toBytes ..

/-- A complete frame in a buffer of `capacity` bytes. -/
def encode (checksum : Checksum) (capacity : Nat) (address : UInt8) (kind : MessageType)
    (payload : List UInt8) : Except Fault (List UInt8) :=
  if payload.length < UInt16.size then
    let header : Header := ⟨address, kind.code, UInt16.ofNat payload.length⟩
    let frame := do
      let frame ← appendWithin capacity [] header.bytes
      let frame ← appendWithin capacity frame payload
      appendWithin capacity frame (footer checksum frame)
    match frame with
    | some frame => .ok frame
    | none => .error (.payloadTooLarge header.size)
  else .error (.payloadTooLarge 0xFFFF)

end Frame

end Animatronic
