import Animatronic.Bus.Receiver

/-!
# The payload buffer

A board has one payload buffer, which keeps whatever earlier frames have left in it.  Payloads are
read over its front, frames that are not for the board are drained through it in pieces as large as
it is, and the checksum and the request are taken from it again.  `Receiver.pollInto` receives in
this way.

No byte that was in the buffer before gets into a request: `pollInto_eq_poll`.
-/

namespace Animatronic

/-- The payload buffer of a board. -/
abbrev PayloadBuffer := Bytes Frame.maxPayload

namespace PayloadBuffer

/-- The buffer with bytes written over its front. -/
def overwrite (buffer : PayloadBuffer) {length : Nat} (bytes : Bytes length)
    (fits : length ≤ Frame.maxPayload) : PayloadBuffer :=
  ⟨bytes.val ++ buffer.val.drop length, by
    rw [List.length_append, List.length_drop, bytes.property, buffer.property]
    omega⟩

theorem take_overwrite (buffer : PayloadBuffer) {length : Nat} (bytes : Bytes length)
    (fits : length ≤ Frame.maxPayload) :
    (buffer.overwrite bytes fits).val.take length = bytes.val :=
  List.take_left' bytes.property

end PayloadBuffer

namespace Receiver

/-- Read bytes to the front of the buffer. -/
def receiveInto (receiver : Receiver) (buffer : PayloadBuffer) (length : Nat)
    (fits : length ≤ Frame.maxPayload) (next : PayloadBuffer → Exchange Outcome) :
    Exchange Outcome :=
  receiver.receivePayload length fun bytes => next (buffer.overwrite bytes fits)

/-- Read bytes and forget them, as many as the buffer holds at a time. -/
def drainInto (receiver : Receiver) (buffer : PayloadBuffer) (length : Nat)
    (next : Exchange Outcome) : Exchange Outcome :=
  if 0 < length then
    receiver.receiveInto buffer (min length Frame.maxPayload) (Nat.min_le_right ..) fun buffer =>
      receiver.drainInto buffer (length - min length Frame.maxPayload) next
  else next
termination_by length
decreasing_by
  have room : 0 < Frame.maxPayload := by decide
  omega

/-- Take the payload and the footer of a frame for this board. -/
def acceptInto (receiver : Receiver) (buffer : PayloadBuffer) (header : Header)
    (fits : header.payloadLength ≤ Frame.maxPayload) : Exchange Outcome :=
  receiver.receiveInto buffer header.payloadLength fits fun buffer =>
    receive receiver.checksum.width (some receiver.timing.footerLimit) fun footer =>
      if receiver.closes header (buffer.val.take header.payloadLength) footer then
        receiver.serve header.kind (buffer.val.take header.payloadLength)
      else .note .checksumMismatch (.done (.dropped .checksumMismatch))

/-- Go on after a header. -/
def dispatchInto (receiver : Receiver) (buffer : PayloadBuffer) (header : Header) :
    Exchange Outcome :=
  let body := header.payloadLength + receiver.checksum.width
  if receiver.board.isAddressedBy header.address then
    if fits : header.payloadLength ≤ Frame.maxPayload then
      receiver.acceptInto buffer header fits
    else
      receiver.drainInto buffer body
        (.note (.oversizedPayload header.payloadLength) <|
          receiver.reject (.payloadTooLarge header.size))
  else receiver.drainInto buffer body (.done .notAddressed)

/-- Go on after a first byte. -/
def proceedInto (receiver : Receiver) (buffer : PayloadBuffer) (first : UInt8) :
    Exchange Outcome :=
  match Diagnostic.decode first with
  | some diagnostic => receiver.diagnose diagnostic
  | none =>
    receive 3 (some receiver.timing.headerLimit) fun rest =>
      receiver.dispatchInto buffer (Header.ofBytes (joinHeader first rest))

/-- Wait for the next diagnostic byte or frame and deal with it. -/
def pollInto (receiver : Receiver) (buffer : PayloadBuffer) : Exchange Outcome :=
  receive 1 none fun first => receiver.proceedInto buffer (theByte first)

/-! ## What is left in the buffer does not matter -/

theorem chunks_zero : chunks 0 = [] := rfl

/-- The first piece fills the buffer, or is all there is. -/
theorem chunks_of_pos {length : Nat} (positive : 0 < length) :
    chunks length =
      min length Frame.maxPayload :: chunks (length - min length Frame.maxPayload) := by
  have room : 0 < Frame.maxPayload := by decide
  by_cases large : Frame.maxPayload ≤ length
  · have whole : length / Frame.maxPayload =
        (length - Frame.maxPayload) / Frame.maxPayload + 1 := by
      rw [← Nat.add_div_right _ room, Nat.sub_add_cancel large]
    rw [Nat.min_eq_right large, chunks, chunks, whole, List.replicate_succ, List.cons_append,
      Nat.mod_eq_sub_mod large]
  · have small : length < Frame.maxPayload := Nat.lt_of_not_le large
    rw [Nat.min_eq_left (Nat.le_of_lt small), Nat.sub_self, chunks_zero, chunks,
      Nat.div_eq_of_lt small, Nat.mod_eq_of_lt small, if_neg (Nat.ne_of_gt positive)]
    rfl

theorem drainInto_eq_drain (receiver : Receiver) (buffer : PayloadBuffer) (length : Nat)
    (next : Exchange Outcome) :
    receiver.drainInto buffer length next = receiver.drain next (chunks length) := by
  induction length using Nat.strongRecOn generalizing buffer with
  | ind length ih =>
    rw [drainInto]
    by_cases positive : 0 < length
    · have room : 0 < Frame.maxPayload := by decide
      rw [if_pos positive, chunks_of_pos positive, drain, receiveInto]
      refine congrArg (receiver.receivePayload _) (funext fun bytes => ?_)
      exact ih _ (by omega) _
    · obtain rfl : length = 0 := Nat.eq_zero_of_not_pos positive
      rw [if_neg positive, chunks_zero, drain]

theorem acceptInto_eq_accept (receiver : Receiver) (buffer : PayloadBuffer) (header : Header)
    (fits : header.payloadLength ≤ Frame.maxPayload) :
    receiver.acceptInto buffer header fits = receiver.accept header := by
  refine congrArg (receiver.receivePayload _) (funext fun payload => ?_)
  simp only [PayloadBuffer.take_overwrite]

theorem dispatchInto_eq_dispatch (receiver : Receiver) (buffer : PayloadBuffer)
    (header : Header) : receiver.dispatchInto buffer header = receiver.dispatch header := by
  unfold dispatchInto dispatch
  split
  · split
    · exact receiver.acceptInto_eq_accept buffer header _
    · exact receiver.drainInto_eq_drain buffer _ _
  · exact receiver.drainInto_eq_drain buffer _ _

/-- A board receives in the same way whatever its payload buffer holds. -/
theorem pollInto_eq_poll (receiver : Receiver) (buffer : PayloadBuffer) :
    receiver.pollInto buffer = receiver.poll := by
  refine congrArg (receive 1 none) (funext fun first => ?_)
  unfold proceedInto proceed
  cases Diagnostic.decode (theByte first) with
  | some diagnostic => rfl
  | none =>
    exact congrArg (receive 3 _) (funext fun rest => receiver.dispatchInto_eq_dispatch buffer _)

end Receiver

end Animatronic
