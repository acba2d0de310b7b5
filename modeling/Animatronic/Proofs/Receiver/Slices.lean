import Animatronic.Proofs.Receiver.Buffer

/-!
# Slices of the buffers

The payload and the footer are read into the fronts of buffers of fixed sizes, 1024 and 4 bytes,
and every time such a front is taken, the buffer might be too short for it.  `Receiver.pollSlices`
asks each time, and has something to do if it is: a frame is dropped, or an empty payload stands
in.

None of this ever happens: `pollSlices_eq_poll`.
-/

namespace Animatronic

/-- The size of the buffer for a footer. -/
def Frame.maxFooter : Nat := 4

theorem Checksum.width_le (checksum : Checksum) : checksum.width ≤ Frame.maxFooter := by
  cases checksum <;> decide

/-- The front of a buffer, or nothing if the buffer is too short. -/
def PayloadBuffer.slice (buffer : PayloadBuffer) (length : Nat) : List UInt8 :=
  if length ≤ Frame.maxPayload then buffer.val.take length else []

namespace Receiver

/-- Read bytes to the front of the buffer; a buffer that is too short drops the frame. -/
def receiveSlice (receiver : Receiver) (buffer : PayloadBuffer) (length : Nat) (missing : Fault)
    (next : PayloadBuffer → Exchange Outcome) : Exchange Outcome :=
  .orAbort (receiver.timing.payloadLimit (UInt64.ofNat length)) fun limit =>
    if fits : length ≤ Frame.maxPayload then
      receive length (some limit) fun bytes => next (buffer.overwrite bytes fits)
    else drop missing

/-- Read bytes and forget them, as many as the buffer holds at a time. -/
def drainSlices (receiver : Receiver) (buffer : PayloadBuffer) (length : Nat)
    (next : Exchange Outcome) : Exchange Outcome :=
  if 0 < length then
    receiver.receiveSlice buffer (min length Frame.maxPayload) .transceiver fun buffer =>
      receiver.drainSlices buffer (length - min length Frame.maxPayload) next
  else next
termination_by length
decreasing_by
  have room : 0 < Frame.maxPayload := by decide
  omega

/-- Take the payload and the footer of a frame for this board. -/
def acceptSlices (receiver : Receiver) (buffer : PayloadBuffer) (header : Header) :
    Exchange Outcome :=
  receiver.receiveSlice buffer header.payloadLength (.payloadTooLarge header.size) fun buffer =>
    if receiver.checksum.width ≤ Frame.maxFooter then
      receive receiver.checksum.width (some receiver.timing.footerLimit) fun footer =>
        if receiver.closes header (buffer.slice header.payloadLength) footer then
          receiver.serve header.kind (buffer.slice header.payloadLength)
        else .note .checksumMismatch (.done (.dropped .checksumMismatch))
    else drop .checksumMismatch

/-- Go on after a header. -/
def dispatchSlices (receiver : Receiver) (buffer : PayloadBuffer) (header : Header) :
    Exchange Outcome :=
  let body := header.payloadLength + receiver.checksum.width
  if receiver.board.isAddressedBy header.address then
    if header.payloadLength ≤ Frame.maxPayload then receiver.acceptSlices buffer header
    else
      receiver.drainSlices buffer body
        (.note (.oversizedPayload header.payloadLength) <|
          receiver.reject (.payloadTooLarge header.size))
  else receiver.drainSlices buffer body (.done .notAddressed)

/-- Go on after a first byte. -/
def proceedSlices (receiver : Receiver) (buffer : PayloadBuffer) (first : UInt8) :
    Exchange Outcome :=
  match Diagnostic.decode first with
  | some diagnostic => receiver.diagnose diagnostic
  | none =>
    receive 3 (some receiver.timing.headerLimit) fun rest =>
      receiver.dispatchSlices buffer (Header.ofBytes (joinHeader first rest))

/-- Wait for the next diagnostic byte or frame and deal with it. -/
def pollSlices (receiver : Receiver) (buffer : PayloadBuffer) : Exchange Outcome :=
  receive 1 none fun first => receiver.proceedSlices buffer (theByte first)

/-! ## The buffers are long enough -/

variable {receiver : Receiver} {buffer : PayloadBuffer}

theorem receiveSlice_eq_receiveInto {length : Nat} (fits : length ≤ Frame.maxPayload)
    (missing : Fault) (next : PayloadBuffer → Exchange Outcome) :
    receiver.receiveSlice buffer length missing next =
      receiver.receiveInto buffer length fits next :=
  congrArg (Exchange.orAbort _) (funext fun _ => dif_pos fits)

theorem drainSlices_eq_drainInto (buffer : PayloadBuffer) (length : Nat)
    (next : Exchange Outcome) :
    receiver.drainSlices buffer length next = receiver.drainInto buffer length next := by
  induction length using Nat.strongRecOn generalizing buffer with
  | ind length ih =>
    rw [drainSlices, drainInto]
    by_cases positive : 0 < length
    · have room : 0 < Frame.maxPayload := by decide
      rw [if_pos positive, if_pos positive, receiveSlice_eq_receiveInto (Nat.min_le_right ..)]
      exact congrArg (receiver.receiveInto buffer _ _)
        (funext fun buffer => ih _ (by omega) buffer)
    · rw [if_neg positive, if_neg positive]

theorem acceptSlices_eq_acceptInto (header : Header)
    (fits : header.payloadLength ≤ Frame.maxPayload) :
    receiver.acceptSlices buffer header = receiver.acceptInto buffer header fits := by
  rw [acceptSlices, receiveSlice_eq_receiveInto fits]
  refine congrArg (receiver.receiveInto buffer _ _) (funext fun buffer => ?_)
  rw [if_pos receiver.checksum.width_le, PayloadBuffer.slice, if_pos fits]

theorem dispatchSlices_eq_dispatchInto (header : Header) :
    receiver.dispatchSlices buffer header = receiver.dispatchInto buffer header := by
  unfold dispatchSlices dispatchInto
  split
  · split
    · exact acceptSlices_eq_acceptInto header _
    · exact drainSlices_eq_drainInto buffer _ _
  · exact drainSlices_eq_drainInto buffer _ _

/-- No slice of a buffer is ever out of range, so that asking for it makes no difference. -/
theorem pollSlices_eq_poll (receiver : Receiver) (buffer : PayloadBuffer) :
    receiver.pollSlices buffer = receiver.poll := by
  rw [← receiver.pollInto_eq_poll buffer]
  refine congrArg (receive 1 none) (funext fun first => ?_)
  unfold proceedSlices proceedInto
  cases Diagnostic.decode (theByte first) with
  | some diagnostic => rfl
  | none =>
    exact congrArg (receive 3 _) (funext fun rest => dispatchSlices_eq_dispatchInto _)

end Receiver

end Animatronic
