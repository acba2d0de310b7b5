import Animatronic.Bus.Exchange

/-!
# Receiving

A receiver waits for a first byte.  A diagnostic byte is answered at once if it is for this board,
with bare bytes.  Anything else begins a frame: three more header bytes, the payload and the
footer.

A frame for another board, or one that is too large, is read to its end in pieces and otherwise
ignored, so that every board on the bus stays at the same byte.  A frame for this board is handed
to the service if its checksum is right, and the service's reply, or its fault, goes out in one
frame.

Every read but the first is bounded by a limit.  When a read or a write fails, the frame is dropped
and the bus restarted, so that bytes left over do not damage the next frame.
-/

namespace Animatronic

/-- What a board needs to know to receive: whom it answers for, and how frames are closed and
timed. -/
structure Receiver where
  board : Board
  checksum : Checksum
  timing : Timing
deriving DecidableEq

namespace Receiver

/-- Give up a frame.  After a fault of the bus, whatever is left of the frame is thrown away. -/
def drop (fault : Fault) : Exchange Outcome :=
  let ending := Exchange.done (.dropped fault)
  .note (.frameDropped fault) <|
    match fault with
    | .timeout | .transceiver => .restart ending
    | _ => ending

/-- Read `length` bytes and go on with them; a failed read drops the frame. -/
def receive (length : Nat) (limit : Option Microseconds)
    (next : Bytes length → Exchange Outcome) : Exchange Outcome :=
  .read length limit fun
    | .ok bytes => next bytes
    | .error fault => drop fault.fault

/-- Read `length` bytes within the payload limit for so many. -/
def receivePayload (receiver : Receiver) (length : Nat)
    (next : Bytes length → Exchange Outcome) : Exchange Outcome :=
  .orAbort (receiver.timing.payloadLimit (UInt64.ofNat length)) fun limit =>
    receive length (some limit) next

/-- The pieces in which `length` bytes are drained: as many full payload buffers as there are, and
then the rest. -/
def chunks (length : Nat) : List Nat :=
  List.replicate (length / Frame.maxPayload) Frame.maxPayload ++
    if length % Frame.maxPayload = 0 then [] else [length % Frame.maxPayload]

/-- Draining takes exactly the bytes that it is to take. -/
theorem foldr_add_chunks (length : Nat) : (chunks length).foldr (· + ·) 0 = length := by
  rw [← List.sum_eq_foldr]
  have whole := Nat.div_add_mod length Frame.maxPayload
  rw [Nat.mul_comm] at whole
  unfold chunks
  split
  · next even => simpa [even] using whole
  · simpa using whole

/-- No chunk is larger than the payload buffer, and none is empty. -/
theorem bounds_of_mem_chunks {length chunk : Nat} (mem : chunk ∈ chunks length) :
    0 < chunk ∧ chunk ≤ Frame.maxPayload := by
  unfold chunks at mem
  rcases List.mem_append.mp mem with full | rest
  · rw [(List.mem_replicate.mp full).2]
    decide
  · split at rest
    · exact absurd rest List.not_mem_nil
    · next positive =>
      have small : length % Frame.maxPayload < Frame.maxPayload := Nat.mod_lt _ (by decide)
      rw [List.mem_singleton.mp rest]
      omega

/-- Read bytes piece by piece and forget them. -/
def drain (receiver : Receiver) (next : Exchange Outcome) : List Nat → Exchange Outcome
  | [] => next
  | chunk :: rest => receiver.receivePayload chunk fun _ => receiver.drain next rest

/-- Write bytes; a failed write drops the frame. -/
def send (bytes : List UInt8) (outcome : Outcome) : Exchange Outcome :=
  .write bytes fun
    | .ok () => .done outcome
    | .error fault => drop fault.fault

/-- Send one frame from this board. -/
def sendFrame (receiver : Receiver) (kind : MessageType) (payload : List UInt8)
    (outcome : Outcome) : Exchange Outcome :=
  match Frame.encode receiver.checksum Frame.maxReply receiver.board.address kind payload with
  | .ok frame => send frame outcome
  | .error fault => drop fault

/-- Report a fault to the sender, if it is one of those that are reported. -/
def reject (receiver : Receiver) (fault : Fault) : Exchange Outcome :=
  match fault.code with
  | some code =>
    .note (.requestRejected fault) <|
      receiver.sendFrame .error (Fault.payload code) (.rejected code)
  | none => drop fault

/-- Answer a diagnostic that is for this board, and consume any other. -/
def diagnose (receiver : Receiver) (diagnostic : Diagnostic) : Exchange Outcome :=
  if diagnostic.board = receiver.board then
    .diagnose diagnostic.kind fun reply => send reply (.diagnostic diagnostic)
  else .done .otherDiagnostic

/-- Service a request and reply to it. -/
def serve (receiver : Receiver) (code : UInt8) (payload : List UInt8) : Exchange Outcome :=
  .serve code payload fun
    | .ok response => receiver.sendFrame response.kind response.payload (.replied response.kind)
    | .error fault => receiver.reject fault

/-- Whether a footer closes the given header and payload. -/
def closes (receiver : Receiver) (header : Header) (payload footer : List UInt8) : Bool :=
  let register := receiver.checksum.updateMany receiver.checksum.initial header.bytes
  let register := receiver.checksum.updateMany register payload
  (receiver.checksum.value register).toNat = Word.ofBytes footer

/-- Take the payload and the footer of a frame for this board. -/
def accept (receiver : Receiver) (header : Header) : Exchange Outcome :=
  receiver.receivePayload header.payloadLength fun payload =>
    receive receiver.checksum.width (some receiver.timing.footerLimit) fun footer =>
      if receiver.closes header payload footer then receiver.serve header.kind payload
      else .note .checksumMismatch (.done (.dropped .checksumMismatch))

/-- Go on after a header. -/
def dispatch (receiver : Receiver) (header : Header) : Exchange Outcome :=
  let body := chunks (header.payloadLength + receiver.checksum.width)
  if receiver.board.isAddressedBy header.address then
    if header.payloadLength ≤ Frame.maxPayload then receiver.accept header
    else
      receiver.drain
        (.note (.oversizedPayload header.payloadLength) <|
          receiver.reject (.payloadTooLarge header.size))
        body
  else receiver.drain (.done .notAddressed) body

/-- Four header bytes from the first one and the rest. -/
def joinHeader (first : UInt8) (rest : Bytes 3) : Bytes Header.length :=
  ⟨first :: rest.val, by rw [List.length_cons, rest.property]; rfl⟩

/-- The one byte of a byte string of length one. -/
def theByte : Bytes 1 → UInt8
  | ⟨[byte], _⟩ => byte

/-- Go on after a first byte. -/
def proceed (receiver : Receiver) (first : UInt8) : Exchange Outcome :=
  match Diagnostic.decode first with
  | some diagnostic => receiver.diagnose diagnostic
  | none =>
    receive 3 (some receiver.timing.headerLimit) fun rest =>
      receiver.dispatch (Header.ofBytes (joinHeader first rest))

/-- Wait for the next diagnostic byte or frame and deal with it. -/
def poll (receiver : Receiver) : Exchange Outcome :=
  receive 1 none fun first => receiver.proceed (theByte first)

end Receiver

end Animatronic
