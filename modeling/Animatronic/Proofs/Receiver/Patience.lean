import Animatronic.Bus.ByteLine
import Animatronic.Proofs.Bus.PayloadLimit
import Animatronic.Proofs.Exchange.Wait
import Animatronic.Proofs.Receiver.Slices
import Animatronic.Proofs.Receiver.Stream

/-!
# How long a board waits

Behind a header a board asks for limits on as many bytes as it is going to read next: on the whole
payload of a frame that it takes, and otherwise on the pieces in which the frame is drained
(`Receiver.pieces`).  None of them is larger than the payload buffer, so that every limit is exact,
and the pieces of a drained frame make up the frame (`Receiver.IsMeasured`).

The first piece of a frame is its longest.  Therefore a board either has limits for the whole
frame, or stops before it has read anything behind the header (`Receiver.FrameWaits`).
-/

namespace Animatronic

/-- A read within the limit on so many bytes of payload. -/
def Timing.demand (timing : Timing) (length : Nat) : Demand :=
  ⟨length, some (timing.exactLimit length)⟩

/-- Where nothing was in vain, all that was planned has been read. -/
theorem Wait.Follows.map_length {plan : List Demand} {waits : List Wait}
    (follows : Follows plan waits)
    (complete : ∀ wait ∈ waits, wait.received.isSome = true) :
    waits.map (fun wait => wait.length) = plan.map Demand.length := by
  induction follows with
  | done => rfl
  | failed => cases complete _ (List.mem_singleton_self _)
  | read demand bytes later ih =>
    exact congrArg (demand.length :: ·)
      (ih fun wait mem => complete wait (List.mem_cons_of_mem _ mem))

theorem Checksum.width_pos (checksum : Checksum) : 0 < checksum.width := by
  cases checksum <;> decide

/-- Any four bytes are a header. -/
theorem Header.exists_eq_joinHeader (first : UInt8) (rest : Bytes 3) :
    ∃ header : Header, header.address = first ∧ header.tail = rest := by
  have bytes := Header.bytes_ofBytes (Receiver.joinHeader first rest)
  obtain ⟨address, tail⟩ := List.cons.inj bytes
  exact ⟨_, address, Subtype.ext tail⟩

namespace Receiver

open Wait (Observes)

/-- Whether a frame is for this board and short enough to be read whole. -/
def Takes (receiver : Receiver) (header : Header) : Prop :=
  receiver.board.isAddressedBy header.address = true ∧ header.payloadLength ≤ Frame.maxPayload

instance (receiver : Receiver) (header : Header) : Decidable (receiver.Takes header) :=
  inferInstanceAs (Decidable (_ ∧ _))

/-- The numbers of bytes for which a frame makes a board ask for limits, in order. -/
def pieces (receiver : Receiver) (header : Header) : List Nat :=
  if receiver.Takes header then [header.payloadLength]
  else chunks (header.payloadLength + receiver.checksum.width)

/-- The reads behind a header. -/
def plan (receiver : Receiver) (header : Header) : List Demand :=
  (receiver.pieces header).map receiver.timing.demand ++
    if receiver.Takes header then
      [⟨receiver.checksum.width, some receiver.timing.footerLimit⟩]
    else []

/-- The waits behind a header.  A board has a limit for every piece and waits as planned, or it has
none for the first piece and stops at once. -/
inductive FrameWaits (receiver : Receiver) (header : Header) : List Wait → Ending Outcome → Prop
  | limited {waits : List Wait} {ending : Ending Outcome}
      (within : ∀ length ∈ receiver.pieces header, receiver.timing.HasLimit length)
      (observes : Observes (receiver.plan header) waits ending) :
      FrameWaits receiver header waits ending
  | stopped {first : Nat} {rest : List Nat} (starts : receiver.pieces header = first :: rest)
      (beyond : ¬receiver.timing.HasLimit first) :
      FrameWaits receiver header [] (.aborted .durationOverflow)

/-- The waits of a poll: for a first byte, and unless that is a diagnostic for the rest of a header
and for what is behind it. -/
inductive PollWaits (receiver : Receiver) : List Wait → Ending Outcome → Prop
  | silence {ending : Ending Outcome} (lives : ending.Lives) :
      PollWaits receiver [⟨⟨1, none⟩, none⟩] ending
  | diagnostic {ending : Ending Outcome} {byte : UInt8} {asked : Diagnostic}
      (decoded : Diagnostic.decode byte = some asked) (lives : ending.Lives) :
      PollWaits receiver [⟨⟨1, none⟩, some [byte]⟩] ending
  | headless {ending : Ending Outcome} {byte : UInt8} (plain : Diagnostic.decode byte = none)
      (lives : ending.Lives) :
      PollWaits receiver
        [⟨⟨1, none⟩, some [byte]⟩, ⟨⟨3, some receiver.timing.headerLimit⟩, none⟩] ending
  | frame {waits : List Wait} {ending : Ending Outcome} (header : Header)
      (plain : Diagnostic.decode header.address = none)
      (behind : receiver.FrameWaits header waits ending) :
      PollWaits receiver
        (⟨⟨1, none⟩, some [header.address]⟩ ::
          ⟨⟨3, some receiver.timing.headerLimit⟩, some header.tail.val⟩ :: waits) ending

/-- The pieces of a frame and the limits on them. -/
structure IsMeasured (receiver : Receiver) (header : Header) : Prop where
  limits : ∀ length ∈ receiver.pieces header, receiver.timing.IsExact length
  /-- A frame that is not taken is drained in pieces that make up its payload and its footer. -/
  whole : ¬receiver.Takes header →
    (receiver.pieces header).foldr (· + ·) 0 = header.payloadLength + receiver.checksum.width
  drained : ¬receiver.Takes header → ∀ waits ending, receiver.FrameWaits header waits ending →
    ending.Lives → (∀ wait ∈ waits, wait.received.isSome = true) →
      (waits.map fun wait => wait.length).foldr (· + ·) 0 =
        header.payloadLength + receiver.checksum.width

variable {receiver : Receiver} {header : Header} {identity : Identity} {Line : Type}
  {bus : Bus Line} {length : Nat} {demands : List Demand}

/-! ## Pieces -/

/-- No piece is longer than the first one, which fills the buffer unless it is all there is. -/
theorem le_of_mem_chunks {piece : Nat} (mem : piece ∈ chunks length) :
    piece ≤ min length Frame.maxPayload := by
  refine Nat.le_min.mpr ⟨?_, (bounds_of_mem_chunks mem).2⟩
  unfold chunks at mem
  rcases List.mem_append.mp mem with full | rest
  · obtain ⟨nonzero, rfl⟩ := List.mem_replicate.mp full
    exact Nat.le_of_not_lt fun small => nonzero (Nat.div_eq_of_lt small)
  · split at rest
    · exact absurd rest List.not_mem_nil
    · rw [List.mem_singleton.mp rest]
      exact Nat.mod_le ..

theorem le_of_mem_pieces (mem : length ∈ receiver.pieces header) : length ≤ Frame.maxPayload := by
  unfold pieces at mem
  split at mem
  · next takes =>
    rw [List.mem_singleton.mp mem]
    exact takes.2
  · exact (bounds_of_mem_chunks mem).2

theorem isMeasured (receiver : Receiver) (header : Header) : receiver.IsMeasured header where
  limits length mem := receiver.timing.isExact (le_of_mem_pieces mem)
  whole drains := by
    rw [pieces, if_neg drains, foldr_add_chunks]
  drained drains waits ending behind lives complete := by
    cases behind with
    | limited within observes =>
      rw [observes.follows.map_length complete, plan, if_neg drains, List.append_nil,
        List.map_map]
      show ((receiver.pieces header).map id).foldr (· + ·) 0 = _
      rw [List.map_id, pieces, if_neg drains, foldr_add_chunks]
    | stopped starts beyond => exact absurd rfl (lives _)

/-! ## Parts of a poll -/

theorem awaits_drop (fault : Fault) : (drop fault).Awaits bus identity (Observes []) := by
  have ends : (Exchange.done (Outcome.dropped fault)).Awaits bus identity (Observes []) :=
    Exchange.awaits_done _
  unfold drop
  cases fault with
  | timeout => exact ends.restart.note _
  | transceiver => exact ends.restart.note _
  | _ => exact ends.note _

theorem awaits_send (bytes : List UInt8) (outcome : Outcome) :
    (send bytes outcome).Awaits bus identity (Observes []) := by
  refine Exchange.Awaits.write fun result => ?_
  cases result with
  | ok => exact Exchange.awaits_done outcome
  | error fault => exact awaits_drop fault.fault

theorem awaits_sendFrame (kind : MessageType) (payload : List UInt8) (outcome : Outcome) :
    (receiver.sendFrame kind payload outcome).Awaits bus identity (Observes []) := by
  unfold sendFrame
  split
  · exact awaits_send _ _
  · exact awaits_drop _

theorem awaits_reject (fault : Fault) :
    (receiver.reject fault).Awaits bus identity (Observes []) := by
  unfold reject
  split
  · exact (awaits_sendFrame _ _ _).note _
  · exact awaits_drop _

theorem awaits_serve (code : UInt8) (payload : List UInt8) :
    (receiver.serve code payload).Awaits bus identity (Observes []) := by
  refine Exchange.Awaits.serve fun result => ?_
  cases result with
  | ok response => exact awaits_sendFrame _ _ _
  | error fault => exact awaits_reject fault

theorem awaits_diagnose (asked : Diagnostic) :
    (receiver.diagnose asked).Awaits bus identity (Observes []) := by
  unfold diagnose
  split
  · exact Exchange.Awaits.diagnose fun reply => awaits_send reply _
  · exact Exchange.awaits_done _

/-- A read that fails, or that is waited for without end, is the last one. -/
theorem awaits_receive {limit : Option Microseconds} {next : Bytes length → Exchange Outcome}
    {post : List Wait → Ending Outcome → Prop}
    (complete : ∀ bytes, (next bytes).Awaits bus identity
      fun waits => post (⟨⟨length, limit⟩, some bytes.val⟩ :: waits))
    (failed : ∀ ending : Ending Outcome, ending.Lives → post [⟨⟨length, limit⟩, none⟩] ending) :
    (receive length limit next).Awaits bus identity post := by
  refine Exchange.Awaits.read complete (fun fault => ?_) (failed .waiting nofun)
  refine (awaits_drop fault.fault).mono fun waits ending observes => ?_
  rw [observes.eq_nil]
  exact failed ending observes.lives

theorem awaits_receive_observes {limit : Option Microseconds}
    {next : Bytes length → Exchange Outcome}
    (later : ∀ bytes, (next bytes).Awaits bus identity (Observes demands)) :
    (receive length limit next).Awaits bus identity (Observes (⟨length, limit⟩ :: demands)) := by
  refine awaits_receive (fun bytes => ?_) fun ending lives => ⟨.failed _ demands, lives⟩
  exact (later bytes).mono fun waits ending observes =>
    ⟨.read ⟨length, limit⟩ bytes observes.follows, observes.lives⟩

/-! ## Payloads -/

theorem awaits_receivePayload {next : Bytes length → Exchange Outcome}
    (few : length ≤ Frame.maxPayload) (within : receiver.timing.HasLimit length)
    (later : ∀ bytes, (next bytes).Awaits bus identity (Observes demands)) :
    (receiver.receivePayload length next).Awaits bus identity
      (Observes (receiver.timing.demand length :: demands)) := by
  rw [receivePayload, Timing.payloadLimit_of_hasLimit few within]
  exact awaits_receive_observes later

/-- Without a limit there is no read. -/
theorem awaits_receivePayload_of_not_hasLimit {next : Bytes length → Exchange Outcome}
    {post : List Wait → Ending Outcome → Prop} (few : length ≤ Frame.maxPayload)
    (beyond : ¬receiver.timing.HasLimit length) (holds : post [] (.aborted .durationOverflow)) :
    (receiver.receivePayload length next).Awaits bus identity post := by
  rw [receivePayload, Timing.payloadLimit_of_not_hasLimit few beyond]
  exact Exchange.awaits_abort holds

theorem awaits_drain {next : Exchange Outcome} {pieces : List Nat}
    (few : ∀ piece ∈ pieces, piece ≤ Frame.maxPayload)
    (within : ∀ piece ∈ pieces, receiver.timing.HasLimit piece)
    (later : next.Awaits bus identity (Observes [])) :
    (receiver.drain next pieces).Awaits bus identity
      (Observes (pieces.map receiver.timing.demand)) := by
  induction pieces with
  | nil => exact later
  | cons piece rest ih =>
    have behind := ih (fun other mem => few other (List.mem_cons_of_mem _ mem))
      fun other mem => within other (List.mem_cons_of_mem _ mem)
    exact awaits_receivePayload (few piece (List.mem_cons_self ..))
      (within piece (List.mem_cons_self ..)) fun _ => behind

theorem awaits_accept (few : header.payloadLength ≤ Frame.maxPayload)
    (within : receiver.timing.HasLimit header.payloadLength) :
    (receiver.accept header).Awaits bus identity
      (Observes [receiver.timing.demand header.payloadLength,
        ⟨receiver.checksum.width, some receiver.timing.footerLimit⟩]) := by
  refine awaits_receivePayload few within fun payload => ?_
  refine awaits_receive_observes fun footer => ?_
  split
  · exact awaits_serve header.kind payload
  · exact (Exchange.awaits_done _).note _

/-! ## Frames -/

theorem dispatch_of_takes (takes : receiver.Takes header) :
    receiver.dispatch header = receiver.accept header := by
  rw [dispatch, if_pos takes.1, if_pos takes.2]

/-- What a board does with a frame that it has drained. -/
def afterDrain (receiver : Receiver) (header : Header) : Exchange Outcome :=
  if receiver.board.isAddressedBy header.address then
    .note (.oversizedPayload header.payloadLength) <|
      receiver.reject (.payloadTooLarge header.size)
  else .done .notAddressed

theorem awaits_afterDrain :
    (receiver.afterDrain header).Awaits bus identity (Observes []) := by
  unfold afterDrain
  split
  · exact (awaits_reject _).note _
  · exact Exchange.awaits_done _

theorem dispatch_of_drains (drains : ¬receiver.Takes header) :
    receiver.dispatch header =
      receiver.drain (receiver.afterDrain header)
        (chunks (header.payloadLength + receiver.checksum.width)) := by
  unfold dispatch afterDrain
  split
  · next mine => rw [if_neg fun few => drains ⟨mine, few⟩]
  · rfl

/-- The first thing behind a header is to read the first piece, and no other is longer. -/
theorem exists_dispatch_eq_receivePayload (receiver : Receiver) (header : Header) :
    ∃ (first : Nat) (rest : List Nat) (next : Bytes first → Exchange Outcome),
      receiver.pieces header = first :: rest ∧
        (∀ piece ∈ receiver.pieces header, piece ≤ first) ∧
        receiver.dispatch header = receiver.receivePayload first next := by
  unfold pieces
  by_cases takes : receiver.Takes header
  · rw [if_pos takes]
    exact ⟨_, [], _, rfl, fun piece mem => Nat.le_of_eq (List.mem_singleton.mp mem),
      dispatch_of_takes takes⟩
  · have footer := receiver.checksum.width_pos
    obtain ⟨rest, cut⟩ : ∃ rest, chunks (header.payloadLength + receiver.checksum.width) =
        min (header.payloadLength + receiver.checksum.width) Frame.maxPayload :: rest :=
      ⟨_, chunks_of_pos (Nat.add_pos_right _ footer)⟩
    rw [if_neg takes]
    refine ⟨_, rest, fun _ => receiver.drain (receiver.afterDrain header) rest, cut,
      fun piece mem => le_of_mem_chunks mem, ?_⟩
    rw [dispatch_of_drains takes, cut, drain]

theorem awaits_dispatch_of_hasLimit
    (within : ∀ length ∈ receiver.pieces header, receiver.timing.HasLimit length) :
    (receiver.dispatch header).Awaits bus identity (Observes (receiver.plan header)) := by
  unfold pieces at within
  unfold plan pieces
  by_cases takes : receiver.Takes header
  · rw [if_pos takes] at within
    rw [if_pos takes, if_pos takes, dispatch_of_takes takes]
    exact awaits_accept takes.2 (within _ (List.mem_singleton_self _))
  · rw [if_neg takes] at within
    rw [if_neg takes, if_neg takes, List.append_nil, dispatch_of_drains takes]
    exact awaits_drain (fun piece mem => (bounds_of_mem_chunks mem).2) within awaits_afterDrain

theorem awaits_dispatch (receiver : Receiver) (header : Header) :
    (receiver.dispatch header).Awaits bus identity (receiver.FrameWaits header) := by
  by_cases within : ∀ length ∈ receiver.pieces header, receiver.timing.HasLimit length
  · exact (awaits_dispatch_of_hasLimit within).mono fun waits ending observes =>
      .limited within observes
  -- Wherever a limit is missing it is missing for the first piece, as no other is longer.
  · push Not at within
    obtain ⟨length, mem, beyond⟩ := within
    obtain ⟨first, rest, next, starts, longest, reads⟩ :=
      receiver.exists_dispatch_eq_receivePayload header
    have few : first ≤ Frame.maxPayload := le_of_mem_pieces (starts ▸ List.mem_cons_self ..)
    have beyondFirst : ¬receiver.timing.HasLimit first :=
      fun within => beyond (within.of_le (longest length mem))
    rw [reads]
    exact awaits_receivePayload_of_not_hasLimit few beyondFirst (.stopped starts beyondFirst)

/-! ## Polls -/

theorem awaits_header (header : Header) (plain : Diagnostic.decode header.address = none) :
    (receiver.dispatch header).Awaits bus identity fun waits =>
      receiver.PollWaits (⟨⟨1, none⟩, some [header.address]⟩ ::
        ⟨⟨3, some receiver.timing.headerLimit⟩, some header.tail.val⟩ :: waits) :=
  (receiver.awaits_dispatch header).mono fun _ _ behind => .frame header plain behind

theorem awaits_poll (receiver : Receiver) :
    receiver.poll.Awaits bus identity receiver.PollWaits := by
  refine awaits_receive (fun first => ?_) fun ending lives => .silence lives
  obtain ⟨bytes, single⟩ := first
  obtain ⟨byte, rfl⟩ := List.length_eq_one_iff.mp single
  show (receiver.proceed byte).Awaits bus identity _
  unfold proceed
  split
  · next asked decoded =>
    refine (awaits_diagnose asked).mono fun waits ending observes => ?_
    rw [observes.eq_nil]
    exact .diagnostic decoded observes.lives
  · next plain =>
    refine awaits_receive (fun rest => ?_) fun ending lives => .headless plain lives
    obtain ⟨header, rfl, rfl⟩ := Header.exists_eq_joinHeader byte rest
    rw [header.ofBytes_joinHeader]
    exact awaits_header header plain

/-- However the bus behaves, all that a board waits for behind a header is read within limits that
are exact, unless the slack leaves no room for one of them: then the board stops, and this is the
only reason for it to stop.  Limits grow with the number of bytes, shrink with the speed of the
line and are no shorter than the slack. -/
theorem patience (receiver : Receiver) (identity : Identity) (buffer : PayloadBuffer)
    {Line : Type} (bus : Bus Line) (line : Line) (s : Scheduler) :
    receiver.PollWaits ((receiver.pollSlices buffer).waits bus identity line s)
        ((receiver.pollSlices buffer).run bus identity line s).1 ∧
      (∀ header, receiver.IsMeasured header) ∧ receiver.timing.IsMonotone := by
  rw [pollSlices_eq_poll]
  exact ⟨receiver.awaits_poll line s, receiver.isMeasured, receiver.timing.isMonotone⟩

/-- On a line of one bit per second an empty frame for another board takes twenty seconds, and one
microsecond of slack decides whether there is a limit for them. -/
example :
    let frame : List UInt8 := [0x05, 0x01, 0x00, 0x00, 0xAA, 0xBB]
    let line : ByteLine := { ByteLine.quiet with items := frame.map .byte }
    let ending (slack : Microseconds) : Ending Outcome :=
      ((Receiver.mk .ribs .crc16 ⟨0, 2000, 2000, slack⟩).poll.run ByteLine.bus none line
        (.initial .vibration)).1
    ending 18446744073689551615 = .finished .notAddressed ∧
      ending 18446744073689551616 = .aborted .durationOverflow := by
  decide +kernel

end Receiver

end Animatronic
