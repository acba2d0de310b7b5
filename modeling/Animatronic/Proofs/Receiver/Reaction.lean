import Animatronic.Proofs.Receiver.Alignment
import Animatronic.Proofs.Receiver.Discipline

/-!
# What a poll does with a frame

`Receiver.Settles` says how many bytes a poll takes and what it asks of the service.  Here the
whole reaction is told: which reads there are, what is written and how the poll ends.  A frame for
another board is read piece by piece and ignored (`consumes_foreign`), a frame for this board with
a wrong footer is dropped (`consumes_damaged`), and any other frame for this board is answered by
one frame (`exists_consumes_own`, or `consumes_oversized` if it is too large).
-/

namespace Animatronic

/-- The same with complete reads of these lengths before it. -/
def Reaction.afterReads {α : Type} (lengths : List Nat) (reaction : Reaction α) : Reaction α :=
  { reaction with effects := lengths.map (.read · true) ++ reaction.effects }

/-- Complete reads take what they were to take. -/
theorem Effect.totalTaken_reads (lengths : List Nat) :
    totalTaken (lengths.map (.read · true)) = lengths.foldr (· + ·) 0 := by
  induction lengths with
  | nil => rfl
  | cons length rest ih => exact congrArg (length + ·) ih

theorem Effect.isRead_of_mem_reads {lengths : List Nat} {effect : Effect}
    (mem : effect ∈ lengths.map (.read · true)) : effect.isRead = true := by
  obtain ⟨length, -, rfl⟩ := List.mem_map.mp mem
  rfl

namespace Receiver

variable {receiver : Receiver} {identity : Identity} {bytes more : List UInt8} {failing : Nat}
  {s : Scheduler} {reaction : Reaction Outcome} {header : Header} {payload footer : List UInt8}

/-! ## Reading on -/

theorem consumes_receive {length : Nat} (taken : Bytes length) (limit : Option Microseconds)
    {next : Bytes length → Exchange Outcome}
    (consumes : (next taken).Consumes identity more failing s reaction) :
    (receive length limit next).Consumes identity (taken.val ++ more) failing s
      (reaction.afterReads [length]) :=
  Exchange.Consumes.read taken limit consumes

theorem consumes_receivePayload {length : Nat} (taken : Bytes length)
    {next : Bytes length → Exchange Outcome} (bounded : receiver.timing.IsBounded)
    (fits : length ≤ Frame.maxPayload)
    (consumes : (next taken).Consumes identity more failing s reaction) :
    (receiver.receivePayload length next).Consumes identity (taken.val ++ more) failing s
      (reaction.afterReads [length]) := by
  obtain ⟨limit, known⟩ := bounded.payloadLimit fits
  rw [receivePayload, known]
  exact consumes_receive taken (some limit) consumes

theorem consumes_drain (bounded : receiver.timing.IsBounded) {next : Exchange Outcome}
    {pieces : List Nat} (small : ∀ piece ∈ pieces, piece ≤ Frame.maxPayload)
    (consumes : next.Consumes identity [] failing s reaction)
    (length : bytes.length = pieces.foldr (· + ·) 0) :
    (receiver.drain next pieces).Consumes identity bytes failing s
      (reaction.afterReads pieces) := by
  induction pieces generalizing bytes with
  | nil =>
    obtain rfl : bytes = [] := List.eq_nil_of_length_eq_zero length
    exact consumes
  | cons piece rest ih =>
    rw [List.foldr_cons] at length
    have enough : piece ≤ bytes.length := by omega
    obtain ⟨front, back, rfl, size⟩ := exists_append_of_le enough
    rw [List.length_append, size] at length
    have later := ih (fun other mem => small other (List.mem_cons_of_mem _ mem))
      (Nat.add_left_cancel length)
    have read : (receiver.drain next (piece :: rest)).Consumes identity (front ++ back) failing s
        ((reaction.afterReads rest).afterReads [piece]) :=
      consumes_receivePayload ⟨front, size⟩ bounded (small piece (List.mem_cons_self ..)) later
    exact read

/-- The two reads of a header come before what is done with the frame. -/
theorem consumes_header (plain : Diagnostic.decode header.address = none)
    (consumes : (receiver.dispatch header).Consumes identity bytes failing s reaction) :
    receiver.poll.Consumes identity (header.bytes ++ bytes) failing s
      (reaction.afterReads [1, 3]) := by
  have entered : (receiver.proceed header.address).Consumes identity (header.tail.val ++ bytes)
      failing s (reaction.afterReads [3]) := by
    rw [proceed_of_plain plain]
    refine consumes_receive header.tail _ ?_
    rw [header.ofBytes_joinHeader]
    exact consumes
  have read : receiver.poll.Consumes identity (header.bytes ++ bytes) failing s
      ((reaction.afterReads [3]).afterReads [1]) :=
    consumes_receive ⟨[header.address], rfl⟩ none entered
  exact read

/-! ## Diagnostics -/

variable (receiver) (identity)

theorem consumes_send (data : List UInt8) (due : Outcome) (s : Scheduler) :
    (send data due).Consumes identity [] 0 s ⟨due, [.wrote data true], 0, s⟩ := by
  have sent : (send data due).Consumes identity [] 0 s _ :=
    Exchange.Consumes.write (Exchange.consumes_done due 0 s)
  exact sent

/-- A diagnostic for this board is answered with bare bytes. -/
theorem consumes_own_diagnostic (kind : DiagnosticKind) (s : Scheduler) :
    receiver.poll.Consumes identity [(Diagnostic.mk kind receiver.board).byte] 0 s
      ⟨.diagnostic ⟨kind, receiver.board⟩,
        [.read 1 true, .diagnosed kind, .wrote (Service.diagnose identity kind s).result true], 0,
        (Service.diagnose identity kind s).scheduler⟩ := by
  have answered : (receiver.proceed (Diagnostic.mk kind receiver.board).byte).Consumes identity []
      0 s ⟨.diagnostic ⟨kind, receiver.board⟩,
        [.diagnosed kind, .wrote (Service.diagnose identity kind s).result true], 0,
        (Service.diagnose identity kind s).scheduler⟩ := by
    rw [proceed, Diagnostic.decode_byte]
    dsimp only
    rw [diagnose, if_pos rfl]
    have replied : (Exchange.diagnose kind fun reply =>
        send reply (.diagnostic ⟨kind, receiver.board⟩)).Consumes identity [] 0 s _ :=
      Exchange.Consumes.diagnose (consumes_send identity _ _ _)
    exact replied
  have read : receiver.poll.Consumes identity [(Diagnostic.mk kind receiver.board).byte] 0 s _ :=
    consumes_receive ⟨[(Diagnostic.mk kind receiver.board).byte], rfl⟩ none answered
  exact read

/-- A diagnostic for another board is consumed. -/
theorem consumes_other_diagnostic {asked : Diagnostic} (other : asked.board ≠ receiver.board)
    (failing : Nat) (s : Scheduler) :
    receiver.poll.Consumes identity [asked.byte] failing s
      ⟨.otherDiagnostic, [.read 1 true], failing, s⟩ := by
  have ignored : (receiver.proceed asked.byte).Consumes identity [] failing s
      ⟨.otherDiagnostic, [], failing, s⟩ := by
    rw [proceed, Diagnostic.decode_byte]
    dsimp only
    rw [diagnose, if_neg other]
    exact Exchange.consumes_done _ failing s
  have read : receiver.poll.Consumes identity [asked.byte] failing s _ :=
    consumes_receive ⟨[asked.byte], rfl⟩ none ignored
  exact read

/-! ## Frames -/

/-- The lengths of the reads after which a whole frame is off the line. -/
def frameReads (receiver : Receiver) (header : Header) : List Nat :=
  [1, 3] ++
    if receiver.board.isAddressedBy header.address ∧ header.payloadLength ≤ Frame.maxPayload then
      [header.payloadLength, receiver.checksum.width]
    else chunks (header.payloadLength + receiver.checksum.width)

theorem sum_frameReads (receiver : Receiver) (header : Header) :
    (receiver.frameReads header).foldr (· + ·) 0 =
      Header.length + header.payloadLength + receiver.checksum.width := by
  unfold frameReads
  split
  · simp only [List.cons_append, List.nil_append, List.foldr_cons, List.foldr_nil, Header.length]
    omega
  · simp only [List.cons_append, List.nil_append, List.foldr_cons, foldr_add_chunks, Header.length]
    omega

/-- A frame that is read in pieces is read to its end before anything else is done. -/
theorem consumes_pieces (bounded : receiver.timing.IsBounded)
    (plain : Diagnostic.decode header.address = none)
    (skipped : ¬(receiver.board.isAddressedBy header.address ∧
      header.payloadLength ≤ Frame.maxPayload)) {next : Exchange Outcome}
    (drains : receiver.dispatch header =
      receiver.drain next (chunks (header.payloadLength + receiver.checksum.width)))
    (whole : bytes.length = header.payloadLength + receiver.checksum.width)
    (consumes : next.Consumes identity [] failing s reaction) :
    receiver.poll.Consumes identity (header.bytes ++ bytes) failing s
      (reaction.afterReads (receiver.frameReads header)) := by
  have drained : (receiver.dispatch header).Consumes identity bytes failing s
      (reaction.afterReads (chunks (header.payloadLength + receiver.checksum.width))) := by
    rw [drains]
    refine consumes_drain bounded (fun piece mem => (bounds_of_mem_chunks mem).2) consumes ?_
    rw [foldr_add_chunks, whole]
  rw [frameReads, if_neg skipped]
  have polled := consumes_header plain drained
  simpa only [Reaction.afterReads, List.map_append, List.append_assoc] using polled

/-- A frame for another board is read to its end and ignored. -/
theorem consumes_foreign (bounded : receiver.timing.IsBounded)
    (plain : Diagnostic.decode header.address = none)
    (other : header.address ≠ receiver.board.address)
    (whole : bytes.length = header.payloadLength + receiver.checksum.width) (failing : Nat)
    (s : Scheduler) :
    receiver.poll.Consumes identity (header.bytes ++ bytes) failing s
      ⟨.notAddressed, (receiver.frameReads header).map (.read · true), failing, s⟩ := by
  have foreign : receiver.board.isAddressedBy header.address = false := decide_eq_false other
  have polled := receiver.consumes_pieces identity bounded plain (by simp [foreign])
    (by rw [dispatch, foreign, if_neg Bool.false_ne_true]) whole
    (Exchange.consumes_done .notAddressed failing s)
  simpa only [Reaction.afterReads, List.append_nil] using polled

/-- A frame for this board that is small enough is taken as payload and footer. -/
theorem consumes_accept (bounded : receiver.timing.IsBounded)
    (own : header.address = receiver.board.address)
    (fits : header.payloadLength ≤ Frame.maxPayload)
    (size : payload.length = header.payloadLength)
    (width : footer.length = receiver.checksum.width)
    (consumes : (if receiver.closes header payload footer then receiver.serve header.kind payload
      else .note .checksumMismatch (.done (.dropped .checksumMismatch))).Consumes identity []
        failing s reaction) :
    receiver.poll.Consumes identity (header.bytes ++ (payload ++ footer)) failing s
      (reaction.afterReads (receiver.frameReads header)) := by
  have mine : receiver.board.isAddressedBy header.address = true := decide_eq_true own
  have plain : Diagnostic.decode header.address = none := by
    rw [own]
    exact Diagnostic.decode_address _
  have accepted : (receiver.dispatch header).Consumes identity (payload ++ footer) failing s
      (reaction.afterReads [header.payloadLength, receiver.checksum.width]) := by
    have closed : (receive receiver.checksum.width (some receiver.timing.footerLimit) fun footer =>
        if receiver.closes header payload footer then receiver.serve header.kind payload
        else .note .checksumMismatch (.done (.dropped .checksumMismatch))).Consumes identity
        (footer ++ []) failing s (reaction.afterReads [receiver.checksum.width]) :=
      consumes_receive ⟨footer, width⟩ _ consumes
    have bare : footer ++ [] = footer := List.append_nil footer
    rw [bare] at closed
    rw [dispatch, mine, if_pos rfl, if_pos fits]
    have read : (receiver.accept header).Consumes identity (payload ++ footer) failing s
        ((reaction.afterReads [receiver.checksum.width]).afterReads [header.payloadLength]) :=
      consumes_receivePayload ⟨payload, size⟩ bounded fits closed
    exact read
  have reads : receiver.frameReads header =
      [1, 3] ++ [header.payloadLength, receiver.checksum.width] := by
    rw [frameReads, if_pos ⟨mine, fits⟩]
  rw [reads]
  exact consumes_header plain accepted

/-- A frame for this board with a wrong footer is read to its end and dropped. -/
theorem consumes_damaged (bounded : receiver.timing.IsBounded)
    (own : header.address = receiver.board.address)
    (fits : header.payloadLength ≤ Frame.maxPayload)
    (size : payload.length = header.payloadLength)
    (width : footer.length = receiver.checksum.width)
    (wrong : receiver.closes header payload footer = false) (failing : Nat) (s : Scheduler) :
    receiver.poll.Consumes identity (header.bytes ++ (payload ++ footer)) failing s
      ⟨.dropped .checksumMismatch, (receiver.frameReads header).map (.read · true), failing,
        s⟩ := by
  have polled := receiver.consumes_accept identity bounded own fits size width (by
    rw [wrong, if_neg Bool.false_ne_true]
    exact (Exchange.consumes_done (Outcome.dropped .checksumMismatch) failing s).note _)
  simpa only [Reaction.afterReads, List.append_nil] using polled

/-! ## Answers -/

/-- A fault that is reported is answered by one frame. -/
theorem consumes_reject {fault : Fault} {code : Int16} (reported : fault.code = some code)
    (s : Scheduler) :
    (receiver.reject fault).Consumes identity [] 0 s
      ⟨.rejected code, [.wrote (receiver.frame .error (Fault.payload code)) true], 0, s⟩ := by
  rw [reject, reported]
  dsimp only
  rw [sendFrame_eq_send .error (Fault.length_payload_le code)]
  exact (consumes_send identity _ _ s).note _

/-- A request that is served is answered by one frame, whatever the service makes of it. -/
theorem exists_consumes_serve (code : UInt8) (payload : List UInt8) (s : Scheduler) :
    ∃ bytes due, receiver.Framed bytes due ∧
      (receiver.serve code payload).Consumes identity [] 0 s
        ⟨due, [.served code payload, .wrote bytes true], 0,
          (Service.handle identity code payload s).scheduler⟩ := by
  cases served : (Service.handle identity code payload s).result with
  | ok response =>
    obtain ⟨reply, short⟩ := Service.reply_of_handle served
    have sent : (receiver.serve code payload).Consumes identity [] 0 s _ :=
      Exchange.Consumes.serve (by
        rw [served]
        dsimp only
        rw [sendFrame_eq_send response.kind short]
        exact consumes_send identity _ _ _)
    exact ⟨_, _, .reply reply short, sent⟩
  | error fault =>
    obtain ⟨number, reported⟩ := Option.isSome_iff_exists.mp (Service.reported_of_handle served)
    have sent : (receiver.serve code payload).Consumes identity [] 0 s _ :=
      Exchange.Consumes.serve (by
        rw [served]
        exact receiver.consumes_reject identity reported _)
    exact ⟨_, _, .rejection number, sent⟩

/-- A frame for this board with the right footer is served and answered by one frame. -/
theorem exists_consumes_own (bounded : receiver.timing.IsBounded)
    (own : header.address = receiver.board.address)
    (fits : header.payloadLength ≤ Frame.maxPayload)
    (size : payload.length = header.payloadLength) (s : Scheduler) :
    ∃ bytes due, receiver.Framed bytes due ∧
      receiver.poll.Consumes identity (Frame.spell receiver.checksum header payload) 0 s
        ⟨due, (receiver.frameReads header).map (.read · true) ++
            [.served header.kind payload, .wrote bytes true], 0,
          (Service.handle identity header.kind payload s).scheduler⟩ := by
  obtain ⟨bytes, due, framed, served⟩ :=
    receiver.exists_consumes_serve identity header.kind payload s
  have width := Frame.length_footer receiver.checksum (header.bytes ++ payload)
  have polled : receiver.poll.Consumes identity (Frame.spell receiver.checksum header payload) 0 s
      _ := receiver.consumes_accept identity bounded own fits size width (by
      rw [(closes_iff width).mpr rfl, if_pos rfl]
      exact served)
  exact ⟨bytes, due, framed, polled⟩

/-- A frame for this board that is too large is read to its end and rejected. -/
theorem consumes_oversized (bounded : receiver.timing.IsBounded)
    (own : header.address = receiver.board.address)
    (large : Frame.maxPayload < header.payloadLength)
    (whole : bytes.length = header.payloadLength + receiver.checksum.width) (s : Scheduler) :
    receiver.poll.Consumes identity (header.bytes ++ bytes) 0 s
      ⟨.rejected (-3), (receiver.frameReads header).map (.read · true) ++
          [.wrote (receiver.frame .error (Fault.payload (-3))) true], 0, s⟩ := by
  have mine : receiver.board.isAddressedBy header.address = true := decide_eq_true own
  have plain : Diagnostic.decode header.address = none := by
    rw [own]
    exact Diagnostic.decode_address _
  have polled := receiver.consumes_pieces identity bounded plain
    (fun small => Nat.not_le_of_lt large small.2)
    (by rw [dispatch, mine, if_pos rfl, if_neg (Nat.not_le_of_lt large)]) whole
    ((receiver.consumes_reject identity rfl s).note _)
  exact polled

/-! ## Visits -/

/-- A visit that finds a message on the line reacts to it. -/
theorem visit_of_consumes {now : Visit} {line : ByteLine}
    (consumes : receiver.poll.Consumes identity bytes line.failingWrites (s.run now.history)
      reaction) {rest : List ByteLine.Item} (items : line.items = bytes.map .byte ++ rest) :
    ∃ after, receiver.visit identity now line s =
        (⟨reaction.effects, .finished reaction.result⟩, after, reaction.scheduler) ∧
      after.items = reaction.leaves rest ∧ after.failingWrites = reaction.failing := by
  obtain ⟨effects, after, run, left, writes⟩ := consumes line rest items rfl
  refine ⟨after, ?_, left, writes⟩
  rw [visit, pollInto_eq_poll, effects, run]

/-- Nothing is thrown away after reads only. -/
theorem leaves_reads (result : Outcome) (lengths : List Nat) (failing : Nat) (s : Scheduler)
    (rest : List ByteLine.Item) :
    (Reaction.mk result (lengths.map (.read · true)) failing s).leaves rest = rest := by
  refine if_neg fun mem => ?_
  have read := Effect.isRead_of_mem_reads mem
  cases read

/-- A diagnostic for this board is answered, and nothing else is taken off the line. -/
theorem visit_own_diagnostic (kind : DiagnosticKind) (now : Visit) {line : ByteLine}
    {rest : List ByteLine.Item} (s : Scheduler)
    (items : line.items = .byte (Diagnostic.mk kind receiver.board).byte :: rest)
    (writes : line.failingWrites = 0) :
    ∃ after,
      receiver.visit identity now line s =
          (⟨[.read 1 true, .diagnosed kind,
              .wrote (Service.diagnose identity kind (s.run now.history)).result true],
            .finished (.diagnostic ⟨kind, receiver.board⟩)⟩, after,
            (Service.diagnose identity kind (s.run now.history)).scheduler) ∧
        after.items = rest ∧ after.failingWrites = 0 := by
  have polled := receiver.consumes_own_diagnostic identity kind (s.run now.history)
  rw [← writes] at polled
  obtain ⟨after, visited, left, failing⟩ := receiver.visit_of_consumes identity polled items
  exact ⟨after, visited, left, failing.trans writes⟩

/-- A diagnostic for another board is taken off the line, and nothing else happens. -/
theorem visit_other_diagnostic {asked : Diagnostic} (other : asked.board ≠ receiver.board)
    (now : Visit) {line : ByteLine} {rest : List ByteLine.Item} (s : Scheduler)
    (items : line.items = .byte asked.byte :: rest) :
    ∃ after,
      receiver.visit identity now line s =
          (⟨[.read 1 true], .finished .otherDiagnostic⟩, after, s.run now.history) ∧
        after.items = rest ∧ after.failingWrites = line.failingWrites := by
  have polled := receiver.consumes_other_diagnostic identity other line.failingWrites
    (s.run now.history)
  exact receiver.visit_of_consumes identity polled items

/-- A frame for another board is taken off the line, and nothing else happens. -/
theorem visit_foreign (bounded : receiver.timing.IsBounded)
    (plain : Diagnostic.decode header.address = none)
    (other : header.address ≠ receiver.board.address)
    (whole : bytes.length = header.payloadLength + receiver.checksum.width) (now : Visit)
    {line : ByteLine} {rest : List ByteLine.Item} (s : Scheduler)
    (items : line.items = (header.bytes ++ bytes).map .byte ++ rest) :
    ∃ after,
      receiver.visit identity now line s =
          (⟨(receiver.frameReads header).map (.read · true), .finished .notAddressed⟩, after,
            s.run now.history) ∧
        after.items = rest ∧ after.failingWrites = line.failingWrites := by
  have polled := receiver.consumes_foreign identity bounded plain other whole
    line.failingWrites (s.run now.history)
  obtain ⟨after, visited, left, writes⟩ := receiver.visit_of_consumes identity polled items
  exact ⟨after, visited, left.trans (leaves_reads ..), writes⟩

/-- A visit that finds too little on the line gives up. -/
theorem visit_of_starves (starves : receiver.poll.Starves identity bytes) (now : Visit)
    {line : ByteLine} {tail : List ByteLine.Item} (s : Scheduler)
    (items : line.items = bytes.map .byte ++ tail) (still : ByteLine.IsStill tail) :
    ∃ reads after,
      receiver.visit identity now line s =
          (⟨reads ++ [.restarted], .finished (.dropped .timeout)⟩, after, s.run now.history) ∧
        (∀ effect ∈ reads, effect.isRead = true) ∧ after.items = tail.tail ∧
        after.failingWrites = line.failingWrites := by
  obtain ⟨⟨reads, effects, only⟩, after, run, behind, writes⟩ :=
    starves line tail (s.run now.history) items still
  refine ⟨reads, after, ?_, only, behind, writes⟩
  rw [visit, pollInto_eq_poll, effects, run]

end Receiver

end Animatronic
