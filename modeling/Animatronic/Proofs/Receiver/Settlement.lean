import Animatronic.Proofs.Bus.PayloadLimit
import Animatronic.Proofs.Exchange.Consumption
import Animatronic.Proofs.Receiver.Stream
import Animatronic.Proofs.Service.Fault

/-!
# What receiving does on a byte line

Every part of receiving that has all its bytes on the line settles: it takes exactly these bytes,
hands exactly the requests that they carry to the service, and restarts the bus only if a write has
failed (`Exchange.Settles`).  Every part that lacks some of its bytes starves.

A frame is read in one of three ways, by payload and footer if it is for this board and fits, and
otherwise in pieces.  `settles_dispatch` and `starves_dispatch` put these together again, and
`settles_frame`, `settles_diagnostic` and `starves_poll` are about a whole poll.
-/

namespace Animatronic

namespace Exchange

variable {identity : Identity} {exchange : Exchange Outcome} {bytes more : List UInt8}
  {failing : Nat} {s after : Scheduler} {requests : List (UInt8 × List UInt8)}

/-- A program takes exactly the bytes, hands exactly the requests to the service and leaves the
scheduler as told; unless a write fails, it does not restart the bus. -/
def Settles (exchange : Exchange Outcome) (identity : Identity) (bytes : List UInt8)
    (failing : Nat) (s : Scheduler) (requests : List (UInt8 × List UInt8)) (after : Scheduler) :
    Prop :=
  ∃ reaction, exchange.Consumes identity bytes failing s reaction ∧
    Effect.totalTaken reaction.effects = bytes.length ∧
    Effect.requests reaction.effects = requests ∧
    reaction.scheduler = after ∧
    (failing = 0 → .restarted ∉ reaction.effects ∧ reaction.failing = 0)

theorem settles_done (result : Outcome) (failing : Nat) (s : Scheduler) :
    (done result).Settles identity [] failing s [] s :=
  ⟨_, consumes_done result failing s, rfl, rfl, rfl, fun writes => ⟨List.not_mem_nil, writes⟩⟩

theorem Settles.note (settles : exchange.Settles identity bytes failing s requests after)
    (notice : Notice) :
    (Exchange.note notice exchange).Settles identity bytes failing s requests after := by
  rcases settles with ⟨reaction, consumes, rest⟩
  exact ⟨reaction, consumes.note notice, rest⟩

/-- A step that takes `front` off the line, or asks the service for something, settles if what
comes after it does. -/
theorem Settles.of_step {next : Exchange Outcome} {between : Scheduler} (effect : Effect)
    (front : List UInt8) (kept : effect ≠ .restarted) (taken : effect.taken = front.length)
    (settles : next.Settles identity more failing between requests after)
    (step : ∀ reaction, next.Consumes identity more failing between reaction →
      exchange.Consumes identity (front ++ more) failing s (reaction.after effect)) :
    exchange.Settles identity (front ++ more) failing s (effect.request?.toList ++ requests)
      after := by
  rcases settles with ⟨reaction, consumes, total, handed, scheduler, quiet⟩
  refine ⟨_, step reaction consumes, ?_, ?_, scheduler, fun writes => ?_⟩
  · rw [List.length_append, ← taken, ← total]
    rfl
  · rw [← handed, Effect.requests, Reaction.after, List.filterMap_cons]
    cases effect.request? <;> rfl
  · rcases quiet writes with ⟨unrestarted, left⟩
    refine ⟨?_, left⟩
    rw [Reaction.after, List.mem_cons, not_or]
    exact ⟨kept.symm, unrestarted⟩

theorem Settles.read {n : Nat} (bytes : Bytes n)
    {next : Except BusFault (Bytes n) → Exchange Outcome} (limit : Option Microseconds)
    (settles : (next (.ok bytes)).Settles identity more failing s requests after) :
    (Exchange.read n limit next).Settles identity (bytes.val ++ more) failing s requests after :=
  Settles.of_step (.read n true) bytes.val (by simp) bytes.property.symm settles
    fun _ consumes => consumes.read bytes limit

theorem Settles.serve {code : UInt8} {payload : List UInt8}
    {next : Except Fault Response → Exchange Outcome}
    (settles : (next (Service.handle identity code payload s).result).Settles identity bytes
      failing (Service.handle identity code payload s).scheduler requests after) :
    (Exchange.serve code payload next).Settles identity bytes failing s
      ((code, payload) :: requests) after :=
  Settles.of_step (.served code payload) [] (by simp) rfl settles fun _ consumes => consumes.serve

theorem Settles.diagnose {kind : DiagnosticKind} {next : List UInt8 → Exchange Outcome}
    (settles : (next (Service.diagnose identity kind s).result).Settles identity bytes
      failing (Service.diagnose identity kind s).scheduler requests after) :
    (Exchange.diagnose kind next).Settles identity bytes failing s requests after :=
  Settles.of_step (.diagnosed kind) [] (by simp) rfl settles fun _ consumes => consumes.diagnose

/-! ## What this says of one line -/

variable {line : ByteLine} {rest : List ByteLine.Item}

theorem Settles.requests_eq
    (settles : exchange.Settles identity bytes line.failingWrites s requests after)
    (items : line.items = bytes.map .byte ++ rest) :
    exchange.requests ByteLine.bus identity line s = requests ∧
      (exchange.run ByteLine.bus identity line s).2.2 = after := by
  rcases settles with ⟨reaction, consumes, -, handed, scheduler, -⟩
  rcases consumes line rest items rfl with ⟨effects, _, run, -, -⟩
  rw [Exchange.requests, effects, run]
  exact ⟨handed, scheduler⟩

theorem Starves.requests_eq (starves : exchange.Starves identity bytes)
    (items : line.items = bytes.map .byte ++ rest) (still : ByteLine.IsStill rest) :
    exchange.requests ByteLine.bus identity line s = [] ∧
      (exchange.run ByteLine.bus identity line s).2.2 = s := by
  rcases starves line rest s items still with ⟨⟨reads, effects, only⟩, _, run, -, -⟩
  rw [Exchange.requests, effects, run]
  refine ⟨?_, rfl⟩
  rw [Effect.requests, List.filterMap_append, List.append_eq_nil_iff]
  refine ⟨List.filterMap_eq_nil_iff.mpr fun effect mem => ?_, rfl⟩
  have read := only effect mem
  cases effect <;> first | rfl | cases read

end Exchange

namespace Receiver

variable {receiver : Receiver} {identity : Identity} {bytes more : List UInt8} {failing : Nat}
  {s after : Scheduler} {requests : List (UInt8 × List UInt8)} {next : Exchange Outcome}

/-! ## Replies -/

theorem settles_drop {fault : Fault} (timely : fault ≠ .timeout) (sound : fault ≠ .transceiver)
    (failing : Nat) (s : Scheduler) : (drop fault).Settles identity [] failing s [] s := by
  have ends : (Exchange.note (.frameDropped fault) (.done (.dropped fault))).Settles identity []
      failing s [] s := (Exchange.settles_done _ failing s).note _
  cases fault with
  | timeout => exact absurd rfl timely
  | transceiver => exact absurd rfl sound
  | _ => exact ends

theorem settles_send (data : List UInt8) (outcome : Outcome) (failing : Nat) (s : Scheduler) :
    (send data outcome).Settles identity [] failing s [] s := by
  cases failing with
  | zero =>
    have sent : (send data outcome).Consumes identity [] 0 s _ :=
      Exchange.Consumes.write (Exchange.consumes_done outcome 0 s)
    exact ⟨_, sent, rfl, rfl, rfl, fun writes => ⟨by simp [Reaction.after], writes⟩⟩
  | succ failing =>
    have dropped : (drop .transceiver).Consumes identity [] failing s
        ⟨.dropped .transceiver, [.restarted], failing, s⟩ :=
      (Exchange.consumes_restart _ failing s).note _
    have sent : (send data outcome).Consumes identity [] (failing + 1) s _ :=
      Exchange.Consumes.write dropped
    exact ⟨_, sent, rfl, rfl, rfl, fun working => absurd working (Nat.succ_ne_zero failing)⟩

theorem settles_sendFrame (kind : MessageType) (payload : List UInt8) (outcome : Outcome)
    (failing : Nat) (s : Scheduler) :
    (receiver.sendFrame kind payload outcome).Settles identity [] failing s [] s := by
  unfold sendFrame
  split
  · exact settles_send _ outcome failing s
  · next fault refused =>
    have large : ∃ size, fault = .payloadTooLarge size := by
      unfold Frame.encode at refused
      split at refused
      · dsimp only at refused
        split at refused
        · cases refused
        · exact ⟨_, (Except.error.inj refused).symm⟩
      · exact ⟨_, (Except.error.inj refused).symm⟩
    rcases large with ⟨size, rfl⟩
    exact settles_drop (by simp) (by simp) failing s

theorem settles_reject {fault : Fault} (reported : fault.code.isSome = true) (failing : Nat)
    (s : Scheduler) : (receiver.reject fault).Settles identity [] failing s [] s := by
  rcases Option.isSome_iff_exists.mp reported with ⟨code, known⟩
  rw [reject, known]
  exact (settles_sendFrame ..).note _

theorem settles_serve (code : UInt8) (payload : List UInt8) (failing : Nat) (s : Scheduler) :
    (receiver.serve code payload).Settles identity [] failing s [(code, payload)]
      (Service.handle identity code payload s).scheduler := by
  refine Exchange.Settles.serve ?_
  cases served : (Service.handle identity code payload s).result with
  | ok response => exact settles_sendFrame ..
  | error fault => exact settles_reject (Service.reported_of_handle served) failing _

theorem settles_diagnose (diagnostic : Diagnostic) (failing : Nat) (s : Scheduler) :
    (receiver.diagnose diagnostic).Settles identity [] failing s []
      (if diagnostic.board = receiver.board then
        (Service.diagnose identity diagnostic.kind s).scheduler else s) := by
  unfold diagnose
  split
  · exact Exchange.Settles.diagnose (settles_send ..)
  · exact Exchange.settles_done _ failing s

/-! ## Payloads -/

theorem settles_receive {length : Nat} (taken : Bytes length) (limit : Option Microseconds)
    {next : Bytes length → Exchange Outcome}
    (settles : (next taken).Settles identity more failing s requests after) :
    (receive length limit next).Settles identity (taken.val ++ more) failing s requests after :=
  Exchange.Settles.read taken limit settles

theorem starves_receive_append {length : Nat} (taken : Bytes length)
    (limit : Option Microseconds) {next : Bytes length → Exchange Outcome}
    (starves : (next taken).Starves identity more) :
    (receive length limit next).Starves identity (taken.val ++ more) :=
  Exchange.Starves.read taken limit starves

theorem settles_receivePayload {length : Nat} (payload : Bytes length)
    {next : Bytes length → Exchange Outcome} (bounded : receiver.timing.IsBounded)
    (fits : length ≤ Frame.maxPayload)
    (settles : (next payload).Settles identity more failing s requests after) :
    (receiver.receivePayload length next).Settles identity (payload.val ++ more) failing s
      requests after := by
  rcases bounded.payloadLimit fits with ⟨limit, known⟩
  rw [receivePayload, known]
  exact settles_receive payload (some limit) settles

theorem starves_receivePayload {length : Nat} (next : Bytes length → Exchange Outcome)
    (bounded : receiver.timing.IsBounded) (fits : length ≤ Frame.maxPayload)
    (short : bytes.length < length) :
    (receiver.receivePayload length next).Starves identity bytes := by
  rcases bounded.payloadLimit fits with ⟨limit, known⟩
  rw [receivePayload, known]
  exact Exchange.starves_receive limit next short

theorem starves_receivePayload_append {length : Nat} (payload : Bytes length)
    {next : Bytes length → Exchange Outcome} (bounded : receiver.timing.IsBounded)
    (fits : length ≤ Frame.maxPayload) (starves : (next payload).Starves identity more) :
    (receiver.receivePayload length next).Starves identity (payload.val ++ more) := by
  rcases bounded.payloadLimit fits with ⟨limit, known⟩
  rw [receivePayload, known]
  exact starves_receive_append payload (some limit) starves

/-- Draining takes all of its pieces, whatever they hold. -/
theorem settles_drain (bounded : receiver.timing.IsBounded) {pieces : List Nat}
    (small : ∀ piece ∈ pieces, piece ≤ Frame.maxPayload)
    (settles : next.Settles identity [] failing s requests after)
    (length : bytes.length = pieces.foldr (· + ·) 0) :
    (receiver.drain next pieces).Settles identity bytes failing s requests after := by
  induction pieces generalizing bytes with
  | nil =>
    obtain rfl : bytes = [] := List.eq_nil_of_length_eq_zero length
    exact settles
  | cons piece rest ih =>
    rw [List.foldr_cons] at length
    have enough : piece ≤ bytes.length := by omega
    rcases exists_append_of_le enough with ⟨front, back, rfl, size⟩
    rw [List.length_append, size] at length
    have later := ih (fun other mem => small other (List.mem_cons_of_mem _ mem))
      (Nat.add_left_cancel length)
    exact settles_receivePayload ⟨front, size⟩ bounded (small piece (List.mem_cons_self ..)) later

theorem starves_drain (bounded : receiver.timing.IsBounded) {pieces : List Nat}
    (small : ∀ piece ∈ pieces, piece ≤ Frame.maxPayload) (next : Exchange Outcome)
    (short : bytes.length < pieces.foldr (· + ·) 0) :
    (receiver.drain next pieces).Starves identity bytes := by
  induction pieces generalizing bytes with
  | nil => exact absurd short (Nat.not_lt_zero _)
  | cons piece rest ih =>
    rw [List.foldr_cons] at short
    have fits := small piece (List.mem_cons_self ..)
    by_cases here : bytes.length < piece
    · exact starves_receivePayload _ bounded fits here
    · rcases exists_append_of_le (Nat.le_of_not_lt here) with ⟨front, back, rfl, size⟩
      rw [List.length_append, size] at short
      have later := ih (fun other mem => small other (List.mem_cons_of_mem _ mem))
        (Nat.lt_of_add_lt_add_left short)
      exact starves_receivePayload_append ⟨front, size⟩ bounded fits later

/-! ## Frames -/

/-- Whether a frame is for this board and small enough, and is closed by its footer. -/
def Admits (receiver : Receiver) (header : Header) (payload footer : List UInt8) : Prop :=
  receiver.board.isAddressedBy header.address = true ∧
    header.payloadLength ≤ Frame.maxPayload ∧ receiver.closes header payload footer = true

instance (receiver : Receiver) (header : Header) (payload footer : List UInt8) :
    Decidable (receiver.Admits header payload footer) :=
  inferInstanceAs (Decidable (_ ∧ _))

theorem settles_accept (bounded : receiver.timing.IsBounded) {header : Header}
    {payload footer : List UInt8} (size : payload.length = header.payloadLength)
    (fits : header.payloadLength ≤ Frame.maxPayload)
    (width : footer.length = receiver.checksum.width)
    (settles : (if receiver.closes header payload footer then
        receiver.serve header.kind payload
      else .note .checksumMismatch (.done (.dropped .checksumMismatch))).Settles identity []
      failing s requests after) :
    (receiver.accept header).Settles identity (payload ++ footer) failing s requests after := by
  have read : (receive receiver.checksum.width (some receiver.timing.footerLimit) fun footer =>
      if receiver.closes header payload footer then receiver.serve header.kind payload
      else .note .checksumMismatch (.done (.dropped .checksumMismatch))).Settles identity
      (footer ++ []) failing s requests after := settles_receive ⟨footer, width⟩ _ settles
  have bare : footer ++ [] = footer := List.append_nil footer
  rw [bare] at read
  exact settles_receivePayload ⟨payload, size⟩ bounded fits read

/-- The body of a frame, split into payload and footer. -/
theorem settles_dispatch (bounded : receiver.timing.IsBounded) {header : Header}
    {payload footer : List UInt8} (size : payload.length = header.payloadLength)
    (width : footer.length = receiver.checksum.width) (failing : Nat) (s : Scheduler) :
    (receiver.dispatch header).Settles identity (payload ++ footer) failing s
      (if receiver.Admits header payload footer then [(header.kind, payload)] else [])
      (if receiver.Admits header payload footer then
        (Service.handle identity header.kind payload s).scheduler else s) := by
  have total : (payload ++ footer).length =
      (chunks (header.payloadLength + receiver.checksum.width)).foldr (· + ·) 0 := by
    rw [foldr_add_chunks, List.length_append, size, width]
  have small : ∀ piece ∈ chunks (header.payloadLength + receiver.checksum.width),
      piece ≤ Frame.maxPayload := fun piece mem => (bounds_of_mem_chunks mem).2
  unfold dispatch
  by_cases mine : receiver.board.isAddressedBy header.address = true
  · by_cases fits : header.payloadLength ≤ Frame.maxPayload
    · simp only [Admits, mine, fits, if_true, true_and]
      refine settles_accept bounded size fits width ?_
      split
      · exact settles_serve header.kind payload failing s
      · exact (Exchange.settles_done _ failing s).note _
    · simp only [Admits, mine, fits, if_true, if_false, false_and, and_false]
      exact settles_drain bounded small ((settles_reject rfl failing s).note _) total
  · simp only [Admits, mine, Bool.false_eq_true, if_false, false_and]
    exact settles_drain bounded small (Exchange.settles_done _ failing s) total

theorem starves_dispatch (bounded : receiver.timing.IsBounded) {header : Header}
    (short : bytes.length < header.payloadLength + receiver.checksum.width) :
    (receiver.dispatch header).Starves identity bytes := by
  have drained : ∀ next : Exchange Outcome,
      (receiver.drain next (chunks (header.payloadLength + receiver.checksum.width))).Starves
        identity bytes := by
    intro next
    refine starves_drain bounded (fun piece mem => (bounds_of_mem_chunks mem).2) next ?_
    rwa [foldr_add_chunks]
  unfold dispatch
  split
  · split
    · next fits =>
      by_cases here : bytes.length < header.payloadLength
      · exact starves_receivePayload _ bounded fits here
      · rcases exists_append_of_le (Nat.le_of_not_lt here) with ⟨front, back, rfl, size⟩
        rw [List.length_append, size] at short
        exact starves_receivePayload_append ⟨front, size⟩ bounded fits
          (Exchange.starves_receive _ _ (Nat.lt_of_add_lt_add_left short))
    · exact drained _
  · exact drained _

/-! ## Whole polls -/

theorem proceed_of_plain {first : UInt8} (plain : Diagnostic.decode first = none) :
    receiver.proceed first =
      receive 3 (some receiver.timing.headerLimit) fun rest =>
        receiver.dispatch (Header.ofBytes (joinHeader first rest)) := by
  rw [proceed, plain]

theorem settles_diagnostic (asked : Diagnostic) (failing : Nat) (s : Scheduler) :
    receiver.poll.Settles identity [asked.byte] failing s []
      (if asked.board = receiver.board then
        (Service.diagnose identity asked.kind s).scheduler else s) := by
  have answered : (receiver.proceed asked.byte).Settles identity [] failing s []
      (if asked.board = receiver.board then
        (Service.diagnose identity asked.kind s).scheduler else s) := by
    rw [proceed, Diagnostic.decode_byte]
    exact settles_diagnose asked failing s
  exact settles_receive ⟨[asked.byte], rfl⟩ none answered

theorem settles_header {header : Header} (plain : Diagnostic.decode header.address = none)
    (settles : (receiver.dispatch header).Settles identity bytes failing s requests after) :
    receiver.poll.Settles identity (header.bytes ++ bytes) failing s requests after := by
  have entered : (receiver.proceed header.address).Settles identity (header.tail.val ++ bytes)
      failing s requests after := by
    rw [proceed_of_plain plain]
    refine settles_receive header.tail _ ?_
    rw [header.ofBytes_joinHeader]
    exact settles
  exact settles_receive ⟨[header.address], rfl⟩ none entered

theorem settles_frame (bounded : receiver.timing.IsBounded) {header : Header}
    (plain : Diagnostic.decode header.address = none) {payload footer : List UInt8}
    (size : payload.length = header.payloadLength)
    (width : footer.length = receiver.checksum.width) (failing : Nat) (s : Scheduler) :
    receiver.poll.Settles identity (header.bytes ++ (payload ++ footer)) failing s
      (if receiver.Admits header payload footer then [(header.kind, payload)] else [])
      (if receiver.Admits header payload footer then
        (Service.handle identity header.kind payload s).scheduler else s) :=
  settles_header plain (settles_dispatch bounded size width failing s)

/-- A frame is dropped if the line falls silent within its header. -/
theorem starves_header {first : UInt8} (plain : Diagnostic.decode first = none)
    (short : bytes.length < 3) : receiver.poll.Starves identity (first :: bytes) := by
  have entered : (receiver.proceed first).Starves identity bytes := by
    rw [proceed_of_plain plain]
    exact Exchange.starves_receive _ _ short
  exact starves_receive_append ⟨[first], rfl⟩ none entered

/-- A frame is dropped if the line falls silent behind its header. -/
theorem starves_body (bounded : receiver.timing.IsBounded) {header : Header}
    (plain : Diagnostic.decode header.address = none)
    (short : bytes.length < header.payloadLength + receiver.checksum.width) :
    receiver.poll.Starves identity (header.bytes ++ bytes) := by
  have entered : (receiver.proceed header.address).Starves identity
      (header.tail.val ++ bytes) := by
    rw [proceed_of_plain plain]
    refine starves_receive_append header.tail _ ?_
    rw [header.ofBytes_joinHeader]
    exact starves_dispatch bounded short
  exact starves_receive_append ⟨[header.address], rfl⟩ none entered

end Receiver

end Animatronic
