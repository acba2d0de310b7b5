import Animatronic.Proofs.Exchange.Completion
import Animatronic.Proofs.Receiver.Acceptance
import Animatronic.Proofs.Receiver.Slices
import Animatronic.Proofs.Service.Fault
import Animatronic.Proofs.Service.Reply

/-!
# What a board writes

Whatever a bus delivers and wherever it fails, a poll does one of a few things.  It reads for a
while, and then the frame is over without an answer, or a read fails and the bus is restarted, or
something is sent: bare bytes for a diagnostic, one frame for a request.  `Receiver.Transcript`
lists these courses, and every poll takes one of them (`completes_poll`).

What can be seen on the bus follows from that (`Receiver.Disciplined`): a board writes once at the
most, in its own name and nothing but replies, and restarts the bus exactly if it drops a frame for
a fault of the bus.
-/

namespace Animatronic

namespace Effect

def isWrite : Effect → Bool
  | wrote .. => true
  | _ => false

def isFailedRead : Effect → Bool
  | read _ false => true
  | _ => false

end Effect

namespace Fault

theorem length_payload (code : Int16) : (payload code).length = 2 :=
  Word.length_toBytes ..

theorem length_payload_le (code : Int16) : (payload code).length ≤ Frame.maxReplyPayload := by
  rw [length_payload]
  decide

/-- The payload of an error reply is the code, least significant byte first. -/
theorem ofBytes_payload (code : Int16) : Word.ofBytes (payload code) = code.toUInt16.toNat := by
  rw [payload, Word.ofBytes_toBytes]
  exact Nat.mod_eq_of_lt code.toUInt16.toNat_lt

end Fault

namespace Receiver

/-- The frame in which a board sends a payload. -/
def frame (receiver : Receiver) (kind : MessageType) (payload : List UInt8) : List UInt8 :=
  Frame.spell receiver.checksum
    ⟨receiver.board.address, kind.code, UInt16.ofNat payload.length⟩ payload

/-- What becomes of bytes that are to be sent, and of the outcome that is due for them. -/
inductive Sent (bytes : List UInt8) (due : Outcome) : List Effect → Outcome → Prop
  | whole : Sent bytes due [.wrote bytes true] due
  | lost (fault : BusFault) :
    Sent bytes due [.wrote bytes false, .restarted] (.dropped fault.fault)

/-- The frames that a board sends, and the outcome that is due for each. -/
inductive Framed (receiver : Receiver) : List UInt8 → Outcome → Prop
  | reply {kind : MessageType} {payload : List UInt8} (reply : kind.isReply = true)
    (short : payload.length ≤ Frame.maxReplyPayload) :
    Framed receiver (receiver.frame kind payload) (.replied kind)
  | rejection (code : Int16) :
    Framed receiver (receiver.frame .error (Fault.payload code)) (.rejected code)

/-- What a board does with a transmission. -/
inductive Transcript (receiver : Receiver) : List Effect → Outcome → Prop
  | read {effects : List Effect} {outcome : Outcome} (length : Nat)
    (later : Transcript receiver effects outcome) :
    Transcript receiver (.read length true :: effects) outcome
  | failed (length : Nat) (fault : BusFault) :
    Transcript receiver [.read length false, .restarted] (.dropped fault.fault)
  | foreign : Transcript receiver [] .otherDiagnostic
  | ignored : Transcript receiver [] .notAddressed
  | damaged : Transcript receiver [] (.dropped .checksumMismatch)
  | diagnosed {effects : List Effect} {outcome : Outcome} {reply : List UInt8} (asked : Diagnostic)
    (short : reply.length ≤ Frame.maxReplyPayload)
    (sent : Sent reply (.diagnostic asked) effects outcome) :
    Transcript receiver (.diagnosed asked.kind :: effects) outcome
  | served {effects : List Effect} {outcome due : Outcome} {bytes : List UInt8} (code : UInt8)
    (payload : List UInt8) (framed : receiver.Framed bytes due)
    (sent : Sent bytes due effects outcome) :
    Transcript receiver (.served code payload :: effects) outcome
  | refused {effects : List Effect} {outcome due : Outcome} {bytes : List UInt8}
    (framed : receiver.Framed bytes due) (sent : Sent bytes due effects outcome) :
    Transcript receiver effects outcome

variable {Line : Type} {bus : Bus Line} {identity : Identity} {receiver : Receiver}
  {post : List Effect → Outcome → Prop}

/-! ## Sending -/

theorem completes_drop (answers : bus.Answers) (fault : BusFault)
    (holds : post [.restarted] (.dropped fault.fault)) :
    (drop fault.fault).Completes bus identity post := by
  have ends : (Exchange.restart (.done (.dropped fault.fault))).Completes bus identity post :=
    Exchange.Completes.restart answers (Exchange.completes_done holds)
  cases fault with
  | timeout => exact ends.note _
  | transceiver => exact ends.note _

theorem completes_send (answers : bus.Answers) (bytes : List UInt8) (due : Outcome) :
    (send bytes due).Completes bus identity (Sent bytes due) :=
  Exchange.Completes.write (Exchange.completes_done .whole)
    fun fault => completes_drop answers fault (.lost fault)

/-- A short payload has room in the frame of a reply. -/
theorem sendFrame_eq_send {payload : List UInt8} (kind : MessageType)
    (short : payload.length ≤ Frame.maxReplyPayload) (due : Outcome) :
    receiver.sendFrame kind payload due = send (receiver.frame kind payload) due := by
  have small : payload.length < UInt16.size := Nat.lt_of_le_of_lt short (by decide)
  have room : Header.length + payload.length + receiver.checksum.width ≤ Frame.maxReply :=
    Nat.add_le_add (Nat.add_le_add_left short _) receiver.checksum.width_le
  rw [sendFrame, Frame.encode_eq_spell receiver.checksum receiver.board.address kind small room]
  rfl

theorem completes_reject (answers : bus.Answers) {fault : Fault}
    (reported : fault.code.isSome = true) :
    (receiver.reject fault).Completes bus identity fun effects outcome =>
      ∃ bytes due, receiver.Framed bytes due ∧ Sent bytes due effects outcome := by
  obtain ⟨code, known⟩ := Option.isSome_iff_exists.mp reported
  rw [reject, known]
  dsimp only
  rw [sendFrame_eq_send .error (Fault.length_payload_le code)]
  exact ((completes_send answers _ _).mono
    fun _ _ sent => ⟨_, _, .rejection code, sent⟩).note _

theorem completes_serve (answers : bus.Answers) (code : UInt8) (payload : List UInt8) :
    (receiver.serve code payload).Completes bus identity receiver.Transcript := by
  refine Exchange.Completes.serve fun s => ?_
  cases served : (Service.handle identity code payload s).result with
  | ok response =>
    obtain ⟨reply, short⟩ := Service.reply_of_handle served
    dsimp only
    rw [sendFrame_eq_send response.kind short]
    exact (completes_send answers _ _).mono
      fun _ _ sent => .served code payload (.reply reply short) sent
  | error fault =>
    refine (completes_reject answers (Service.reported_of_handle served)).mono ?_
    rintro effects outcome ⟨_, _, framed, sent⟩
    exact .served code payload framed sent

theorem completes_diagnose (answers : bus.Answers) (diagnostic : Diagnostic) :
    (receiver.diagnose diagnostic).Completes bus identity receiver.Transcript := by
  unfold diagnose
  split
  · exact Exchange.Completes.diagnose fun s => (completes_send answers _ _).mono
      fun _ _ sent => .diagnosed diagnostic (Service.length_diagnose_le identity _ s) sent
  · exact Exchange.completes_done .foreign

/-! ## Receiving -/

theorem completes_receive (answers : bus.Answers) {length : Nat} {limit : Option Microseconds}
    {next : Bytes length → Exchange Outcome}
    (completes : ∀ bytes, (next bytes).Completes bus identity receiver.Transcript) :
    (receive length limit next).Completes bus identity receiver.Transcript :=
  Exchange.Completes.read answers (fun bytes => (completes bytes).mono fun _ _ => .read length)
    fun fault => completes_drop answers fault (.failed length fault)

theorem completes_receivePayload (answers : bus.Answers) (bounded : receiver.timing.IsBounded)
    {length : Nat} (fits : length ≤ Frame.maxPayload) {next : Bytes length → Exchange Outcome}
    (completes : ∀ bytes, (next bytes).Completes bus identity receiver.Transcript) :
    (receiver.receivePayload length next).Completes bus identity receiver.Transcript := by
  obtain ⟨limit, known⟩ := bounded.payloadLimit fits
  rw [receivePayload, known]
  exact completes_receive answers completes

theorem completes_drain (answers : bus.Answers) (bounded : receiver.timing.IsBounded)
    {next : Exchange Outcome} (completes : next.Completes bus identity receiver.Transcript)
    {pieces : List Nat} (small : ∀ piece ∈ pieces, piece ≤ Frame.maxPayload) :
    (receiver.drain next pieces).Completes bus identity receiver.Transcript := by
  induction pieces with
  | nil => exact completes
  | cons piece rest ih =>
    exact completes_receivePayload answers bounded (small piece (List.mem_cons_self ..))
      fun _ => ih fun other mem => small other (List.mem_cons_of_mem _ mem)

theorem completes_accept (answers : bus.Answers) (bounded : receiver.timing.IsBounded)
    {header : Header} (fits : header.payloadLength ≤ Frame.maxPayload) :
    (receiver.accept header).Completes bus identity receiver.Transcript := by
  refine completes_receivePayload answers bounded fits fun payload => ?_
  refine completes_receive answers fun footer => ?_
  split
  · exact completes_serve answers header.kind payload
  · exact (Exchange.completes_done .damaged).note _

theorem completes_dispatch (answers : bus.Answers) (bounded : receiver.timing.IsBounded)
    (header : Header) :
    (receiver.dispatch header).Completes bus identity receiver.Transcript := by
  have small : ∀ piece ∈ chunks (header.payloadLength + receiver.checksum.width),
      piece ≤ Frame.maxPayload := fun piece mem => (bounds_of_mem_chunks mem).2
  unfold dispatch
  split
  · split
    · next fits => exact completes_accept answers bounded fits
    · refine completes_drain answers bounded (Exchange.Completes.note ?_ _) small
      refine (completes_reject answers rfl).mono ?_
      rintro effects outcome ⟨_, _, framed, sent⟩
      exact .refused framed sent
  · exact completes_drain answers bounded (Exchange.completes_done .ignored) small

/-- Every poll comes to its end, on one of the courses that there are. -/
theorem completes_poll (answers : bus.Answers) (bounded : receiver.timing.IsBounded) :
    receiver.poll.Completes bus identity receiver.Transcript := by
  refine completes_receive answers fun first => ?_
  unfold proceed
  split
  · exact completes_diagnose answers _
  · exact completes_receive answers fun rest => completes_dispatch answers bounded _

/-! ## What can be seen on the bus -/

/-- A poll writes and restarts once at the most, and knows when. -/
structure Orderly (effects : List Effect) (outcome : Outcome) : Prop where
  once : effects.countP Effect.isWrite ≤ 1
  /-- Nothing is written after a failed read. -/
  quiet : effects.Pairwise fun earlier later => earlier.isFailedRead = true → later.isWrite = false
  /-- The bus is restarted after a fault of the bus, once, and after nothing else. -/
  restarts : effects.count .restarted =
    if outcome = .dropped .timeout ∨ outcome = .dropped .transceiver then 1 else 0
  dropped : ∀ fault, outcome = .dropped fault →
    fault = .timeout ∨ fault = .transceiver ∨ fault = .checksumMismatch

/-- What holds of the effects and the outcome of a poll. -/
structure Disciplined (receiver : Receiver) (effects : List Effect) (outcome : Outcome) : Prop
    extends Orderly effects outcome where
  /-- Unless it answers a diagnostic, a board writes a whole frame with its own address, of a reply
  type and with a short payload; and once that is out, the outcome says which it was. -/
  framed : (∀ kind, .diagnosed kind ∉ effects) →
    ∀ bytes complete, .wrote bytes complete ∈ effects →
    ∃ kind payload, kind.isReply = true ∧ payload.length ≤ Frame.maxReplyPayload ∧
      bytes = receiver.frame kind payload ∧
      (complete = true → outcome = .replied kind ∨
        ∃ code, kind = .error ∧ payload = Fault.payload code ∧ outcome = .rejected code)
  replied : ∀ kind, outcome = .replied kind →
    ∃ payload, kind.isReply = true ∧ payload.length ≤ Frame.maxReplyPayload ∧
      .wrote (receiver.frame kind payload) true ∈ effects
  rejected : ∀ code, outcome = .rejected code →
    ∃ payload, payload.length = 2 ∧ Word.ofBytes payload = code.toUInt16.toNat ∧
      .wrote (receiver.frame .error payload) true ∈ effects

variable {effects : List Effect} {outcome due : Outcome} {bytes : List UInt8}

/-- A poll that ends quietly has done nothing that could be seen. -/
theorem orderly_nil (dropped : ∀ fault, outcome = .dropped fault → fault = .checksumMismatch) :
    Orderly [] outcome where
  once := Nat.zero_le 1
  quiet := List.Pairwise.nil
  restarts := by
    have faultless : ¬(outcome = .dropped .timeout ∨ outcome = .dropped .transceiver) := by
      rintro (is | is)
      · cases dropped _ is
      · cases dropped _ is
    rw [if_neg faultless]
    rfl
  dropped fault is := Or.inr (Or.inr (dropped fault is))

/-- What comes before the answer makes no difference. -/
theorem Orderly.cons (orderly : Orderly effects outcome) {effect : Effect}
    (read : effect.isFailedRead = false) (write : effect.isWrite = false)
    (kept : effect ≠ .restarted) : Orderly (effect :: effects) outcome where
  once := by
    rw [List.countP_cons_of_neg (Bool.eq_false_iff.mp write)]
    exact orderly.once
  quiet := List.pairwise_cons.mpr
    ⟨fun _ _ failed => absurd (failed.symm.trans read) nofun, orderly.quiet⟩
  restarts := by
    rw [List.count_cons_of_ne kept]
    exact orderly.restarts
  dropped := orderly.dropped

/-- A step that fails is followed by a restart, and by nothing else. -/
theorem orderly_of_fault (fault : BusFault) {effect : Effect} (kept : effect ≠ .restarted) :
    Orderly [effect, .restarted] (.dropped fault.fault) where
  once := by
    rw [List.countP_cons]
    split <;> decide
  quiet := List.pairwise_pair.mpr fun _ => rfl
  restarts := by
    rw [List.count_cons_of_ne kept]
    cases fault <;> rfl
  dropped other is := by
    rw [← Outcome.dropped.inj is]
    cases fault with
    | timeout => exact Or.inl rfl
    | transceiver => exact Or.inr (Or.inl rfl)

theorem Sent.orderly (sent : Sent bytes due effects outcome)
    (answers : ∀ fault, due ≠ .dropped fault) : Orderly effects outcome := by
  cases sent with
  | lost fault => exact orderly_of_fault fault nofun
  | whole =>
    exact
      { once := Nat.le_refl 1
        quiet := List.pairwise_singleton ..
        restarts := by rw [if_neg (not_or.mpr ⟨answers _, answers _⟩)]; rfl
        dropped := fun fault is => absurd is (answers fault) }

/-- Only the bytes in question are written, and once they are out the outcome is the one due. -/
theorem Sent.of_wrote {data : List UInt8} {complete : Bool}
    (sent : Sent bytes due effects outcome) (mem : .wrote data complete ∈ effects) :
    data = bytes ∧ (complete = true → outcome = due) := by
  cases sent with
  | whole =>
    cases List.mem_singleton.mp mem
    exact ⟨rfl, fun _ => rfl⟩
  | lost fault =>
    rcases List.mem_cons.mp mem with same | other
    · cases same
      exact ⟨rfl, nofun⟩
    · cases List.mem_singleton.mp other

/-- An outcome other than a drop is the one due, and the bytes are out. -/
theorem Sent.wrote_of_answer (sent : Sent bytes due effects outcome)
    (answers : ∀ fault, outcome ≠ .dropped fault) :
    outcome = due ∧ .wrote bytes true ∈ effects := by
  cases sent with
  | whole => exact ⟨rfl, List.mem_singleton_self _⟩
  | lost fault => exact absurd rfl (answers fault.fault)

theorem Framed.ne_dropped (framed : receiver.Framed bytes due) (fault : Fault) :
    due ≠ .dropped fault := by
  cases framed <;> exact nofun

theorem Transcript.orderly (transcript : receiver.Transcript effects outcome) :
    Orderly effects outcome := by
  induction transcript with
  | read length later ih => exact ih.cons rfl rfl nofun
  | failed length fault => exact orderly_of_fault fault nofun
  | foreign => exact orderly_nil nofun
  | ignored => exact orderly_nil nofun
  | damaged => exact orderly_nil fun fault is => (Outcome.dropped.inj is).symm
  | diagnosed asked short sent => exact (sent.orderly nofun).cons rfl rfl nofun
  | served code payload framed sent => exact (sent.orderly framed.ne_dropped).cons rfl rfl nofun
  | refused framed sent => exact sent.orderly framed.ne_dropped

/-- Whoever is not asked for a diagnostic writes a frame. -/
theorem Transcript.exists_framed (transcript : receiver.Transcript effects outcome)
    (plain : ∀ kind, .diagnosed kind ∉ effects) {complete : Bool}
    (mem : .wrote bytes complete ∈ effects) :
    ∃ due, receiver.Framed bytes due ∧ (complete = true → outcome = due) := by
  induction transcript with
  | read length later ih =>
    exact ih (fun kind other => plain kind (List.mem_cons_of_mem _ other))
      ((List.mem_cons.mp mem).resolve_left nofun)
  | failed length fault => cases mem with
    | tail _ mem => cases List.mem_singleton.mp mem
  | foreign | ignored | damaged => cases mem
  | diagnosed asked short sent => exact absurd (List.mem_cons_self ..) (plain asked.kind)
  | served code payload framed sent =>
    obtain ⟨rfl, answers⟩ := sent.of_wrote ((List.mem_cons.mp mem).resolve_left nofun)
    exact ⟨_, framed, answers⟩
  | refused framed sent =>
    obtain ⟨rfl, answers⟩ := sent.of_wrote mem
    exact ⟨_, framed, answers⟩

/-- A reply or a rejection has been sent as a frame. -/
theorem Transcript.exists_wrote (transcript : receiver.Transcript effects outcome)
    (answers : (∃ kind, outcome = .replied kind) ∨ ∃ code, outcome = .rejected code) :
    ∃ bytes, receiver.Framed bytes outcome ∧ .wrote bytes true ∈ effects := by
  have sends : ∀ {effects : List Effect} {bytes : List UInt8} {due outcome : Outcome},
      receiver.Framed bytes due → Sent bytes due effects outcome →
        ((∃ kind, outcome = .replied kind) ∨ ∃ code, outcome = .rejected code) →
          ∃ bytes, receiver.Framed bytes outcome ∧ .wrote bytes true ∈ effects := by
    intro effects bytes due outcome framed sent answers
    obtain ⟨rfl, mem⟩ := sent.wrote_of_answer fun fault is => by
      rcases answers with ⟨_, rfl⟩ | ⟨_, rfl⟩ <;> cases is
    exact ⟨bytes, framed, mem⟩
  induction transcript with
  | read length later ih =>
    obtain ⟨bytes, framed, mem⟩ := ih answers
    exact ⟨bytes, framed, List.mem_cons_of_mem _ mem⟩
  | failed | foreign | ignored | damaged => simp at answers
  | diagnosed asked short sent => cases sent <;> simp at answers
  | served code payload framed sent =>
    obtain ⟨bytes, framed, mem⟩ := sends framed sent answers
    exact ⟨bytes, framed, List.mem_cons_of_mem _ mem⟩
  | refused framed sent => exact sends framed sent answers

theorem Transcript.disciplined (transcript : receiver.Transcript effects outcome) :
    receiver.Disciplined effects outcome where
  toOrderly := transcript.orderly
  framed plain bytes complete mem := by
    obtain ⟨due, framed, answers⟩ := transcript.exists_framed plain mem
    cases framed with
    | @reply kind payload reply short =>
      exact ⟨kind, payload, reply, short, rfl, fun out => Or.inl (answers out)⟩
    | rejection code =>
      refine ⟨.error, Fault.payload code, rfl, Fault.length_payload_le code, rfl, fun out => ?_⟩
      exact Or.inr ⟨code, rfl, rfl, answers out⟩
  replied kind is := by
    obtain ⟨bytes, framed, mem⟩ := transcript.exists_wrote (Or.inl ⟨kind, is⟩)
    subst is
    cases framed with
    | reply reply short => exact ⟨_, reply, short, mem⟩
  rejected code is := by
    obtain ⟨bytes, framed, mem⟩ := transcript.exists_wrote (Or.inr ⟨code, is⟩)
    subst is
    cases framed with
    | rejection => exact ⟨_, Fault.length_payload code, Fault.ofBytes_payload code, mem⟩

/-- However the bus behaves, a poll comes to its end and keeps to the rules of the bus: one write
at the most and none after a failed read, one restart exactly if the frame is dropped for a fault
of the bus, no frame dropped for anything but these faults and a wrong footer, and nothing sent in
a frame but replies of this board. -/
theorem discipline (receiver : Receiver) (bounded : receiver.timing.IsBounded)
    (identity : Identity) (buffer : PayloadBuffer) {Line : Type} (bus : Bus Line)
    (answers : bus.Answers) (line : Line) (s : Scheduler) :
    ∃ outcome,
      ((receiver.pollSlices buffer).run bus identity line s).1 = .finished outcome ∧
        receiver.Disciplined ((receiver.pollSlices buffer).effects bus identity line s)
          outcome := by
  have completes : receiver.poll.Completes bus identity receiver.Transcript :=
    completes_poll answers bounded
  obtain ⟨outcome, finished, transcript⟩ := completes line s
  rw [pollSlices_eq_poll]
  exact ⟨outcome, finished, transcript.disciplined⟩

/-- A batch is read to its end and enqueued, and the reply gets stuck in the transceiver. -/
theorem discipline_when_the_write_fails :
    let payload : List UInt8 := [0, 0, 1, 0, 1, 0, 10, 0, 0x0A, 0x3F]
    ∃ (receiver : Receiver) (buffer : PayloadBuffer) (bus : Bus (List UInt8)) (line : List UInt8)
        (outcome : Outcome),
      bus.Answers ∧
        ((receiver.pollSlices buffer).run bus (some .ribs) line (.initial .vibration)).1 =
          .finished outcome ∧
        (receiver.pollSlices buffer).effects bus (some .ribs) line (.initial .vibration) =
          [.read 1 true, .read 3 true, .read 10 true, .read 2 true, .served 0x21 payload,
            .wrote (receiver.frame .setSetpointsAck []) false, .restarted] ∧
        (outcome = .dropped .timeout ∨ outcome = .dropped .transceiver) := by
  intro payload
  let receiver : Receiver := ⟨.ribs, .crc16, .standard⟩
  let buffer : PayloadBuffer := ⟨List.replicate Frame.maxPayload 0xA5, List.length_replicate⟩
  let bus : Bus (List UInt8) :=
    { read := fun length _ line =>
        if enough : length ≤ line.length then
          (some (.ok ⟨line.take length, List.length_take_of_le enough⟩), line.drop length)
        else (some (.error .timeout), [])
      write := fun _ line => (.error .transceiver, line)
      restart := fun line => (some (), line)
      note := fun _ line => line }
  have answers : bus.Answers := by
    refine ⟨fun length limit line => ?_, fun line => rfl⟩
    by_cases enough : length ≤ line.length
    · simp only [bus, dif_pos enough, Option.isSome_some]
    · simp only [bus, dif_neg enough, Option.isSome_some]
  let line := receiver.frame .setSetpoints payload
  obtain ⟨outcome, finished, disciplined⟩ :=
    discipline receiver (by decide) (some .ribs) buffer bus answers line (.initial .vibration)
  have did : (receiver.pollSlices buffer).effects bus (some .ribs) line (.initial .vibration) =
      [.read 1 true, .read 3 true, .read 10 true, .read 2 true, .served 0x21 payload,
        .wrote (receiver.frame .setSetpointsAck []) false, .restarted] := by
    rw [pollSlices_eq_poll]
    decide +kernel
  refine ⟨receiver, buffer, bus, line, outcome, answers, finished, did, ?_⟩
  -- The bus has been restarted, and that happens after no other outcome.
  have restarts := disciplined.restarts
  rw [did] at restarts
  by_contra other
  rw [if_neg other] at restarts
  cases restarts

end Receiver

end Animatronic
