import Animatronic.Proofs.Frame.Layout
import Animatronic.Proofs.Receiver.Buffer
import Animatronic.Proofs.Receiver.Settlement
import Animatronic.Proofs.Receiver.Stream

/-!
# Which frames are handed to the service

A byte stream carries a request for a board if it begins with a header that has the board's
address, a payload of the size that the header gives and not above the limit, and the footer that
belongs to these bytes (`Receiver.Accepts`).  The service is asked exactly then, and exactly once;
after anything else the scheduler is as it was.  The frames that a sender encodes are among those
that are accepted.
-/

namespace Animatronic

namespace Receiver

/-- The stream begins with a frame for this board that carries the request. -/
structure Accepts (receiver : Receiver) (stream : List UInt8) (code : UInt8)
    (payload : List UInt8) : Prop where
  fits : payload.length ≤ Frame.maxPayload
  begins : Frame.spell receiver.checksum
    ⟨receiver.board.address, code, UInt16.ofNat payload.length⟩ payload <+: stream

variable {receiver : Receiver} {identity : Identity} {header : Header}
  {payload footer rest stream : List UInt8} {code : UInt8} {s : Scheduler}

theorem payloadLength_of_fits {payload : List UInt8} (fits : payload.length ≤ Frame.maxPayload)
    (address code : UInt8) :
    (⟨address, code, UInt16.ofNat payload.length⟩ : Header).payloadLength = payload.length :=
  UInt16.toNat_ofNat_of_lt' (Nat.lt_of_le_of_lt fits (by decide))

/-- An accepted stream is as long as the header at its beginning says. -/
theorem Accepts.of_header (accepts : receiver.Accepts (header.bytes ++ rest) code payload) :
    header = ⟨receiver.board.address, code, UInt16.ofNat payload.length⟩ ∧
      header.payloadLength = payload.length ∧
      payload ++ Frame.footer receiver.checksum (header.bytes ++ payload) <+: rest := by
  rcases accepts.begins with ⟨behind, whole⟩
  rw [Frame.spell, List.append_assoc] at whole
  rcases List.append_inj whole (by rw [Header.length_bytes, Header.length_bytes]) with ⟨same, tail⟩
  have header_eq := Header.bytes_injective same
  subst header_eq
  exact ⟨rfl, payloadLength_of_fits accepts.fits _ _, behind, tail⟩

/-- A complete frame is accepted exactly if it is admitted. -/
theorem accepts_iff (size : payload.length = header.payloadLength)
    (width : footer.length = receiver.checksum.width) {request : List UInt8} :
    receiver.Accepts (header.bytes ++ (payload ++ footer ++ rest)) code request ↔
      receiver.Admits header payload footer ∧ code = header.kind ∧ request = payload := by
  constructor
  · intro accepts
    rcases accepts.of_header with ⟨rfl, length, behind, whole⟩
    rw [List.append_assoc, List.append_assoc] at whole
    rcases List.append_inj whole (length.symm.trans size.symm) with ⟨rfl, tail⟩
    rcases List.append_inj tail (by rw [Frame.length_footer, width]) with ⟨closing, -⟩
    refine ⟨⟨decide_eq_true rfl, ?_, (closes_iff width).mpr closing.symm⟩, rfl, rfl⟩
    rw [length]
    exact accepts.fits
  · rintro ⟨⟨mine, fits, closed⟩, rfl, rfl⟩
    have closing := (closes_iff width).mp closed
    have spelled :
        header = ⟨receiver.board.address, header.kind, UInt16.ofNat request.length⟩ := by
      rw [size, Header.payloadLength, UInt16.ofNat_toNat, ← of_decide_eq_true mine]
    refine ⟨size ▸ fits, rest, ?_⟩
    rw [← spelled, Frame.spell, ← closing, List.append_assoc]

/-- A stream carries one request at most. -/
theorem Accepts.unique {other : UInt8} {request : List UInt8}
    (accepts : receiver.Accepts stream code payload)
    (too : receiver.Accepts stream other request) : code = other ∧ payload = request := by
  rcases accepts.begins with ⟨behind, whole⟩
  rw [Frame.spell, List.append_assoc] at whole
  rw [← whole] at too
  rcases too.of_header with ⟨same, length, front⟩
  rcases front with ⟨left, tail⟩
  rw [List.append_assoc, List.append_assoc] at tail
  have sizes : request.length = payload.length := by
    rw [← length]
    exact payloadLength_of_fits accepts.fits _ _
  exact ⟨congrArg Header.kind same, (List.append_inj_left tail sizes).symm⟩

variable {line : ByteLine} {tail : List ByteLine.Item} {first : UInt8}

/-- The service is asked for what the stream carries, or for nothing. -/
theorem requests_of_stream (identity : Identity) (s : Scheduler)
    (bounded : receiver.timing.IsBounded)
    (plain : Diagnostic.decode first = none)
    (items : line.items = (first :: stream).map .byte ++ tail) (still : ByteLine.IsStill tail) :
    (∃ code payload, receiver.Accepts (first :: stream) code payload ∧
        receiver.poll.requests ByteLine.bus identity line s = [(code, payload)] ∧
        (receiver.poll.run ByteLine.bus identity line s).2.2 =
          (Service.handle identity code payload s).scheduler) ∨
      ((∀ code payload, ¬receiver.Accepts (first :: stream) code payload) ∧
        receiver.poll.requests ByteLine.bus identity line s = [] ∧
        (receiver.poll.run ByteLine.bus identity line s).2.2 = s) := by
  by_cases long : 3 ≤ stream.length
  · obtain ⟨header, body, rfl, cut⟩ := Header.exists_of_length first long
    rw [cut] at items ⊢
    by_cases whole : header.payloadLength + receiver.checksum.width ≤ body.length
    · rcases exists_append_of_le whole with ⟨front, rest, rfl, length⟩
      have enough : header.payloadLength ≤ front.length := by omega
      rcases exists_append_of_le enough with ⟨payload, footer, rfl, size⟩
      have width : footer.length = receiver.checksum.width := by
        rw [List.length_append, size] at length
        exact Nat.add_left_cancel length
      have settles : receiver.poll.Settles identity (header.bytes ++ (payload ++ footer))
          line.failingWrites s _ _ := settles_frame bounded plain size width _ s
      have front : line.items =
          (header.bytes ++ (payload ++ footer)).map .byte ++ (rest.map .byte ++ tail) := by
        rw [items]
        simp only [List.map_append, List.append_assoc]
      have facts := settles.requests_eq front
      by_cases admitted : receiver.Admits header payload footer
      · simp only [if_pos admitted] at facts
        exact Or.inl ⟨header.kind, payload, (accepts_iff size width).mpr ⟨admitted, rfl, rfl⟩,
          facts⟩
      · simp only [if_neg admitted] at facts
        refine Or.inr ⟨fun code request accepts => ?_, facts⟩
        exact admitted ((accepts_iff size width).mp accepts).1
    · refine Or.inr ⟨fun code payload accepts => ?_, ?_⟩
      · rcases accepts.of_header with ⟨-, length, behind⟩
        have long := behind.length_le
        rw [List.length_append, Frame.length_footer, ← length] at long
        exact whole long
      · exact (starves_body bounded plain (Nat.lt_of_not_le whole)).requests_eq items still
  · refine Or.inr ⟨fun code payload accepts => ?_, ?_⟩
    · have long' := accepts.begins.length_le
      rw [Frame.spell, List.length_append, Header.length_bytes] at long'
      simp only [List.length_cons, Header.length] at long'
      omega
    · exact (starves_header plain (Nat.lt_of_not_le long)).requests_eq items still

/-- The service is asked exactly for the frames that begin a stream, are for this board, fit in the
buffer and are closed by the right footer; it is asked once, with the code and the payload of that
frame, and in every other case the scheduler stays as it was.  What is encoded for the board comes
out again as it was put in. -/
theorem acceptance (receiver : Receiver) (bounded : receiver.timing.IsBounded)
    (identity : Identity) (buffer : PayloadBuffer) :
    (∀ (first : UInt8) (stream : List UInt8) (tail : List ByteLine.Item) (line : ByteLine)
        (s : Scheduler),
      (∀ asked : Diagnostic, asked.byte ≠ first) → ByteLine.IsStill tail →
      line.items = (first :: stream).map .byte ++ tail →
        let poll := receiver.pollInto buffer
        let requests := poll.requests ByteLine.bus identity line s
        let after := (poll.run ByteLine.bus identity line s).2.2
        (∀ code payload, requests = [(code, payload)] ↔
            receiver.Accepts (first :: stream) code payload) ∧
          requests.length ≤ 1 ∧
          (∀ code payload, receiver.Accepts (first :: stream) code payload →
            after = (Service.handle identity code payload s).scheduler) ∧
          ((∀ code payload, ¬receiver.Accepts (first :: stream) code payload) → after = s)) ∧
      (∀ (kind : MessageType) (payload : List UInt8) (capacity : Nat),
        payload.length ≤ Frame.maxPayload →
        Header.length + payload.length + receiver.checksum.width ≤ capacity →
          ∃ frame, Frame.encode receiver.checksum capacity receiver.board.address kind payload =
              .ok frame ∧
            ∀ (rest : List ByteLine.Item) (line : ByteLine) (s : Scheduler),
              line.items = frame.map .byte ++ rest →
              (receiver.pollInto buffer).requests ByteLine.bus identity line s =
                [(kind.code, payload)]) := by
  rw [pollInto_eq_poll]
  constructor
  · intro first stream tail line s plain still items
    rcases requests_of_stream identity s bounded (Diagnostic.decode_eq_none_iff.mpr plain) items
      still with ⟨code, payload, accepts, requests, after⟩ | ⟨refused, requests, after⟩
    · refine ⟨fun other request => ⟨?_, fun too => ?_⟩, ?_, ?_, ?_⟩
      · intro asked
        rcases Prod.mk.inj (List.singleton_inj.mp (requests.symm.trans asked)) with ⟨rfl, rfl⟩
        exact accepts
      · rcases accepts.unique too with ⟨rfl, rfl⟩
        exact requests
      · rw [requests]
        exact Nat.le_refl 1
      · intro other request too
        rcases accepts.unique too with ⟨rfl, rfl⟩
        exact after
      · exact fun refused => absurd accepts (refused code payload)
    · refine ⟨fun code payload => ⟨?_, fun accepts => absurd accepts (refused code payload)⟩,
        ?_, ?_, ?_⟩
      · intro asked
        rw [requests] at asked
        cases asked
      · rw [requests]
        exact Nat.zero_le 1
      · exact fun code payload accepts => absurd accepts (refused code payload)
      · exact fun _ => after
  · intro kind payload capacity fits room
    have small : payload.length < UInt16.size := Nat.lt_of_le_of_lt fits (by decide)
    refine ⟨_, Frame.encode_eq_spell _ _ kind small room, fun rest line s items => ?_⟩
    have size := payloadLength_of_fits fits receiver.board.address kind.code
    have width := Frame.length_footer receiver.checksum
      (Header.bytes ⟨receiver.board.address, kind.code, UInt16.ofNat payload.length⟩ ++ payload)
    have admits : receiver.Admits
        ⟨receiver.board.address, kind.code, UInt16.ofNat payload.length⟩ payload _ :=
      ⟨decide_eq_true rfl, Nat.le_trans (Nat.le_of_eq size) fits, (closes_iff width).mpr rfl⟩
    have settles : receiver.poll.Settles identity _ line.failingWrites s _ _ :=
      settles_frame bounded (Diagnostic.decode_address receiver.board) size.symm width _ s
    have facts := settles.requests_eq items
    rw [if_pos admits] at facts
    exact facts.1

/-- A batch of one setpoint is handed over, whatever the buffer held before. -/
theorem acceptance_of_batch :
    let payload : List UInt8 := [0, 0, 1, 0, 1, 0, 10, 0, 0x0A, 0x3F]
    ∃ frame, Frame.encode .crc16 16 Board.ribs.address .setSetpoints payload = .ok frame ∧
      (pollInto ⟨.ribs, .crc16, .standard⟩ ⟨List.replicate Frame.maxPayload 0xA5,
          List.length_replicate⟩).requests ByteLine.bus (some .ribs)
        { ByteLine.quiet with items := frame.map .byte } (.initial .vibration) =
          [(0x21, payload)] := by
  intro payload
  obtain ⟨-, encodes⟩ := acceptance ⟨.ribs, .crc16, .standard⟩ (by decide) (some .ribs)
    ⟨List.replicate Frame.maxPayload 0xA5, List.length_replicate⟩
  rcases encodes .setSetpoints payload 16 (by decide) (by decide) with ⟨frame, encoded, asked⟩
  exact ⟨frame, encoded, asked [] _ _ (List.append_nil _).symm⟩

end Receiver

end Animatronic
