import Animatronic.Proofs.Receiver.Continuation
import Animatronic.Proofs.Receiver.Corruption
import Mathlib.Data.Nat.Bitwise

/-!
# One wrong bit

What a board makes of a frame with one wrong bit depends on where the bit is.  In the type, the
payload or the footer it is the footer that shows it.  In the address it makes the frame one for
nobody, unless the byte becomes that of a diagnostic.  In the size it makes the frame either longer
than what comes, and then it is never complete, or shorter than it is, and then its end is taken
for something new.

One poll settles what becomes of the frame.  If it leaves bytes behind, the polls that follow deal
with them as they would with fresh ones (`Receiver.GoesOn`).
-/

namespace Animatronic

/-! ## Sizes -/

/-- A bit that is not set adds its value. -/
theorem xor_two_pow_of_clear {n bit : Nat} (clear : n.testBit bit = false) :
    n ^^^ 2 ^ bit = n + 2 ^ bit := by
  induction bit generalizing n with
  | zero =>
    have even : n % 2 = 0 := by simpa [Nat.testBit_zero] using clear
    exact Nat.xor_one_of_even (Nat.even_iff.mpr even)
  | succ bit ih =>
    rw [Nat.testBit_succ] at clear
    rw [Nat.pow_succ]
    have half : (n ^^^ 2 ^ bit * 2) / 2 = n / 2 + 2 ^ bit := by
      rw [Nat.xor_div_two, Nat.mul_div_cancel _ (by decide), ih clear]
    have low : (n ^^^ 2 ^ bit * 2) % 2 = n % 2 := by
      rw [Nat.xor_mod_two_eq, Nat.add_mul_mod_self_right]
    omega

/-- A bit that is set takes it away. -/
theorem xor_two_pow_of_set {n bit : Nat} (set : n.testBit bit = true) :
    (n ^^^ 2 ^ bit) + 2 ^ bit = n := by
  have clear : (n ^^^ 2 ^ bit).testBit bit = false := by
    rw [Nat.testBit_xor, set, Nat.testBit_two_pow_self]
    rfl
  rw [← xor_two_pow_of_clear clear, Nat.xor_xor_cancel_right]

theorem flipBit_append_left (back : List UInt8) {front : List UInt8} {position : Nat}
    (inside : position < 8 * front.length) :
    flipBit (front ++ back) position = flipBit front position ++ back := by
  induction front generalizing position with
  | nil => exact absurd inside (Nat.not_lt_zero _)
  | cons byte front ih =>
    rw [List.length_cons] at inside
    by_cases here : position < 8
    · rw [List.cons_append, flipBit_cons_of_lt _ _ here, flipBit_cons_of_lt _ _ here]
      rfl
    · obtain ⟨later, rfl⟩ := Nat.exists_eq_add_of_le' (Nat.le_of_not_lt here)
      rw [List.cons_append, flipBit_cons_add, flipBit_cons_add, ih (by omega)]
      rfl

/-- Turning over a bit of a number on the wire turns it over in the number. -/
theorem Word.flipBit_toBytes {width bit : Nat} (value : Nat) (inside : bit < 8 * width) :
    flipBit (toBytes width value) bit = toBytes width (value ^^^ 2 ^ bit) := by
  induction width generalizing value bit with
  | zero => exact absurd inside (Nat.not_lt_zero _)
  | succ width ih =>
    have tail := Nat.xor_div_two_pow (a := value) (b := 2 ^ bit) (n := 8)
    have head := Nat.xor_mod_two_pow (a := value) (b := 2 ^ bit) (n := 8)
    by_cases here : bit < 8
    · have small : 2 ^ bit < 2 ^ 8 := Nat.pow_lt_pow_right (by decide) here
      rw [Nat.div_eq_of_lt small, Nat.xor_zero] at tail
      rw [Nat.mod_eq_of_lt small] at head
      rw [toBytes, toBytes, flipBit_cons_of_lt _ _ here]
      refine List.cons_eq_cons.mpr ⟨UInt8.toNat_inj.mp ?_, congrArg _ tail.symm⟩
      rw [UInt8.toNat_xor, UInt8.toNat_ofNat', UInt8.toNat_ofNat', toNat_bit here]
      exact head.symm
    · obtain ⟨later, rfl⟩ := Nat.exists_eq_add_of_le' (Nat.le_of_not_lt here)
      rw [Nat.pow_add] at head tail ⊢
      rw [Nat.mul_div_cancel _ (by decide)] at tail
      rw [Nat.mul_mod_left, Nat.xor_zero] at head
      rw [toBytes, toBytes, flipBit_cons_add, ih _ (by omega)]
      refine List.cons_eq_cons.mpr ⟨UInt8.toNat_inj.mp ?_, congrArg _ tail.symm⟩
      rw [UInt8.toNat_ofNat', UInt8.toNat_ofNat']
      exact head.symm

namespace Header

/-- A bit of the address. -/
theorem flipBit_address (header : Header) (body : List UInt8) {position : Nat}
    (inside : position < 8) :
    flipBit (header.bytes ++ body) position =
      ({ header with address := header.address ^^^ 1 <<< UInt8.ofNat position } : Header).bytes ++
        body := by
  rw [bytes, List.cons_append, flipBit_cons_of_lt _ _ inside]
  rfl

/-- A bit of the size. -/
theorem flipBit_size (header : Header) (body : List UInt8) {position : Nat} (low : 16 ≤ position)
    (high : position < 32) :
    ∃ resized : Header, resized.address = header.address ∧ resized.kind = header.kind ∧
      resized.payloadLength = header.payloadLength ^^^ 2 ^ (position - 16) ∧
      flipBit (header.bytes ++ body) position = resized.bytes ++ body := by
  obtain ⟨bit, rfl⟩ := Nat.exists_eq_add_of_le' low
  rw [Nat.add_sub_cancel]
  have within : bit < 16 := by omega
  have small : header.payloadLength ^^^ 2 ^ bit < UInt16.size :=
    Nat.xor_lt_two_pow (n := 16) header.size.toNat_lt (Nat.pow_lt_pow_right (by decide) within)
  have length : (UInt16.ofNat (header.payloadLength ^^^ 2 ^ bit)).toNat =
      header.payloadLength ^^^ 2 ^ bit := UInt16.toNat_ofNat_of_lt' small
  refine ⟨⟨header.address, header.kind, UInt16.ofNat (header.payloadLength ^^^ 2 ^ bit)⟩, rfl, rfl,
    length, ?_⟩
  have places : bit + 16 = bit + 8 + 8 := rfl
  have flipped : flipBit (Word.toBytes 2 header.payloadLength) bit = _ :=
    Word.flipBit_toBytes header.payloadLength within
  rw [bytes, List.cons_append, List.cons_append, places, flipBit_cons_add, flipBit_cons_add,
    flipBit_append_left body (by simpa using within)]
  rw [bytes, length, ← flipped]
  rfl

end Header

theorem Effect.isWrite_of_isRead {effect : Effect} (read : effect.isRead = true) :
    effect.isWrite = false := by
  cases effect with
  | read => rfl
  | _ => cases read

namespace Receiver

/-- Whether a bit of the address turns it into a diagnostic byte: the position is then asked of the
board itself, or for the third board of the fourth. -/
def AsksDiagnostic (board : Board) (position : Nat) : Prop :=
  position = 6 ∧ board ∈ [Board.ribs, .purr, .spine]

instance (board : Board) (position : Nat) : Decidable (AsksDiagnostic board position) :=
  inferInstanceAs (Decidable (_ ∧ _))

/-- Whether a bit of the size makes it smaller. -/
def Shortens (payload : List UInt8) (position : Nat) : Prop :=
  16 ≤ position ∧ position < 32 ∧ payload.length.testBit (position - 16) = true

theorem decode_flipped_eq_none_iff (board : Board) {position : Nat} (inside : position < 8) :
    Diagnostic.decode (board.address ^^^ 1 <<< UInt8.ofNat position) = none ↔
      ¬AsksDiagnostic board position := by
  revert position
  cases board <;> decide

theorem flipped_ne_address (board : Board) {position : Nat} (inside : position < 8) :
    board.address ^^^ 1 <<< UInt8.ofNat position ≠ board.address := by
  revert position
  cases board <;> decide

/-- What becomes of a frame that a wrong bit makes shorter: the board takes what is left of the
payload and the next two bytes, which were not meant to be a footer.  If they happen to be the
right one, it serves the request that is left.  What comes behind these bytes is new to it. -/
def Curtails (receiver : Receiver) (identity : Identity) (kind : MessageType)
    (payload frame : List UInt8) (position : Nat) (now : Visit) (line : ByteLine) (s : Scheduler) :
    Prop :=
  ∃ request lost header closing left act after t,
    payload = request ++ lost ∧ lost.length = 2 ^ (position - 16) ∧
      header = Header.mk receiver.board.address kind.code (UInt16.ofNat request.length) ∧
      frame.drop (Header.length + request.length) = closing ++ left ∧ closing.length = 2 ∧
      receiver.visit identity now line s = (act, after, t) ∧
      receiver.GoesOn identity after t left ∧
      (closing ≠ Frame.footer .crc16 (header.bytes ++ request) →
        act.ending = .finished (.dropped .checksumMismatch) ∧
          (∀ effect ∈ act.effects, effect.isWrite = false) ∧ t = s.run now.history) ∧
      (closing = Frame.footer .crc16 (header.bytes ++ request) →
        ∃ bytes due, receiver.Framed bytes due ∧
          act = ⟨[.read 1 true, .read 3 true, .read request.length true, .read 2 true,
              .served kind.code request, .wrote bytes true], .finished due⟩ ∧
          t = (Service.handle identity kind.code request (s.run now.history)).scheduler)

/-- What becomes of a frame with one wrong bit that is alone on the line. -/
structure Endures (receiver : Receiver) (identity : Identity) (kind : MessageType)
    (payload frame : List UInt8) (position : Nat) (now : Visit) (line : ByteLine) (s : Scheduler) :
    Prop where
  /-- Most bits do no harm: the frame is used up by one poll, which writes nothing and leaves the
  scheduler alone. -/
  harmless : ¬AsksDiagnostic receiver.board position → ¬Shortens payload position →
    ∃ act after,
      receiver.visit identity now line s = (act, after, s.run now.history) ∧
        act.ending = .finished
          (if position < 8 then .notAddressed
          else if 16 ≤ position ∧ position < 32 then .dropped .timeout
          else .dropped .checksumMismatch) ∧
        (∀ effect ∈ act.effects, effect.isWrite = false) ∧
        receiver.GoesOn identity after (s.run now.history) []
  /-- A diagnostic byte is all that the poll takes; the scheduler stays as it is, and the rest of
  the frame is new to the polls that follow. -/
  asked : AsksDiagnostic receiver.board position →
    ∃ act after,
      receiver.visit identity now line s = (act, after, s.run now.history) ∧
        (act =
          if receiver.board = .spine then ⟨[.read 1 true], .finished .otherDiagnostic⟩
          else
            ⟨[.read 1 true, .diagnosed .readValue,
                .wrote (Service.positionLine (s.run now.history)) true],
              .finished (.diagnostic ⟨.readValue, receiver.board⟩)⟩) ∧
        receiver.GoesOn identity after (s.run now.history) (frame.drop 1)
  shortened : Shortens payload position →
    receiver.Curtails identity kind payload frame position now line s

variable {board : Board} {timing : Timing} {identity : Identity} {header : Header}
  {payload : List UInt8} {position : Nat} {now : Visit} {line : ByteLine} {s : Scheduler}

/-- A frame whose address has become that of nobody is ignored. -/
theorem visit_flipped_address (bounded : timing.IsBounded) (own : header.address = board.address)
    (size : header.payloadLength = payload.length) (inside : position < 8)
    (plain : ¬AsksDiagnostic board position)
    (items : line.items = (flipBit (Frame.spell .crc16 header payload) position).map .byte)
    (writes : line.failingWrites = 0) :
    ∃ act after,
      (Receiver.mk board .crc16 timing).visit identity now line s =
          (act, after, s.run now.history) ∧
        act.ending = .finished .notAddressed ∧
        (∀ effect ∈ act.effects, effect.isWrite = false) ∧
        (Receiver.mk board .crc16 timing).GoesOn identity after (s.run now.history) [] := by
  obtain ⟨damaged, named⟩ : ∃ damaged : Header,
      damaged = { header with address := header.address ^^^ 1 <<< UInt8.ofNat position } :=
    ⟨_, rfl⟩
  have address : damaged.address = board.address ^^^ 1 <<< UInt8.ofNat position := by
    rw [named, ← own]
  rw [Frame.spell, header.flipBit_address _ inside, ← named, ← List.append_nil (List.map _ _)]
    at items
  obtain ⟨after, visited, left, same⟩ := (Receiver.mk board .crc16 timing).visit_foreign identity
    bounded
    (by rw [address]; exact (decode_flipped_eq_none_iff board inside).mpr plain)
    (by rw [address]; exact flipped_ne_address board inside)
    (by rw [List.length_append, Frame.length_footer, named]; exact congrArg (· + 2) size.symm)
    now s items
  exact ⟨_, after, visited, rfl,
    fun effect mem => Effect.isWrite_of_isRead (Effect.isRead_of_mem_reads mem),
    goesOn_of_items _ identity _ left (same.trans writes)⟩

/-- A frame that has become longer is never complete. -/
theorem visit_lengthened (bounded : timing.IsBounded) (own : header.address = board.address)
    (size : header.payloadLength = payload.length) (low : 16 ≤ position) (high : position < 32)
    (clear : ¬Shortens payload position)
    (items : line.items = (flipBit (Frame.spell .crc16 header payload) position).map .byte)
    (writes : line.failingWrites = 0) :
    ∃ act after,
      (Receiver.mk board .crc16 timing).visit identity now line s =
          (act, after, s.run now.history) ∧
        act.ending = .finished (.dropped .timeout) ∧
        (∀ effect ∈ act.effects, effect.isWrite = false) ∧
        (Receiver.mk board .crc16 timing).GoesOn identity after (s.run now.history) [] := by
  obtain ⟨resized, address, -, length, flipped⟩ := header.flipBit_size
    (payload ++ Frame.footer .crc16 (header.bytes ++ payload)) low high
  have grown : resized.payloadLength = payload.length + 2 ^ (position - 16) := by
    rw [length, size]
    refine xor_two_pow_of_clear ?_
    rw [← Bool.not_eq_true]
    exact fun set => clear ⟨low, high, set⟩
  have short : (payload ++ Frame.footer .crc16 (header.bytes ++ payload)).length <
      resized.payloadLength + (Receiver.mk board .crc16 timing).checksum.width := by
    rw [grown, List.length_append, Frame.length_footer]
    have positive : 0 < 2 ^ (position - 16) := Nat.two_pow_pos _
    exact Nat.add_lt_add_right (by omega) _
  have plain : Diagnostic.decode resized.address = none := by
    rw [address, own]
    exact Diagnostic.decode_address board
  rw [Frame.spell, flipped, ← List.append_nil (List.map _ _)] at items
  have starves : (Receiver.mk board .crc16 timing).poll.Starves identity _ :=
    starves_body bounded plain short
  obtain ⟨reads, after, visited, only, left, same⟩ :=
    visit_of_starves _ identity starves now s items ByteLine.isStill_nil
  refine ⟨_, after, visited, rfl, fun effect mem => ?_,
    goesOn_of_items _ identity _ left (same.trans writes)⟩
  rcases List.mem_append.mp mem with read | restart
  · exact Effect.isWrite_of_isRead (only effect read)
  · rw [List.mem_singleton.mp restart]
    rfl

/-- A frame whose address has become a diagnostic byte is taken for one. -/
theorem visit_asked (address : header.address = board.address)
    (asks : AsksDiagnostic board position)
    (items : line.items = (flipBit (Frame.spell .crc16 header payload) position).map .byte)
    (writes : line.failingWrites = 0) :
    ∃ act after,
      (Receiver.mk board .crc16 timing).visit identity now line s =
          (act, after, s.run now.history) ∧
        (act =
          if board = .spine then ⟨[.read 1 true], .finished .otherDiagnostic⟩
          else
            ⟨[.read 1 true, .diagnosed .readValue,
                .wrote (Service.positionLine (s.run now.history)) true],
              .finished (.diagnostic ⟨.readValue, board⟩)⟩) ∧
        (Receiver.mk board .crc16 timing).GoesOn identity after (s.run now.history)
          ((Frame.spell .crc16 header payload).drop 1) := by
  obtain ⟨rfl, mem⟩ := asks
  have first : line.items = .byte (board.address ^^^ 1 <<< UInt8.ofNat 6) ::
      ((Frame.spell .crc16 header payload).drop 1).map .byte := by
    rw [items, ← address]
    rfl
  simp only [List.mem_cons, List.not_mem_nil, or_false] at mem
  by_cases third : board = .spine
  · subst third
    have other : (Diagnostic.mk .readValue .headYaw).board ≠ Board.spine := by decide
    have turned : Board.spine.address ^^^ 1 <<< UInt8.ofNat 6 =
        (Diagnostic.mk .readValue .headYaw).byte := by decide
    rw [turned] at first
    obtain ⟨after, visited, left, same⟩ :=
      (Receiver.mk .spine .crc16 timing).visit_other_diagnostic identity other now s first
    exact ⟨_, after, visited, rfl, goesOn_of_items _ identity _ left (same.trans writes)⟩
  · have turned : board.address ^^^ 1 <<< UInt8.ofNat 6 =
        (Diagnostic.mk .readValue board).byte := by
      rcases mem with rfl | rfl | rfl
      · decide
      · decide
      · exact absurd rfl third
    rw [turned] at first
    obtain ⟨after, visited, left, working⟩ :=
      (Receiver.mk board .crc16 timing).visit_own_diagnostic identity .readValue now s first writes
    rw [if_neg third]
    exact ⟨_, after, visited, rfl, goesOn_of_items _ identity _ left working⟩

/-- A frame whose size has become smaller is a shorter frame, with another two bytes for a footer,
and something behind it. -/
theorem exists_curtailed {address code : UInt8} (fits : payload.length ≤ Frame.maxPayload)
    (shortens : Shortens payload position) {frame : List UInt8}
    (framed : frame = Frame.spell .crc16 ⟨address, code, UInt16.ofNat payload.length⟩ payload) :
    ∃ request lost header closing left,
      payload = request ++ lost ∧ lost.length = 2 ^ (position - 16) ∧
        header = Header.mk address code (UInt16.ofNat request.length) ∧
        frame.drop (Header.length + request.length) = closing ++ left ∧ closing.length = 2 ∧
        flipBit frame position = header.bytes ++ (request ++ closing) ++ left := by
  obtain ⟨low, high, set⟩ := shortens
  obtain ⟨whole, named⟩ : ∃ whole : Header,
      whole = ⟨address, code, UInt16.ofNat payload.length⟩ := ⟨_, rfl⟩
  have length : whole.payloadLength = payload.length := by
    rw [named]
    exact payloadLength_of_fits fits _ _
  rw [← named, Frame.spell] at framed
  obtain ⟨header, sameAddress, sameKind, size, flipped⟩ := whole.flipBit_size
    (payload ++ Frame.footer .crc16 (whole.bytes ++ payload)) low high
  have cut : header.payloadLength + 2 ^ (position - 16) = payload.length := by
    rw [size, length]
    exact xor_two_pow_of_set set
  have enough : header.payloadLength ≤ payload.length := by
    rw [← cut]
    exact Nat.le_add_right _ _
  obtain ⟨request, lost, rfl, taken⟩ := exists_append_of_le enough
  rw [List.length_append, taken] at cut
  have two : 2 ≤ (lost ++ Frame.footer .crc16 (whole.bytes ++ (request ++ lost))).length := by
    rw [List.length_append, Frame.length_footer]
    exact Nat.le_add_left _ _
  obtain ⟨closing, left, split, width⟩ := exists_append_of_le two
  refine ⟨request, lost, header, closing, left, rfl, (Nat.add_left_cancel cut).symm, ?_, ?_, width,
    ?_⟩
  · have address : header.address = address := by rw [sameAddress, named]
    have code : header.kind = code := by rw [sameKind, named]
    rw [taken, Header.payloadLength, UInt16.ofNat_toNat, ← address, ← code]
  · rw [framed, List.append_assoc, split, ← List.append_assoc]
    exact List.drop_left' (by rw [List.length_append, whole.length_bytes])
  · rw [framed, flipped, List.append_assoc, split]
    simp only [List.append_assoc]

/-- A frame that has become shorter is dropped or served by what comes behind its new end. -/
theorem visit_shortened (bounded : timing.IsBounded) {kind : MessageType}
    (fits : payload.length ≤ Frame.maxPayload) (shortens : Shortens payload position)
    {frame : List UInt8}
    (framed : frame =
      Frame.spell .crc16 ⟨board.address, kind.code, UInt16.ofNat payload.length⟩ payload)
    (items : line.items = (flipBit frame position).map .byte) (writes : line.failingWrites = 0) :
    (Receiver.mk board .crc16 timing).Curtails identity kind payload frame position now line
      s := by
  obtain ⟨request, lost, header, closing, left, split, gone, named, behind, width, flipped⟩ :=
    exists_curtailed fits shortens framed
  have address : header.address = board.address := by rw [named]
  have code : header.kind = kind.code := by rw [named]
  have small : request.length ≤ Frame.maxPayload := by
    rw [split, List.length_append] at fits
    omega
  have size : header.payloadLength = request.length := by
    rw [named]
    exact payloadLength_of_fits small _ _
  have front :
      line.items = (header.bytes ++ (request ++ closing)).map .byte ++ left.map .byte := by
    rw [items, flipped, List.map_append]
  rw [← size] at small
  refine ⟨request, lost, header, closing, left, ?_⟩
  by_cases closes : closing = Frame.footer .crc16 (header.bytes ++ request)
  · obtain ⟨bytes, due, framed, served⟩ := (Receiver.mk board .crc16 timing).exists_consumes_own
      identity bounded address small size.symm (s.run now.history)
    have reads : (Receiver.mk board .crc16 timing).frameReads header =
        [1, 3, request.length, 2] := by
      rw [frameReads, if_pos ⟨decide_eq_true address, small⟩, size]
      rfl
    rw [Frame.spell, ← closes, ← writes, reads, code] at served
    obtain ⟨after, visited, rest, working⟩ := visit_of_consumes _ identity served front
    refine ⟨_, after, _, split, gone, named, behind, width, visited,
      goesOn_of_items _ identity _ ?_ (working.trans writes), fun wrong => absurd closes wrong,
      fun _ => ⟨bytes, due, framed, rfl, rfl⟩⟩
    rw [rest, Reaction.leaves, if_neg (by simp)]
  · obtain ⟨act, after, visited, ending, only, -, rest, same⟩ :=
      visit_damaged bounded identity address small size.symm width closes now s front
    exact ⟨act, after, _, split, gone, named, behind, width, visited,
      goesOn_of_items _ identity _ rest (same.trans writes),
      fun _ => ⟨ending, fun effect mem => Effect.isWrite_of_isRead (only effect mem), rfl⟩,
      fun right => absurd right closes⟩

/-- A frame for this board with one wrong bit, alone on the line, is used up by one poll without a
trace, unless the bit turns the address into a diagnostic byte or makes the size smaller. -/
theorem single_bit_errors (board : Board) (timing : Timing) (bounded : timing.IsBounded)
    (identity : Identity) {kind : MessageType} {payload frame : List UInt8} {capacity : Nat}
    (fits : payload.length ≤ Frame.maxPayload)
    (encoded : Frame.encode .crc16 capacity board.address kind payload = .ok frame)
    (position : Nat) (inside : position < 8 * frame.length) (now : Visit) (line : ByteLine)
    (s : Scheduler) (items : line.items = (flipBit frame position).map .byte)
    (writes : line.failingWrites = 0) :
    (Receiver.mk board .crc16 timing).Endures identity kind payload frame position now line s := by
  obtain ⟨-, framed⟩ := Frame.eq_spell_of_encode encoded
  have size := payloadLength_of_fits fits board.address kind.code
  refine ⟨fun plain kept => ?_, fun asks => ?_,
    fun shortens => visit_shortened bounded fits shortens framed items writes⟩
  · rw [framed] at items inside
    by_cases address : position < 8
    · rw [if_pos address]
      exact visit_flipped_address bounded rfl size address plain items writes
    rw [if_neg address]
    by_cases sized : 16 ≤ position ∧ position < 32
    · rw [if_pos sized]
      exact visit_lengthened bounded rfl size sized.1 sized.2 kept items writes
    rw [if_neg sized]
    obtain ⟨act, after, visited, ending, reads, -, left, same⟩ := visit_flipped bounded identity
      rfl fits size (List.cons_ne_nil position []) (List.nodup_singleton position)
      (Or.inl odd_one) (fun other mem => by rw [List.mem_singleton.mp mem]; omega) now s
      (items.trans (List.append_nil _).symm)
    exact ⟨act, after, visited, ending,
      fun effect mem => Effect.isWrite_of_isRead (reads effect mem),
      goesOn_of_items _ identity _ left (same.trans writes)⟩
  · rw [framed] at items ⊢
    exact visit_asked rfl asks items writes

/-- Two wrong bits in a batch of one setpoint for the first board: one in the loop count, which
does no harm, and one in the address, which makes the board report its position. -/
theorem single_bit_errors_in_a_batch :
    let payload : List UInt8 := [0, 0, 1, 0, 1, 0, 10, 0, 0x0A, 0x3F]
    let receiver : Receiver := ⟨.ribs, .crc16, .standard⟩
    let now : Visit := ⟨[], List.replicate Frame.maxPayload 0xA5, List.length_replicate⟩
    let s : Scheduler := .initial .vibration
    ∃ frame, Frame.encode .crc16 16 Board.ribs.address .setSetpoints payload = .ok frame ∧
      (∃ act after,
        receiver.visit (some .ribs) now (.carrying (flipBit frame 49)) s = (act, after, s) ∧
          act.ending = .finished (.dropped .checksumMismatch) ∧
          (∀ effect ∈ act.effects, effect.isWrite = false) ∧
          receiver.GoesOn (some .ribs) after s []) ∧
      ∃ act after,
        receiver.visit (some .ribs) now (.carrying (flipBit frame 6)) s = (act, after, s) ∧
          act = ⟨[.read 1 true, .diagnosed .readValue, .wrote (Service.positionLine s) true],
            .finished (.diagnostic ⟨.readValue, .ribs⟩)⟩ ∧
          receiver.GoesOn (some .ribs) after s (frame.drop 1) := by
  intro payload receiver now s
  obtain ⟨frame, encoded, length⟩ : ∃ frame,
      Frame.encode .crc16 16 Board.ribs.address .setSetpoints payload = .ok frame ∧
        frame.length = 16 :=
    ⟨_, Frame.encode_eq_spell .crc16 _ .setSetpoints (by decide) (by decide), rfl⟩
  have count := single_bit_errors .ribs .standard (by decide) (some .ribs) (by decide) encoded 49
    (by rw [length]; decide) now (.carrying (flipBit frame 49)) s rfl rfl
  have address := single_bit_errors .ribs .standard (by decide) (some .ribs) (by decide) encoded 6
    (by rw [length]; decide) now (.carrying (flipBit frame 6)) s rfl rfl
  exact ⟨frame, encoded, count.harmless (by decide) (by simp [Shortens]),
    address.asked (by decide)⟩

/-- Three wrong bits that have an effect.  In the address, a ping for the first board becomes a
question for its position, which it answers; and one for the third board loses its beginning, so
that a byte of its payload asks for the position.  In the size, a ping for the third board is cut
short, and a byte of what is left starts its self-test. -/
theorem bit_errors_with_an_effect :
    let now : Visit := ⟨[], List.replicate Frame.maxPayload 0, List.length_replicate⟩
    let zero := Service.asciiBytes "0.0000\r\n".toList
    let ribs : Receiver := ⟨.ribs, .crc16, .standard⟩
    let spine : Receiver := ⟨.spine, .crc16, .standard⟩
    let short : List UInt8 := [0x01, 0x01, 0, 0, 0x50, 0x18]
    let asked := ribs.visit (some .ribs) now (.carrying (flipBit short 6)) (.initial .vibration)
    let question : List UInt8 := [0x04, 0x01, 0x04, 0, 0, 0, 0, 0x43, 0x11, 0x4D]
    let lost := spine.session (some .spine) [now, now, now] (.carrying (flipBit question 6))
      (.initial .vibration)
    let test : List UInt8 := [0x04, 0x01, 0x04, 0, 0, 0, 0x63, 0x63, 0x38, 0x65]
    let cut := spine.session (some .spine) [now, now] (.carrying (flipBit test 18))
      (.initial .vibration)
    Frame.encode .crc16 6 Board.ribs.address .ping [] = .ok short ∧
      asked.1.effects = [.read 1 true, .diagnosed .readValue, .wrote zero true] ∧
      Frame.encode .crc16 10 Board.spine.address .ping [0, 0, 0, 0x43] = .ok question ∧
      lost.1.map Act.effects =
        [[.read 1 true], [.read 1 true, .read 3 true, .read 2 true],
          [.read 1 true, .diagnosed .readValue, .wrote zero true]] ∧
      Frame.encode .crc16 10 Board.spine.address .ping [0, 0, 0x63, 0x63] = .ok test ∧
      cut.1.map Act.effects =
        [[.read 1 true, .read 3 true, .read 0 true, .read 2 true],
          [.read 1 true, .diagnosed .selfTest,
            .wrote (Service.asciiBytes Service.banner.toList) true]] ∧
      cut.2.2.queued = 2 := by
  decide +kernel

end Receiver

end Animatronic
