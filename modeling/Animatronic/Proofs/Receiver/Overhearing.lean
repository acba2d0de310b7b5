import Animatronic.Proofs.Receiver.SharedBus
import Animatronic.Proofs.Service.RawReply

/-!
# Hearing the bare reply to a diagnostic

A diagnostic for one board passes by the others, but the reply to it is not in a frame, and every
other board reads it as if it were a request.  All replies but one kind look like a frame that ends
too early, whoever it would be for: the bytes in the place of a size are letters, digits or the end
of a line, and promise more than there is.  A board that hears such a reply drops it.

The exception is a position, whose digits are pings where it begins with them.  The boards with
these numbers answer (`Receiver.diagnostics_overheard`).
-/

namespace Animatronic

/-- A header without a zero byte promises a long payload. -/
theorem Header.le_payloadLength {header : Header} (nonzero : 0 ∉ header.tail.val) :
    256 ≤ header.payloadLength := by
  refine Nat.le_of_not_lt fun small => ?_
  have high : header.tail.val =
      [header.kind, UInt8.ofNat header.payloadLength, UInt8.ofNat (header.payloadLength / 256)] :=
    rfl
  rw [Nat.div_eq_of_lt small] at high
  rw [high] at nonzero
  exact nonzero (by simp)

namespace Receiver

open Service (pings)

variable {receiver : Receiver} {first : UInt8} {more reply : List UInt8} {line : ByteLine}

/-! ## What looks like a frame -/

/-- No frame comes of bytes that are not zero. -/
theorem starves_of_nonzero (identity : Identity) (bounded : receiver.timing.IsBounded)
    (plain : Diagnostic.decode first = none) (nonzero : 0 ∉ more)
    (short : more.length < 256) : receiver.poll.Starves identity (first :: more) := by
  by_cases long : 3 ≤ more.length
  · obtain ⟨header, body, rfl, cut⟩ := Header.exists_of_length first long
    have tail : more = header.tail.val ++ body := (List.cons.inj cut).2
    have size : 256 ≤ header.payloadLength :=
      Header.le_payloadLength fun mem => nonzero (tail ▸ List.mem_append_left _ mem)
    have less : body.length ≤ more.length := by
      rw [tail, List.length_append]
      exact Nat.le_add_left ..
    rw [cut]
    exact starves_body bounded plain (by omega)
  · exact starves_header plain (Nat.lt_of_not_le long)

/-! ## Pings on the way -/

/-- A session is its first visit and the session after it. -/
theorem session_cons {identity : Identity} {now : Visit} {later : List Visit}
    {s t u : Scheduler} {act : Act} {acts : List Act} {between after : ByteLine}
    (visited : receiver.visit identity now line s = (act, between, t))
    (followed : receiver.session identity later between t = (acts, after, u)) :
    receiver.session identity (now :: later) line s = (act :: acts, after, u) := by
  rw [session, visited]
  dsimp only
  rw [followed]

theorem run_flatMap_history (s : Scheduler) (now : Visit) (later : List Visit) :
    s.run ((now :: later).flatMap Visit.history) =
      (s.run now.history).run (later.flatMap Visit.history) := by
  rw [List.flatMap_cons]
  exact List.foldl_append

/-- What a board does when it hears a ping. -/
def hears (receiver : Receiver) (board : Board) : Act :=
  if board = receiver.board then
    ⟨[.read 1 true, .diagnosed .ping, .wrote [MessageType.pong.code] true],
      .finished (.diagnostic ⟨.ping, board⟩)⟩
  else ⟨[.read 1 true], .finished .otherDiagnostic⟩

/-- A board answers to its own number only. -/
theorem sent_hears (receiver : Receiver) (boards : List Board) :
    boards.flatMap (fun board => Effect.sent (receiver.hears board).effects) =
      List.replicate (boards.count receiver.board) [MessageType.pong.code] := by
  induction boards with
  | nil => rfl
  | cons board rest ih =>
    rw [List.flatMap_cons, ih, hears]
    by_cases own : board = receiver.board
    · rw [if_pos own, own, List.count_cons_self, List.replicate_succ]
      rfl
    · rw [if_neg own, List.count_cons_of_ne own]
      rfl

theorem visit_ping (identity : Identity) (board : Board) (now : Visit)
    {rest : List ByteLine.Item} (s : Scheduler)
    (items : line.items = .byte board.ping :: rest) (writes : line.failingWrites = 0) :
    ∃ after, receiver.visit identity now line s =
        (receiver.hears board, after, s.run now.history) ∧
      after.items = rest ∧ after.failingWrites = 0 := by
  by_cases own : board = receiver.board
  · subst own
    obtain ⟨after, visited, left, working⟩ :=
      receiver.visit_own_diagnostic identity .ping now s items writes
    refine ⟨after, ?_, left, working⟩
    rw [visited, hears, if_pos rfl]
    rfl
  · have other : (Diagnostic.mk .ping board).board ≠ receiver.board := own
    obtain ⟨after, visited, left, working⟩ :=
      receiver.visit_other_diagnostic identity other now s items
    refine ⟨after, ?_, left, working.trans writes⟩
    rw [visited, hears, if_neg own]

/-- Pings are heard one by one, and what is behind them is dropped. -/
theorem session_pings (identity : Identity) (starves : receiver.poll.Starves identity more)
    {boards : List Board} {visits : List Visit} (polls : visits.length = boards.length + 1)
    (s : Scheduler) (items : line.items = (boards.map Board.ping ++ more).map .byte)
    (writes : line.failingWrites = 0) :
    ∃ reads after,
      receiver.session identity visits line s =
          (boards.map receiver.hears ++
            [⟨reads ++ [.restarted], .finished (.dropped .timeout)⟩], after,
            s.run (visits.flatMap Visit.history)) ∧
        (∀ effect ∈ reads, effect.isRead = true) ∧ after.items = [] := by
  induction boards generalizing visits line s with
  | nil =>
    obtain ⟨now, rfl⟩ := List.length_eq_one_iff.mp polls
    obtain ⟨reads, after, visited, only, left, -⟩ := receiver.visit_of_starves identity starves
      now s (items.trans (List.append_nil _).symm) ByteLine.isStill_nil
    refine ⟨reads, after, ?_, only, left⟩
    rw [run_flatMap_history]
    exact session_cons visited rfl
  | cons board rest ih =>
    obtain ⟨now, later, rfl⟩ := List.exists_cons_of_length_eq_add_one polls
    obtain ⟨between, visited, left, working⟩ :=
      receiver.visit_ping identity board now s items writes
    obtain ⟨reads, after, polled, only, empty⟩ :=
      ih (Nat.succ.inj polls) (s.run now.history) left working
    refine ⟨reads, after, ?_, only, empty⟩
    rw [run_flatMap_history]
    exact session_cons visited polled

/-! ## The diagnostics of others -/

/-- What a board does while a diagnostic for another board passes by, and the bare reply to it. -/
structure Overhears (receiver : Receiver) (reply : List UInt8) (acts : List Act)
    (after : ByteLine) : Prop where
  acted : ∃ reads,
    acts = ⟨[.read 1 true], .finished .otherDiagnostic⟩ :: ((pings reply).map receiver.hears ++
        [⟨reads ++ [.restarted], .finished (.dropped .timeout)⟩]) ∧
      ∀ effect ∈ reads, effect.isRead = true
  sent : acts.flatMap (Effect.sent ·.effects) =
    List.replicate ((pings reply).count receiver.board) [MessageType.pong.code]
  consumed : after.items = []

/-- A board does not act on a diagnostic for another board, and of the reply only on the pings. -/
theorem exists_overhears (identity : Identity) (bounded : receiver.timing.IsBounded)
    {asked : Diagnostic} (other : asked.board ≠ receiver.board)
    (opens : Service.Opens reply first more) (short : reply.length ≤ Frame.maxReplyPayload)
    {visits : List Visit} (polls : visits.length = (pings reply).length + 2) (s : Scheduler)
    (items : line.items = (asked.byte :: reply).map .byte) (writes : line.failingWrites = 0) :
    ∃ acts after,
      receiver.session identity visits line s =
          (acts, after, s.run (visits.flatMap Visit.history)) ∧
        receiver.Overhears reply acts after := by
  obtain ⟨now, later, rfl⟩ := List.exists_cons_of_length_eq_add_one polls
  obtain ⟨between, visited, left, working⟩ :=
    receiver.visit_other_diagnostic identity other now s items
  have few : more.length < 256 := by
    have size := congrArg List.length opens.split
    rw [List.length_append, List.length_cons] at size
    have limit : Frame.maxReplyPayload < 256 := by decide
    omega
  have starves := starves_of_nonzero identity bounded opens.plain opens.nonzero few
  have rest : between.items =
      ((pings reply).map Board.ping ++ first :: more).map .byte := by
    rw [← opens.split]
    exact left
  obtain ⟨reads, after, followed, only, empty⟩ := session_pings identity starves
    (Nat.succ.inj polls) (s.run now.history) rest (working.trans writes)
  refine ⟨_, after, ?_, ⟨reads, rfl, only⟩, ?_, empty⟩
  · rw [run_flatMap_history]
    exact session_cons visited followed
  · have silent : Effect.sent (reads ++ [.restarted]) = [] := by
      rw [Effect.sent, List.filterMap_append]
      exact congrArg (· ++ []) (Effect.sent_of_reads only)
    rw [List.flatMap_cons, List.flatMap_append, List.flatMap_map, sent_hears,
      List.flatMap_singleton, silent, List.append_nil]
    rfl

/-- One board is asked for something with a diagnostic, and answers with bare bytes, whatever its
scheduler was doing.  Another board that hears both takes the diagnostic off its line and does
nothing.  If the reply is a position that begins with digits, the other board takes each of them
for a ping of the board with that number, and answers if that is its own; the rest of the reply,
and every other reply, it drops as a frame that ended too early.  Its scheduler does what it would
have done without all this. -/
theorem diagnostics_overheard (speaker listener : Receiver) (identity other : Identity)
    (bounded : listener.timing.IsBounded) (apart : listener.board ≠ speaker.board)
    (kind : DiagnosticKind) (now : Visit) (line : ByteLine) (rest : List ByteLine.Item)
    (asked : line.items = .byte (Diagnostic.mk kind speaker.board).byte :: rest)
    (works : line.failingWrites = 0) (s : Scheduler) :
    ∃ reply,
      Effect.sent (speaker.visit identity now line s).1.effects = [reply] ∧
        (kind ≠ .readValue → pings reply = []) ∧
        ∀ (visits : List Visit) (heard : ByteLine) (t : Scheduler),
          visits.length = (pings reply).length + 2 →
          heard.items = ((Diagnostic.mk kind speaker.board).byte :: reply).map .byte →
          heard.failingWrites = 0 →
            ∃ acts after,
              listener.session other visits heard t =
                  (acts, after, t.run (visits.flatMap Visit.history)) ∧
                listener.Overhears reply acts after := by
  obtain ⟨after, visited, -⟩ := speaker.visit_own_diagnostic identity kind now s asked works
  obtain ⟨first, more, opens, mute⟩ := Service.exists_opens identity kind (s.run now.history)
  refine ⟨(Service.diagnose identity kind (s.run now.history)).result, ?_, mute, ?_⟩
  · rw [visited]
    rfl
  · intro visits heard t polls items writes
    exact exists_overhears other bounded apart.symm opens
      (Service.length_diagnose_le identity kind (s.run now.history)) polls t items writes

/-- The third board tells that it is at 1.25, and the fourth one, which hears it, does nothing. -/
theorem position_overheard :
    let now : Visit := ⟨[], List.replicate Frame.maxPayload 0xA5, List.length_replicate⟩
    let spine : Receiver := ⟨.spine, .crc16, .standard⟩
    let headYaw : Receiver := ⟨.headYaw, .crc16, .standard⟩
    let idle : Scheduler := .initial (.position .uncalibrated)
    let text := Service.asciiBytes "1.2500\r\n".toList
    Effect.sent (spine.visit (some .spine) now (.carrying [0x43])
        (idle.run [.filter ⟨0x3FA00000⟩])).1.effects = [text] ∧
      ∃ acts after,
        headYaw.session (some .headYaw) [now, now, now] (.carrying (0x43 :: text)) idle =
            (acts, after, idle) ∧
          acts.flatMap (Effect.sent ·.effects) = [] := by
  intro now spine headYaw idle text
  have told : Effect.sent (spine.visit (some .spine) now (.carrying [0x43])
      (idle.run [.filter ⟨0x3FA00000⟩])).1.effects = [text] := by
    decide +kernel
  obtain ⟨reply, sent, -, heard⟩ := diagnostics_overheard spine headYaw (some .spine)
    (some .headYaw) (by decide) (by decide) .readValue now (.carrying [0x43]) [] (by decide) rfl
    (idle.run [.filter ⟨0x3FA00000⟩])
  obtain rfl : text = reply := List.singleton_inj.mp (told.symm.trans sent)
  obtain ⟨acts, after, polled, overhears⟩ :=
    heard [now, now, now] (.carrying (0x43 :: text)) idle (by decide) (by decide) rfl
  refine ⟨told, acts, after, polled, overhears.sent.trans ?_⟩
  decide

/-- The first board, which hears the same, takes the digit in front for a ping, and answers. -/
theorem position_taken_for_ping :
    let now : Visit := ⟨[], List.replicate Frame.maxPayload 0xA5, List.length_replicate⟩
    let spine : Receiver := ⟨.spine, .crc16, .standard⟩
    let ribs : Receiver := ⟨.ribs, .crc16, .standard⟩
    let idle : Scheduler := .initial (.position .uncalibrated)
    let text := Service.asciiBytes "1.2500\r\n".toList
    Effect.sent (spine.visit (some .spine) now (.carrying [0x43])
        (idle.run [.filter ⟨0x3FA00000⟩])).1.effects = [text] ∧
      (ribs.session (some .ribs) [now, now, now] (.carrying (0x43 :: text)) idle).1.map
          Act.effects =
        [[.read 1 true], [.read 1 true, .diagnosed .ping, .wrote [0x02] true],
          [.read 1 true, .read 3 true, .read 1024 false, .restarted]] := by
  decide +kernel

end Receiver

end Animatronic
