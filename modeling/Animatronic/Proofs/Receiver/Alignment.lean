import Animatronic.Proofs.Receiver.Buffer
import Animatronic.Proofs.Receiver.Settlement
import Animatronic.Proofs.Receiver.Stream

/-!
# Staying in step on the bus

Every poll takes exactly one transmission off the line, whoever it is for and whatever comes of it.
So the position of a board on the line depends on the line only: boards that hear the same stream
stay at the same byte, and the poll for a transmission does what it would do if nothing else were
on the line.  A frame that ends too early is dropped, and all that happens then is that the bus is
restarted.

`Receiver.session` polls again and again.  Between two polls anything may happen to the scheduler
and to the payload buffer.
-/

namespace Animatronic

/-- What comes before a poll: operations of the scheduler, and whatever got into the buffer. -/
structure Visit where
  history : List Operation
  buffer : PayloadBuffer

/-- What a poll did, and how it ended. -/
structure Act where
  effects : List Effect
  ending : Ending Outcome

/-- A line with one byte string on it and nothing else. -/
def ByteLine.carrying (bytes : List UInt8) : ByteLine :=
  { ByteLine.quiet with items := bytes.map .byte }

namespace Receiver

/-- Poll once. -/
def visit (receiver : Receiver) (identity : Identity) (now : Visit) (line : ByteLine)
    (s : Scheduler) : Act × ByteLine × Scheduler :=
  let poll := receiver.pollInto now.buffer
  let (ending, after) := poll.run ByteLine.bus identity line (s.run now.history)
  (⟨poll.effects ByteLine.bus identity line (s.run now.history), ending⟩, after)

/-- Poll once for each of the visits. -/
def session (receiver : Receiver) (identity : Identity) :
    List Visit → ByteLine → Scheduler → List Act × ByteLine × Scheduler
  | [], line, s => ([], line, s)
  | now :: later, line, s =>
    let (act, line, s) := receiver.visit identity now line s
    let (acts, line, s) := receiver.session identity later line s
    (act :: acts, line, s)

/-- Poll once for each of the visits, with every transmission on a line of its own. -/
def sessionApart {checksum : Checksum} (receiver : Receiver) (identity : Identity) :
    List (Visit × Transmission checksum) → Scheduler → List Act × Scheduler
  | [], s => ([], s)
  | (now, transmission) :: later, s =>
    let (act, _, s) := receiver.visit identity now (.carrying transmission.bytes) s
    let (acts, s) := receiver.sessionApart identity later s
    (act :: acts, s)

variable {receiver : Receiver} {identity : Identity}

/-! ## One transmission -/

theorem settles_transmission (identity : Identity) (bounded : receiver.timing.IsBounded)
    (transmission : Transmission receiver.checksum) (failing : Nat) (s : Scheduler) :
    ∃ requests after,
      receiver.poll.Settles identity transmission.bytes failing s requests after := by
  cases transmission with
  | diagnostic asked => exact ⟨_, _, settles_diagnostic asked failing s⟩
  | frame header body plain whole =>
    have enough : header.payloadLength ≤ body.length := by omega
    rcases exists_append_of_le enough with ⟨payload, footer, rfl, size⟩
    have width : footer.length = receiver.checksum.width := by
      rw [List.length_append, size] at whole
      exact Nat.add_left_cancel whole
    exact ⟨_, _, settles_frame bounded (Diagnostic.decode_eq_none_iff.mpr plain) size width
      failing s⟩

/-- What a poll makes of a transmission is settled before it is known what comes behind. -/
theorem visit_transmission (identity : Identity) (bounded : receiver.timing.IsBounded)
    (transmission : Transmission receiver.checksum) (now : Visit) (failing : Nat)
    (s : Scheduler) :
    ∃ act t,
      (∃ outcome, act.ending = .finished outcome) ∧
        Effect.totalTaken act.effects = transmission.bytes.length ∧
        (failing = 0 → .restarted ∉ act.effects) ∧
        ∀ line rest, line.items = transmission.bytes.map .byte ++ rest →
          line.failingWrites = failing →
            ∃ after, receiver.visit identity now line s = (act, after, t) ∧
              (failing = 0 → after.items = rest ∧ after.failingWrites = 0) := by
  obtain ⟨requests, t, reaction, consumes, taken, -, scheduler, quiet⟩ :=
    settles_transmission identity bounded transmission failing (s.run now.history)
  refine ⟨⟨reaction.effects, .finished reaction.result⟩, t, ⟨_, rfl⟩, taken,
    fun working => (quiet working).1, fun line rest items writes => ?_⟩
  rcases consumes line rest items writes with ⟨effects, after, run, behind, left⟩
  refine ⟨after, ?_, fun working => ⟨?_, ?_⟩⟩
  · rw [visit, pollInto_eq_poll, effects, run, scheduler]
  · rw [behind, Reaction.leaves, if_neg (quiet working).1]
  · rw [left, (quiet working).2]

/-- A frame that ends within itself starves the poll. -/
theorem starves_transmission (identity : Identity) (bounded : receiver.timing.IsBounded)
    {transmission : Transmission receiver.checksum} {stream : List UInt8} (begun : stream ≠ [])
    (front : stream <+: transmission.bytes) (cut : stream.length < transmission.bytes.length) :
    receiver.poll.Starves identity stream := by
  obtain ⟨first, more, rfl⟩ := List.exists_cons_of_ne_nil begun
  cases transmission with
  | diagnostic asked =>
    simp only [Transmission.bytes, List.length_cons, List.length_nil] at cut
    omega
  | frame header body plain whole =>
    have undiagnosed := Diagnostic.decode_eq_none_iff.mpr plain
    rw [Transmission.bytes] at front cut
    by_cases long : 3 ≤ more.length
    · have headed : header.bytes <+: first :: more := by
        refine List.prefix_of_prefix_length_le (List.prefix_append _ body) front ?_
        rw [Header.length_bytes, List.length_cons]
        exact Nat.succ_le_succ long
      rcases headed with ⟨part, joined⟩
      rw [← joined] at cut ⊢
      rw [List.length_append, List.length_append, whole] at cut
      exact starves_body bounded undiagnosed (Nat.lt_of_add_lt_add_left cut)
    · rcases front with ⟨_, joined⟩
      rcases List.cons.inj joined with ⟨rfl, -⟩
      exact starves_header undiagnosed (Nat.lt_of_not_le long)

/-! ## One after the other -/

theorem session_transmissions (identity : Identity) (bounded : receiver.timing.IsBounded)
    (pairs : List (Visit × Transmission receiver.checksum)) {line : ByteLine}
    {rest : List ByteLine.Item} (s : Scheduler)
    (items : line.items = (pairs.flatMap (·.2.bytes)).map .byte ++ rest)
    (writes : line.failingWrites = 0) :
    ∃ after,
      receiver.session identity (pairs.map Prod.fst) line s =
          ((receiver.sessionApart identity pairs s).1, after,
            (receiver.sessionApart identity pairs s).2) ∧
        after.items = rest ∧ after.failingWrites = 0 := by
  induction pairs generalizing line s with
  | nil => exact ⟨line, rfl, items, writes⟩
  | cons pair later ih =>
    rcases pair with ⟨now, transmission⟩
    rcases visit_transmission identity bounded transmission now 0 s with ⟨act, t, -, -, -, reacts⟩
    rw [List.flatMap_cons, List.map_append, List.append_assoc] at items
    rcases reacts line _ items writes with ⟨between, here, left⟩
    rcases reacts (.carrying transmission.bytes) [] (List.append_nil _).symm rfl with ⟨_, apart, -⟩
    rcases ih t (left rfl).1 (left rfl).2 with ⟨after, there, behind, still⟩
    refine ⟨after, ?_, behind, still⟩
    simp only [session, sessionApart, List.map_cons, here, apart, there]

theorem items_session (identity : Identity) (bounded : receiver.timing.IsBounded)
    {pairs : List (Visit × Transmission receiver.checksum)}
    {transmissions : List (Transmission receiver.checksum)}
    (heard : pairs.map Prod.snd = transmissions) {line : ByteLine} {rest : List ByteLine.Item}
    (s : Scheduler) (items : line.items = (transmissions.flatMap (·.bytes)).map .byte ++ rest)
    (writes : line.failingWrites = 0) :
    (receiver.session identity (pairs.map Prod.fst) line s).2.1.items = rest := by
  rw [← heard, List.flatMap_map] at items
  rcases session_transmissions identity bounded pairs s items writes with ⟨after, acted, behind, -⟩
  rw [acted]
  exact behind

/-- A poll takes exactly one transmission off the line, in whatever way it deals with it, and does
not restart the bus as long as writes succeed.  So over any number of transmissions each poll does
what it would do with its transmission alone, and two boards on the same stream stay at the same
place.  A transmission that breaks off is dropped after one restart, with nothing written and the
scheduler as it was. -/
theorem alignment (receiver : Receiver) (bounded : receiver.timing.IsBounded)
    (identity : Identity) :
    (∀ (transmission : Transmission receiver.checksum) (now : Visit) (line : ByteLine)
        (rest : List ByteLine.Item) (s : Scheduler),
      line.items = transmission.bytes.map .byte ++ rest →
        ∃ act after t,
          receiver.visit identity now line s = (act, after, t) ∧
            (∃ outcome, act.ending = .finished outcome) ∧
            Effect.totalTaken act.effects = transmission.bytes.length ∧
            (line.failingWrites = 0 → .restarted ∉ act.effects ∧ after.items = rest)) ∧
      (∀ (pairs : List (Visit × Transmission receiver.checksum)) (line : ByteLine)
          (rest : List ByteLine.Item) (s : Scheduler),
        line.items = (pairs.flatMap (·.2.bytes)).map .byte ++ rest → line.failingWrites = 0 →
          ∃ after,
            receiver.session identity (pairs.map Prod.fst) line s =
                ((receiver.sessionApart identity pairs s).1, after,
                  (receiver.sessionApart identity pairs s).2) ∧
              after.items = rest) ∧
      (∀ (board : Board) (timing : Timing) (own : Identity)
          (transmissions : List (Transmission receiver.checksum))
          (mine theirs : List (Visit × Transmission receiver.checksum)) (line twin : ByteLine)
          (rest : List ByteLine.Item) (s t : Scheduler),
        timing.IsBounded →
          mine.map Prod.snd = transmissions → theirs.map Prod.snd = transmissions →
            line.items = (transmissions.flatMap (·.bytes)).map .byte ++ rest →
              twin.items = line.items → line.failingWrites = 0 → twin.failingWrites = 0 →
                (receiver.session identity (mine.map Prod.fst) line s).2.1.items =
                  ((Receiver.mk board receiver.checksum timing).session own
                    (theirs.map Prod.fst) twin t).2.1.items) ∧
      (∀ (transmission : Transmission receiver.checksum) (stream : List UInt8)
          (tail : List ByteLine.Item) (now : Visit) (line : ByteLine) (s : Scheduler),
        stream ≠ [] → stream <+: transmission.bytes →
          stream.length < transmission.bytes.length → ByteLine.IsStill tail →
            line.items = stream.map .byte ++ tail →
              ∃ reads after,
                receiver.visit identity now line s =
                    (⟨reads ++ [.restarted], .finished (.dropped .timeout)⟩, after,
                      s.run now.history) ∧
                  (∀ effect ∈ reads, effect.isRead = true) ∧ after.items = tail.tail) := by
  refine ⟨?_, ?_, ?_, ?_⟩
  · intro transmission now line rest s items
    obtain ⟨act, t, finished, taken, quiet, reacts⟩ :=
      visit_transmission identity bounded transmission now line.failingWrites s
    rcases reacts line rest items rfl with ⟨after, visited, behind⟩
    exact ⟨act, after, t, visited, finished, taken,
      fun writes => ⟨quiet writes, (behind writes).1⟩⟩
  · intro pairs line rest s items writes
    obtain ⟨after, acted, behind, -⟩ :=
      session_transmissions identity bounded pairs s items writes
    exact ⟨after, acted, behind⟩
  · intro board timing own transmissions mine theirs line twin rest s t other heard too items same
      writes writes'
    rw [items_session identity bounded heard s items writes]
    exact (@items_session ⟨board, receiver.checksum, timing⟩ own other _ _ too _ _ t
      (same.trans items) writes').symm
  · intro transmission stream tail now line s begun front cut still items
    obtain ⟨⟨reads, effects, only⟩, after, run, behind, -⟩ :=
      starves_transmission identity bounded begun front cut line tail (s.run now.history) items
        still
    refine ⟨reads, after, ?_, only, behind⟩
    rw [visit, pollInto_eq_poll, effects, run]

/-- A board takes a frame for another board with a wrong footer off the line, and then a ping for
itself. -/
theorem alignment_over_foreign_frame :
    ∃ pairs : List (Visit × Transmission .crc16),
      pairs.flatMap (·.2.bytes) = [0x01, 0x01, 2, 0, 0x0A, 0x3F, 0xAA, 0xBB, 0x32] ∧
        ((Receiver.mk .purr .crc16 .standard).session (some .purr) (pairs.map Prod.fst)
          (.carrying [0x01, 0x01, 2, 0, 0x0A, 0x3F, 0xAA, 0xBB, 0x32])
          (.initial .vibration)).2.1.items = [] := by
  have plain : ∀ asked : Diagnostic, asked.byte ≠ (Header.mk 0x01 0x01 2).address := by
    rintro ⟨kind, board⟩
    cases kind <;> cases board <;> decide
  let now : Visit := ⟨[], List.replicate Frame.maxPayload 0xA5, List.length_replicate⟩
  let pairs : List (Visit × Transmission .crc16) :=
    [(now, .frame ⟨0x01, 0x01, 2⟩ [0x0A, 0x3F, 0xAA, 0xBB] plain rfl),
      (now, .diagnostic ⟨.ping, .purr⟩)]
  rcases alignment ⟨.purr, .crc16, .standard⟩ (by decide) (some .purr) with ⟨-, sessions, -, -⟩
  obtain ⟨after, acted, behind⟩ := sessions pairs
    (.carrying [0x01, 0x01, 2, 0, 0x0A, 0x3F, 0xAA, 0xBB, 0x32]) [] (.initial .vibration) rfl rfl
  refine ⟨pairs, rfl, ?_⟩
  rw [acted]
  exact behind

end Receiver

end Animatronic
