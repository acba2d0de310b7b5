import Animatronic.Proofs.Receiver.Reaction
import Mathlib.Data.Finset.Insert
import Mathlib.Logic.Function.Basic

/-!
# Many boards on one bus

On a shared bus every board hears every request, and every reply of another board.  The boards poll
when they like, so a board may hear the reply to a frame before it has looked at the frame itself.

`SharedBus.run` lets the boards poll in any order.  A board that finds nothing but frames for
others takes one of them off its line with every poll and does nothing else (`poll_foreign`), and
that is all that happens in a run in which no board finds anything for itself (`run_foreign`).
Only the board that a request is for puts something on the bus (`exists_poll_addressed`), and that
is again a frame which every other board takes for foreign (`Framed.isForeign`).  So a request and
its reply pass, and the next request meets the boards as the first one did (`traffic`).
-/

namespace Animatronic

namespace Effect

/-- The bytes that an effect put on the bus. -/
def sent? : Effect → Option (List UInt8)
  | wrote bytes true => some bytes
  | _ => none

/-- What some effects put on the bus, in order. -/
def sent (effects : List Effect) : List (List UInt8) := effects.filterMap sent?

/-- Reading puts nothing on the bus. -/
theorem sent_of_reads {effects : List Effect} (only : ∀ effect ∈ effects, effect.isRead = true) :
    sent effects = [] := by
  refine List.filterMap_eq_nil_iff.mpr fun effect mem => ?_
  have read := only effect mem
  cases effect with
  | read => rfl
  | _ => cases read

theorem sent_reads_append (lengths : List Nat) (effects : List Effect) :
    sent (lengths.map (.read · true) ++ effects) = sent effects := by
  have silent : sent (lengths.map (.read · true)) = [] :=
    sent_of_reads fun effect mem => isRead_of_mem_reads mem
  rw [sent] at silent ⊢
  rw [List.filterMap_append, silent, List.nil_append, sent]

end Effect

namespace Receiver

variable {header : Header} {line : ByteLine}

/-! ## Frames for others -/

/-- A whole frame for another board, as it looks from its header. -/
def IsForeign (receiver : Receiver) (bytes : List UInt8) : Prop :=
  ∃ header body, bytes = Header.bytes header ++ body ∧
    header.address ≠ receiver.board.address ∧ Diagnostic.decode header.address = none ∧
    body.length = header.payloadLength + receiver.checksum.width

/-- The frames of another board are foreign. -/
theorem isForeign_spell (receiver : Receiver) {owner : Board}
    (other : owner ≠ receiver.board) (code : UInt8) {payload : List UInt8}
    (small : payload.length < UInt16.size) :
    receiver.IsForeign (Frame.spell receiver.checksum
      ⟨owner.address, code, UInt16.ofNat payload.length⟩ payload) := by
  refine ⟨_, _, rfl, fun same => other (Board.address_injective same),
    Diagnostic.decode_address owner, ?_⟩
  rw [List.length_append, Frame.length_footer]
  exact congrArg (· + receiver.checksum.width) (UInt16.toNat_ofNat_of_lt' small).symm

/-- What a board sends is foreign to the others. -/
theorem Framed.isForeign {sender receiver : Receiver} {bytes : List UInt8} {due : Outcome}
    (framed : sender.Framed bytes due)
    (other : sender.board ≠ receiver.board) (same : sender.checksum = receiver.checksum) :
    receiver.IsForeign bytes := by
  have small : Frame.maxReplyPayload < UInt16.size := by decide
  cases framed with
  | reply reply short =>
    rw [frame, same]
    exact receiver.isForeign_spell other _ (Nat.lt_of_le_of_lt short small)
  | rejection code =>
    rw [frame, same]
    exact receiver.isForeign_spell other _
      (Nat.lt_of_le_of_lt (Fault.length_payload_le code) small)

/-! ## What a board does on the bus -/

/-- A board that has heard nothing waits. -/
theorem visit_of_empty (receiver : Receiver) (identity : Identity) (now : Visit) (s : Scheduler)
    (empty : line.items = []) :
    ∃ after, receiver.visit identity now line s =
        (⟨[.read 1 false], .waiting⟩, after, s.run now.history) ∧
      after.items = [] ∧ after.failingWrites = line.failingWrites := by
  obtain ⟨after, waits, left, writes⟩ : ∃ after, ByteLine.bus.read 1 none line = (none, after) ∧
      after.items = [] ∧ after.failingWrites = line.failingWrites := by
    refine
      ⟨{ line with items := [], calls := line.calls ++ [.read 1 none .waiting] }, ?_, rfl, rfl⟩
    simp only [ByteLine.bus, ByteLine.read, empty]
    rfl
  refine ⟨after, ?_, left, writes⟩
  rw [visit, pollInto_eq_poll]
  simp only [poll, receive, Exchange.run, Exchange.effects, waits]

/-- A frame for this board with the right footer is answered by one frame, whatever its payload. -/
theorem exists_consumes_addressed (receiver : Receiver) (identity : Identity)
    (bounded : receiver.timing.IsBounded) (own : header.address = receiver.board.address)
    {payload : List UInt8} (size : payload.length = header.payloadLength) (s : Scheduler) :
    ∃ bytes due effects t, receiver.Framed bytes due ∧
      receiver.poll.Consumes identity (Frame.spell receiver.checksum header payload) 0 s
        ⟨due, effects, 0, t⟩ ∧
      Effect.sent effects = [bytes] ∧ .restarted ∉ effects := by
  by_cases fits : header.payloadLength ≤ Frame.maxPayload
  · obtain ⟨bytes, due, framed, consumes⟩ :=
      receiver.exists_consumes_own identity bounded own fits size s
    exact ⟨bytes, due, _, _, framed, consumes, Effect.sent_reads_append _ _, by simp⟩
  · have whole : (payload ++ Frame.footer receiver.checksum (header.bytes ++ payload)).length =
        header.payloadLength + receiver.checksum.width := by
      rw [List.length_append, Frame.length_footer, size]
    have consumes :=
      receiver.consumes_oversized identity bounded own (Nat.lt_of_not_le fits) whole s
    exact ⟨_, _, _, _, .rejection (-3), consumes, Effect.sent_reads_append _ _, by simp⟩

theorem exists_visit_addressed (receiver : Receiver) (identity : Identity)
    (bounded : receiver.timing.IsBounded) (code : UInt8)
    {payload : List UInt8} (small : payload.length < UInt16.size) (now : Visit) (s : Scheduler)
    (items : line.items = (Frame.spell receiver.checksum
      ⟨receiver.board.address, code, UInt16.ofNat payload.length⟩ payload).map .byte)
    (writes : line.failingWrites = 0) :
    ∃ bytes due act after t, receiver.Framed bytes due ∧
      receiver.visit identity now line s = (act, after, t) ∧
      Effect.sent act.effects = [bytes] ∧ act.ending = .finished due ∧
      after.items = [] ∧ after.failingWrites = 0 := by
  have own : (Header.mk receiver.board.address code (UInt16.ofNat payload.length)).address =
      receiver.board.address := rfl
  have size : payload.length =
      (Header.mk receiver.board.address code (UInt16.ofNat payload.length)).payloadLength :=
    (UInt16.toNat_ofNat_of_lt' small).symm
  obtain ⟨bytes, due, effects, t, framed, consumes, sent, kept⟩ :=
    receiver.exists_consumes_addressed identity bounded own size (s.run now.history)
  rw [← writes] at consumes
  obtain ⟨after, visited, left, failing⟩ :=
    receiver.visit_of_consumes identity consumes (items.trans (List.append_nil _).symm)
  refine ⟨bytes, due, _, after, t, framed, visited, sent, rfl, ?_, failing.trans writes⟩
  rw [left, Reaction.leaves, if_neg kept]

end Receiver

/-! ## Many boards -/

/-- Boards on one bus.  All close their frames in the same way; each has its own timing and what it
found on its straps. -/
structure SharedBus where
  members : Finset Board
  checksum : Checksum
  timing : Board → Timing
  identity : Board → Identity
  bounded : ∀ board, (timing board).IsBounded

namespace SharedBus

/-- A board's side of the bus: what it hears, and its scheduler. -/
structure Seat where
  line : ByteLine
  scheduler : Scheduler

/-- More bytes are heard. -/
def Seat.hear (bytes : List UInt8) (seat : Seat) : Seat :=
  { seat with line := seat.line.feed (bytes.map .byte) }

/-- A board has these frames to read, and its transceiver works. -/
structure Seat.Holds (seat : Seat) (frames : List (List UInt8)) : Prop where
  items : seat.line.items = frames.flatten.map .byte
  writes : seat.line.failingWrites = 0

theorem Seat.hear_nil (seat : Seat) : seat.hear [] = seat := by
  rw [hear, List.map_nil, ByteLine.feed, List.append_nil]

theorem Seat.Holds.hear {seat : Seat} {frames : List (List UInt8)} (holds : seat.Holds frames)
    (bytes : List UInt8) : (seat.hear bytes).Holds (frames ++ [bytes]) where
  items := by
    rw [List.flatten_append, List.map_append, ← holds.items]
    simp only [Seat.hear, ByteLine.feed, List.flatten_singleton]
  writes := holds.writes

/-- A board on the bus. -/
abbrev Member (bus : SharedBus) := {board // board ∈ bus.members}

/-- Which board polls next, and what comes before its poll. -/
abbrev Schedule (bus : SharedBus) := List (bus.Member × Visit)

/-- Which board polled, and what it did. -/
abbrev Trace (bus : SharedBus) := List (bus.Member × Act)

abbrev Seats (bus : SharedBus) := bus.Member → Seat

variable {bus : SharedBus}

def receiver (bus : SharedBus) (member : bus.Member) : Receiver :=
  ⟨member.val, bus.checksum, bus.timing member⟩

/-- Every board hears what is sent by none of them. -/
def announce (bytes : List UInt8) (seats : bus.Seats) : bus.Seats :=
  fun member => (seats member).hear bytes

/-- One board polls, and the others hear what it sends. -/
def poll (bus : SharedBus) (polled : bus.Member) (now : Visit) (seats : bus.Seats) :
    Act × bus.Seats :=
  let (act, line, s) := (bus.receiver polled).visit (bus.identity polled) now
    (seats polled).line (seats polled).scheduler
  (act, Function.update (announce (Effect.sent act.effects).flatten seats) polled ⟨line, s⟩)

/-- One poll after the other. -/
def run (bus : SharedBus) : bus.Schedule → bus.Seats → bus.Trace × bus.Seats
  | [], seats => ([], seats)
  | (polled, now) :: later, seats =>
    let (act, seats) := bus.poll polled now seats
    let (trace, seats) := bus.run later seats
    ((polled, act) :: trace, seats)

/-! ## What a run shows -/

/-- How often a board polls. -/
def polls (member : bus.Member) (schedule : bus.Schedule) : Nat :=
  schedule.countP (·.1 = member)

/-- The operations of a board's own scheduler before its polls. -/
def history (member : bus.Member) (schedule : bus.Schedule) : List Operation :=
  (schedule.filter (·.1 = member)).flatMap (·.2.history)

/-- How the polls of a board ended that did end. -/
def endings (member : bus.Member) (trace : bus.Trace) : List (Ending Outcome) :=
  (trace.filter fun acted => acted.1 = member ∧ acted.2.ending ≠ .waiting).map (·.2.ending)

/-- What was put on the bus, and by whom. -/
def sent (trace : bus.Trace) : List (bus.Member × List UInt8) :=
  trace.flatMap fun acted => (Effect.sent acted.2.effects).map (acted.1, ·)

theorem run_append (first second : bus.Schedule) (seats : bus.Seats) :
    bus.run (first ++ second) seats =
      ((bus.run first seats).1 ++ (bus.run second (bus.run first seats).2).1,
        (bus.run second (bus.run first seats).2).2) := by
  induction first generalizing seats with
  | nil => rfl
  | cons head later ih => simp only [List.cons_append, run, ih]

section Counting

variable {member : bus.Member} {polled : bus.Member} {now : Visit} {act : Act}
  {later : bus.Schedule} {trace : bus.Trace}

theorem polls_cons_self (now : Visit) :
    polls member ((member, now) :: later) = polls member later + 1 :=
  List.countP_cons_of_pos (decide_eq_true rfl)

theorem polls_cons_of_ne (now : Visit) (other : member ≠ polled) :
    polls member ((polled, now) :: later) = polls member later :=
  List.countP_cons_of_neg (by simpa using other.symm)

theorem history_cons_self :
    history member ((member, now) :: later) = now.history ++ history member later := by
  rw [history, List.filter_cons_of_pos (by simp), List.flatMap_cons, history]

theorem history_cons_of_ne (other : member ≠ polled) :
    history member ((polled, now) :: later) = history member later := by
  rw [history, List.filter_cons_of_neg (by simpa using other.symm), history]

theorem endings_cons_of_waiting (waits : act.ending = .waiting) :
    endings member ((polled, act) :: trace) = endings member trace := by
  rw [endings, List.filter_cons_of_neg (by simp [waits]), endings]

theorem endings_cons_of_ne (other : member ≠ polled) :
    endings member ((polled, act) :: trace) = endings member trace := by
  rw [endings, List.filter_cons_of_neg (by simp [other.symm]), endings]

theorem endings_cons_self {outcome : Outcome} (ends : act.ending = .finished outcome) :
    endings member ((member, act) :: trace) = .finished outcome :: endings member trace := by
  rw [endings, List.filter_cons_of_pos (by simp [ends]), List.map_cons, ends, endings]

theorem history_append (first second : bus.Schedule) :
    history member (first ++ second) = history member first ++ history member second := by
  rw [history, List.filter_append, List.flatMap_append, history, history]

theorem endings_append (first second : bus.Trace) :
    endings member (first ++ second) = endings member first ++ endings member second := by
  rw [endings, List.filter_append, List.map_append, endings, endings]

/-- Nothing is sent where nothing is done but reading. -/
theorem sent_of_silent
    (silent : ∀ acted ∈ trace, ∀ effect ∈ acted.2.effects, effect.isRead = true) :
    sent trace = [] := by
  refine List.flatMap_eq_nil_iff.mpr fun acted mem => ?_
  rw [Effect.sent_of_reads (silent acted mem)]
  rfl

end Counting

/-! ## Frames that pass by -/

/-- A board that has only foreign frames to read takes one of them, if there is one, and does
nothing else; the other boards do not notice. -/
theorem poll_foreign {polled : bus.Member} (now : Visit) {seats : bus.Seats}
    {frames : List (List UInt8)}
    (foreign : ∀ bytes ∈ frames, (bus.receiver polled).IsForeign bytes)
    (holds : (seats polled).Holds frames) :
    ∃ act seat, bus.poll polled now seats = (act, Function.update seats polled seat) ∧
      (∀ effect ∈ act.effects, effect.isRead = true) ∧
      act.ending = (if frames = [] then .waiting else .finished .notAddressed) ∧
      seat.Holds frames.tail ∧
      seat.scheduler = (seats polled).scheduler.run now.history := by
  have unheard : announce [] seats = seats := funext fun member => (seats member).hear_nil
  obtain ⟨act, after, visited, only, ending, left⟩ : ∃ act after,
      (bus.receiver polled).visit (bus.identity polled) now (seats polled).line
          (seats polled).scheduler = (act, after, (seats polled).scheduler.run now.history) ∧
        (∀ effect ∈ act.effects, effect.isRead = true) ∧
        act.ending = (if frames = [] then .waiting else .finished .notAddressed) ∧
        Seat.Holds ⟨after, (seats polled).scheduler.run now.history⟩ frames.tail := by
    cases frames with
    | nil =>
      obtain ⟨after, visited, left, writes⟩ := (bus.receiver polled).visit_of_empty
        (bus.identity polled) now (seats polled).scheduler holds.items
      refine ⟨_, after, visited, fun effect mem => ?_, rfl, left, writes.trans holds.writes⟩
      rw [List.mem_singleton.mp mem]
      rfl
    | cons bytes later =>
      obtain ⟨header, body, rfl, other, plain, whole⟩ := foreign _ (List.mem_cons_self ..)
      have items := holds.items
      rw [List.flatten_cons, List.map_append] at items
      obtain ⟨after, visited, left, writes⟩ := (bus.receiver polled).visit_foreign
        (bus.identity polled) (bus.bounded polled) plain other whole now (seats polled).scheduler
        items
      exact ⟨_, after, visited, fun effect mem => Effect.isRead_of_mem_reads mem, rfl, left,
        writes.trans holds.writes⟩
  refine ⟨act, ⟨after, _⟩, ?_, only, ending, left, rfl⟩
  simp only [poll, visited, Effect.sent_of_reads only, List.flatten_nil, unheard]

/-- What a run comes to in which every board that polls has only foreign frames to read: with every
poll it takes one of them, as long as there are any, and does nothing else. -/
structure PassesBy (schedule : bus.Schedule) (seats : bus.Seats)
    (frames : bus.Member → List (List UInt8)) (trace : bus.Trace) (after : bus.Seats) : Prop where
  holds : ∀ member, (after member).Holds ((frames member).drop (polls member schedule))
  kept : ∀ member,
    (after member).scheduler = (seats member).scheduler.run (history member schedule)
  silent : ∀ acted ∈ trace, ∀ effect ∈ acted.2.effects, effect.isRead = true
  ignored : ∀ member, endings member trace =
    List.replicate (min (polls member schedule) (frames member).length) (.finished .notAddressed)

/-- One more poll before a run in which frames pass by. -/
theorem PassesBy.cons {schedule : bus.Schedule} {seats after : bus.Seats}
    {frames : bus.Member → List (List UInt8)} {trace : bus.Trace} {polled : bus.Member}
    (now : Visit) {act : Act} {seat : Seat}
    (passed : PassesBy schedule (Function.update seats polled seat)
      (Function.update frames polled (frames polled).tail) trace after)
    (only : ∀ effect ∈ act.effects, effect.isRead = true)
    (ending : act.ending = if frames polled = [] then .waiting else .finished .notAddressed)
    (scheduler : seat.scheduler = (seats polled).scheduler.run now.history) :
    PassesBy ((polled, now) :: schedule) seats frames ((polled, act) :: trace) after where
  holds member := by
    have held := passed.holds member
    by_cases same : member = polled
    · subst same
      rwa [Function.update_self, List.drop_tail, ← polls_cons_self now] at held
    · rwa [Function.update_of_ne same, ← polls_cons_of_ne now same] at held
  kept member := by
    have kept := passed.kept member
    by_cases same : member = polled
    · subst same
      rw [kept, Function.update_self, scheduler, history_cons_self]
      exact List.foldl_append.symm
    · rw [kept, Function.update_of_ne same, history_cons_of_ne same]
  silent := by
    rintro acted (_ | ⟨_, mem⟩)
    · exact only
    · exact passed.silent acted mem
  ignored member := by
    have ignored := passed.ignored member
    by_cases same : member = polled
    · subst same
      rw [Function.update_self] at ignored
      rw [polls_cons_self]
      cases known : frames member with
      | nil =>
        rw [known] at ending ignored
        rw [endings_cons_of_waiting ending, ignored, List.tail_nil, List.length_nil, Nat.min_zero,
          Nat.min_zero]
      | cons bytes rest =>
        rw [known] at ending ignored
        rw [endings_cons_self ending, ignored, List.tail_cons, List.length_cons,
          Nat.add_min_add_right, List.replicate_succ]
    · rw [Function.update_of_ne same] at ignored
      rw [endings_cons_of_ne same, polls_cons_of_ne now same, ignored]

/-- A run in which the boards find nothing but foreign frames. -/
theorem run_foreign (schedule : bus.Schedule) (seats : bus.Seats)
    (frames : bus.Member → List (List UInt8))
    (foreign : ∀ turn ∈ schedule, ∀ bytes ∈ frames turn.1, (bus.receiver turn.1).IsForeign bytes)
    (holds : ∀ member, (seats member).Holds (frames member)) :
    PassesBy schedule seats frames (bus.run schedule seats).1 (bus.run schedule seats).2 := by
  induction schedule generalizing seats frames with
  | nil => exact ⟨holds, fun _ => rfl, nofun, fun member => by simp [endings, polls, run]⟩
  | cons turn later ih =>
    obtain ⟨polled, now⟩ := turn
    obtain ⟨act, seat, acted, only, ending, left, scheduler⟩ :=
      poll_foreign now (foreign _ (List.mem_cons_self ..)) (holds polled)
    have ran : bus.run ((polled, now) :: later) seats =
        ((polled, act) :: (bus.run later (Function.update seats polled seat)).1,
          (bus.run later (Function.update seats polled seat)).2) := by
      simp only [run, acted]
    rw [ran]
    refine (ih _ (Function.update frames polled (frames polled).tail) ?_ ?_).cons now only ending
      scheduler
    · intro turn mem
      have before := foreign turn (List.mem_cons_of_mem _ mem)
      by_cases same : turn.1 = polled
      · rw [same] at before ⊢
        rw [Function.update_self]
        exact fun bytes inside => before bytes (List.mem_of_mem_tail inside)
      · rwa [Function.update_of_ne same]
    · intro member
      by_cases same : member = polled
      · subst same
        rwa [Function.update_self, Function.update_self]
      · rw [Function.update_of_ne same, Function.update_of_ne same]
        exact holds member

/-! ## Requests and replies -/

/-- A request for one of the boards, and the polls that follow it. -/
structure Round (bus : SharedBus) where
  target : bus.Member
  kind : MessageType
  payload : List UInt8
  capacity : Nat
  request : List UInt8
  encoded : Frame.encode bus.checksum capacity target.val.address kind payload = .ok request
  schedule : bus.Schedule

/-- There is a request of every type and with every payload that a frame can have. -/
def Round.of (target : bus.Member) (kind : MessageType) (payload : List UInt8)
    (small : payload.length < UInt16.size) (schedule : bus.Schedule) : bus.Round where
  target := target
  kind := kind
  payload := payload
  capacity := Header.length + payload.length + bus.checksum.width
  request := Frame.spell bus.checksum
    ⟨target.val.address, kind.code, UInt16.ofNat payload.length⟩ payload
  encoded := Frame.encode_eq_spell bus.checksum _ kind small (Nat.le_refl _)
  schedule := schedule

/-- Every board has its turns.  The one that the request is for polls; and every other board polls
for the request, before that or after it, and once more for the reply. -/
def Round.IsComplete (round : bus.Round) : Prop :=
  ∃ before now after, round.schedule = before ++ (round.target, now) :: after ∧
    polls round.target before = 0 ∧
    ∀ member ≠ round.target, 2 ≤ min 1 (polls member before) + polls member after

/-- A request is sent, and the boards poll. -/
def exchange (bus : SharedBus) (round : bus.Round) (seats : bus.Seats) : bus.Trace × bus.Seats :=
  bus.run round.schedule (announce round.request seats)

/-- Where the boards are after some rounds. -/
def after (bus : SharedBus) (rounds : List bus.Round) (seats : bus.Seats) : bus.Seats :=
  rounds.foldl (fun seats round => (bus.exchange round seats).2) seats

/-- Every board has read all that it has heard, and waits for the first byte of a frame. -/
def IsQuiet (seats : bus.Seats) : Prop := ∀ member, (seats member).Holds []

/-- What becomes of a request. -/
structure Carried (round : bus.Round) (before : bus.Seats) (trace : bus.Trace)
    (after : bus.Seats) : Prop where
  /-- One frame is sent, and that by the board that the request is for. -/
  answered : ∃ reply due, (bus.receiver round.target).Framed reply due ∧
    sent trace = [(round.target, reply)] ∧ endings round.target trace = [.finished due]
  /-- The other boards take the request and the reply off their lines. -/
  ignored : ∀ member ≠ round.target,
    endings member trace = [.finished .notAddressed, .finished .notAddressed]
  silent : ∀ acted ∈ trace, acted.1 ≠ round.target →
    ∀ effect ∈ acted.2.effects, effect.isRead = true
  kept : ∀ member ≠ round.target,
    (after member).scheduler = (before member).scheduler.run (history member round.schedule)
  quiet : IsQuiet after

theorem Round.small (round : bus.Round) : round.payload.length < UInt16.size :=
  (Frame.eq_spell_of_encode round.encoded).1

/-- A request is foreign to all boards but one. -/
theorem Round.isForeign (round : bus.Round) {member : bus.Member}
    (other : member ≠ round.target) : (bus.receiver member).IsForeign round.request := by
  rw [(Frame.eq_spell_of_encode round.encoded).2]
  exact (bus.receiver member).isForeign_spell (fun same => other (Subtype.ext same.symm)) _
    round.small

/-- The board that a request is for answers it, and the others hear the answer. -/
theorem exists_poll_addressed (round : bus.Round) (now : Visit) {seats : bus.Seats}
    (holds : (seats round.target).Holds [round.request]) :
    ∃ reply due act seat, (bus.receiver round.target).Framed reply due ∧
      bus.poll round.target now seats =
        (act, Function.update (announce reply seats) round.target seat) ∧
      Effect.sent act.effects = [reply] ∧ act.ending = .finished due ∧ seat.Holds [] := by
  have items := holds.items
  rw [List.flatten_singleton, (Frame.eq_spell_of_encode round.encoded).2] at items
  obtain ⟨reply, due, act, left, t, framed, visited, sent, ending, empty, writes⟩ :=
    (bus.receiver round.target).exists_visit_addressed (bus.identity round.target)
      (bus.bounded _) round.kind.code round.small now (seats round.target).scheduler items
      holds.writes
  refine ⟨reply, due, act, ⟨left, t⟩, framed, ?_, sent, ending, empty, writes⟩
  simp only [poll, visited, sent, List.flatten_singleton]

/-- What a board has to read between the reply and the end of a round. -/
def Round.pending (round : bus.Round) (before : bus.Schedule) (reply : List UInt8) :
    bus.Member → List (List UInt8) :=
  Function.update (fun member => [round.request].drop (polls member before) ++ [reply])
    round.target []

theorem Round.isForeign_of_mem_pending (round : bus.Round) {before : bus.Schedule}
    {reply : List UInt8} {due : Outcome} (framed : (bus.receiver round.target).Framed reply due)
    {member : bus.Member} {bytes : List UInt8} (mem : bytes ∈ round.pending before reply member) :
    (bus.receiver member).IsForeign bytes := by
  rw [pending] at mem
  by_cases same : member = round.target
  · rw [same, Function.update_self] at mem
    cases mem
  · rw [Function.update_of_ne same] at mem
    rcases List.mem_append.mp mem with old | new
    · rw [List.mem_singleton.mp (List.mem_of_mem_drop old)]
      exact round.isForeign same
    · rw [List.mem_singleton.mp new]
      exact framed.isForeign (fun board => same (Subtype.ext board.symm)) rfl

theorem holds_pending {round : bus.Round} {before : bus.Schedule} {reply : List UInt8}
    {seats : bus.Seats} {seat : Seat}
    (holds : ∀ member, (seats member).Holds ([round.request].drop (polls member before)))
    (empty : seat.Holds []) (member : bus.Member) :
    (Function.update (announce reply seats) round.target seat member).Holds
      (round.pending before reply member) := by
  rw [Round.pending]
  by_cases same : member = round.target
  · subst same
    rwa [Function.update_self, Function.update_self]
  · rw [Function.update_of_ne same, Function.update_of_ne same]
    exact (holds member).hear reply

section Carrying

variable {round : bus.Round} {before later : bus.Schedule} {now : Visit}
  {seats middle final : bus.Seats} {first second : bus.Trace} {act : Act} {seat : Seat}
  {reply : List UInt8} {due : Outcome}

/-- A round is carried if the request passes by before the reply, and both after it. -/
theorem carried_of_passesBy (split : round.schedule = before ++ (round.target, now) :: later)
    (turnless : polls round.target before = 0)
    (turns : ∀ member ≠ round.target, 2 ≤ min 1 (polls member before) + polls member later)
    (early : PassesBy before (announce round.request seats) (fun _ => [round.request]) first
      middle)
    (framed : (bus.receiver round.target).Framed reply due)
    (sends : Effect.sent act.effects = [reply]) (ending : act.ending = .finished due)
    (late : PassesBy later (Function.update (announce reply middle) round.target seat)
      (round.pending before reply) second final) :
    Carried round seats (first ++ (round.target, act) :: second) final where
  answered := by
    refine ⟨reply, due, framed, ?_, ?_⟩
    · have quiet := sent_of_silent early.silent
      have more := sent_of_silent late.silent
      rw [sent] at quiet more ⊢
      rw [List.flatMap_append, quiet, List.flatMap_cons, more, sends]
      rfl
    · rw [endings_append, endings_cons_self ending, early.ignored, late.ignored, turnless,
        Round.pending, Function.update_self]
      simp
  ignored member other := by
    have counted := turns member other
    rw [endings_append, endings_cons_of_ne other, early.ignored, late.ignored, Round.pending,
      Function.update_of_ne other, List.replicate_append_replicate]
    have both : min (polls member before) [round.request].length +
        min (polls member later)
          ([round.request].drop (polls member before) ++ [reply]).length = 2 := by
      simp only [List.length_append, List.length_drop, List.length_cons, List.length_nil]
      omega
    rw [both]
    rfl
  silent acted mem other := by
    rcases List.mem_append.mp mem with inside | inside
    · exact early.silent acted inside
    · rcases List.mem_cons.mp inside with rfl | inside
      · exact absurd rfl other
      · exact late.silent acted inside
  kept member other := by
    rw [late.kept, Function.update_of_ne other, split, history_append, history_cons_of_ne other]
    exact (congrArg (Scheduler.run · (history member later)) (early.kept member)).trans
      List.foldl_append.symm
  quiet member := by
    have held := late.holds member
    rw [Round.pending] at held
    by_cases same : member = round.target
    · subst same
      rwa [Function.update_self, List.drop_nil] at held
    · have counted := turns member same
      rw [Function.update_of_ne same] at held
      rwa [List.drop_eq_nil_of_le] at held
      simp only [List.length_append, List.length_drop, List.length_cons, List.length_nil]
      omega

end Carrying

/-- A request among boards that wait is answered, and leaves them waiting. -/
theorem carried_exchange {round : bus.Round} (complete : round.IsComplete) {seats : bus.Seats}
    (quiet : IsQuiet seats) :
    Carried round seats (bus.exchange round seats).1 (bus.exchange round seats).2 := by
  obtain ⟨before, now, later, split, turnless, turns⟩ := complete
  obtain ⟨first, middle, begun⟩ : ∃ first middle,
      bus.run before (announce round.request seats) = (first, middle) := ⟨_, _, rfl⟩
  -- Until the board polls that the request is for, the others may take the request.
  have early := run_foreign before (announce round.request seats) (fun _ => [round.request])
    (fun turn mem bytes inside => by
      rw [List.mem_singleton.mp inside]
      refine round.isForeign fun same => ?_
      exact List.countP_eq_zero.mp turnless turn mem (decide_eq_true same))
    fun member => (quiet member).hear round.request
  rw [begun] at early
  have held := early.holds round.target
  rw [turnless] at held
  obtain ⟨reply, due, act, seat, framed, acted, sends, ending, empty⟩ :=
    exists_poll_addressed round now held
  -- From then on the reply is behind it, and all that there is to read is foreign.
  have late := run_foreign later (Function.update (announce reply middle) round.target seat)
    (round.pending before reply) (fun _ _ _ mem => round.isForeign_of_mem_pending framed mem)
    (holds_pending early.holds empty)
  have ran : bus.exchange round seats = (first ++ (round.target, act) :: (bus.run later
        (Function.update (announce reply middle) round.target seat)).1,
      (bus.run later (Function.update (announce reply middle) round.target seat)).2) := by
    rw [exchange, split, run_append, begun]
    simp only [run, acted]
  rw [ran]
  exact carried_of_passesBy split turnless turns early framed sends ending late

/-- Between two rounds all boards wait for the next frame. -/
theorem isQuiet_after {rounds : List bus.Round} (complete : ∀ round ∈ rounds, round.IsComplete)
    {seats : bus.Seats} (quiet : IsQuiet seats) : IsQuiet (bus.after rounds seats) := by
  induction rounds generalizing seats with
  | nil => exact quiet
  | cons round later ih =>
    exact ih (fun other mem => complete other (List.mem_cons_of_mem _ mem))
      (carried_exchange (complete round (List.mem_cons_self ..)) quiet).quiet

/-- Some boards on one bus, and a sequence of requests for one or the other of them, each of any
type and with a payload of any size that a frame can have.  However the boards take their turns,
every request is answered by one frame of the board that it is for.  Every other board ignores the
request and the reply, sends nothing, and its scheduler does what it would have done without them;
and afterwards all boards wait for the next frame again. -/
theorem traffic (bus : SharedBus) (rounds : List bus.Round)
    (complete : ∀ round ∈ rounds, round.IsComplete) (seats : bus.Seats) (quiet : IsQuiet seats) :
    IsQuiet (bus.after rounds seats) ∧
      ∀ earlier round later, rounds = earlier ++ round :: later →
        let before := bus.after earlier seats
        Carried round before (bus.exchange round before).1 (bus.exchange round before).2 := by
  refine ⟨isQuiet_after complete quiet, fun earlier round later split => ?_⟩
  rw [split] at complete
  refine carried_exchange (complete round (by simp)) (isQuiet_after (fun other mem => ?_) quiet)
  exact complete other (List.mem_append_left _ mem)

/-- Two boards, and two requests for the second of them, one of them too large.  The first board
hears the pong before it has looked at the ping. -/
theorem traffic_of_two_boards :
    ∃ (bus : SharedBus) (rounds : List bus.Round) (seats : bus.Seats),
      bus.members = {.ribs, .purr} ∧
        rounds.map (fun round => (round.target.val, round.kind, round.payload.length)) =
          [(.purr, .ping, 0), (.purr, .setSetpoints, 1025)] ∧
        (∀ round ∈ rounds, round.IsComplete) ∧ IsQuiet seats ∧
        IsQuiet (bus.after rounds seats) := by
  let bus : SharedBus := ⟨{.ribs, .purr}, .crc16, fun _ => .standard, some, fun _ => by decide⟩
  let ribs : bus.Member := ⟨.ribs, by decide⟩
  let purr : bus.Member := ⟨.purr, by decide⟩
  let now : Visit := ⟨[.stop], List.replicate Frame.maxPayload 0xA5, List.length_replicate⟩
  have small : (List.replicate 1025 (0x33 : UInt8)).length < UInt16.size := by
    rw [List.length_replicate]
    decide
  let ping := Round.of purr .ping [] (by decide) [(purr, now), (ribs, now), (ribs, now)]
  let large := Round.of purr .setSetpoints _ small [(ribs, now), (purr, now), (ribs, now)]
  let seats : bus.Seats := fun _ => ⟨ByteLine.quiet, .initial .vibration⟩
  have single : ∀ member ≠ purr, member = ribs := by
    rintro ⟨board, mem⟩ other
    rcases Finset.mem_insert.mp mem with rfl | mem
    · rfl
    · exact absurd (Subtype.ext (Finset.mem_singleton.mp mem)) other
  have complete : ∀ round ∈ [ping, large], round.IsComplete := by
    intro round mem
    simp only [List.mem_cons, List.not_mem_nil, or_false] at mem
    rcases mem with rfl | rfl
    · refine ⟨[], now, [(ribs, now), (ribs, now)], rfl, rfl, fun member other => ?_⟩
      rw [single member other]
      decide
    · refine ⟨[(ribs, now)], now, [(ribs, now)], rfl, rfl, fun member other => ?_⟩
      rw [single member other]
      decide
  have quiet : IsQuiet seats := fun _ => ⟨rfl, rfl⟩
  refine ⟨bus, [ping, large], seats, rfl, ?_, complete, quiet,
    (traffic bus [ping, large] complete seats quiet).1⟩
  exact congrArg
    (fun length => [(Board.purr, MessageType.ping, 0), (.purr, .setSetpoints, length)])
    List.length_replicate

end SharedBus

end Animatronic
