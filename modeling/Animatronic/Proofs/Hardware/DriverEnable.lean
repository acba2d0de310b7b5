import Animatronic.Bus.Receiver
import Animatronic.Hardware.Transceiver

/-!
# When the driver is on

A transceiver shares one pair of wires with all other boards, so its driver has to be off whenever
it does not send.  `Transceiver.HalfDuplex` says of a history that the driver is off while the UART
reads and on while it writes and flushes, that it is switched on for a write and for nothing else,
and off again right behind it.

Every operation adds such a piece to the history, however the UART behaves, and begins and ends
with the driver off; so do all operations together, those of a board that receives among them.
-/

namespace Animatronic

namespace Transceiver

/-! ## Histories -/

/-- The level of the driver pin after some events, if it was low before them. -/
def driverOn (events : List Event) : Bool :=
  events.foldl
    (fun on event => match event with
      | .driver high => high
      | _ => on)
    false

/-- Whether an event fits in between the events before it and those after it. -/
def Event.FitsIn (before after : List Event) : Event → Prop
  | .read _ => driverOn before = false
  | .driver high => high = true →
      driverOn before = false ∧ ∃ bytes, after.head? = some (.write bytes)
  | .write _ => driverOn before = true ∧
      (after.head? = some .flush ∨ after.head? = some (.driver false))
  | .flush => driverOn before = true ∧ after.head? = some (.driver false)

/-- The driver is on exactly while something is sent, and off in the end. -/
structure HalfDuplex (events : List Event) : Prop where
  released : driverOn events = false
  fits : ∀ before event after, events = before ++ event :: after → event.FitsIn before after

variable {first second before after : List Event}

theorem driverOn_append (released : driverOn first = false) :
    driverOn (first ++ second) = driverOn second := by
  unfold driverOn at released ⊢
  rw [List.foldl_append, released]

/-- An event that fits in still does if there is more before and after it. -/
theorem Event.FitsIn.extend {event : Event} (fits : event.FitsIn before after)
    (released : driverOn first = false) (second : List Event) :
    event.FitsIn (first ++ before) (after ++ second) := by
  have head : ∀ next, after.head? = some next → (after ++ second).head? = some next := by
    intro next is
    rw [List.head?_append, is, Option.some_or]
  cases event with
  | read length => exact (driverOn_append released).trans fits
  | driver high =>
    intro rises
    obtain ⟨off, bytes, next⟩ := fits rises
    exact ⟨(driverOn_append released).trans off, bytes, head _ next⟩
  | write bytes =>
    obtain ⟨on, next⟩ := fits
    exact ⟨(driverOn_append released).trans on, next.imp (head _) (head _)⟩
  | flush =>
    obtain ⟨on, next⟩ := fits
    exact ⟨(driverOn_append released).trans on, head _ next⟩

/-- One piece of a history after the other. -/
theorem HalfDuplex.append (one : HalfDuplex first) (two : HalfDuplex second) :
    HalfDuplex (first ++ second) where
  released := (driverOn_append one.released).trans two.released
  fits before event after split := by
    rcases List.append_eq_append_iff.mp split with ⟨more, rfl, inSecond⟩ | ⟨more, inFirst, behind⟩
    · have fits := (two.fits more event after inSecond).extend one.released []
      rwa [List.append_nil] at fits
    · cases more with
      | nil =>
        rw [List.append_nil] at inFirst
        subst inFirst
        have fits := (two.fits [] event after behind.symm).extend one.released []
        rwa [List.append_nil, List.append_nil] at fits
      | cons next rest =>
        obtain ⟨rfl, rfl⟩ := List.cons.inj behind
        have untouched : driverOn [] = false := rfl
        exact (one.fits before event rest inFirst).extend untouched second

/-! ## The pieces -/

/-- The ways to split a list are the one at its head and those of its tail. -/
theorem forall_split_cons {p : List Event → Event → List Event → Prop} {head : Event}
    {tail : List Event} :
    (∀ before event after, head :: tail = before ++ event :: after → p before event after) ↔
      p [] head tail ∧
        ∀ before event after, tail = before ++ event :: after →
          p (head :: before) event after := by
  constructor
  · intro all
    exact ⟨all [] head tail rfl, fun before event after split =>
      all (head :: before) event after (congrArg (List.cons head) split)⟩
  · rintro ⟨first, later⟩ before event after split
    cases before with
    | nil =>
      obtain ⟨rfl, rfl⟩ := List.cons.inj split
      exact first
    | cons _ before =>
      obtain ⟨rfl, rest⟩ := List.cons.inj split
      exact later before event after rest

theorem forall_split_nil {p : List Event → Event → List Event → Prop} :
    ∀ before event after, [] = before ++ event :: after → p before event after := by
  intro before event after split
  simp at split

theorem halfDuplex_nil : HalfDuplex [] where
  released := rfl
  fits := forall_split_nil

theorem halfDuplex_read (length : Nat) : HalfDuplex [.read length] where
  released := rfl
  fits := forall_split_cons.mpr ⟨rfl, forall_split_nil⟩

theorem halfDuplex_reads (length count : Nat) :
    HalfDuplex (List.replicate count (.read length)) := by
  induction count with
  | zero => exact halfDuplex_nil
  | succ count ih => exact (halfDuplex_read length).append ih

theorem halfDuplex_off : HalfDuplex [.driver false] where
  released := rfl
  fits := forall_split_cons.mpr ⟨nofun, forall_split_nil⟩

/-- What a write adds to the history; there is a flush in it if the UART has taken the bytes. -/
def sending (bytes : List UInt8) (taken : Bool) : List Event :=
  [.driver true, .write bytes] ++ (if taken then [.flush] else []) ++ [.driver false]

theorem halfDuplex_sending (bytes : List UInt8) (taken : Bool) :
    HalfDuplex (sending bytes taken) := by
  cases taken with
  | false =>
    refine ⟨rfl, forall_split_cons.mpr ⟨fun _ => ⟨rfl, bytes, rfl⟩, ?_⟩⟩
    refine forall_split_cons.mpr ⟨⟨rfl, Or.inr rfl⟩, ?_⟩
    exact forall_split_cons.mpr ⟨nofun, forall_split_nil⟩
  | true =>
    refine ⟨rfl, forall_split_cons.mpr ⟨fun _ => ⟨rfl, bytes, rfl⟩, ?_⟩⟩
    refine forall_split_cons.mpr ⟨⟨rfl, Or.inl rfl⟩, ?_⟩
    refine forall_split_cons.mpr ⟨⟨rfl, rfl⟩, ?_⟩
    exact forall_split_cons.mpr ⟨nofun, forall_split_nil⟩

/-! ## Operations -/

/-- Something that a transceiver is told to do. -/
inductive Operation
  | read (length : Nat) (limit : Option Microseconds)
  | write (bytes : List UInt8)
  | restart
  | note (notice : Notice)

variable {Device : Type} {uart : Uart Device} {t : Transceiver Device}

/-- The transceiver after an operation. -/
def carryOut (uart : Uart Device) (t : Transceiver Device) : Operation → Transceiver Device
  | .read length limit => (t.read uart length limit).2
  | .write bytes => (t.write uart bytes).2
  | .restart => (t.restart uart).2
  | .note notice => t.note notice

/-- The transceiver after operations one behind the other. -/
def carryOutAll (uart : Uart Device) (operations : List Operation) (t : Transceiver Device) :
    Transceiver Device :=
  operations.foldl (carryOut uart) t

/-! ### Reading -/

theorem events_read (uart : Uart Device) (length : Nat) (limit : Option Microseconds)
    (t : Transceiver Device) :
    (t.read uart length limit).2.events = t.events ++ [.read length] := by
  unfold read
  split
  split <;> rfl

/-- How a read is answered, told from what the UART has read. -/
structure AnswersRead (length : Nat) (reading : UartReading length)
    (answer : Option (Except BusFault (Bytes length))) : Prop where
  bytes : ∀ bytes, answer = some (.ok bytes) ↔ reading = .bytes bytes
  timeout : answer = some (.error .timeout) ↔ reading = .expired
  transceiver : answer = some (.error .transceiver) ↔ ∃ error, reading = .failed error

theorem answersRead (uart : Uart Device) (length : Nat) (limit : Option Microseconds)
    (t : Transceiver Device) :
    AnswersRead length (uart.read length limit t.device).1 (t.read uart length limit).1 := by
  rcases known : uart.read length limit t.device with ⟨reading, device⟩
  cases reading <;> simp only [read, known] <;> constructor <;> simp

/-! ### Writing -/

/-- However a write ends, the driver is off again, and the UART flushes if it took the bytes. -/
theorem events_write (uart : Uart Device) (bytes : List UInt8) (t : Transceiver Device) :
    (t.write uart bytes).2.events =
      t.events ++ sending bytes (uart.write bytes t.device).1.isOk := by
  have device : (t.event (.driver true)).device = t.device := rfl
  rcases written : uart.write bytes t.device with ⟨error | ⟨⟩, between⟩
  · simp only [write, transmit, device, written]
    simp [event, note, sending, Except.isOk, Except.toBool]
  · rcases flushed : uart.flush between with ⟨error | ⟨⟩, after⟩ <;>
      simp only [write, transmit, device, written, flushed] <;>
      simp [event, note, sending, Except.isOk, Except.toBool]

/-- How a write is answered, told from what the UART makes of the bytes and of the flush. -/
structure AnswersWrite (written flushed : Except UartError Unit) (answer : Except BusFault Unit) :
    Prop where
  ok : answer = .ok () ↔ written = .ok () ∧ flushed = .ok ()
  transceiver : answer ≠ .ok () → answer = .error .transceiver

theorem answersWrite (uart : Uart Device) (bytes : List UInt8) (t : Transceiver Device) :
    AnswersWrite (uart.write bytes t.device).1 (uart.flush (uart.write bytes t.device).2).1
      (t.write uart bytes).1 := by
  have device : (t.event (.driver true)).device = t.device := rfl
  rcases written : uart.write bytes t.device with ⟨error | ⟨⟩, between⟩
  · simp only [write, transmit, device, written]
    exact ⟨by simp, fun _ => rfl⟩
  · rcases flushed : uart.flush between with ⟨error | ⟨⟩, after⟩ <;>
      simp only [write, transmit, device, written, flushed]
    · exact ⟨by simp, fun _ => rfl⟩
    · exact ⟨by simp, fun other => absurd rfl other⟩

/-! ### Restarting -/

/-- The device after reading some bytes one by one. -/
def afterReads (uart : Uart Device) : (count : Nat) → Device → Device
  | 0, device => device
  | count + 1, device => afterReads uart count (uart.read 1 (some flushGap) device).2

/-- The next byte comes in before the line counts as silent. -/
def Delivers (uart : Uart Device) (device : Device) : Prop :=
  ∃ bytes, (uart.read 1 (some flushGap) device).1 = .bytes bytes

/-- To throw away up to `most` bytes takes `count` reads: all but the last of them deliver a byte,
and the last one does too if it is not the one that ends it. -/
structure Discards (uart : Uart Device) (most : Nat) (device : Device) (count : Nat) : Prop where
  within : count ≤ most
  delivered : ∀ i, i + 1 < count → Delivers uart (afterReads uart i device)
  stopped : count < most → ∃ last, count = last + 1 ∧ ¬Delivers uart (afterReads uart last device)

theorem Delivers.cons {device : Device} {most count : Nat} (delivers : Delivers uart device)
    (discards : Discards uart most (uart.read 1 (some flushGap) device).2 count) :
    Discards uart (most + 1) device (count + 1) where
  within := Nat.succ_le_succ discards.within
  delivered i earlier := by
    cases i with
    | zero => exact delivers
    | succ i => exact discards.delivered i (Nat.lt_of_succ_lt_succ earlier)
  stopped fewer := by
    obtain ⟨last, rfl, silent⟩ := discards.stopped (Nat.lt_of_succ_lt_succ fewer)
    exact ⟨last + 1, rfl, silent⟩

theorem discards_one {device : Device} (silent : ¬Delivers uart device) (most : Nat) :
    Discards uart (most + 1) device 1 where
  within := Nat.succ_le_succ (Nat.zero_le most)
  delivered i earlier := absurd earlier (by omega)
  stopped _ := ⟨0, rfl, silent⟩

theorem exists_discards (uart : Uart Device) (most : Nat) (t : Transceiver Device) :
    ∃ count, Discards uart most t.device count ∧
      (discard uart most t).2.events = t.events ++ List.replicate count (.read 1) := by
  induction most generalizing t with
  | zero =>
    refine ⟨0, ⟨Nat.le_refl 0, fun i earlier => absurd earlier (by omega), nofun⟩, ?_⟩
    exact (List.append_nil _).symm
  | succ most ih =>
    rw [discard]
    cases known : uart.read 1 (some flushGap) t.device with
    | mk reading device =>
      have silent (other : ∀ bytes, reading ≠ .bytes bytes) : ¬Delivers uart t.device := by
        rintro ⟨bytes, is⟩
        rw [known] at is
        exact other bytes is
      cases reading with
      | bytes bytes =>
        obtain ⟨count, discards, events⟩ := ih { t.event (.read 1) with device := device }
        have delivers : Delivers uart t.device := ⟨bytes, by rw [known]⟩
        refine ⟨count + 1, delivers.cons (by rwa [known]), ?_⟩
        rw [events, List.replicate_succ]
        exact List.append_assoc ..
      | failed error => exact ⟨1, discards_one (silent nofun) most, rfl⟩
      | expired => exact ⟨1, discards_one (silent nofun) most, rfl⟩
      | waiting => exact ⟨1, discards_one (silent nofun) most, rfl⟩

theorem exists_discards_restart (uart : Uart Device) (t : Transceiver Device) :
    ∃ count, Discards uart flushLimit t.device count ∧
      (t.restart uart).2.events =
        t.events ++ .driver false :: List.replicate count (.read 1) := by
  obtain ⟨count, discards, events⟩ := exists_discards uart flushLimit (t.event (.driver false))
  refine ⟨count, discards, events.trans ?_⟩
  exact List.append_assoc ..

/-! ## Runs -/

theorem HalfDuplex.carryOut (orderly : HalfDuplex t.events) (uart : Uart Device)
    (operation : Operation) : HalfDuplex (t.carryOut uart operation).events := by
  cases operation with
  | read length limit =>
    rw [Transceiver.carryOut, events_read]
    exact orderly.append (halfDuplex_read length)
  | write bytes =>
    rw [Transceiver.carryOut, events_write]
    exact orderly.append (halfDuplex_sending ..)
  | restart =>
    obtain ⟨count, -, events⟩ := exists_discards_restart uart t
    rw [Transceiver.carryOut, events]
    exact orderly.append (halfDuplex_off.append (halfDuplex_reads 1 count))
  | note notice => exact orderly

theorem HalfDuplex.carryOutAll (orderly : HalfDuplex t.events) (uart : Uart Device)
    (operations : List Operation) : HalfDuplex (t.carryOutAll uart operations).events := by
  induction operations generalizing t with
  | nil => exact orderly
  | cons operation rest ih => exact ih (orderly.carryOut uart operation)

/-! ## Receiving -/

/-- What is written to the log comes before what is done next. -/
theorem exists_operations_of_notes {notices : List Notice} {after : Transceiver Device}
    (reached : ∃ operations, after = carryOutAll uart operations
      (notices.foldl (fun t notice => (bus uart).note notice t) t)) :
    ∃ operations, after = t.carryOutAll uart operations := by
  induction notices generalizing t with
  | nil => exact reached
  | cons notice rest ih =>
    obtain ⟨operations, rfl⟩ := ih reached
    exact ⟨.note notice :: operations, rfl⟩

/-- What a board does on the bus it does by operations of its transceiver. -/
theorem exists_operations_run (uart : Uart Device) {α : Type} (exchange : Exchange α)
    (identity : Identity) (t : Transceiver Device) (s : Scheduler) :
    ∃ operations, (exchange.run (bus uart) identity t s).2.1 = t.carryOutAll uart operations := by
  induction exchange generalizing t s with
  | done result => exact ⟨[], rfl⟩
  | read length limit next ih =>
    have after : (t.read uart length limit).2 = t.carryOut uart (.read length limit) := rfl
    rw [Exchange.run, bus]
    dsimp only
    generalize t.read uart length limit = answer at after ⊢
    obtain ⟨_ | result, later⟩ := answer
    · exact ⟨[.read length limit], after⟩
    · obtain ⟨operations, run⟩ := ih result later s
      exact ⟨.read length limit :: operations, run.trans (congrArg _ after)⟩
  | write bytes next ih =>
    obtain ⟨operations, run⟩ := ih (t.write uart bytes).1 (t.write uart bytes).2 s
    exact ⟨.write bytes :: operations, run⟩
  | restart next ih =>
    have after : (t.restart uart).2 = t.carryOut uart .restart := rfl
    rw [Exchange.run, bus]
    dsimp only
    generalize t.restart uart = answer at after ⊢
    obtain ⟨_ | ⟨⟩, later⟩ := answer
    · exact ⟨[.restart], after⟩
    · obtain ⟨operations, run⟩ := ih later s
      exact ⟨.restart :: operations, run.trans (congrArg _ after)⟩
  | serve code payload next ih => exact exists_operations_of_notes (ih _ _ _)
  | diagnose kind next ih => exact exists_operations_of_notes (ih _ _ _)
  | note notice next ih =>
    obtain ⟨operations, run⟩ := ih (t.note notice) s
    exact ⟨.note notice :: operations, run⟩
  | abort cause => exact ⟨[], rfl⟩

/-! ## The discipline -/

/-- How a transceiver has gone about its driver, and how it will with whatever comes next. -/
structure KeepsHalfDuplex (uart : Uart Device) (t : Transceiver Device) : Prop where
  history : HalfDuplex t.events
  read : ∀ length limit,
    (t.read uart length limit).2.events = t.events ++ [.read length] ∧
      AnswersRead length (uart.read length limit t.device).1 (t.read uart length limit).1
  /-- The driver goes off behind a write that failed, without a flush, as it does behind the flush
  of any other. -/
  write : ∀ bytes,
    (t.write uart bytes).2.events =
        t.events ++ sending bytes (uart.write bytes t.device).1.isOk ∧
      AnswersWrite (uart.write bytes t.device).1 (uart.flush (uart.write bytes t.device).2).1
        (t.write uart bytes).1
  restart : ∃ count, Discards uart 64 t.device count ∧
    (t.restart uart).2.events = t.events ++ .driver false :: List.replicate count (.read 1)
  /-- A board that receives does nothing but such operations. -/
  receive : ∀ (receiver : Receiver) identity s, ∃ operations,
    (receiver.poll.run (bus uart) identity t s).2.1 = t.carryOutAll uart operations

/-- The driver is on while something is sent and at no other time, whatever the UART does and
whatever the transceiver is told. -/
theorem keepsHalfDuplex (uart : Uart Device) (device : Device) (operations : List Operation) :
    KeepsHalfDuplex uart ((initial device).carryOutAll uart operations) where
  history := halfDuplex_off.carryOutAll uart operations
  read _ _ := ⟨events_read .., answersRead ..⟩
  write _ := ⟨events_write .., answersWrite ..⟩
  restart := exists_discards_restart uart _
  receive receiver identity s := exists_operations_run uart receiver.poll identity _ s

end Transceiver

end Animatronic
