import Animatronic.Proofs.Exchange.Effect

/-!
# Programs on a byte line

A program that waits for a whole message takes its bytes off the line and nothing else, so what
follows them on the line cannot matter.  `Exchange.Consumes` says this of a program and a byte
string: on every line that begins with these bytes, whatever comes behind them, the program ends
with the same reaction and leaves the rest alone.  `Exchange.Starves` is about a byte string that
is too short: if the line falls silent behind it, the frame is dropped and the bus restarted.

Each step of a program has a lemma here, so that a program is followed by putting these lemmas
together.
-/

namespace Animatronic

namespace ByteLine

/-- No byte comes in before the line has been silent. -/
def IsStill (items : List Item) : Prop := ∀ item ∈ items.head?, item = .silence

theorem isStill_nil : IsStill [] := by
  intro item mem
  cases mem

/-- What a restart leaves. -/
def flushed (items : List Item) : List Item := (items.dropWhile (· ≠ .silence)).tail

theorem IsStill.flushed_eq {items : List Item} (still : IsStill items) :
    flushed items = items.tail := by
  cases items with
  | nil => rfl
  | cons item rest =>
    have silent := still item rfl
    subst silent
    rfl

/-- A read with a limit that finds too few bytes takes them and runs out of time. -/
theorem take_short {n : Nat} {bytes : List UInt8} {tail : List Item} (short : bytes.length < n)
    (still : IsStill tail) :
    take false n (bytes.map .byte ++ tail) = (.error (.failed .timeout), tail) := by
  induction bytes generalizing n with
  | nil =>
    rcases Nat.exists_eq_succ_of_ne_zero (Nat.ne_of_gt short) with ⟨n, rfl⟩
    cases tail with
    | nil => rfl
    | cons item rest =>
      have silent := still item rfl
      subst silent
      rfl
  | cons byte bytes ih =>
    rcases Nat.exists_eq_succ_of_ne_zero (Nat.ne_of_gt (Nat.zero_lt_of_lt short)) with ⟨n, rfl⟩
    have later := ih (Nat.lt_of_succ_lt_succ short)
    simp only [take, List.map_cons, List.cons_append, Bool.false_eq_true, if_false, later]

variable {line : ByteLine} {n : Nat}

theorem read_complete {bytes : Bytes n} {rest : List Item} (limit : Option Microseconds)
    (items : line.items = bytes.val.map .byte ++ rest) :
    ∃ after, bus.read n limit line = (some (.ok bytes), after) ∧ after.items = rest ∧
      after.failingWrites = line.failingWrites := by
  rcases bytes with ⟨bytes, rfl⟩
  have taken := take_map_byte limit.isNone bytes rest
  refine ⟨{ line with
    items := rest
    calls := line.calls ++ [.read bytes.length limit .complete] }, ?_, rfl, rfl⟩
  simp only [bus, read, items, taken]

theorem read_short {bytes : List UInt8} {tail : List Item} (limit : Microseconds)
    (items : line.items = bytes.map .byte ++ tail) (short : bytes.length < n)
    (still : IsStill tail) :
    ∃ after, bus.read n (some limit) line = (some (.error .timeout), after) ∧
      after.items = tail ∧ after.failingWrites = line.failingWrites := by
  have taken := take_short short still
  refine ⟨{ line with
    items := tail
    calls := line.calls ++ [.read n (some limit) (.failed .timeout)] }, ?_, rfl, rfl⟩
  simp only [bus, read, items, Option.isNone_some, taken]

theorem notes_eq (notices : List Notice) (line : ByteLine) :
    (notices.foldl (fun line notice => bus.note notice line) line).items = line.items ∧
      (notices.foldl (fun line notice => bus.note notice line) line).failingWrites =
        line.failingWrites := by
  induction notices generalizing line with
  | nil => exact ⟨rfl, rfl⟩
  | cons notice rest ih => exact ih (line.note notice)

end ByteLine

open ByteLine (Item IsStill flushed)

/-- How a program ends that was not left waiting: its result, what it did, how many of the next
writes fail, and the scheduler. -/
structure Reaction (α : Type) where
  result : α
  effects : List Effect
  failing : Nat
  scheduler : Scheduler

namespace Reaction

variable {α : Type}

/-- What is left on the line of the items behind the message. -/
def leaves (reaction : Reaction α) (rest : List Item) : List Item :=
  if .restarted ∈ reaction.effects then flushed rest else rest

/-- The same with an effect before it. -/
def after (effect : Effect) (reaction : Reaction α) : Reaction α :=
  { reaction with effects := effect :: reaction.effects }

theorem leaves_after {effect : Effect} (kept : effect ≠ .restarted) (reaction : Reaction α)
    (rest : List Item) : (reaction.after effect).leaves rest = reaction.leaves rest := by
  simp only [leaves, after, List.mem_cons, kept.symm, false_or]

end Reaction

namespace Exchange

variable {α : Type} {identity : Identity} {exchange : Exchange α} {bytes more : List UInt8}
  {failing : Nat} {s : Scheduler} {reaction : Reaction α}

/-- A program reacts to a byte string as told, whatever is on the line behind it. -/
def Consumes (exchange : Exchange α) (identity : Identity) (bytes : List UInt8) (failing : Nat)
    (s : Scheduler) (reaction : Reaction α) : Prop :=
  ∀ line rest, line.items = bytes.map .byte ++ rest → line.failingWrites = failing →
    exchange.effects ByteLine.bus identity line s = reaction.effects ∧
      ∃ after, exchange.run ByteLine.bus identity line s =
          (.finished reaction.result, after, reaction.scheduler) ∧
        after.items = reaction.leaves rest ∧ after.failingWrites = reaction.failing

/-! ## Steps that complete -/

theorem consumes_done (result : α) (failing : Nat) (s : Scheduler) :
    (done result).Consumes identity [] failing s ⟨result, [], failing, s⟩ := by
  intro line rest items writes
  exact ⟨rfl, line, rfl, items, writes⟩

theorem Consumes.note (consumes : exchange.Consumes identity bytes failing s reaction)
    (notice : Notice) :
    (Exchange.note notice exchange).Consumes identity bytes failing s reaction := by
  intro line rest items writes
  exact consumes (line.note notice) rest items writes

theorem Consumes.read {n : Nat} (bytes : Bytes n)
    {next : Except BusFault (Bytes n) → Exchange α} (limit : Option Microseconds)
    (consumes : (next (.ok bytes)).Consumes identity more failing s reaction) :
    (Exchange.read n limit next).Consumes identity (bytes.val ++ more) failing s
      (reaction.after (.read n true)) := by
  intro line rest items writes
  rw [List.map_append, List.append_assoc] at items
  rcases ByteLine.read_complete limit items with ⟨between, found, left, same⟩
  rcases consumes between rest left (same.trans writes) with ⟨effects, after, run, behind, writes⟩
  refine ⟨?_, after, ?_, ?_, writes⟩
  · simp only [Exchange.effects, found, effects]
    rfl
  · simp only [Exchange.run, found, run]
    rfl
  · rw [Reaction.leaves_after (by simp), behind]

/-- What is written to the log does not change what is on the line. -/
theorem Consumes.of_notes (consumes : exchange.Consumes identity bytes failing s reaction)
    (notices : List Notice) {line : ByteLine} {rest : List Item}
    (items : line.items = bytes.map .byte ++ rest) (writes : line.failingWrites = failing) :
    exchange.effects ByteLine.bus identity
        (notices.foldl (fun line notice => ByteLine.bus.note notice line) line) s =
        reaction.effects ∧
      ∃ after, exchange.run ByteLine.bus identity
          (notices.foldl (fun line notice => ByteLine.bus.note notice line) line) s =
          (.finished reaction.result, after, reaction.scheduler) ∧
        after.items = reaction.leaves rest ∧ after.failingWrites = reaction.failing := by
  rcases ByteLine.notes_eq notices line with ⟨sameItems, sameWrites⟩
  exact consumes _ rest (sameItems.trans items) (sameWrites.trans writes)

theorem Consumes.serve {code : UInt8} {payload : List UInt8}
    {next : Except Fault Response → Exchange α}
    (consumes : (next (Service.handle identity code payload s).result).Consumes identity bytes
      failing (Service.handle identity code payload s).scheduler reaction) :
    (Exchange.serve code payload next).Consumes identity bytes failing s
      (reaction.after (.served code payload)) := by
  intro line rest items writes
  rcases consumes.of_notes (Service.handle identity code payload s).notices items writes with
    ⟨effects, after, run, behind, left⟩
  refine ⟨congrArg (List.cons _) effects, after, run, ?_, left⟩
  rw [Reaction.leaves_after (by simp), behind]

theorem Consumes.diagnose {kind : DiagnosticKind} {next : List UInt8 → Exchange α}
    (consumes : (next (Service.diagnose identity kind s).result).Consumes identity bytes
      failing (Service.diagnose identity kind s).scheduler reaction) :
    (Exchange.diagnose kind next).Consumes identity bytes failing s
      (reaction.after (.diagnosed kind)) := by
  intro line rest items writes
  rcases consumes.of_notes (Service.diagnose identity kind s).notices items writes with
    ⟨effects, after, run, behind, left⟩
  refine ⟨congrArg (List.cons _) effects, after, run, ?_, left⟩
  rw [Reaction.leaves_after (by simp), behind]

/-- A write fails if it is among those that are to fail. -/
theorem Consumes.write {data : List UInt8} {next : Except BusFault Unit → Exchange α}
    (consumes : (next (if 0 < failing then .error .transceiver else .ok ())).Consumes identity
      bytes (failing - 1) s reaction) :
    (Exchange.write data next).Consumes identity bytes failing s
      (reaction.after (.wrote data (decide (failing = 0)))) := by
  intro line rest items writes
  have answer : (line.write data).1 = if 0 < failing then .error .transceiver else .ok () := by
    simp [ByteLine.write, writes]
  have complete : (line.write data).1.isOk = decide (failing = 0) := by
    rw [answer]
    cases failing <;> rfl
  rcases consumes (line.write data).2 rest items (congrArg (· - 1) writes) with
    ⟨effects, after, run, behind, left⟩
  rw [← answer] at effects run
  refine ⟨?_, after, run, ?_, left⟩
  · rw [← complete]
    exact congrArg (List.cons _) effects
  · rw [Reaction.leaves_after (by simp), behind]

/-- A restart throws away what is behind the message, up to the next silence. -/
theorem consumes_restart (result : α) (failing : Nat) (s : Scheduler) :
    (restart (done result)).Consumes identity [] failing s
      ⟨result, [.restarted], failing, s⟩ := by
  intro line rest items writes
  refine ⟨rfl, line.restart, rfl, ?_, writes⟩
  rw [List.map_nil, List.nil_append] at items
  simp only [Reaction.leaves, List.mem_singleton, if_true, ByteLine.restart, flushed, items]

/-! ## Steps that lack bytes -/

/-- A program runs out of bytes after these: if the line falls silent behind them it gives the
frame up, having done nothing but read, and restarts the bus. -/
def Starves (exchange : Exchange Outcome) (identity : Identity) (bytes : List UInt8) : Prop :=
  ∀ line tail s, line.items = bytes.map .byte ++ tail → IsStill tail →
    (∃ reads, exchange.effects ByteLine.bus identity line s = reads ++ [.restarted] ∧
        ∀ effect ∈ reads, effect.isRead = true) ∧
      ∃ after, exchange.run ByteLine.bus identity line s =
          (.finished (.dropped .timeout), after, s) ∧
        after.items = tail.tail ∧ after.failingWrites = line.failingWrites

theorem Starves.read {n : Nat} (bytes : Bytes n)
    {next : Except BusFault (Bytes n) → Exchange Outcome} (limit : Option Microseconds)
    (starves : (next (.ok bytes)).Starves identity more) :
    (Exchange.read n limit next).Starves identity (bytes.val ++ more) := by
  intro line tail s items still
  rw [List.map_append, List.append_assoc] at items
  rcases ByteLine.read_complete limit items with ⟨between, found, left, same⟩
  obtain ⟨⟨reads, effects, only⟩, after, run, behind, writes⟩ :=
    starves between tail s left still
  refine ⟨⟨.read n true :: reads, ?_, ?_⟩, after, ?_, behind, writes.trans same⟩
  · simp only [Exchange.effects, found, effects]
    rfl
  · simpa [Effect.isRead] using only
  · simp only [Exchange.run, found, run]

/-- The read that fails drops the frame. -/
theorem starves_receive {n : Nat} (limit : Microseconds) (next : Bytes n → Exchange Outcome)
    (short : bytes.length < n) :
    (Receiver.receive n (some limit) next).Starves identity bytes := by
  intro line tail s items still
  rcases ByteLine.read_short limit items short still with ⟨after, found, left, same⟩
  refine ⟨⟨[.read n false], ?_, ?_⟩, after.note (.frameDropped .timeout) |>.restart, ?_, ?_, same⟩
  · simp only [Receiver.receive, Exchange.effects, found]
    rfl
  · simp [Effect.isRead]
  · simp only [Receiver.receive, Exchange.run, found]
    rfl
  · have flush := still.flushed_eq
    rw [← left] at flush ⊢
    exact flush

end Exchange

end Animatronic
