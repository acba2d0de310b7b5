import Animatronic.Proofs.Receiver.Alignment

/-!
# What a board can see of a line

The calls made on a line and the log of its board are kept beside the items, and no answer depends
on them.  So two lines are alike for a board if the same comes in on them and as many writes fail
(`ByteLine.Alike`): every program does the same on both (`Exchange.Alike`), and they stay alike.

A line on which polls have left some bytes is therefore as good as a fresh one that carries these
bytes (`Receiver.GoesOn`).
-/

namespace Animatronic

namespace ByteLine

/-- The same comes in on both lines, and as many writes fail. -/
structure Alike (line twin : ByteLine) : Prop where
  items : line.items = twin.items
  writes : line.failingWrites = twin.failingWrites

variable {line twin : ByteLine}

theorem Alike.read (alike : line.Alike twin) (length : Nat) (limit : Option Microseconds) :
    ∃ answer after after', bus.read length limit line = (answer, after) ∧
      bus.read length limit twin = (answer, after') ∧ after.Alike after' := by
  simp only [bus, ByteLine.read, alike.items]
  obtain ⟨taken, items⟩ := take limit.isNone length twin.items
  dsimp only
  split <;> exact ⟨_, _, _, rfl, rfl, rfl, alike.writes⟩

theorem Alike.write (alike : line.Alike twin) (bytes : List UInt8) :
    ∃ answer after after', bus.write bytes line = (answer, after) ∧
      bus.write bytes twin = (answer, after') ∧ after.Alike after' := by
  simp only [bus, ByteLine.write, alike.writes]
  exact ⟨_, _, _, rfl, rfl, alike.items, rfl⟩

theorem Alike.restart (alike : line.Alike twin) : line.restart.Alike twin.restart := by
  refine ⟨?_, alike.writes⟩
  rw [ByteLine.restart, ByteLine.restart, alike.items]

theorem Alike.notes (alike : line.Alike twin) (notices : List Notice) :
    (notices.foldl (fun line notice => bus.note notice line) line).Alike
      (notices.foldl (fun line notice => bus.note notice line) twin) := by
  obtain ⟨items, writes⟩ := notes_eq notices line
  obtain ⟨items', writes'⟩ := notes_eq notices twin
  exact ⟨by rw [items, items', alike.items], by rw [writes, writes', alike.writes]⟩

end ByteLine

/-! ## Programs -/

namespace Exchange

variable {α : Type} {line twin : ByteLine}

/-- A program does the same on two lines, ends in the same way and leaves them alike. -/
structure Alike (exchange : Exchange α) (identity : Identity) (line twin : ByteLine)
    (s : Scheduler) : Prop where
  effects : exchange.effects ByteLine.bus identity line s =
    exchange.effects ByteLine.bus identity twin s
  ending : (exchange.run ByteLine.bus identity line s).1 =
    (exchange.run ByteLine.bus identity twin s).1
  lines : (exchange.run ByteLine.bus identity line s).2.1.Alike
    (exchange.run ByteLine.bus identity twin s).2.1
  scheduler : (exchange.run ByteLine.bus identity line s).2.2 =
    (exchange.run ByteLine.bus identity twin s).2.2

/-- Each step gets the same answer on both lines, and leaves them alike for the next one. -/
theorem alike_of_line (exchange : Exchange α) (identity : Identity) (alike : line.Alike twin)
    (s : Scheduler) : exchange.Alike identity line twin s := by
  induction exchange generalizing line twin s with
  | done result => exact ⟨rfl, rfl, alike, rfl⟩
  | abort cause => exact ⟨rfl, rfl, alike, rfl⟩
  | read length limit next ih =>
    obtain ⟨answer, after, after', here, there, left⟩ := alike.read length limit
    cases answer with
    | none =>
      refine ⟨?_, ?_, ?_, ?_⟩
      all_goals simp only [Exchange.effects, run, here, there, left]
    | some result =>
      obtain ⟨effects, ending, lines, scheduler⟩ := ih result left s
      refine ⟨?_, ?_, ?_, ?_⟩
      all_goals simp only [Exchange.effects, run, here, there, effects, ending, lines, scheduler]
  | write bytes next ih =>
    obtain ⟨answer, after, after', here, there, left⟩ := alike.write bytes
    obtain ⟨effects, ending, lines, scheduler⟩ := ih answer left s
    refine ⟨?_, ?_, ?_, ?_⟩
    all_goals simp only [Exchange.effects, run, here, there, effects, ending, lines, scheduler]
  | restart next ih =>
    obtain ⟨effects, ending, lines, scheduler⟩ := ih alike.restart s
    exact ⟨congrArg (List.cons _) effects, ending, lines, scheduler⟩
  | serve code payload next ih =>
    obtain ⟨effects, ending, lines, scheduler⟩ := ih _ (alike.notes _) _
    exact ⟨congrArg (List.cons _) effects, ending, lines, scheduler⟩
  | diagnose kind next ih =>
    obtain ⟨effects, ending, lines, scheduler⟩ := ih _ (alike.notes _) _
    exact ⟨congrArg (List.cons _) effects, ending, lines, scheduler⟩
  | note notice next ih =>
    obtain ⟨effects, ending, lines, scheduler⟩ := ih (alike.notes [notice]) s
    exact ⟨effects, ending, lines, scheduler⟩

end Exchange

/-! ## Polls -/

namespace Receiver

variable {receiver : Receiver} {line twin : ByteLine}

/-- What a board does with a line from some time on, if it does poll by poll what it does with a
fresh line that carries these bytes and nothing else. -/
structure GoesOn (receiver : Receiver) (identity : Identity) (line : ByteLine) (s : Scheduler)
    (bytes : List UInt8) : Prop where
  items : line.items = bytes.map .byte
  follows : ∀ visits, ∃ acts after fresh t,
    receiver.session identity visits line s = (acts, after, t) ∧
      receiver.session identity visits (.carrying bytes) s = (acts, fresh, t) ∧
      after.items = fresh.items

theorem visit_alike (receiver : Receiver) (identity : Identity) (now : Visit)
    (alike : line.Alike twin) (s : Scheduler) :
    ∃ act after after' t, receiver.visit identity now line s = (act, after, t) ∧
      receiver.visit identity now twin s = (act, after', t) ∧ after.Alike after' := by
  obtain ⟨effects, ending, lines, scheduler⟩ :=
    (receiver.pollInto now.buffer).alike_of_line identity alike (s.run now.history)
  refine ⟨_, _, _, _, rfl, ?_, lines⟩
  simp only [visit, effects, ending, scheduler]

theorem session_alike (receiver : Receiver) (identity : Identity) (visits : List Visit)
    (alike : line.Alike twin) (s : Scheduler) :
    ∃ acts after after' t, receiver.session identity visits line s = (acts, after, t) ∧
      receiver.session identity visits twin s = (acts, after', t) ∧ after.Alike after' := by
  induction visits generalizing line twin s with
  | nil => exact ⟨_, _, _, _, rfl, rfl, alike⟩
  | cons now later ih =>
    obtain ⟨act, between, between', t, here, there, still⟩ :=
      receiver.visit_alike identity now alike s
    obtain ⟨acts, after, after', u, followed, followed', left⟩ := ih still t
    refine ⟨act :: acts, after, after', u, ?_, ?_, left⟩
    all_goals simp only [session, here, there, followed, followed']

/-- Bytes that were left on a line are as good as fresh ones, as long as writes succeed. -/
theorem goesOn_of_items (receiver : Receiver) (identity : Identity) (s : Scheduler)
    {bytes : List UInt8} (items : line.items = bytes.map .byte) (writes : line.failingWrites = 0) :
    receiver.GoesOn identity line s bytes := by
  have alike : line.Alike (.carrying bytes) := ⟨items, writes⟩
  refine ⟨items, fun visits => ?_⟩
  obtain ⟨acts, after, fresh, t, here, there, left⟩ :=
    receiver.session_alike identity visits alike s
  exact ⟨acts, after, fresh, t, here, there, left.items⟩

end Receiver

end Animatronic
