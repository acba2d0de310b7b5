import Animatronic.Bus.Receiver

/-!
# The byte line

The simplest bus: a queue of bytes, with marks for a silence and for faults between them.  A read
takes its bytes from the front and loses them if it fails.  A silence makes a limited read fail and
stays in place, while a read without a limit waits it out.  Restarting throws away everything up to
and including the first silence.

The line keeps a list of the calls made on it, and the log of the board that listens.
-/

namespace Animatronic

namespace ByteLine

/-- What comes in on the line. -/
inductive Item
  | byte (byte : UInt8)
  | silence
  | fault (fault : BusFault)
deriving DecidableEq

/-- How a read ended. -/
inductive ReadEnd
  | complete
  | failed (fault : BusFault)
  | waiting
deriving DecidableEq

/-- A call on the bus. -/
inductive Call
  | read (length : Nat) (limit : Option Microseconds) (ending : ReadEnd)
  | write (bytes : List UInt8) (failed : Bool)
  | restart
deriving DecidableEq

end ByteLine

/-- A line: the `items` still to be read, front first, how many of the next writes fail, and the
calls and the log so far. -/
structure ByteLine where
  items : List ByteLine.Item
  failingWrites : Nat
  calls : List ByteLine.Call
  log : List Notice
deriving DecidableEq

namespace ByteLine

/-- A line on which nothing has happened. -/
def quiet : ByteLine := ⟨[], 0, [], []⟩

/-- What a read of `n` bytes finds: the bytes, or how it failed, and the items left.  A patient
read has no limit. -/
def take (patient : Bool) : (n : Nat) → List Item → Except ReadEnd (Bytes n) × List Item
  | 0, items => (.ok ⟨[], rfl⟩, items)
  | n + 1, items =>
    match if patient then items.dropWhile (· = .silence) else items with
    | .byte byte :: rest =>
      match take patient n rest with
      | (.ok ⟨bytes, length⟩, rest) => (.ok ⟨byte :: bytes, by simp [length]⟩, rest)
      | (.error ending, rest) => (.error ending, rest)
    | .fault fault :: rest => (.error (.failed fault), rest)
    | .silence :: rest => (.error (.failed .timeout), .silence :: rest)
    | [] => (.error (if patient then .waiting else .failed .timeout), [])

/-- A read that finds its bytes takes exactly them. -/
theorem take_map_byte (patient : Bool) (bytes : List UInt8) (rest : List Item) :
    take patient bytes.length (bytes.map .byte ++ rest) = (.ok ⟨bytes, rfl⟩, rest) := by
  induction bytes with
  | nil => simp [take]
  | cons byte bytes ih =>
    have front : (if patient then
        ((byte :: bytes).map Item.byte ++ rest).dropWhile (· = .silence)
      else (byte :: bytes).map Item.byte ++ rest) = .byte byte :: (bytes.map .byte ++ rest) := by
      cases patient <;> simp
    simp only [List.length_cons, take, front, ih]

/-- Read bytes off the front of the line; a read without a limit is patient. -/
def read (length : Nat) (limit : Option Microseconds) (line : ByteLine) :
    Option (Except BusFault (Bytes length)) × ByteLine :=
  let (taken, items) := take limit.isNone length line.items
  let finish (ending : ReadEnd) : ByteLine :=
    { line with items := items, calls := line.calls ++ [.read length limit ending] }
  match taken with
  | .ok bytes => (some (.ok bytes), finish .complete)
  | .error (.failed fault) => (some (.error fault), finish (.failed fault))
  | .error ending => (none, finish ending)

/-- Write bytes; as many writes as were announced fail. -/
def write (bytes : List UInt8) (line : ByteLine) : Except BusFault Unit × ByteLine :=
  let failed : Bool := 0 < line.failingWrites
  (if failed then .error .transceiver else .ok (),
    { line with
      failingWrites := line.failingWrites - 1
      calls := line.calls ++ [.write bytes failed] })

/-- Throw away everything up to and including the first silence. -/
def restart (line : ByteLine) : ByteLine :=
  { line with
    items := (line.items.dropWhile (· ≠ .silence)).tail
    calls := line.calls ++ [.restart] }

def note (notice : Notice) (line : ByteLine) : ByteLine :=
  { line with log := line.log ++ [notice] }

/-- The byte line as a bus. -/
def bus : Bus ByteLine where
  read := read
  write := write
  restart line := (some (), restart line)
  note := note

/-- More items arrive. -/
def feed (items : List Item) (line : ByteLine) : ByteLine :=
  { line with items := line.items ++ items }

/-- Receive once. -/
def poll (receiver : Receiver) (identity : Identity) (line : ByteLine) (s : Scheduler) :
    Ending Outcome × ByteLine × Scheduler :=
  receiver.poll.run bus identity line s

/-- Receive for as long as something comes in, and log each outcome.  Every poll that ends takes an
item off the line, so that as many polls as there are items, and one that waits, are enough. -/
def listenFor (receiver : Receiver) (identity : Identity) :
    Nat → ByteLine → Scheduler → Ending Unit × ByteLine × Scheduler
  | 0, line, s => (.waiting, line, s)
  | fuel + 1, line, s =>
    match poll receiver identity line s with
    | (.finished outcome, line, s) =>
      listenFor receiver identity fuel (line.note (.received outcome)) s
    | (.waiting, line, s) => (.waiting, line, s)
    | (.aborted cause, line, s) => (.aborted cause, line, s)

/-- Receive until the line is used up and the board waits. -/
def listen (receiver : Receiver) (identity : Identity) (line : ByteLine) (s : Scheduler) :
    Ending Unit × ByteLine × Scheduler :=
  listenFor receiver identity (line.items.length + 1)
    (line.note (.listening receiver.board)) s

end ByteLine

end Animatronic
