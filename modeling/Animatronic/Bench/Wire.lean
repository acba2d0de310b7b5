import Animatronic.Hardware.Transceiver

/-!
# The wire

Bytes and line errors arrive on the wire at known times, and a clock counts microseconds.  Only
waiting for bytes takes time.  A read takes each item at the later of now and its arrival; a
limited read ends when its limit has passed, and loses what it took.

Nobody waits forever on a bench: each step has a horizon, and a read that is not over by then is
left waiting.
-/

namespace Animatronic

namespace Wire

/-- Something that arrives on the wire. -/
structure Arrival where
  time : Nat
  item : Except UartError UInt8

/-- How long a step may take, in microseconds; one that takes longer is given up. -/
def patience : Nat := 200000

end Wire

/-- A wire: the time `now` in microseconds, the time `horizon` at which the present step is given
up, the `arrivals` still to be read in their order, and how the next write and the next flush fail,
if they do. -/
structure Wire where
  now : Nat
  horizon : Nat
  arrivals : List Wire.Arrival
  failingWrite : Option UartError
  failingFlush : Option UartError

namespace Wire

/-- An empty wire at time zero. -/
def idle : Wire := ⟨0, patience, [], none, none⟩

/-- What a wait without any arrival comes to. -/
def expire {length : Nat} (expiry : Option Nat) (wire : Wire) : UartReading length × Wire :=
  match expiry with
  | some time =>
    if time < wire.horizon then (.expired, { wire with now := time }) else (.waiting, wire)
  | none => (.waiting, wire)

/-- Take items until `n` bytes are there, or `expiry` passes. -/
def collect (expiry : Option Nat) : (n : Nat) → Wire → UartReading n × Wire
  | 0, wire => (.bytes ⟨[], rfl⟩, wire)
  | n + 1, wire =>
    match wire.arrivals with
    | [] => wire.expire expiry
    | arrival :: rest =>
      let time := max wire.now arrival.time
      if expiry.any (· < time) then wire.expire expiry
      else if time < wire.horizon then
        let wire := { wire with now := time, arrivals := rest }
        match arrival.item with
        | .error error => (.failed error, wire)
        | .ok byte =>
          match collect expiry n wire with
          | (.bytes ⟨bytes, length⟩, wire) => (.bytes ⟨byte :: bytes, by simp [length]⟩, wire)
          | (.failed error, wire) => (.failed error, wire)
          | (.expired, wire) => (.expired, wire)
          | (.waiting, wire) => (.waiting, wire)
      else (.waiting, wire)

/-- A limit counts from now and is never shorter than a microsecond. -/
def read (length : Nat) (limit : Option Microseconds) (wire : Wire) :
    UartReading length × Wire :=
  collect (limit.map fun limit => wire.now + max limit.toNat 1) length wire

/-- The outcome of an operation that fails as told. -/
def attempt (failure : Option UartError) : Except UartError Unit :=
  match failure with
  | some error => .error error
  | none => .ok ()

/-- The wire as a UART. -/
def uart : Uart Wire where
  read := read
  write _ wire := (attempt wire.failingWrite, { wire with failingWrite := none })
  flush wire := (attempt wire.failingFlush, { wire with failingFlush := none })

/-! ## Putting things on the wire -/

/-- Something to be put on the wire, a gap after what is there, with `spacing` between one item and
the next. -/
structure Burst where
  gap : Nat
  items : List (Except UartError UInt8)
  spacing : Nat

/-- The time of the last arrival that is still to come, or now. -/
def lastTime (wire : Wire) : Nat :=
  match wire.arrivals.getLast? with
  | some arrival => max wire.now arrival.time
  | none => wire.now

/-- The arrivals of one burst. -/
def Burst.arrivals (burst : Burst) (last : Nat) : List Arrival :=
  burst.items.mapIdx fun place item => ⟨last + burst.gap + place * burst.spacing, item⟩

/-- The time that a burst leaves as the last one. -/
def Burst.last (burst : Burst) (last : Nat) : Nat :=
  last + burst.gap + (burst.items.length - 1) * burst.spacing

/-- The arrivals of bursts one after the other. -/
def schedule : List Burst → Nat → List Arrival
  | [], _ => []
  | burst :: rest, last => burst.arrivals last ++ schedule rest (burst.last last)

/-- Put bursts on the wire, one after the other. -/
def feed (bursts : List Burst) (wire : Wire) : Wire :=
  { wire with arrivals := wire.arrivals ++ schedule bursts wire.lastTime }

/-! ## Steps -/

/-- Begin a step: from now on there is a fresh horizon. -/
def beginStep (wire : Wire) : Wire := { wire with horizon := wire.now + patience }

/-- Give up a step that is still waiting: its whole time has passed. -/
def giveUp (wire : Wire) : Wire := { wire with now := wire.horizon }

end Wire

end Animatronic
