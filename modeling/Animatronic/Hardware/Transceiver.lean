import Animatronic.Bus.Exchange

/-!
# The transceiver

The transceiver hangs on a UART and has one more pin, which enables its driver.  The pin is high
only while bytes are written and flushed; it goes low again however the write ended, for a driver
left on would keep every other board off the bus.

The UART is a parameter (`Uart`), so that what is said of the transceiver holds for any pattern of
successes and failures.
-/

namespace Animatronic

/-- How a read on a UART came out: it is `expired` once its limit has passed, and `waiting` if the
bytes do not come and there is no limit. -/
inductive UartReading (length : Nat)
  | bytes (bytes : Bytes length)
  | failed (error : UartError)
  | expired
  | waiting

/-- A UART as the transceiver sees it. -/
structure Uart (Device : Type) where
  read : (length : Nat) → Option Microseconds → Device → UartReading length × Device
  write : List UInt8 → Device → Except UartError Unit × Device
  flush : Device → Except UartError Unit × Device

namespace Transceiver

/-- What is done to the UART and the driver pin. -/
inductive Event
  | driver (high : Bool)
  | read (length : Nat)
  | write (bytes : List UInt8)
  | flush
deriving DecidableEq

/-- The silence after which a restart takes the line to be empty. -/
def flushGap : Microseconds := 200

/-- The most bytes that a restart throws away. -/
def flushLimit : Nat := 64

end Transceiver

/-- A transceiver on a device, with what it did and wrote to the log so far. -/
structure Transceiver (Device : Type) where
  device : Device
  events : List Transceiver.Event
  log : List Notice

namespace Transceiver

variable {Device : Type}

/-- A transceiver on a device, with its driver off. -/
def initial (device : Device) : Transceiver Device := ⟨device, [.driver false], []⟩

def event (event : Event) (t : Transceiver Device) : Transceiver Device :=
  { t with events := t.events ++ [event] }

def note (notice : Notice) (t : Transceiver Device) : Transceiver Device :=
  { t with log := t.log ++ [notice] }

/-- Read bytes; a failure of the UART is logged and counts as one of the transceiver. -/
def read (uart : Uart Device) (length : Nat) (limit : Option Microseconds)
    (t : Transceiver Device) : Option (Except BusFault (Bytes length)) × Transceiver Device :=
  let (reading, device) := uart.read length limit t.device
  let t := { t.event (.read length) with device := device }
  match reading with
  | .bytes bytes => (some (.ok bytes), t)
  | .failed error => (some (.error .transceiver), t.note (.readFailed error))
  | .expired => (some (.error .timeout), t)
  | .waiting => (none, t)

/-- Hand bytes to the UART and, if it takes them, wait until they are on the wire. -/
def transmit (uart : Uart Device) (bytes : List UInt8) (t : Transceiver Device) :
    Except UartError Unit × Transceiver Device :=
  match uart.write bytes t.device with
  | (.ok (), device) =>
    let (flushed, device) := uart.flush device
    (flushed, { (t.event (.write bytes)).event .flush with device := device })
  | (.error error, device) => (.error error, { t.event (.write bytes) with device := device })

/-- Transmit with the driver on. -/
def write (uart : Uart Device) (bytes : List UInt8) (t : Transceiver Device) :
    Except BusFault Unit × Transceiver Device :=
  let (result, t) := (t.event (.driver true)).transmit uart bytes
  let t := t.event (.driver false)
  match result with
  | .ok () => (.ok (), t)
  | .error error => (.error .transceiver, t.note (.writeFailed error))

/-- Read up to `n` bytes one by one, and stop at a silence or a failure. -/
def discard (uart : Uart Device) :
    (n : Nat) → Transceiver Device → Option Unit × Transceiver Device
  | 0, t => (some (), t)
  | n + 1, t =>
    let (reading, device) := uart.read 1 (some flushGap) t.device
    let t := { t.event (.read 1) with device := device }
    match reading with
    | .bytes _ => discard uart n t
    | .failed _ | .expired => (some (), t)
    | .waiting => (none, t)

/-- Turn the driver off and empty the line. -/
def restart (uart : Uart Device) (t : Transceiver Device) : Option Unit × Transceiver Device :=
  discard uart flushLimit (t.event (.driver false))

/-- The transceiver as a bus. -/
def bus (uart : Uart Device) : Bus (Transceiver Device) where
  read length limit t := t.read uart length limit
  write bytes t := t.write uart bytes
  restart t := t.restart uart
  note notice t := t.note notice

end Transceiver

end Animatronic
