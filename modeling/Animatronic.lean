import Animatronic.Bench.Node
import Animatronic.Bench.WiredNode
import Animatronic.Board.Straps
import Animatronic.Firmware.MemoryMap
import Animatronic.Hardware.HBridge
import Animatronic.Hardware.HallSensor
import Animatronic.Proofs.Playlist.Playback
import Animatronic.Proofs.Receiver.Acceptance
import Animatronic.Proofs.Receiver.Alignment
import Animatronic.Proofs.Playlist.Activation
import Animatronic.Proofs.Scheduler.Capacity
import Animatronic.Proofs.Playlist.EmergencyStop
import Animatronic.Proofs.Exchange.Completion
import Animatronic.Proofs.Receiver.Discipline
import Animatronic.Proofs.Service.Acknowledgement
import Animatronic.Proofs.Receiver.BitError
import Animatronic.Proofs.Receiver.SharedBus
import Animatronic.Proofs.Playlist.Restart
import Animatronic.Proofs.Playlist.Reactivation
import Animatronic.Proofs.Control.Bounds
import Animatronic.Proofs.Receiver.Overhearing
import Animatronic.Proofs.Control.PulseDirection
import Animatronic.Proofs.Playlist.HeldTarget
import Animatronic.Proofs.Hardware.BridgeOutput
import Animatronic.Proofs.Hardware.DriverEnable
import Animatronic.Proofs.Control.TargetRange
import Animatronic.Proofs.Hardware.Sampling
import Animatronic.Proofs.Service.ReadValue
import Animatronic.Proofs.Pool.Arena
import Animatronic.Proofs.Receiver.Patience
