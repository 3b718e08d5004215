import Lms200.Resync.Lexer
import Lms200.Protocol.OfflineScan
import Lms200.Protocol.RoundTrip
import Lms200.Protocol.Damage
import Lms200.Native.Decoder
import Lms200.Native.DecoderEquivalence
import Lms200.Native.Handshake
import Lms200.Coop.Logic
import Lms200.Native.Sequence
import Lms200.Native.SequenceSafety
import Lms200.Protocol.Responses
import Lms200.Diagnostic.Capture
import Lms200.Protocol.Evidence
import Lms200.Diagnostic.Credit
import Lms200.Coop.Pool
import Lms200.Protocol.Measurements
import Lms200.Traffic.Pattern
import Lms200.Device.Initialization
import Lms200.Device.Keeps
import Lms200.Device.Streaming
import Lms200.Native.ScanEquivalence
import Lms200.Replay.Player
import Lms200.Replay.Lossless
import Lms200.Device.Attempts
import Lms200.Service.Isolation
import Lms200.Service.Draining
import Lms200.Service.Recovery
import Lms200.Device.Watchdog
import Lms200.Service.Stop
import Lms200.Protocol.ScanExact
import Lms200.Device.Raising
import Lms200.Native.StatusEquivalence
import Lms200.Native.Certainty
import Lms200.Ros2.Agreement
import Lms200.Ros2.SingleStatus
import Lms200.Diagnostic.Guarded
import Lms200.Bridge.Exclusive
import Lms200.Device.LostTelegrams
import Lms200.Protocol.Accounting
import Lms200.Native.Corruption
import Lms200.Diagnostic.Pairing
import Lms200.Service.Fanout
import Lms200.Service.Ledger
import Lms200.Json.Loads
import Lms200.Ros2.Relay
import Lms200.Diagnostic.Windows
import Lms200.Diagnostic.Paced
import Lms200.Diagnostic.ResetExperiment
import Lms200.Simulator.Agreement
