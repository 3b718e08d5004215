import Lms200.Protocol.Measurements
import Mathlib.Data.NNRat.Defs
import Mathlib.Algebra.Field.Rat

/-!
# The device and its reader

The fields of `Device` in `state_machine.py`, the settings it uses, and what the reader task does
between two reads of the transport.

The fields of the session are the ones the reader never touches. The last four fields of the
device record what happened: the events ever queued, how many there were at each fault of the
reader, and the number of the reply accepted last; the wire log is the one of the session. The
texts of `note` and the time stamps of scans are left out.
-/

namespace Lms200

/-- The confirmations asked for before hardware is written to. -/
structure HardwareConsent where
  power_connector_identified : Bool := false
  data_connector_identified : Bool := false
  serial_standard_selected : Bool := false
  adapter_voltage_verified : Bool := false
  rs422_pins_7_8_bridged : Bool := false
  deriving DecidableEq, Repr

/-- The serial standards. -/
inductive SerialStandard where
  | rs232
  | rs422
  deriving DecidableEq, Repr

/-- The transports a configuration may name. -/
inductive TransportKind where
  | serial
  | tcp
  | simulator
  | replay
  deriving DecidableEq, Repr

/-- `HardwareConsent.require` -/
def HardwareConsent.require (consent : HardwareConsent) (standard : SerialStandard) :
    Except Error Unit :=
  if ¬ (consent.power_connector_identified ∧ consent.data_connector_identified ∧
      consent.serial_standard_selected ∧ consent.adapter_voltage_verified) then
    .error (.value "Confirm power/data connectors, serial standard, and adapter/cable voltages")
  else if standard = .rs422 ∧ ¬ consent.rs422_pins_7_8_bridged then
    .error (.value "Confirm scanner data pins 7 and 8 are bridged for RS-422")
  else .ok ()

/-- The settings which the device uses, with what their validation ensures. -/
structure Settings where
  transport : TransportKind := .simulator
  detect_baud : Bool := true
  target_baud : Option ℕ := none
  serial_standard : SerialStandard := .rs232
  high_speed : Bool := false
  address : ℕ := 0
  angle : ℕ := 180
  resolution : ℕ := 100
  unit : DistanceUnit := .mm
  indices : Bool := true
  read_only : Bool := true
  consent : HardwareConsent := {}
  password : String := "SICK_LMS"
  startup_wait : ℚ := 0
  ack_timeout : ℚ := 1 / 4
  timeout_scale : ℚ := 1
  stream_timeout : ℚ := 4
  address_le : address ≤ 127 := by decide
  geometry : validate_geometry angle resolution = .ok () := by rfl
  target_supported : ∀ baud ∈ target_baud, (BAUD_CODES baud).isSome = true := by simp

namespace Settings

/-- The settings of a call without arguments. -/
def defaults : Settings := {}

/-- `Settings.physical` -/
def physical (s : Settings) : Bool := s.transport = .serial ∨ s.transport = .tcp

/-- `Settings.require_write` -/
def require_write (s : Settings) : Except Error Unit :=
  if s.physical then
    if s.read_only then
      .error (.value "Read-only mode: explicitly enable writes and confirm hardware checklist")
    else s.consent.require s.serial_standard
  else .ok ()

end Settings

/-- The states of the device. -/
inductive State where
  | DISCONNECTED
  | OPENING
  | DETECTING
  | CONNECTED
  | STATUS
  | INSTALLATION
  | CONFIGURING
  | BAUD
  | VERIFYING
  | STARTING
  | STREAMING
  | RECOVERING
  | STOPPING
  | FAULTED
  deriving DecidableEq, Repr

/-- The counters of the device. -/
structure Counters where
  timeouts : ℕ := 0
  naks : ℕ := 0
  malformed : ℕ := 0
  unexpected : ℕ := 0
  dropped_scans : ℕ := 0
  received_scans : ℕ := 0
  deriving DecidableEq, Repr

/-- What a replay transport knows from the sidecar of its recording. -/
structure Metadata where
  configuration : Configuration
  device_status : DeviceStatus
  model : Bytes
  deriving DecidableEq, Repr

/-- A transport; only replays have a sidecar, which may fail to parse. -/
structure Transport where
  baud : ℕ := 9600
  can_set_baud : Bool := true
  replay : Option (Except Error Metadata) := none

/-- What the reader queues for the command which waits. -/
inductive Incoming where
  | control (c : Control)
  | reply (r : Response)
  | error (e : Error)
  deriving DecidableEq, Repr

/-- The reader task: created, between reads since some bytes or expiry, or ended. -/
inductive Reader where
  | created
  | running (last_bytes : ℚ)
  | ended
  deriving DecidableEq, Repr

/-- The command on its way, and the locals of its waiting loop. -/
structure Pending where
  command : Command
  ack : Bool
  deadline : ℚ
  deriving DecidableEq, Repr

/-- What happens on the transport and to the session: opening at a rate, a write attempt, a
changed rate, an accepted reply, the start of a close, and the close of the transport. -/
inductive Wire where
  | opened (baud : ℕ)
  | wrote (payload : Bytes)
  | baud (rate : ℕ)
  | accepted (reply : Response)
  | stopping
  | closing (changed : Bool)
  deriving DecidableEq, Repr

/-- The fields which the reader does not touch. -/
structure Session where
  settings : Settings
  transport : Transport := {}
  info : Option DeviceStatus := none
  model : Option Bytes := none
  configuration : Option Configuration := none
  operation_lock : Option ℕ := none
  changed : Bool := false
  opened : Bool := false
  wire : List Wire := []

/-- The device. -/
structure Device extends Session where
  state : State := .DISCONNECTED
  history : List State := [.DISCONNECTED]
  counters : Counters := {}
  framer : Framer := {}
  latest : Option Scan := none
  error : Option String := none
  events : List (ℕ × Incoming) := []
  reader : Option Reader := none
  command_lock : Option ℕ := none
  times : List ℚ := []
  last_telegram_index : Option UInt8 := none
  stream_since : ℚ := 0
  now : ℚ := 0
  pending : Option Pending := none
  queued : ℕ := 0
  faults : List ℕ := []
  accepted : Option ℕ := none

/-- `str(exc)` -/
def Error.message : Error → String
  | .timeout m | .protocol m | .device m | .value m | .eof m | .os m => m

namespace Device

/-- `transition` -/
def transition (d : Device) (state : State) : Device :=
  { d with state, history := d.history ++ [state] }

/-- `_queue`: a full queue loses its oldest event. -/
def queue (d : Device) (event : Incoming) : Device :=
  let d := if 64 ≤ d.events.length then
    { d with
      events := d.events.drop 1
      counters.unexpected := d.counters.unexpected + 1 }
    else d
  { d with events := d.events ++ [(d.queued, event)], queued := d.queued + 1 }

/-- The reader gives a reason and enters the fault state. -/
def fault (d : Device) (error : String) : Device :=
  { d.transition .FAULTED with error := some error, faults := d.faults ++ [d.queued] }

/-- A telegram which no waiting command can use. -/
def malformed (d : Device) : Device :=
  { d with counters.malformed := d.counters.malformed + 1 }

/-- Keep a scan. -/
def keep (d : Device) (scan : Scan) : Device :=
  let gap := match scan.telegram_index, d.last_telegram_index with
    | some this, some last => (this - last - 1).toNat
    | _, _ => 0
  { d with
    counters.dropped_scans := d.counters.dropped_scans + gap
    counters.received_scans := d.counters.received_scans + 1
    last_telegram_index := scan.telegram_index
    times := (d.times ++ [d.now]).drop (d.times.length + 1 - 150)
    latest := some scan }

/-- The scan of a healthy scanner. -/
def scanOf (d : Device) (info : DeviceStatus) (configuration : Configuration) (reply : Response) :
    Except Error Scan := do
  let scan ← decode_scan reply info.angle info.resolution configuration
    (d.counters.received_scans + 1)
  require_healthy reply
  return scan

/-- A measurement telegram, dropped while the configuration is unknown. -/
def measure (d : Device) (reply : Response) : Device :=
  match d.configuration, d.info with
  | some configuration, some info =>
    match d.scanOf info configuration reply with
    | .ok scan => d.keep scan
    | .error (.device m) => (d.queue (.error (.device m))).fault m
    | .error _ => d.malformed
  | _, _ => d

/-- `_handle` -/
def handle (d : Device) : Event → Device
  | .control c => d.queue (.control c)
  | .frame f =>
    match response f d.settings.address with
    | .error (.device m) => d.queue (.error (.device m))
    | .error _ => d.malformed
    | .ok reply =>
      if reply.command = 0xB0 then d.measure reply
      else if reply.command = 0x90 ∨ reply.command = 0x91 then
        if d.state = .STREAMING then
          d.fault "Scanner reset during streaming; reconnect required"
        else d
      else d.queue (.reply reply)

/-- The events of one call of the framer. -/
def handleAll (d : Device) (fed : Emitted × Framer) : Device :=
  (fed.1.events.map Prod.snd).foldl handle { d with framer := fed.2 }

/-- A stream without scans for too long. -/
def watchdog (d : Device) : Device :=
  if d.state = .STREAMING ∧
      d.settings.stream_timeout < d.now - d.times.getLast?.getD d.stream_since then
    { d with counters.timeouts := d.counters.timeouts + 1 }.fault
      "Measurement timeout; reconnect required"
  else d

/-- The reader ends with an exception for the waiting command. -/
def readerEnds (d : Device) (e : Error) : Device :=
  { d.queue (.error e) with reader := some .ended }

end Device

/-- What a read of the transport gives. -/
inductive ReadResult where
  | data (bytes : Bytes)
  | eof
  | failure
  deriving DecidableEq, Repr

/-- What happens to the device outside the tasks which issue commands. -/
inductive Input where
  | tick (elapsed : ℚ≥0)
  | begin
  | read (result : ReadResult)

namespace Device

/-- The end of the transport. -/
def readEof (d : Device) : Device :=
  let d := if d.transport.replay.isSome then
      if d.framer.buffer = [] then d.transition .CONNECTED
      else { d with
        framer.stats.truncated_frames := d.framer.stats.truncated_frames + 1
        }.fault "Replay ended inside a telegram"
    else d.fault "Transport disconnected"
  d.readerEnds (.eof "Transport ended")

/-- A read which fails otherwise. -/
def readFailure (d : Device) : Device :=
  (d.fault "Transport read failed; inspect host connection").readerEnds
    (.os "Transport read failed; inspect host connection")

/-- One pass of `_read_loop` over bytes, or over an idle read. -/
def readData (d : Device) (last_bytes : ℚ) (bytes : Bytes) : Device :=
  if bytes ≠ [] then
    ({ d.handleAll (d.framer.feed bytes) with reader := some (.running d.now) }).watchdog
  else if d.framer.buffer ≠ [] ∧ 1 / 4 < d.now - last_bytes then
    ({ d.handleAll d.framer.expire with reader := some (.running d.now) }).watchdog
  else d.watchdog

/-- A read of the transport ends. -/
def read (d : Device) (result : ReadResult) : Device :=
  match d.reader, result with
  | some (.running last_bytes), .data bytes => d.readData last_bytes bytes
  | some (.running _), .eof => d.readEof
  | some (.running _), .failure => d.readFailure
  | _, _ => d

/-- Time passes, the reader task begins, or one of its reads ends. -/
def react (d : Device) : Input → Device
  | .tick elapsed => { d with now := d.now + elapsed }
  | .begin => if d.reader = some .created then { d with reader := some (.running d.now) } else d
  | .read result => d.read result

end Device

end Lms200
