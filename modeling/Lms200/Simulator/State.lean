import Lms200.Coop.Partner
import Lms200.Device.Tasks

/-!
# The simulated scanner

`SimulatorTransport` of `transports/simulator.py`. What commands change and replies report is the
`Scanner`; the `Simulator` adds the switches of the tests, the bytes on their way and the locals of
a `write` which is under way. A resolution is in hundredths of a degree.

The distances of a synthetic scan come from a contour, which stands for the trigonometry. The bytes
emitted and not yet read are one list: a read takes some of its front.
-/

namespace Lms200

open Coop

/-- A rate with its codes. -/
structure Rate where
  baud : ℕ
  known : (BAUD_CODES baud).isSome = true
  deriving DecidableEq

theorem known_9600 : (BAUD_CODES 9600).isSome = true := rfl
theorem known_19200 : (BAUD_CODES 19200).isSome = true := rfl
theorem known_38400 : (BAUD_CODES 38400).isSome = true := rfl
theorem known_500000 : (BAUD_CODES 500000).isSome = true := rfl

/-- `next(b for b, c in BAUD_CODES.items() if c == code)` -/
def Rate.ofCode (code : UInt8) : Option Rate :=
  if code = 0x42 then some ⟨9600, known_9600⟩
  else if code = 0x41 then some ⟨19200, known_19200⟩
  else if code = 0x40 then some ⟨38400, known_38400⟩
  else if code = 0x48 then some ⟨500000, known_500000⟩
  else none

/-- `next(k for k, v in STATUS_BAUD_CODES.items() if v == baud)` -/
def Rate.statusCode (rate : Rate) : ℕ :=
  if rate.baud = 9600 then 0x8067
  else if rate.baud = 19200 then 0x8033
  else if rate.baud = 38400 then 0x8019
  else 0x8001

/-- `data[position:position + len(bytes)] = bytes`, inside of the data -/
def overwrite (data : Bytes) (position : ℕ) (bytes : Bytes) : Bytes :=
  data.mapIdx fun i b =>
    if position ≤ i ∧ i < position + bytes.length then bytes.getD (i - position) 0 else b

/-- The block of `default_configuration`. -/
def defaultBlock : Bytes :=
  [0, 0, 0x46, 0, 0, 2, 1, 0, 0, 2, 2, 2, 0, 0, 10, 10, 80, 100, 0, 10, 10, 80, 100, 0, 10, 10, 80,
    100, 0, 0, 0, 0, 2, 0]

theorem length_defaultBlock : defaultBlock.length = 32 ∨ defaultBlock.length = 34 := .inr rfl

/-- `default_configuration` -/
def default_configuration : Configuration := ⟨defaultBlock, length_defaultBlock⟩

/-- What commands change and replies report, with the rate of the adapter. -/
structure Scanner where
  baud : ℕ := 9600
  device_baud : Rate := ⟨9600, known_9600⟩
  angle : ℕ := 180
  resolution : ℕ := 50
  config : Configuration := default_configuration
  mode : UInt8 := 0x25
  status : UInt8 := 0x10
  commands : List Bytes := []
  geometry : validate_geometry angle resolution = .ok ()

/-- `LMS200;301063;V02.10 ` -/
def simulatorType : Bytes :=
  [0x4C, 0x4D, 0x53, 0x32, 0x30, 0x30, 0x3B, 0x33, 0x30, 0x31, 0x30, 0x36, 0x33, 0x3B, 0x56, 0x30, 0x32, 0x2E,
    0x31, 0x30, 0x20]

/-- `V02.10 ` -/
def simulatorFirmware : Bytes := [0x56, 0x30, 0x32, 0x2E, 0x31, 0x30, 0x20]

/-- `SICK_LMS` -/
def simulatorPassword : Bytes := [0x53, 0x49, 0x43, 0x4B, 0x5F, 0x4C, 0x4D, 0x53]

namespace Scanner

/-- `int(self.config.unit == "mm")`, for a unit which is known. -/
def unitByte (unit : DistanceUnit) : UInt8 := if unit = .mm then 1 else 0

/-- The block of `status_data`, for a unit which is known. -/
def statusBlock (s : Scanner) (unit : DistanceUnit) : Bytes :=
  let data := overwrite (List.replicate 152 0) 0 simulatorFirmware
  let data := overwrite data 7 [s.mode, if 3 ≤ s.status &&& 7 then 1 else 0]
  let data := overwrite data 101 [s.config.mode]
  let data := overwrite data 106 (toBytesLittle s.angle ++ toBytesLittle s.resolution)
  let data := overwrite data 115 (toBytesLittle s.device_baud.statusCode)
  let data := overwrite data 121 [unitByte unit]
  overwrite data 123 simulatorFirmware

/-- `status_data` -/
def status_data (s : Scanner) : Except Error Bytes := do
  let unit ← s.config.unit
  return s.statusBlock unit

/-- What a request does: the scanner after it, the reply without its status byte, and the rate the
scanner changes to behind the reply. -/
structure Outcome where
  scanner : Scanner
  result : Bytes
  new_baud : Option Rate := none

/-- The mode requests, which include the changes of the rate. -/
def setMode (s : Scanner) (payload : Bytes) : Outcome :=
  let code := payload.getD 1 0
  if code = 0 ∧ payload.drop 2 = simulatorPassword then ⟨{ s with mode := 0 }, [0xA0, 0x00], none⟩
  else if (code = 0x24 ∨ code = 0x25) ∧ payload.length = 2 then
    ⟨{ s with mode := code }, [0xA0, 0x00], none⟩
  else
    match Rate.ofCode code with
    | some rate => if payload.length = 2 then ⟨s, [0xA0, 0x00], some rate⟩ else ⟨s, [0xA0, 0x01], none⟩
    | none => ⟨s, [0xA0, 0x01], none⟩

/-- The variant request. -/
def setVariant (s : Scanner) (payload : Bytes) : Outcome :=
  let angle := fromBytesLittle (slice payload 1 3)
  let resolution := fromBytesLittle (slice payload 3 5)
  if geometry : validate_geometry angle resolution = .ok () then
    ⟨{ s with angle, resolution, geometry }, [0xBB, 0x01] ++ payload.drop 1, none⟩
  else ⟨s, [0xBB, 0x00] ++ payload.drop 1, none⟩

/-- The configuration request. -/
def setConfig (s : Scanner) (payload : Bytes) : Except Error Outcome := do
  let config ← Configuration.ofRaw (payload.drop 1)
  return ⟨{ s with config }, [0xF7, 0x01] ++ config.raw, none⟩

/-- The requests which `write` knows, and the rejection of all others. -/
def perform (s : Scanner) (payload : Bytes) : Except Error Outcome :=
  if payload = [0x31] then s.status_data.map fun data => ⟨s, 0xB1 :: data, none⟩
  else if payload = [0x3A] then .ok ⟨s, 0xBA :: simulatorType, none⟩
  else if payload = [0x74] then .ok ⟨s, 0xF4 :: s.config.raw, none⟩
  else if payload.headD 0 = 0x20 ∧ 2 ≤ payload.length then .ok (s.setMode payload)
  else if payload.headD 0 = 0x3B ∧ payload.length = 5 ∧ (s.mode = 0 ∨ s.mode = 0x25) then
    .ok (s.setVariant payload)
  else if payload.headD 0 = 0x77 ∧ (payload.length = 33 ∨ payload.length = 35) ∧ s.mode = 0 then
    s.setConfig payload
  else .ok ⟨s, [0x92], none⟩

end Scanner

/-- The transport: the scanner, the switches of the tests, the framer of the requests, the bytes
emitted and not yet read, the producer task, the counters of scans, and the locals of a `write`. -/
structure Simulator extends Scanner where
  nak_next : ℕ := 0
  silence_next : ℕ := 0
  omit_ack : Bool := false
  incoming : Framer := {}
  queue : Bytes := []
  producer : Bool := false
  scan_index : ℕ := 0
  telegram_index : ℕ := 0
  requests : List Event := []
  reply : Option (Bytes × Option Rate) := none

/-- A distance of the synthetic room: by the angle, the resolution and the unit, for a telegram and
a point of it. -/
abbrev Contour := ℕ → ℕ → DistanceUnit → ℕ → ℕ → UInt16

namespace Simulator

/-- `_emit` -/
def emit (s : Simulator) (data : Bytes) : Simulator := { s with queue := s.queue ++ data }

/-- `open` -/
def opening (s : Simulator) : Simulator := { s with queue := [], producer := true }

/-- `close` -/
def closing (s : Simulator) : Simulator := { s with producer := false }

/-- `set_baud` -/
def set_baud (s : Simulator) (baud : ℕ) : Simulator := { s with baud }

/-- The start of `write`: the telegrams are found, unless the rates differ. -/
def write (s : Simulator) (data : Bytes) : Simulator :=
  if s.baud ≠ s.device_baud.baud then { s with requests := [] }
  else { s with
    incoming := (s.incoming.feed data).2
    requests := (s.incoming.feed data).1.events.map Prod.snd }

/-- One request, up to the delay before its reply. -/
def accept (s : Simulator) (payload : Bytes) : Option Error × Simulator :=
  let s := { s with commands := s.commands ++ [payload] }
  if 0 < s.silence_next then (none, { s with silence_next := s.silence_next - 1 })
  else if 0 < s.nak_next then (none, { s with nak_next := s.nak_next - 1 }.emit [Control.NAK.byte])
  else
    match s.perform payload with
    | .error e => (some e, s)
    | .ok outcome =>
      let s := { s with toScanner := outcome.scanner, reply := some (outcome.result, outcome.new_baud) }
      (none, if s.omit_ack then s else s.emit [Control.ACK.byte])

/-- The next request of the loop of `write`. -/
def take (s : Simulator) : Event → Option Error × Simulator
  | .frame f => if f.address = 0 ∨ f.address = 1 then s.accept f.payload else (none, s)
  | .control _ => (none, s)

/-- A turn of `write`: the reply which is due, the next request, or the return. -/
def serve (s : Simulator) : Option (Except Error Unit) × Simulator :=
  match s.reply with
  | some (result, new_baud) =>
    match encode (result ++ [s.status]) 0x81 with
    | .ok telegram => (none, { s.emit telegram with
        reply := none
        device_baud := new_baud.getD s.device_baud })
    | .error m => (some (.error (.value m)), { s with reply := none, requests := [] })
  | none =>
    match s.requests with
    | [] => (some (.ok ()), s)
    | request :: rest =>
      match { s with requests := rest }.take request with
      | (none, s) => (none, s)
      | (some e, s) => (some (.error e), { s with requests := [] })

/-- The payload of a scan, for a unit which is known. -/
def scanPayload (contour : Contour) (s : Simulator) (unit : DistanceUnit) : Bytes :=
  let count := s.angle * 100 / s.resolution + 1
  let header := if unit = .mm then count ||| 0x4000 else count
  let distances := (List.range count).flatMap fun index =>
    toBytesLittle (contour s.angle s.resolution unit s.telegram_index index).toNat
  let indices := if s.config.indices then [UInt8.ofNat s.scan_index, UInt8.ofNat s.telegram_index] else []
  0xB0 :: (toBytesLittle header ++ distances ++ indices) ++ [s.status]

/-- `scan_bytes` -/
def scan_bytes (contour : Contour) (s : Simulator) : Except Error (Bytes × Simulator) := do
  let unit ← s.config.unit
  let telegram ← (encode (s.scanPayload contour unit) 0x81).mapError .value
  return (telegram, { s with
    scan_index := (s.scan_index + 100 / s.resolution) % 256
    telegram_index := (s.telegram_index + 1) % 256 })

end Simulator

/-- The client and its transport. -/
abbrev Bench := Device × Simulator

/-- What happens at the bench while a call is suspended. -/
inductive Outside where
  | tick (elapsed : ℚ≥0)
  | begin
  | read (size : ℕ)
  | produce

namespace Bench

/-- The reader is in a read. -/
def reading (d : Device) : Bool :=
  match d.reader with
  | some (.running _) => true
  | _ => false

/-- The clock, the reader and the producer. -/
def react (contour : Contour) : Outside → Bench → Option Bench
  | .tick elapsed, (d, s) => some (d.react (.tick elapsed), s)
  | .begin, (d, s) => some (d.react .begin, s)
  | .read size, (d, s) =>
    if ¬ reading d ∨ size = 0 then none
    else if ¬ s.producer then some (d.react (.read .eof), s)
    else some (d.react (.read (.data (s.queue.take size))), { s with queue := s.queue.drop size })
  | .produce, (d, s) =>
    if s.producer ∧ s.mode = 0x24 ∧ s.baud = s.device_baud.baud then
      match s.scan_bytes contour with
      | .ok (raw, s) => some (d, s.emit raw)
      | .error _ => none
    else none

/-- What may happen at the bench. -/
def env (contour : Contour) (b b' : Bench) : Prop := ∃ input, react contour input b = some b'

/-- A wait of the device where its call reaches it. Opening and changing the rate do not suspend. -/
def enter (task : ℕ) : (w : Request) → Bench → Option (Except Error w.Answer) × Bench
  | .openTransport, (d, s) => (some (.ok ()), d, s.opening)
  | .setBaud rate, (d, s) =>
    (some (.ok ()), { d.log (.baud rate) with transport.baud := rate }, s.set_baud rate)
  | .write telegram, (d, s) => (none, d, s.write telegram)
  | .closeTransport, (d, s) => (none, d, s.closing)
  | w, (d, s) => ((Device.enter task w d).1, (Device.enter task w d).2, s)

/-- A turn of a wait of the device. The timer of a command does not fire while bytes of the scanner
wait to be read, or events to be heard. -/
def resume (task : ℕ) : (w : Request) → Choice → Bench → Option (Option (Except Error w.Answer) × Bench)
  | .write _, _, (d, s) => some (s.serve.1, d, s.serve.2)
  | .closeTransport, _, b => some (some (.ok ()), b)
  | .reply cmd, .raised e, (d, s) =>
    if s.queue = [] ∧ d.events = [] then
      (Device.resume task (.reply cmd) (.raised e) d).map fun (answer, d) => (answer, d, s)
    else none
  | w, choice, (d, s) => (Device.resume task w choice d).map fun (answer, d) => (answer, d, s)

/-- The waits of the device, with the simulator as the transport. -/
def waits : Waits Bench Request Request.Answer Error Choice := ⟨enter, resume⟩

end Bench

end Lms200
