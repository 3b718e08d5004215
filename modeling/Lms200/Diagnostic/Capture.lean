import Lms200.Protocol.Responses

/-!
# The diagnostic capture

The `Capture` of `hardware_diagnostic.py`, which the single-request modes, the repeated status
mode and the ROS 2 experiment share, and the ways they use it around a transmission.

The journal is left out. The details of a telegram are one dictionary, shared between the
report and the queue of valid candidates, so later annotations show in the report.
-/

namespace Lms200.Diagnostic

/-- When a read was made. -/
inductive Phase where
  | passive
  | pre_tx
  | post_tx
  deriving DecidableEq, Repr

/-- The evidence kept for one complete candidate, and what decoding added to it. -/
structure Detail where
  offset_start : ℕ
  offset_end : ℕ
  length : ℕ
  payload_length : ℕ
  address : UInt8
  command : UInt8
  raw : Bytes
  crc_expected : ℕ
  crc_received : ℕ
  crc_valid : Bool
  status_byte : Option StatusByte := none
  identity : Option Bytes := none
  decoded_status : Option DeviceStatus := none
  preceding_post_tx_ack : Option Bool := none
  decode_error : Option Error := none
  deriving DecidableEq, Repr

/-- The `detail` of `candidate`. -/
def Detail.ofCandidate (candidate : FrameCandidate) : Detail where
  offset_start := candidate.offset
  offset_end := candidate.offset + candidate.raw.length
  length := candidate.raw.length
  payload_length := fromBytesLittle (slice candidate.raw 2 4)
  address := candidate.raw.getD 1 0
  command := candidate.raw.getD 4 0
  raw := candidate.raw
  crc_expected := candidate.crc_expected
  crc_received := candidate.crc_received
  crc_valid := candidate.crc_valid

/-- The capture, with the part of the report it fills. -/
structure Capture where
  raw : Bytes := []
  valid_candidates : List Detail := []
  framer : Framer := {}
  tx_boundary : Option ℕ := none
  post_ack : Bool := false
  post_nak : Bool := false
  status : Option Detail := none
  startup : Option Detail := none
  ack : Bool := false
  nak : Bool := false
  telegrams : List Detail := []
  deriving DecidableEq, Repr

namespace Capture

/-- The observer of the framer. -/
def candidate (c : Capture) (candidate : FrameCandidate) : Capture :=
  let detail := Detail.ofCandidate candidate
  { c with
    telegrams := c.telegrams ++ [detail]
    valid_candidates := if candidate.crc_valid then c.valid_candidates ++ [detail]
      else c.valid_candidates }

/-- Show an annotated detail in the report. -/
def annotate (c : Capture) (detail : Detail) : Capture :=
  { c with telegrams := c.telegrams.map fun t =>
      if t.offset_start = detail.offset_start then detail else t }

/-- A standalone control; only the phase of the read decides whether it is credited. -/
def processControl (c : Capture) (phase : Phase) (control : Control) : Capture :=
  let c := match control with
    | .ACK => { c with ack := true }
    | .NAK => { c with nak := true }
  if phase = .post_tx then
    { c with
      post_ack := c.post_ack || control == .ACK
      post_nak := c.post_nak || control == .NAK }
  else c

/-- `LMS200;` -/
def identityStart : Bytes := [0x4C, 0x4D, 0x53, 0x32, 0x30, 0x30, 0x3B]

/-- A status starting at or after the boundary is credited once the acknowledgement is. -/
def credits (c : Capture) (detail : Detail) : Bool :=
  match c.tx_boundary with
  | none => false
  | some boundary => boundary ≤ detail.offset_start && c.post_ack

/-- Decode the response of a telegram whose detail has been taken. -/
def processReply (c : Capture) (frame : Frame) (detail : Detail) (reply : Response) : Capture :=
  let detail := { detail with status_byte := some reply.status }
  if reply.command = 0x90 then
    if frame.payload.length ≠ 23 ∨ reply.data.take 7 ≠ identityStart then
      let error := Error.protocol "90h is not the documented LMS200 startup layout"
      c.annotate { detail with decode_error := some error }
    else
      match asciiStrip reply.data with
      | none => c.annotate { detail with decode_error := some (.value "not ASCII") }
      | some identity =>
        let detail := { detail with identity := some identity }
        { c.annotate detail with startup := some detail }
  else if reply.command = 0xB1 then
    match decode_status reply with
    | .error e => c.annotate { detail with decode_error := some e }
    | .ok status =>
      let detail := { detail with
        decoded_status := some status
        preceding_post_tx_ack := some c.post_ack }
      if c.credits detail then { c.annotate detail with status := some detail } else c.annotate detail
  else c.annotate detail

/-- A CRC-valid telegram, paired with the oldest detail not yet taken. -/
def processFrame (c : Capture) (frame : Frame) : Capture :=
  match c.valid_candidates with
  | [] => c
  | detail :: rest =>
    let c := { c with valid_candidates := rest }
    match response frame with
    | .error e => c.annotate { detail with decode_error := some e }
    | .ok reply => c.processReply frame detail reply

/-- One event of a read. -/
def processEvent (phase : Phase) (c : Capture) : Event → Capture
  | .control control => c.processControl phase control
  | .frame frame => c.processFrame frame

/-- The events of a read, in order. -/
def process (c : Capture) (events : List Event) (phase : Phase) : Capture :=
  events.foldl (processEvent phase) c

/-- Keep received bytes and hand them to the framer, whose observer runs first. -/
def receive (c : Capture) (data : Bytes) : Capture :=
  let fed := c.framer.feed data
  fed.1.candidates.foldl candidate { c with raw := c.raw ++ data, framer := fed.2 }

/-- One read of the device. -/
def read (c : Capture) (phase : Phase) (data : Bytes) : Capture :=
  if data = [] then c
  else (c.receive data).process ((c.framer.feed data).1.events.map Prod.snd) phase

/-- Reads in one phase. -/
def readAll (c : Capture) (phase : Phase) (chunks : List Bytes) : Capture :=
  chunks.foldl (fun c data => c.read phase data) c

/-- The transmit boundary of the single-request modes. -/
def mark (c : Capture) : Capture := { c with tx_boundary := some c.raw.length }

/-- The transmit boundary of one repeated attempt. -/
def nextAttempt (c : Capture) : Capture :=
  { c with
    tx_boundary := some c.raw.length
    post_ack := false
    post_nak := false
    status := none }

/-- The listening window of the status mode, which stops at the first verdict. -/
def statusWindow (c : Capture) : List Bytes → Bool
  | [] => false
  | data :: rest =>
    let c := c.read .post_tx data
    if c.post_nak then false
    else if c.status.isSome then true
    else c.statusWindow rest

/-- The verdict after a whole listening window: the direct test, each repeated attempt, and the
ROS 2 experiment, which asks for a clean node exit as well. -/
def windowVerdict (c : Capture) (chunks : List Bytes) : Bool :=
  let c := c.readAll .post_tx chunks
  c.status.isSome && !c.post_nak

end Capture

/-- The phases before a transmission. -/
inductive PreTx where
  | passive
  | pre_tx
  deriving DecidableEq, Repr

/-- The phase of a read before a transmission. -/
def PreTx.phase : PreTx → Phase
  | .passive => .passive
  | .pre_tx => .pre_tx

/-- What leads to a transmission: reads before a single request, or earlier attempts. -/
inductive Lead where
  | single (reads : List (PreTx × Bytes))
  | repeated (reads : List Bytes) (attempts : List (List Bytes))

namespace Lead

/-- The capture at the transmit boundary. -/
def capture : Lead → Capture
  | single reads =>
    (reads.foldl (fun (c : Capture) r => c.read r.1.phase r.2) ({} : Capture)).mark
  | repeated reads attempts =>
    (attempts.foldl (fun (c : Capture) chunks => c.nextAttempt.readAll .post_tx chunks)
      (({} : Capture).readAll .pre_tx reads)).nextAttempt

/-- The bytes received before the transmit boundary. -/
def bytes : Lead → Bytes
  | single reads => reads.flatMap Prod.snd
  | repeated reads attempts => reads.flatten ++ attempts.flatten.flatten

end Lead

end Lms200.Diagnostic
