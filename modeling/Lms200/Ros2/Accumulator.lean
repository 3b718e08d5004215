import Lms200.Native.Decoder

/-!
# The ROS 2 node's accumulator

`tools/ros2_status/src/status_node.cpp`: incomplete bytes live until the whole capture ends,
and control bytes are recognised only outside a candidate. A candidate with an impossible
length loses its header, a complete one is consumed whole whatever its checksum.

The message library is a third-party one: its payload limit and `BuildMessage` are parameters.
Sizes are `size_t` in the source and unbounded here.
-/

namespace Lms200.Ros2

/-- What the accumulator uses of the message library. -/
structure SickLMSMessage where
  MESSAGE_PAYLOAD_MAX_LENGTH : ℕ
  BuildMessage : UInt8 → Bytes → Bytes

/-- Build a message; the error is the `runtime_error` of the guard. -/
def build_frame (library : SickLMSMessage) (address : UInt8) (payload : Bytes) : Except String Bytes :=
  if payload = [] ∨ payload.length > library.MESSAGE_PAYLOAD_MAX_LENGTH then
    .error "Refusing out-of-bounds library BuildMessage input"
  else .ok (library.BuildMessage address payload)

/-- The kinds of an observation. -/
inductive Kind where
  | ack
  | nak
  | noise
  | unrecognized_stx
  | invalid_length
  | frame
  deriving DecidableEq, Repr

/-- One observation. -/
structure Observation where
  kind : Kind := .noise
  bytes : Bytes := []
  offset : ℕ := 0
  post_tx : Bool := false
  declared_payload : ℕ := 0
  crc_ok : Bool := false
  wire_crc : UInt16 := 0
  calculated_crc : UInt16 := 0
  status_layout : Bool := false
  deriving DecidableEq, Repr

/-- Pending bytes, the counts of received and consumed ones, and the transmit point. -/
structure Accumulator where
  pending : Bytes := []
  received : ℕ := 0
  consumed : ℕ := 0
  tx_boundary : Option ℕ := none
  deriving DecidableEq, Repr

/-- What one pass of the loop of `feed` does: return, report and consume, or throw. -/
inductive Pass where
  | wait
  | observe (item : Observation) (count : ℕ)
  | throw (message : String)
  deriving DecidableEq, Repr

namespace Accumulator

def mark_tx_boundary (a : Accumulator) : Accumulator := { a with tx_boundary := some a.received }

def consume (a : Accumulator) (count : ℕ) : Accumulator :=
  { a with pending := a.pending.drop count, consumed := a.consumed + count }

/-- Whether what starts here starts after the transmit point. -/
def after_tx (a : Accumulator) : Bool := a.tx_boundary.any fun boundary => a.consumed ≥ boundary

/-- One pass of the loop of `feed`. -/
def pass (library : SickLMSMessage) (a : Accumulator) : Pass :=
  match a.pending with
  | [] => .wait
  | first :: _ =>
    let item : Observation := { offset := a.consumed, post_tx := a.after_tx }
    if first ≠ 0x02 then
      .observe { item with
        bytes := [first]
        kind := if first = 0x06 then .ack else if first = 0x15 then .nak else .noise } 1
    else if a.pending.length < 2 then .wait
    else
      let address := a.pending.getD 1 0
      if address ≠ 0x80 ∧ address ≠ 0x81 then
        .observe { item with kind := .unrecognized_stx, bytes := [first] } 1
      else if a.pending.length < 4 then .wait
      else
        let length := (a.pending.getD 2 0).toNat ||| ((a.pending.getD 3 0).toNat <<< 8)
        let item := { item with declared_payload := length }
        if length = 0 ∨ length > library.MESSAGE_PAYLOAD_MAX_LENGTH then
          .observe { item with kind := .invalid_length, bytes := a.pending.take 4 } 4
        else
          let total := length + 6
          if a.pending.length < total then .wait
          else
            let bytes := a.pending.take total
            let payload := (a.pending.drop 4).take length
            match build_frame library address payload with
            | .error message => .throw message
            | .ok rebuilt =>
              let wire_crc := Native.word bytes (total - 2)
              let calculated_crc := Native.word rebuilt (total - 2)
              .observe { item with
                kind := .frame, bytes, wire_crc, calculated_crc
                crc_ok := wire_crc = calculated_crc
                status_layout := payload.getD 0 0 = 0xB1 ∧ (length = 148 ∨ length = 154) } total

/-- The loop of `feed`. Each pass consumes a byte, so the number of pending bytes bounds the passes. -/
def loop (library : SickLMSMessage) : ℕ → Accumulator → Except String (List Observation × Accumulator)
  | 0, a => .ok ([], a)
  | fuel + 1, a =>
    match a.pass library with
    | .wait => .ok ([], a)
    | .throw message => .error message
    | .observe item count => do
      let rest ← loop library fuel (a.consume count)
      .ok (item :: rest.1, rest.2)

/-- Receive bytes; the observations are those handed to the observer. -/
def feed (library : SickLMSMessage) (a : Accumulator) (bytes : Bytes) :
    Except String (List Observation × Accumulator) :=
  let a := { a with pending := a.pending ++ bytes, received := a.received + bytes.length }
  a.loop library a.pending.length

end Accumulator

/-- The calls the node makes. -/
inductive Call where
  | feed (bytes : Bytes)
  | mark_tx_boundary
  deriving DecidableEq, Repr

/-- The bytes delivered by calls. -/
def delivered (calls : List Call) : Bytes :=
  calls.flatMap fun
    | .feed bytes => bytes
    | .mark_tx_boundary => []

namespace Accumulator

/-- One call, with what is observed. -/
def call (library : SickLMSMessage) (a : Accumulator) :
    Call → Except String (List Observation × Accumulator)
  | .feed bytes => a.feed library bytes
  | .mark_tx_boundary => .ok ([], a.mark_tx_boundary)

/-- Calls in order, keeping everything observed. -/
def calls (library : SickLMSMessage) :
    Accumulator → List Call → Except String (List Observation × Accumulator)
  | a, [] => .ok ([], a)
  | a, c :: rest => do
    let now ← a.call library c
    let later ← calls library now.2 rest
    .ok (now.1 ++ later.1, later.2)

end Accumulator

end Lms200.Ros2
