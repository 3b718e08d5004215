import Lms200.Protocol.Crc

/-!
# The native telegram decoder

`tools/lms200_native/protocol.cpp`: the checksum and the incremental decoder. Noise is
rejected in runs, a parse which meets incomplete data stops unless it is terminal, and a
terminal parse rejects one byte and rescans. Rejected bytes are events of their own.

Stream offsets and counters are `std::uint64_t` in the source; no stream reaches 2^64 bytes,
so they are unbounded here.
-/

namespace Lms200.Native

/-- The word at a position; the callers have checked that both bytes are there. -/
def word (bytes : Bytes) (position : ℕ) : UInt16 :=
  (bytes.getD position 0).toUInt16 ||| ((bytes.getD (position + 1) 0).toUInt16 <<< 8)

/-- One byte of `crc16`: the checksum and the previous byte. -/
def crcStep (state : UInt16 × UInt8) (byte : UInt8) : UInt16 × UInt8 :=
  let (crc, previous) := state
  let carry := crc &&& 0x8000 ≠ 0
  let shifted := crc <<< 1
  let reduced := if carry then shifted ^^^ 0x8005 else shifted
  (reduced ^^^ ((previous.toUInt16 <<< 8) ||| byte.toUInt16), byte)

/-- One shift per byte, not eight shifts as in CRC-16/IBM. -/
def crc16 (data : Bytes) : UInt16 := (data.foldl crcStep (0, 0)).1

/-- A decoded telegram: command, data and status byte, without framing and CRC. -/
structure Frame where
  offset : ℕ := 0
  address : UInt8 := 0
  payload : Bytes := []
  raw : Bytes := []
  crc_received : UInt16 := 0
  crc_calculated : UInt16 := 0
  deriving DecidableEq, Repr

/-- The first payload byte, or zero. -/
def Frame.command (f : Frame) : UInt8 := f.payload.headD 0

/-- The last byte of a payload of at least two bytes, or zero. -/
def Frame.status (f : Frame) : UInt8 :=
  if f.payload.length < 2 then 0 else f.payload.getLastD 0

/-- What the decoder reports. -/
inductive EventKind where
  | Ack
  | Nak
  | Frame
  | Rejected
  deriving DecidableEq, Repr

/-- One report of the decoder. -/
structure Event where
  kind : EventKind := .Rejected
  offset : ℕ := 0
  raw : Bytes := []
  reason : String := ""
  frame : Frame := {}
  deriving DecidableEq, Repr

/-- Counters of the decoder. -/
structure DecoderStats where
  raw_bytes : ℕ := 0
  ack : ℕ := 0
  nak : ℕ := 0
  valid_frames : ℕ := 0
  crc_failures : ℕ := 0
  rejected : ℕ := 0
  noise : ℕ := 0
  deriving DecidableEq, Repr

/-- Pending bytes, their stream offset, the counters and the control ambiguity. -/
structure Decoder where
  buffer : Bytes := []
  offset : ℕ := 0
  stats : DecoderStats := {}
  ambiguous_controls : Bool := false
  deriving DecidableEq, Repr

/-- Bytes which are neither the start of a telegram nor a control. -/
def isNoise (byte : UInt8) : Bool := !(byte == 0x02 || byte == 0x06 || byte == 0x15)

namespace Decoder

/-- Drop consumed bytes. -/
def consume (d : Decoder) (count : ℕ) : Decoder :=
  { d with buffer := d.buffer.drop count, offset := d.offset + count }

/-- The `rejected` lambda's event. -/
def rejection (d : Decoder) (raw : Bytes) (reason : String) : Event :=
  { kind := .Rejected, offset := d.offset, raw, reason }

/-- Count a rejection. -/
def reject (d : Decoder) : Decoder := { d with stats.rejected := d.stats.rejected + 1 }

/-- The event of a control byte. -/
def control (d : Decoder) (recovering : Bool) (first : UInt8) : Event :=
  { kind := if first = 0x06 then .Ack else .Nak, offset := d.offset, raw := [first],
    reason := if recovering || d.ambiguous_controls then
      "Control byte found during resynchronization; attribution uncertain" else "" }

/-- Count a control byte. -/
def countControl (d : Decoder) (first : UInt8) : Decoder :=
  if first = 0x06 then { d with stats.ack := d.stats.ack + 1 }
  else { d with stats.nak := d.stats.nak + 1 }

/-- The event of a complete candidate whose checksum is wrong. -/
def crcMismatch (d : Decoder) (total_size : ℕ) (received calculated : UInt16) : Event :=
  { kind := .Rejected, offset := d.offset, raw := d.buffer.take total_size,
    reason := "CRC mismatch; retain raw candidate and resynchronize one byte later",
    frame :=
      { offset := d.offset, address := d.buffer.getD 1 0, raw := d.buffer.take total_size,
        crc_received := received, crc_calculated := calculated } }

/-- The event of a CRC-valid telegram. -/
def accept (d : Decoder) (recovering : Bool) (payload_size : ℕ) (received calculated : UInt16) :
    Event :=
  { kind := .Frame, offset := d.offset, raw := d.buffer.take (payload_size + 6),
    reason := if recovering then
      "CRC-valid frame recovered by terminal rescan; original raw retained" else "",
    frame :=
      { offset := d.offset, address := d.buffer.getD 1 0,
        payload := (d.buffer.drop 4).take payload_size, raw := d.buffer.take (payload_size + 6),
        crc_received := received, crc_calculated := calculated } }

/-- The loop of `parse`. Each pass consumes a byte, so the buffer length bounds the passes. -/
def loop (final : Bool) : ℕ → Bool → Decoder → List Event × Decoder
  | 0, _, d => ([], d)
  | fuel + 1, recovering, d =>
    match d.buffer with
    | [] => ([], d)
    | first :: _ =>
      if first = 0x06 ∨ first = 0x15 then
        let rest := loop final fuel recovering ((d.countControl first).consume 1)
        (d.control recovering first :: rest.1, rest.2)
      else if first ≠ 0x02 then
        let run := d.buffer.takeWhile isNoise
        let d' := { d.reject with stats.noise := d.stats.noise + run.length }
        let rest := loop final fuel recovering (d'.consume run.length)
        (d.rejection run "Unclassified bytes outside a telegram" :: rest.1, rest.2)
      else if d.buffer.length < 4 then
        if final then
          let rest := loop final fuel true ({ d.reject with ambiguous_controls := true }.consume 1)
          (d.rejection d.buffer "Incomplete header at end of capture" :: rest.1, rest.2)
        else ([], d)
      else
        let payload_size := (word d.buffer 2).toNat
        if payload_size = 0 ∨ payload_size > 808 then
          let rest := loop final fuel recovering
            ({ d.reject with ambiguous_controls := true }.consume 1)
          (d.rejection (d.buffer.take 4)
            "Invalid length; payload must be 1..808 bytes (total at most 814)" :: rest.1, rest.2)
        else
          let total_size := payload_size + 6
          if d.buffer.length < total_size then
            if final then
              let rest := loop final fuel true
                ({ d.reject with ambiguous_controls := true }.consume 1)
              (d.rejection d.buffer
                "Incomplete declared telegram at end of capture; rescanning retained bytes" ::
                rest.1, rest.2)
            else ([], d)
          else
            let received := word d.buffer (total_size - 2)
            let calculated := crc16 (d.buffer.take (total_size - 2))
            if received ≠ calculated then
              let d' := { d.reject with
                stats.crc_failures := d.stats.crc_failures + 1, ambiguous_controls := true }
              let rest := loop final fuel recovering (d'.consume 1)
              (d.crcMismatch total_size received calculated :: rest.1, rest.2)
            else
              let d' := { d with stats.valid_frames := d.stats.valid_frames + 1 }
              let rest := loop final fuel recovering
                { d'.consume total_size with ambiguous_controls := false }
              (d.accept recovering payload_size received calculated :: rest.1, rest.2)

/-- Parse what is pending. -/
def parse (final : Bool) (d : Decoder) : List Event × Decoder :=
  loop final d.buffer.length false d

/-- Receive bytes. -/
def feed (d : Decoder) (bytes : Bytes) : List Event × Decoder :=
  parse false { d with
    stats.raw_bytes := d.stats.raw_bytes + bytes.length, buffer := d.buffer ++ bytes }

/-- Terminal operation: report incomplete bytes and rescan behind false headers. -/
def finish (d : Decoder) : List Event × Decoder := parse true d

/-- Feed chunks in order, keeping all events. -/
def feedAll : Decoder → List Bytes → List Event × Decoder
  | d, [] => ([], d)
  | d, chunk :: rest =>
    let now := d.feed chunk
    let later := feedAll now.2 rest
    (now.1 ++ later.1, later.2)

end Decoder

end Lms200.Native
