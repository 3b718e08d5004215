import Lms200.Protocol.Crc

/-!
# Incremental LMS framing

The encoder and the incremental `Framer` of `protocol/framing.py`. A pass round the loop of
`feed` discards a control byte, a noise byte, the first byte of an impossible or damaged
candidate, or a whole CRC-valid telegram; the loop breaks on an incomplete candidate.

The events carry the value of `self.offset` at the moment they are appended. The code's own
list is the second component; the offsets of candidates are those of the observer callback.
-/

namespace Lms200

/-- The byte which starts a telegram. -/
def STX : UInt8 := 0x02

/-- 401 distances, their count, command, status and two indices. -/
def MAX_PAYLOAD : ℕ := 808

/-- The standalone control bytes. -/
inductive Control where
  | ACK
  | NAK
  deriving DecidableEq, Repr

/-- The wire value of a control. -/
def Control.byte : Control → UInt8
  | .ACK => 0x06
  | .NAK => 0x15

/-- The control a byte stands for outside telegrams. -/
def Control.ofByte (b : UInt8) : Option Control :=
  if b = 0x06 then some .ACK else if b = 0x15 then some .NAK else none

/-- `int.from_bytes(bytes, "little")`. -/
def fromBytesLittle : Bytes → ℕ
  | [] => 0
  | b :: rest => b.toNat + 256 * fromBytesLittle rest

/-- `raw[start:stop]` for nonnegative indices. -/
def slice (raw : Bytes) (start stop : ℕ) : Bytes := (raw.take stop).drop start

/-- A CRC-valid telegram. -/
structure Frame where
  address : UInt8
  payload : Bytes
  raw : Bytes
  deriving DecidableEq, Repr

/-- `Frame(raw[1], raw[4:-2], raw)`. -/
def Frame.ofRaw (raw : Bytes) : Frame := ⟨raw.getD 1 0, slice raw 4 (raw.length - 2), raw⟩

/-- The first payload byte; the `Framer` emits no empty payload. -/
def Frame.command (f : Frame) : UInt8 := f.payload.headD 0

/-- What `feed` returns one of. -/
inductive Event where
  | control (c : Control)
  | frame (f : Frame)
  deriving DecidableEq, Repr

/-- Counters of the framing layer. -/
structure FrameStats where
  frames : ℕ := 0
  crc_errors : ℕ := 0
  invalid_lengths : ℕ := 0
  noise_bytes : ℕ := 0
  truncated_frames : ℕ := 0
  deriving DecidableEq, Repr

/-- Diagnostic evidence for one complete candidate, at its offset in the received stream. -/
structure FrameCandidate where
  offset : ℕ
  raw : Bytes
  crc_expected : ℕ
  crc_received : ℕ
  deriving DecidableEq, Repr

/-- The evidence for a complete candidate starting at the given offset. -/
def FrameCandidate.ofRaw (offset : ℕ) (raw : Bytes) : FrameCandidate :=
  { offset, raw,
    crc_expected := crc16 (raw.take (raw.length - 2)),
    crc_received := fromBytesLittle (raw.drop (raw.length - 2)) }

/-- The two checksums agree. -/
def FrameCandidate.crc_valid (c : FrameCandidate) : Bool := c.crc_expected == c.crc_received

/-- `value.to_bytes(2, "little")`, for a value which fits. -/
def toBytesLittle (value : ℕ) : Bytes := [UInt8.ofNat value, UInt8.ofNat (value / 256)]

/-- Frame a payload; the only error is the `ValueError` of the guard. -/
def encode (payload : Bytes) (address : ℕ) : Except String Bytes :=
  if ¬ (address ≤ 255) ∨ ¬ (1 ≤ payload.length ∧ payload.length ≤ MAX_PAYLOAD) then
    .error "Invalid address or payload length"
  else
    let message := [STX, UInt8.ofNat address] ++ toBytesLittle payload.length ++ payload
    .ok (message ++ toBytesLittle (crc16 message))

/-- The buffered suffix of the received stream, its offset, and the counters. -/
structure Framer where
  buffer : Bytes := []
  stats : FrameStats := {}
  offset : ℕ := 0
  deriving DecidableEq, Repr

/-- What one call appends to its result and hands to its observer. -/
structure Emitted where
  events : List (ℕ × Event) := []
  candidates : List FrameCandidate := []
  deriving DecidableEq, Repr

/-- The output of two successive calls. -/
def Emitted.append (first second : Emitted) : Emitted :=
  ⟨first.events ++ second.events, first.candidates ++ second.candidates⟩

namespace Framer

/-- `_discard`. -/
def discard (f : Framer) (count : ℕ) : Framer :=
  { f with buffer := f.buffer.drop count, offset := f.offset + count }

/-- The loop of `feed`. Each pass discards a byte, so the buffer length bounds the passes. -/
def loop : ℕ → Framer → Emitted × Framer
  | 0, f => ({}, f)
  | fuel + 1, f =>
    match f.buffer with
    | [] => ({}, f)
    | first :: _ =>
      match Control.ofByte first with
      | some c =>
        let rest := loop fuel (f.discard 1)
        (Emitted.append { events := [(f.offset, .control c)] } rest.1, rest.2)
      | none =>
        if first ≠ STX then
          loop fuel ({ f with stats.noise_bytes := f.stats.noise_bytes + 1 }.discard 1)
        else if f.buffer.length < 4 then ({}, f)
        else
          let length := fromBytesLittle (slice f.buffer 2 4)
          if ¬ (1 ≤ length ∧ length ≤ MAX_PAYLOAD) then
            loop fuel ({ f with stats.invalid_lengths := f.stats.invalid_lengths + 1 }.discard 1)
          else
            let total := length + 6
            if f.buffer.length < total then ({}, f)
            else
              let raw := f.buffer.take total
              let candidate := FrameCandidate.ofRaw f.offset raw
              if candidate.crc_valid = false then
                let rest :=
                  loop fuel ({ f with stats.crc_errors := f.stats.crc_errors + 1 }.discard 1)
                (Emitted.append { candidates := [candidate] } rest.1, rest.2)
              else
                let rest := loop fuel ({ f with stats.frames := f.stats.frames + 1 }.discard total)
                (Emitted.append
                  { events := [(f.offset, .frame (Frame.ofRaw raw))], candidates := [candidate] }
                  rest.1, rest.2)

/-- Buffer new data and scan it. -/
def feed (f : Framer) (data : Bytes) : Emitted × Framer :=
  let f := { f with buffer := f.buffer ++ data }
  loop f.buffer.length f

/-- Caller detected a stale incomplete frame; recover any valid frames behind it. -/
def expire (f : Framer) : Emitted × Framer :=
  if f.buffer = [] then ({}, f)
  else feed ({ f with stats.truncated_frames := f.stats.truncated_frames + 1 }.discard 1) []

/-- Forget the buffered bytes; the counters stay. -/
def reset (f : Framer) : Framer := { f with buffer := [], offset := 0 }

/-- Feed chunks in order, keeping everything emitted. -/
def feedAll : Framer → List Bytes → Emitted × Framer
  | f, [] => ({}, f)
  | f, chunk :: rest =>
    let now := f.feed chunk
    let later := feedAll now.2 rest
    (now.1.append later.1, later.2)

end Framer

end Lms200
