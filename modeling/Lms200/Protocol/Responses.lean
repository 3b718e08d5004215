import Lms200.Protocol.Commands

/-!
# Response decoding

`protocol/responses.py`. A configuration cannot be built with another length than the two
documented ones; everything else a response may violate is an error at the place where the
source raises it.
-/

namespace Lms200

/-- The assigned severity codes. -/
inductive Severity where
  | ok
  | info
  | warning
  | error
  | fatal
  deriving DecidableEq, Repr

/-- The word the messages use. -/
def Severity.text : Severity → String
  | .ok => "ok"
  | .info => "info"
  | .warning => "warning"
  | .error => "error"
  | .fatal => "fatal"

/-- The source a status byte names. -/
inductive Source where
  | lms_type_6
  | special_device
  | reserved
  deriving DecidableEq, Repr

/-- The status byte at the end of every response. -/
structure StatusByte where
  raw : UInt8
  severity : Severity
  source : Source
  restart_high : Bool
  implausible : Bool
  pollution : Bool
  deriving DecidableEq, Repr

/-- The severity of a code; three codes are unassigned. -/
def Severity.ofCode (code : UInt8) : Option Severity :=
  if code = 0 then some .ok
  else if code = 1 then some .info
  else if code = 2 then some .warning
  else if code = 3 then some .error
  else if code = 4 then some .fatal
  else none

/-- Unassigned severity codes are not silently treated as ok. -/
def StatusByte.decode (raw : UInt8) : Except Error StatusByte :=
  match Severity.ofCode (raw &&& 7) with
  | none => .error (.protocol "Reserved scanner status severity")
  | some severity =>
    let code := (raw >>> 3) &&& 3
    let source := if code = 2 then .lms_type_6 else if code = 3 then .special_device else .reserved
    .ok ⟨raw, severity, source, raw &&& 0x20 ≠ 0, raw &&& 0x40 ≠ 0, raw &&& 0x80 ≠ 0⟩

/-- A response telegram: command, data and status byte. -/
structure Response where
  command : UInt8
  data : Bytes
  status : StatusByte
  frame : Frame
  deriving DecidableEq, Repr

/-- The reply addresses which belong to a request address; broadcasts have two. -/
def expectedAddresses (address : ℕ) : List ℕ :=
  if address = 0 then [0x80, 0x81] else [address ||| 0x80]

/-- Read a telegram as a response. -/
def response (frame : Frame) (address : ℕ := 0) : Except Error Response :=
  if frame.address.toNat ∉ expectedAddresses address then
    .error (.protocol "Unexpected response address")
  else if frame.payload.length < 2 ∨ frame.command < 0x80 then
    .error (.protocol "Invalid response payload")
  else
    match StatusByte.decode (frame.payload.getLastD 0) with
    | .error e => .error e
    | .ok status =>
      if frame.command = 0x92 then
        .error (.device "Scanner rejected the command or its operating-state sequence (92h)")
      else .ok ⟨frame.command, (frame.payload.drop 1).dropLast, status, frame⟩

/-- The scanner reports neither an error nor a fatal condition. -/
def require_healthy (reply : Response) : Except Error Unit :=
  if reply.status.severity = .error ∨ reply.status.severity = .fatal then
    .error (.device ("Scanner reports " ++ reply.status.severity.text))
  else .ok ()

/-- The reply confirms its request. -/
def confirm (reply : Response) (request_payload : Bytes) : Except Error Unit := do
  if reply.command = 0xA0 ∨ reply.command = 0xBB ∨ reply.command = 0xF7 then
    require_healthy reply
  if reply.command = 0xA0 then
    if reply.data ≠ [0x00] then
      throw (.device "Operating mode/baud change rejected (password or device fault)")
  else if reply.command = 0xBB then
    if reply.data.length ≠ 5 ∨ reply.data.headD 0 ≠ 1 ∨ reply.data.drop 1 ≠ request_payload.drop 1 then
      throw (.device "Variant change failed or readback differs")
  else if reply.command = 0xF7 then
    if reply.data.length ≠ request_payload.length ∨ reply.data.headD 0 ≠ 1 then
      throw (.device "Configuration was not accepted")
    if reply.data.drop 1 ≠ request_payload.drop 1 then
      throw (.device "Configuration confirmation differs from requested data")

/-- The units of distances. -/
inductive DistanceUnit where
  | mm
  | cm
  deriving DecidableEq, Repr

/-- A configuration block of one of the two documented lengths. -/
structure Configuration where
  raw : Bytes
  documented : raw.length = 32 ∨ raw.length = 34
  deriving DecidableEq, Repr

/-- `Configuration(raw)` -/
def Configuration.ofRaw (raw : Bytes) : Except Error Configuration :=
  if h : raw.length = 32 ∨ raw.length = 34 then .ok ⟨raw, h⟩
  else .error (.protocol ("Unsupported configuration length " ++ toString raw.length))

namespace Configuration

/-- The measuring mode byte. -/
def mode (c : Configuration) : UInt8 := c.raw.getD 5 0

/-- The unit byte. -/
def unit (c : Configuration) : Except Error DistanceUnit :=
  if c.raw.getD 6 0 = 0 then .ok .cm
  else if c.raw.getD 6 0 = 1 then .ok .mm
  else .error (.protocol "Reserved measurement unit")

/-- Real-time indices are appended to scans. -/
def indices (c : Configuration) : Bool := c.raw.getD 4 0 &&& 2 ≠ 0

/-- The configuration with the requested indices, mode 2 and the requested unit. -/
def updated (c : Configuration) (unit : DistanceUnit) (indices : Bool := true) : Configuration :=
  let flags := c.raw.getD 4 0
  ⟨((c.raw.set 4 (if indices then flags ||| 2 else flags &&& 0xFD)).set 5 2).set 6
      (if unit = .mm then 1 else 0),
    by simpa using c.documented⟩

end Configuration

/-- What a status response says; the resolution is in hundredths of a degree. -/
structure DeviceStatus where
  firmware : Bytes
  operating_mode : UInt8
  device_error : UInt8
  angle : ℕ
  resolution : ℕ
  baud : ℕ
  unit : DistanceUnit
  measuring_mode : UInt8
  permanent_baud : Bool
  address : UInt8
  raw : Bytes
  deriving DecidableEq, Repr

/-- White space of `str.strip` among the ASCII characters. -/
def isAsciiSpace (b : UInt8) : Bool := (0x09 ≤ b && b ≤ 0x0D) || (0x1C ≤ b && b ≤ 0x20)

/-- `bytes.decode("ascii").strip()`, or nothing when a byte is not ASCII. -/
def asciiStrip (data : Bytes) : Option Bytes :=
  if data.all (· < 0x80) then
    some (((data.dropWhile isAsciiSpace).reverse.dropWhile isAsciiSpace).reverse)
  else none

/-- `unpack_from("<H", data, position)` -/
def unpackWord (data : Bytes) (position : ℕ) : ℕ := fromBytesLittle (slice data position (position + 2))

/-- Decode either status layout; the longer one has six reserved bytes before block E. -/
def decode_status (reply : Response) : Except Error DeviceStatus :=
  if reply.command ≠ 0xB1 then .error (.protocol "Expected B1 status")
  else
    let data := reply.data
    if ¬ (data.length = 146 ∨ data.length = 152) then
      .error (.protocol "Unsupported status length; expected 146 or 152 data bytes")
    else
      let shift := if data.length = 152 then 6 else 0
      let angle := unpackWord data (100 + shift)
      let resolution := unpackWord data (102 + shift)
      match validate_geometry angle resolution, asciiStrip (data.take 7),
          STATUS_BAUD_CODES (unpackWord data (109 + shift)) with
      | .ok (), some firmware, some baud =>
        if data.getD (115 + shift) 0 ≠ 0 ∧ data.getD (115 + shift) 0 ≠ 1 then
          .error (.protocol "Unsupported status measurement unit")
        else .ok
          { firmware, operating_mode := data.getD 7 0, device_error := data.getD 8 0, angle,
            resolution, baud,
            unit := if data.getD (115 + shift) 0 = 1 then .mm else .cm,
            measuring_mode := data.getD (95 + shift) 0,
            permanent_baud := data.getD (112 + shift) 0 ≠ 0,
            address := data.getD (113 + shift) 0, raw := data }
      | _, _, _ => .error (.protocol
          "Unsupported status layout or configuration; preserve raw B1 for review")

end Lms200
