import Lms200.Protocol.Framing
import Mathlib.Data.Rat.Init

/-!
# Typed requests

`protocol/commands.py`. Resolutions are hundredths of a degree throughout: the code's floats
only ever hold 0.25, 0.5 and 1, or the quotient by 100 of a word about to be rejected.
-/

namespace Lms200

/-- The exceptions the package tells apart, with their messages. -/
inductive Error where
  | timeout (message : String)
  | protocol (message : String)
  | device (message : String)
  | value (message : String)
  | eof (message : String)
  | os (message : String)
  deriving DecidableEq, Repr

/-- `ProtocolError` and its subclass `DeviceError`. -/
def Error.isProtocol : Error → Bool
  | .protocol _ | .device _ => true
  | _ => false

/-- The operating modes the package uses. -/
inductive Mode where
  | INSTALLATION
  | CONTINUOUS
  | ON_REQUEST
  deriving DecidableEq, Repr

/-- The mode byte. -/
def Mode.byte : Mode → UInt8
  | .INSTALLATION => 0x00
  | .CONTINUOUS => 0x24
  | .ON_REQUEST => 0x25

/-- The name of the enumeration member. -/
def Mode.name : Mode → String
  | .INSTALLATION => "INSTALLATION"
  | .CONTINUOUS => "CONTINUOUS"
  | .ON_REQUEST => "ON_REQUEST"

/-- The mode byte which changes the rate, for each supported rate. -/
def BAUD_CODES (baud : ℕ) : Option UInt8 :=
  if baud = 9600 then some 0x42
  else if baud = 19200 then some 0x41
  else if baud = 38400 then some 0x40
  else if baud = 500000 then some 0x48
  else none

/-- The rate a status word stands for. -/
def STATUS_BAUD_CODES (code : ℕ) : Option ℕ :=
  if code = 0x8067 then some 9600
  else if code = 0x8033 then some 19200
  else if code = 0x8019 then some 38400
  else if code = 0x8001 then some 500000
  else none

/-- A request, the reply it expects, and its budget. -/
structure Command where
  name : String
  payload : Bytes
  response_id : UInt8
  timeout : ℚ := 3
  attempts : ℕ := 3
  mutates : Bool := false
  deriving DecidableEq, Repr

/-- The encoded request. -/
def Command.telegram (cmd : Command) (address : ℕ) : Except Error Bytes :=
  if ¬ address ≤ 0x7F then .error (.value "Scanner address must be 0..127")
  else (encode cmd.payload address).mapError .value

def status_request : Command := { name := "status", payload := [0x31], response_id := 0xB1 }

def type_request : Command := { name := "device type", payload := [0x3A], response_id := 0xBA }

def configuration_request : Command :=
  { name := "read configuration", payload := [0x74], response_id := 0xF4 }

/-- Eight ASCII letters, digits or underscores. -/
def validPassword (password : String) : Bool :=
  password.toList.length == 8 &&
    password.toList.all fun c => c.toNat < 128 && (c.isAlphanum || c == '_')

/-- `password.encode("ascii")`, for a valid password. -/
def asciiBytes (password : String) : Bytes := password.toList.map fun c => UInt8.ofNat c.toNat

/-- The request which carries mode parameters. -/
def modeCommand (mode : Mode) (parameter : Bytes) : Command :=
  { name := "mode " ++ mode.name, payload := 0x20 :: parameter, response_id := 0xA0,
    mutates := true, attempts := 1 }

/-- Change the operating mode; only installation takes the password. -/
def operating_mode (mode : Mode) (password : String := "SICK_LMS") : Except Error Command :=
  if mode = .INSTALLATION then
    if validPassword password then .ok (modeCommand mode (mode.byte :: asciiBytes password))
    else .error
      (.value "Installation password must contain 8 ASCII letters/digits/underscores")
  else .ok (modeCommand mode [mode.byte])

/-- Change the rate. -/
def baud_rate (baud : ℕ) : Except Error Command :=
  match BAUD_CODES baud with
  | none => .error (.value "Unsupported LMS2xx baud rate")
  | some code => .ok
    { name := "baud rate", payload := [0x20, code], response_id := 0xA0, attempts := 1,
      mutates := true }

/-- The standard variants: 180 degrees has no quarter degree scan. -/
def validate_geometry (angle resolution : ℕ) : Except Error Unit :=
  if ¬ (angle = 100 ∨ angle = 180) ∨ ¬ (resolution = 25 ∨ resolution = 50 ∨ resolution = 100) then
    .error (.value "Expected 100/180 degrees and 0.25/0.5/1 degree resolution")
  else if resolution = 25 ∧ angle ≠ 100 then
    .error (.value "Standard 0.25 degree scans require a 100 degree field of view")
  else .ok ()

/-- Change the scan variant. -/
def variant (angle resolution : ℕ) : Except Error Command :=
  match validate_geometry angle resolution with
  | .error e => .error e
  | .ok () => .ok
    { name := "scan variant",
      payload := 0x3B :: (toBytesLittle angle ++ toBytesLittle resolution),
      response_id := 0xBB, attempts := 1, mutates := true }

/-- Write a whole configuration. -/
def write_configuration (data : Bytes) : Except Error Command :=
  if ¬ (data.length = 32 ∨ data.length = 34) then
    .error (.value "Only documented 32-byte legacy / 34-byte configuration supported")
  else .ok
    { name := "write configuration", payload := 0x77 :: data, response_id := 0xF7, timeout := 8,
      attempts := 1, mutates := true }

end Lms200
