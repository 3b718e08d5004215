import Lms200.Coop.Dialogue
import Lms200.Diagnostic.Capture

/-!
# The single-request diagnostic

`run_diagnostic` of `hardware_diagnostic.py`: one passive capture, one transmission and one
listening window, in four modes. Whatever the program asks of its surroundings is a call which
may answer anything or raise: the clock, the operator's callbacks, every use of the serial
device and every journal line. The journal inside of the capture is left out, and so are the
texts and hexadecimal copies in the report.

A run is observed for a number of passes of each of its loops.
-/

namespace Lms200.Diagnostic

open Coop

/-- The exceptions which the diagnostics tell apart: `OSError` with its subclasses, `ValueError`,
`ProtocolError`, a subprocess timeout, any other `Exception`, and `KeyboardInterrupt`. No handler
catches `cut`, which ends an observation. -/
inductive Exc where
  | os (message : String)
  | value (message : String)
  | protocol (message : String)
  | timeout_expired
  | other (message : String)
  | keyboard_interrupt
  | cut
  deriving DecidableEq, Repr

/-- `02 00 01 00 31 15 12` -/
def STATUS_REQUEST : Bytes := [0x02, 0x00, 0x01, 0x00, 0x31, 0x15, 0x12]

def LOOPBACK_PATTERN : Bytes :=
  [0x55, 0xAA, 0x00, 0xFF, 0x11, 0x13, 0x06, 0x15, 0x02, 0x7E, 0x80, 0x01, 0xFE, 0xA5, 0x5A]

/-- Operator preparation bound. -/
def READY_SECONDS : ℚ := 300

/-- At most 60 s for the scanner, and five of host margin. -/
def STARTUP_SECONDS : ℚ := 65

def STATUS_SECONDS : ℚ := 3

def DIRECT_STATUS_SECONDS : ℚ := 5

/-- The modes. -/
inductive Mode where
  | listen_startup
  | status
  | loopback
  | direct_test
  deriving DecidableEq, Repr

/-- The arguments: which callbacks were given, and the confirmations made beforehand. -/
structure Setup where
  mode : Mode
  power_confirmed : Bool := false
  startup_complete : Bool := false
  on_ready : Bool := false
  loopback_confirmed : Bool := false
  direct_connection_confirmed : Bool := false
  deriving DecidableEq, Repr

/-- The report. What the capture adds to it is in the capture. -/
structure Report where
  port_opened : Bool := false
  port_closed : Bool := true
  success : Bool := false
  tx_attempted : Bytes := []
  tx_bytes : Option ℕ := some 0
  tx : Bytes := []
  write_return : Option ℕ := none
  flush_attempted : Bool := false
  flush_completed : Option Bool := none
  pre_tx_rx_bytes : Option ℕ := none
  rx_bytes : ℕ := 0
  post_tx_rx_bytes : Option ℕ := none
  post_tx_ack : Bool := false
  post_tx_nak : Bool := false
  timeout_reason : Option String := none
  exception : Option Exc := none
  close_exception : Option Exc := none
  power_cycle_confirmed : Bool := false
  startup_received : Bool := false
  startup_complete_confirmed : Bool := false
  loopback_passed : Option Bool := none
  status_response : Option Detail := none
  listen_seconds : Option ℚ := none
  deriving DecidableEq, Repr

/-- The variables of a run. -/
structure Run where
  report : Report := {}
  capture : Capture := {}
  device : Bool := false
  receive_start : Option ℚ := none
  startup_deadline : Option ℚ := none
  completion_deadline : Option ℚ := none
  deriving DecidableEq, Repr

/-- What the program asks of its surroundings. `flush` is `flush_output` with its timer. -/
inductive Call where
  | open_log
  | emit
  | monotonic
  | on_ready
  | power_confirmed
  | startup_complete
  | construct
  | open
  | initial_state
  | read
  | write (request : Bytes)
  | flush
  | out_waiting
  | close
  | is_open
  deriving DecidableEq, Repr

/-- What each call returns. -/
abbrev Call.Answer : Call → Type
  | .monotonic => ℚ
  | .power_confirmed | .startup_complete | .is_open => Bool
  | .read => Bytes
  | .write _ => ℕ
  | _ => Unit

/-- A part of `run_diagnostic`. -/
abbrev Prog (α : Type) := Program Run Call Call.Answer Exc α

/-- One call. -/
def ask (c : Call) : Prog c.Answer := Program.request c

/-- Change the report. -/
def report (f : Report → Report) : Prog Unit := modify fun r => { r with report := f r.report }

/-- What `capture.read` does with the data of a read; a loopback is not framed. -/
def readCapture (phase : Phase) (framed : Bool) (data : Bytes) (c : Capture) : Capture :=
  if framed then c.read phase data else { c with raw := c.raw ++ data }

/-- `capture.read` -/
def readDevice (phase : Phase) (framed : Bool) : Prog Unit := do
  let data ← ask .read
  modify fun r => { r with capture := readCapture phase framed data r.capture }

/-- Open the port and keep the initial state. -/
def openDevice : Prog Unit := do
  ask .emit
  ask .construct
  modify fun r => { r with device := true }
  ask .open
  report fun r => { r with port_opened := true, port_closed := false }
  ask .initial_state
  ask .emit
  let now ← ask .monotonic
  modify fun r => { r with receive_start := some now }

/-- The operator's power confirmation starts the deadlines, measured from the pass's clock. -/
def confirmPower (setup : Setup) (now : ℚ) : Prog Unit := do
  let r ← get
  if r.startup_deadline = none ∧ setup.power_confirmed = true then
    if ← ask .power_confirmed then
      modify fun r => { r with
        report.power_cycle_confirmed := true
        startup_deadline := some (now + STARTUP_SECONDS)
        completion_deadline := some (now + READY_SECONDS) }
      ask .emit

/-- The operator's confirmation that the startup is complete. -/
def confirmStartup (setup : Setup) : Prog Unit := do
  let r ← get
  if setup.mode = .direct_test ∧ r.startup_deadline ≠ none then
    if r.report.startup_complete_confirmed = false ∧ setup.startup_complete = true then
      if ← ask .startup_complete then
        report fun r => { r with startup_complete_confirmed := true }
        ask .emit

/-- Whether the passive capture ends at this clock, and the timeout it records. -/
def passiveEnd (setup : Setup) (ready_deadline now : ℚ) (r : Run) : Option (Option String) :=
  match setup.mode, r.startup_deadline with
  | .direct_test, some startup_deadline =>
    if startup_deadline ≤ now ∧ r.report.startup_complete_confirmed = true then some none
    else if r.completion_deadline.any (· ≤ now) then
      some (some "Operator startup-complete confirmation not received within 300 seconds; no status sent")
    else none
  | _, some startup_deadline =>
    if startup_deadline ≤ now then
      some (some "No valid startup telegram within 65 seconds of confirmation")
    else none
  | _, none =>
    if ready_deadline ≤ now then
      some (some "Operator power-cycle confirmation not received within 300 seconds")
    else none

/-- One pass of the passive loop. -/
def passivePass (setup : Setup) (ready_deadline : ℚ) : Prog (Option Unit) := do
  let now ← ask .monotonic
  confirmPower setup now
  confirmStartup setup
  match passiveEnd setup ready_deadline now (← get) with
  | some reason => do
    Program.provided (reason ≠ none) (report fun r => { r with timeout_reason := reason })
    pure (some ())
  | none => do
    readDevice .passive true
    let r ← get
    if setup.mode = .listen_startup ∧ r.capture.startup ≠ none then
      report fun r => { r with success := true }
      pure (some ())
    else pure none

/-- The passive capture of the modes which begin with a power cycle. -/
def passive (setup : Setup) (passes : ℕ) : Prog Unit := do
  ask .emit
  Program.provided (setup.on_ready = true) (ask .on_ready)
  let r ← get
  Program.repeatUntil .cut (passivePass setup (r.receive_start.getD 0 + READY_SECONDS)) passes
  if setup.mode = .direct_test then
    let _ ← ask .monotonic
    ask .emit

/-- What the mode transmits. -/
def Setup.request (setup : Setup) : Bytes :=
  if setup.mode = .loopback then LOOPBACK_PATTERN else STATUS_REQUEST

/-- Preserve a short sample and set the transmit boundary behind it. -/
def sample (setup : Setup) (passes : ℕ) : Prog Unit := do
  let before := (← ask .monotonic) + 1 / 10
  Program.repeatUntil .cut (do
    if (← ask .monotonic) < before then
      readDevice .pre_tx (setup.mode ≠ .loopback)
      pure none
    else pure (some ())) passes
  modify fun r => { r with
    report.pre_tx_rx_bytes := some r.capture.raw.length
    capture := r.capture.mark }

/-- Write the request once and drain the output. -/
def transmit (setup : Setup) : Prog Unit := do
  report fun r => { r with tx_attempted := setup.request }
  ask .emit
  report fun r => { r with tx_bytes := none }
  let written ← ask (.write setup.request)
  report fun r => { r with
    write_return := some written, tx_bytes := some written, tx := setup.request.take written }
  ask .emit
  Program.provided (written ≠ setup.request.length)
    (throw (.os s!"Short write: expected {setup.request.length}, got {written}; no retry"))
  report fun r => { r with flush_attempted := true }
  ask .emit
  ask .flush
  report fun r => { r with flush_completed := some true }
  ask .out_waiting
  ask .emit

/-- The bytes received since the transmit boundary. -/
def Run.echo (r : Run) : Bytes := r.capture.raw.drop (r.capture.tx_boundary.getD 0)

/-- What a read of the listening window leads to: a verdict ends the window. -/
def windowVerdict (setup : Setup) (r : Run) : Option (Report → Report) :=
  if setup.mode = .status ∧ r.capture.post_nak = true then
    some fun report => { report with timeout_reason := some "NAK received; no retry" }
  else if setup.mode = .status ∧ r.capture.status ≠ none then
    some fun report => { report with success := true, status_response := r.capture.status }
  else if setup.mode = .loopback ∧ ¬ r.echo <+: setup.request then
    some fun report => { report with
      timeout_reason := some "Loopback data differs from transmitted pattern" }
  else none

/-- One pass of the listening window; the result says whether a verdict ended it. -/
def windowPass (setup : Setup) (deadline : ℚ) : Prog (Option Bool) := do
  if (← ask .monotonic) < deadline then
    readDevice .post_tx (setup.mode ≠ .loopback)
    match windowVerdict setup (← get) with
    | some verdict => do
      report verdict
      pure (some true)
    | none => pure none
  else pure (some false)

/-- The verdict of a window which has run out. -/
def conclude (setup : Setup) (r : Run) : Report :=
  let report := r.report
  let report := if setup.mode = .direct_test then { report with
      success := r.capture.status.isSome && !r.capture.post_nak
      status_response := r.capture.status } else report
  let report := if setup.mode = .loopback then { report with
      loopback_passed := some (r.echo = setup.request)
      success := r.echo = setup.request } else report
  if report.success then report
  else { report with timeout_reason := some <|
      if setup.mode = .loopback then "No exact loopback echo"
      else if r.capture.post_nak then "NAK received; no retry"
      else if setup.mode = .direct_test then
        "No complete ACK + valid B1 within 5 seconds after flush"
      else "No complete ACK + valid B1 within 3 seconds after flush" }

/-- The listening window, fixed after the flush. -/
def listen (setup : Setup) (passes : ℕ) : Prog Unit := do
  let now ← ask .monotonic
  modify fun r => { r with receive_start := some now }
  let seconds := if setup.mode = .direct_test then DIRECT_STATUS_SECONDS else STATUS_SECONDS
  ask .emit
  let ended ← Program.repeatUntil .cut (windowPass setup (now + seconds)) passes
  if ended = false then modify fun r => { r with report := conclude setup r }

/-- The body of the `try` block. -/
def attempt (setup : Setup) (passes : ℕ) : Prog Unit := do
  openDevice
  Program.provided (setup.mode = .listen_startup ∨ setup.mode = .direct_test) (passive setup passes)
  let r ← get
  if setup.mode = .status ∨ setup.mode = .loopback ∨ (setup.mode = .direct_test ∧
      r.report.startup_complete_confirmed = true ∧ r.report.timeout_reason = none) then
    sample setup passes
    transmit setup
    listen setup passes

/-- The handlers of the `try` block. -/
def handle : Exc → Prog Unit
  | .keyboard_interrupt => report fun r => { r with
      exception := some .keyboard_interrupt
      timeout_reason := some "Interrupted by operator; no additional telegram sent" }
  | .os message => report fun r => { r with exception := some (.os message) }
  | .value message => report fun r => { r with exception := some (.value message) }
  | .protocol message => report fun r => { r with exception := some (.protocol message) }
  | e => throw e

/-- Close the port; only an `OSError` of closing is kept. -/
def closeDevice : Prog Unit := do
  let r ← get
  if r.device then
    tryCatch (ask .close) fun
      | .os message => report fun r => { r with close_exception := some (.os message) }
      | e => throw e
    let is_open ← ask .is_open
    report fun r => { r with port_closed := !is_open }

/-- The time since the listening began, when it did. -/
def measure : Prog Unit := do
  let r ← get
  match r.receive_start with
  | some receive_start => do
    let now ← ask .monotonic
    report fun r => { r with listen_seconds := some (now - receive_start) }
  | none => pure ()

/-- The `finally` block. -/
def cleanup (setup : Setup) : Prog Unit := do
  measure
  report fun r => { r with
    flush_completed := if r.flush_attempted && r.flush_completed.isNone then some false
      else r.flush_completed
    loopback_passed :=
      if setup.mode = .loopback ∧ r.loopback_passed = none ∧ r.port_opened = true then some false
      else r.loopback_passed }
  closeDevice
  modify fun r => { r with
    report.rx_bytes := r.capture.raw.length
    report.startup_received := r.capture.startup.isSome
    report.post_tx_ack := r.capture.post_ack
    report.post_tx_nak := r.capture.post_nak
    report.post_tx_rx_bytes := r.capture.tx_boundary.map (r.capture.raw.length - ·)
    report.success := r.report.success && r.report.port_closed }
  ask .emit

/-- The checks made before anything is opened; the request's own checksum is right. -/
def entry (setup : Setup) : Except Exc Unit :=
  if setup.mode = .loopback ∧ setup.loopback_confirmed = false then
    .error (.value
      "Loopback requires explicit scanner-off/disconnected and Keyspan 2-3 confirmation")
  else if (setup.mode = .listen_startup ∨ setup.mode = .direct_test) ∧ setup.power_confirmed = false then
    .error (.value "Startup capture requires an operator confirmation mechanism")
  else if setup.mode = .direct_test ∧
      (setup.direct_connection_confirmed = false ∨ setup.startup_complete = false) then
    .error (.value "Direct test requires physical connection and startup confirmation gates")
  else .ok ()

/-- `run_diagnostic`. -/
def run_diagnostic (setup : Setup) (passes : ℕ) : Prog Report := do
  Program.ofExcept (entry setup)
  ask .open_log
  Program.andFinally (tryCatch (attempt setup passes) handle) (cleanup setup)
  let r ← get
  pure r.report

end Lms200.Diagnostic
