import Lms200.Diagnostic.RunDiagnostic

/-!
# The repeated status request

`run_status_repeat` of `hardware_diagnostic.py`: up to ten status requests over one handle, each
followed by a listening window of five seconds, until a window has an answer. The calls are those
of the single-request diagnostic. The time in `listen_seconds` is not rounded here.
-/

namespace Lms200.Diagnostic.StatusRepeat

open Coop

/-- The entry of the report for one attempt, shared with the variable `attempt`. -/
structure Attempt where
  number : ℕ
  write_return : Option ℕ := none
  flush_completed : Bool := false
  rx_start : ℕ
  listen_seconds : Option ℚ := none
  rx_bytes : Option ℕ := none
  ack : Option Bool := none
  nak : Option Bool := none
  status : Option Detail := none
  deriving DecidableEq, Repr

/-- The report. What the capture adds to it is in the capture. -/
structure Report where
  success : Bool := false
  port_opened : Bool := false
  port_closed : Bool := true
  max_attempts : ℕ
  attempts : List Attempt := []
  exception : Option Exc := none
  close_exception : Option Exc := none
  stop_reason : Option String := none
  tx_requests : ℕ := 0
  tx_bytes : Option ℕ := none
  rx_bytes : ℕ := 0
  deriving DecidableEq, Repr

/-- The variables of a run. -/
structure Run where
  report : Report
  capture : Capture := {}
  device : Bool := false
  deriving DecidableEq, Repr

/-- The attempt in hand is the last one in the report. -/
def Report.amend (f : Attempt → Attempt) (r : Report) : Report := { r with attempts := r.attempts.modifyLast f }

/-- A part of `run_status_repeat`. -/
abbrev Prog (α : Type) := Program Run Call Call.Answer Exc α

/-- One call. -/
def ask (c : Call) : Prog c.Answer := Program.request c

/-- Change the report. -/
def report (f : Report → Report) : Prog Unit := modify fun r => { r with report := f r.report }

/-- `capture.read` -/
def readDevice (phase : Phase) : Prog Unit := do
  let data ← ask .read
  modify fun r => { r with capture := r.capture.read phase data }

def openDevice : Prog Unit := do
  ask .emit
  ask .construct
  modify fun r => { r with device := true }
  ask .open
  report fun r => { r with port_opened := true, port_closed := false }
  ask .initial_state
  ask .emit

/-- Record what is available after opening. -/
def sample (passes : ℕ) : Prog Unit := do
  let before := (← ask .monotonic) + 1 / 10
  Program.repeatUntil .cut (do
    if (← ask .monotonic) < before then
      readDevice .pre_tx
      pure none
    else pure (some ())) passes

/-- The transmit boundary of an attempt, and its entry. -/
def begin (number : ℕ) : Prog Unit := do
  modify fun r => { r with
    capture := r.capture.nextAttempt
    report.attempts := r.report.attempts ++ [{ number, rx_start := r.capture.raw.length }] }
  ask .emit

/-- Write the request and drain the output. -/
def transmit : Prog Unit := do
  let written ← ask (.write STATUS_REQUEST)
  report (Report.amend fun a => { a with write_return := some written })
  ask .emit
  Program.provided (written ≠ 7) (throw (.os s!"Short write: expected 7, got {written}; stop repetition"))
  ask .emit
  ask .flush
  report (Report.amend fun a => { a with flush_completed := true })
  ask .out_waiting
  ask .emit

/-- Five seconds of listening, and when they began. -/
def listen (passes : ℕ) : Prog ℚ := do
  let started ← ask .monotonic
  ask .emit
  Program.repeatUntil .cut (do
    if (← ask .monotonic) - started < 5 then
      readDevice .post_tx
      pure none
    else pure (some ())) passes
  pure started

/-- A valid telegram begins at or behind the transmit boundary. -/
def Run.valid_frame (r : Run) : Bool :=
  r.capture.telegrams.any fun t => t.crc_valid && r.capture.tx_boundary.getD 0 ≤ t.offset_start

/-- `Response observed; no further status request sent` -/
def observedReason : String := "Response observed; no further status request sent"

/-- `Requested bounded attempts exhausted; no response observed` -/
def exhaustedReason : String := "Requested bounded attempts exhausted; no response observed"

/-- Whether the window had an answer, which stops the repetition. -/
def conclude (started : ℚ) : Prog Bool := do
  let now ← ask .monotonic
  modify fun r => { r with report := r.report.amend fun a => { a with
    listen_seconds := some (now - started)
    rx_bytes := some (r.capture.raw.length - a.rx_start)
    ack := some r.capture.post_ack
    nak := some r.capture.post_nak
    status := r.capture.status } }
  ask .emit
  modify fun r => { r with report.success := r.capture.status.isSome && !r.capture.post_nak }
  let r ← get
  if r.report.success || r.capture.post_ack || r.capture.post_nak || r.valid_frame then
    report fun r => { r with stop_reason := some observedReason }
    pure true
  else pure false

/-- One attempt. -/
def attempt (number passes : ℕ) : Prog Bool := do
  begin number
  transmit
  let started ← listen passes
  conclude started

/-- The attempts which are left, from the given number on. -/
def repeatFrom (passes : ℕ) : ℕ → ℕ → Prog Unit
  | 0, _ => report fun r => { r with stop_reason := some exhaustedReason }
  | left + 1, number => do
    if ← attempt number passes then pure ()
    else repeatFrom passes left (number + 1)

/-- The body of the `try` block. -/
def body (attempts passes : ℕ) : Prog Unit := do
  openDevice
  sample passes
  repeatFrom passes attempts 1

/-- The handler of the `try` block. -/
def handle (e : Exc) : Prog Unit :=
  match e with
  | .os _ | .value _ | .protocol _ | .keyboard_interrupt =>
    report fun r => { r with
      exception := some e
      stop_reason := some "Error/interruption; repetition stopped" }
  | _ => throw e

/-- Close the port; only an `OSError` of closing is kept. -/
def closeDevice : Prog Unit := do
  let r ← get
  Program.provided (r.device = true) do
    tryCatch (ask .close) fun
      | .os message => report fun r => { r with close_exception := some (.os message) }
      | e => throw e
    let is_open ← ask .is_open
    report fun r => { r with port_closed := !is_open }

/-- The bytes written, unless the count of some attempt is unknown. -/
def total : List Attempt → Option ℕ
  | [] => some 0
  | a :: rest => do
    let count ← a.write_return
    let counts ← total rest
    some (count + counts)

/-- The `finally` block. -/
def cleanup : Prog Unit := do
  modify fun r => { r with report := r.report.amend fun a =>
    if a.rx_bytes = none then { a with rx_bytes := some (r.capture.raw.length - a.rx_start) } else a }
  closeDevice
  modify fun r => { r with
    report.tx_requests := r.report.attempts.length
    report.tx_bytes := total r.report.attempts
    report.rx_bytes := r.capture.raw.length
    report.success := r.report.success && r.report.port_closed }
  ask .emit

/-- The checks made before anything is opened; the request's own checksum is right. -/
def entry (confirmed : Bool) (attempts : ℕ) : Except Exc Unit :=
  if confirmed = false then
    .error (.value "Repeated status requests require explicit operator confirmation")
  else if ¬ (1 ≤ attempts ∧ attempts ≤ 10) then
    .error (.value "Status repetition must be bounded to 1..10 attempts")
  else .ok ()

end Lms200.Diagnostic.StatusRepeat
