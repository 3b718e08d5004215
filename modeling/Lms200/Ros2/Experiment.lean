import Lms200.Diagnostic.RunDiagnostic

/-!
# The Windows owner of the ROS 2 experiment

`run` of `ros2_status_experiment.py` after its entry checks: one polling loop which waits for
two listeners and the operator's marker files, and passes the node's bytes through a gate to
the physical port. Marker files, the relay process and its events, the clock, the journal and
the device are calls which may answer anything or raise.

An event is what the loop reads of it: missing fields raise where they are read. The
collector's flag says whether the trigger file existed when the event was collected.
-/

namespace Lms200.Ros2.Experiment

open Coop Diagnostic

/-- `SingleStatusGate` -/
structure SingleStatusGate where
  buffer : Bytes := []
  sent : Bool := false
  deriving DecidableEq, Repr

/-- `accept`: an error still leaves the bytes which were appended. -/
def SingleStatusGate.accept (gate : SingleStatusGate) (data : Bytes) (startup_authorized : Bool) :
    Except Exc (Option Bytes) × SingleStatusGate :=
  if data = [] then (.ok none, gate)
  else if startup_authorized = false ∨ gate.sent = true then
    (.error (.value "Node TX before startup gate or after its single request"), gate)
  else
    let gate := { gate with buffer := gate.buffer ++ data }
    if ¬ gate.buffer <+: STATUS_REQUEST then
      (.error (.value "Node attempted bytes outside the one-status allowance"), gate)
    else if gate.buffer.length ≠ STATUS_REQUEST.length then (.ok none, gate)
    else (.ok (some gate.buffer), { gate with sent := true })

/-- The files in the run directory. -/
inductive Marker where
  | cancel_trigger
  | ros2_ready
  | listener_ready
  | power_on_confirmed
  | startup_complete_confirmed
  | status_trigger
  deriving DecidableEq, Repr

/-- A relay event as the loop reads it. -/
structure RelayEvent where
  name : Except Exc String
  returncode : Except Exc (Option ℤ) := .ok none
  error : String := "WSL relay error"
  hex : Except Exc Bytes := .ok []
  controller_status_trigger_seen : Bool := false

/-- The report. What the capture and the gate add to it is in them. -/
structure Report where
  write_count : Option ℕ := none
  flush_completed : Bool := false
  port_closed : Bool := true
  power_on_confirmed : Bool := false
  startup_complete_confirmed : Bool := false
  success : Bool := false
  error : Option Exc := none
  post_flush_read_seconds : Option ℚ := none
  node_exit_code : Option ℤ := none
  windows_status_valid : Bool := false
  close_error : Option Exc := none
  relay_cleanup_error : Option Exc := none
  rx_bytes : ℕ := 0
  post_tx_ack : Bool := false
  post_tx_nak : Bool := false
  status : Option Detail := none
  startup : Option Detail := none
  node_tx : Bytes := []
  partial_node_tx : Bytes := []
  deriving DecidableEq, Repr

/-- The variables of a run. -/
structure Run where
  report : Report := {}
  capture : Capture := {}
  gate : SingleStatusGate := {}
  device : Bool := false
  process : Bool := false
  collector : Bool := false
  power_on : Option ℚ := none
  drained : Option ℚ := none
  relay_ready : Bool := false
  ready : Bool := false
  status_authorized : Bool := false
  node_exit : Option ℤ := none
  deriving DecidableEq, Repr

/-- What the program asks of its surroundings. `next_event` is `get_nowait` behind `empty`. -/
inductive Call where
  | emit
  | monotonic
  | start_relay
  | start_collector
  | construct
  | open
  | initial_state
  | exists (marker : Marker)
  | touch (marker : Marker) (exist_ok : Bool)
  | read
  | poll
  | forward (received : Bytes)
  | join
  | next_event
  | write (packet : Bytes)
  | flush
  | out_waiting
  | close
  | is_open
  | wait
  | terminate
  | close_pipes
  | write_result
  deriving DecidableEq, Repr

/-- What each call returns. -/
abbrev Call.Answer : Call → Type
  | .monotonic => ℚ
  | .exists _ | .is_open => Bool
  | .read => Bytes
  | .poll => Option ℤ
  | .next_event => Option RelayEvent
  | .write _ => ℕ
  | _ => Unit

/-- A part of `run`. -/
abbrev Prog (α : Type) := Program Run Call Call.Answer Exc α

/-- One call. -/
def ask (c : Call) : Prog c.Answer := Program.request c

/-- Change the report. -/
def report (f : Report → Report) : Prog Unit := modify fun r => { r with report := f r.report }

/-- Start the relay and open the port. -/
def openPort : Prog Unit := do
  ask .emit
  ask .start_relay
  modify fun r => { r with process := true }
  ask .start_collector
  modify fun r => { r with collector := true }
  ask .construct
  modify fun r => { r with device := true }
  ask .open
  report fun r => { r with port_closed := false }
  ask .initial_state
  ask .emit

/-- The listeners are ready when the relay said so and the node's marker exists. -/
def checkReady : Prog Unit := do
  let r ← get
  Program.provided (r.ready = false ∧ r.relay_ready = true) do
    let found ← ask (.exists .ros2_ready)
    Program.provided (found = true) do
      modify fun r => { r with ready := true }
      ask (.touch .listener_ready false)
      ask .emit

/-- The operator's power confirmation, observed at the pass's clock. -/
def checkPower (now : ℚ) : Prog Unit := do
  let r ← get
  Program.provided (r.ready = true ∧ r.power_on = none) do
    let found ← ask (.exists .power_on_confirmed)
    Program.provided (found = true) do
      modify fun r => { r with power_on := some now, report.power_on_confirmed := true }
      ask .emit

/-- The startup confirmation, and the authorisation 65 seconds after the power confirmation. -/
def checkStartup (now : ℚ) : Prog Unit := do
  let r ← get
  match r.power_on with
  | none => pure ()
  | some power_on => do
    let found ← ask (.exists .startup_complete_confirmed)
    Program.provided (found = true) do
      let r ← get
      Program.provided (r.report.startup_complete_confirmed = false) do
        report fun r => { r with startup_complete_confirmed := true }
        ask .emit
      let r ← get
      Program.provided (r.status_authorized = false ∧ 65 ≤ now - power_on) do
        modify fun r => { r with capture := r.capture.mark, status_authorized := true }
        ask (.touch .status_trigger false)
        ask .emit

/-- The timeouts of the operator's confirmations. -/
def confirmationTimeout (already_powered_on : Bool) (started now : ℚ) (r : Run) : Option Exc :=
  if already_powered_on then
    if r.ready = false ∧ now - started > 300 then
      some (.os "Both listeners were not ready in 300 seconds")
    else none
  else
    match r.power_on with
    | none =>
      if now - started > 300 then some (.os "No power-on confirmation in 300 seconds") else none
    | some power_on =>
      if r.status_authorized = false ∧ now - power_on > 300 then
        some (.os "No startup-complete confirmation in 300 seconds")
      else none

/-- The operator's part of a pass. -/
def confirmations (already_powered_on : Bool) (started now : ℚ) : Prog Unit := do
  checkReady
  Program.provided (already_powered_on = false) do
    checkPower now
    checkStartup now
  let r ← get
  match confirmationTimeout already_powered_on started now r with
  | some e => throw e
  | none => pure ()

/-- Read the port and forward what was received while the relay runs. -/
def forwardSerial : Prog Unit := do
  let r ← get
  let data ← ask .read
  modify fun r' => { r' with
    capture := r'.capture.read (if r.gate.sent then .post_tx else .passive) data }
  Program.provided (data ≠ []) do
    let exited ← ask .poll
    Program.provided (exited = none) (ask (.forward data))
  let exited ← ask .poll
  Program.provided (exited ≠ none) (ask .join)

/-- Write an accepted packet once and drain the output. -/
def transmit (packet : Bytes) : Prog Unit := do
  modify fun r => { r with capture := r.capture.mark }
  ask .emit
  let count ← ask (.write packet)
  report fun r => { r with write_count := some count }
  ask .emit
  Program.provided (count ≠ 7) (throw (.os "Short status write; do not retry"))
  ask .flush
  report fun r => { r with flush_completed := true }
  let now ← ask .monotonic
  modify fun r => { r with drained := some now }
  ask .out_waiting
  ask .emit

/-- Pass the node's bytes through the gate. -/
def passGate (event : RelayEvent) : Prog Unit := do
  let data ← Program.ofExcept event.hex
  let r ← get
  let accepted := r.gate.accept data (r.status_authorized && event.controller_status_trigger_seen)
  modify fun r => { r with gate := accepted.2 }
  match ← Program.ofExcept accepted.1 with
  | some packet => transmit packet
  | none => pure ()

/-- One relay event. -/
def handleEvent (event : RelayEvent) : Prog Unit := do
  let name ← Program.ofExcept event.name
  ask .emit
  if name = "relay_ready" then modify fun r => { r with relay_ready := true }
  else if name = "node_exit" then do
    let returncode ← Program.ofExcept event.returncode
    modify fun r => { r with node_exit := returncode }
  else if name = "relay_error" then throw (.os event.error)
  else if name = "node_tx" then passGate event
  else pure ()

/-- Take the events which are there. -/
def drainEvents (passes : ℕ) : Prog Unit :=
  Program.repeatUntil .cut (do
    match ← ask .next_event with
    | none => pure (some ())
    | some event => do
      handleEvent event
      pure none) passes

/-- Authorise for a scanner which was on before, once both listeners are ready. -/
def authorizePoweredOn (already_powered_on : Bool) : Prog Unit := do
  let r ← get
  Program.provided (already_powered_on = true ∧ r.ready = true ∧ r.status_authorized = false) do
    modify fun r => { r with capture := r.capture.mark }
    ask (.touch .status_trigger false)
    modify fun r => { r with status_authorized := true }
    ask .emit

/-- Whether the node or the relay has exited. -/
def exited : Prog Bool := do
  let r ← get
  if r.node_exit ≠ none then pure true
  else do
    let code ← ask .poll
    pure (code ≠ none)

/-- Whether the loop ends: five seconds after the flush once the other side has exited, eight
otherwise. An exit before the flush is an error. -/
def finished (now : ℚ) : Prog (Option Unit) := do
  let gone ← exited
  let r ← get
  match r.drained with
  | none =>
    if gone then throw (.os "ROS 2/relay exited before a complete status write and flush")
    else pure none
  | some drained =>
    if gone = true ∧ 5 ≤ now - drained ∨ 8 ≤ now - drained then pure (some ()) else pure none

/-- One pass of the polling loop. -/
def pollingPass (already_powered_on : Bool) (started : ℚ) (passes : ℕ) : Prog (Option Unit) := do
  if (← ask .monotonic) - started < 660 then
    let now ← ask .monotonic
    let cancelled ← ask (.exists .cancel_trigger)
    Program.provided (cancelled = true) (throw (.os "Operator cancelled"))
    confirmations already_powered_on started now
    forwardSerial
    drainEvents passes
    authorizePoweredOn already_powered_on
    finished now
  else throw (.os "Overall 660-second deadline")

/-- The time since the flush. -/
def measureDrained : Prog Unit := do
  let r ← get
  match r.drained with
  | none => pure ()
  | some drained => do
    let now ← ask .monotonic
    report fun r => { r with post_flush_read_seconds := some (now - drained) }

/-- The body of the `try` block. -/
def attempt (already_powered_on : Bool) (started : ℚ) (passes : ℕ) : Prog Unit := do
  openPort
  Program.repeatUntil .cut (pollingPass already_powered_on started passes) passes
  measureDrained
  modify fun r =>
    let windows_status_valid := r.capture.status.isSome && !r.capture.post_nak
    { r with
      report.node_exit_code := r.node_exit
      report.windows_status_valid := windows_status_valid
      report.success := windows_status_valid && r.node_exit = some 0 }

/-- The handler of the `try` block. -/
def handle : Exc → Prog Unit
  | .cut => throw .cut
  | e => do
    report fun r => { r with error := some e }
    ask .emit

/-- Close the port; an `Exception` of closing is kept. -/
def closePort : Prog Unit := do
  let r ← get
  Program.provided (r.device = true) do
    tryCatch (ask .close) fun
      | .keyboard_interrupt => throw .keyboard_interrupt
      | .cut => throw .cut
      | e => report fun r => { r with close_error := some e }
    let is_open ← ask .is_open
    report fun r => { r with port_closed := !is_open }

/-- Wait for the relay, terminate it when it does not exit, and close its pipes. -/
def stopRelay : Prog Unit := do
  let r ← get
  Program.provided (r.process = true) do
    tryCatch (ask .wait) fun
      | .timeout_expired => do
        ask .terminate
        tryCatch (ask .wait) fun
          | .timeout_expired => report fun r => { r with relay_cleanup_error := some .timeout_expired }
          | e => throw e
      | e => throw e
    let r ← get
    Program.provided (r.collector = true) (ask .join)
    ask .close_pipes

/-- The last lines of the report. -/
def conclude (r : Run) : Run :=
  { r with
    report.rx_bytes := r.capture.raw.length
    report.post_tx_ack := r.capture.post_ack
    report.post_tx_nak := r.capture.post_nak
    report.status := r.capture.status
    report.startup := r.capture.startup
    report.node_tx := r.gate.buffer
    report.partial_node_tx := if r.gate.sent then [] else r.gate.buffer
    report.success := r.report.success && r.report.port_closed && r.report.error.isNone &&
      r.report.relay_cleanup_error.isNone }

/-- The `finally` block. -/
def cleanup : Prog Unit := do
  closePort
  ask (.touch .cancel_trigger true)
  stopRelay
  modify conclude
  ask .emit
  ask .write_result

/-- `run` after its entry checks. -/
def run (already_powered_on : Bool) (passes : ℕ) : Prog Report := do
  report fun r => { r with
    power_on_confirmed := already_powered_on
    startup_complete_confirmed := already_powered_on }
  let started ← ask .monotonic
  Program.andFinally (tryCatch (attempt already_powered_on started passes) handle) cleanup
  let r ← get
  pure r.report

end Lms200.Ros2.Experiment
