import Lms200.Coop.Pool
import Lms200.Device.State

/-!
# The tasks of the device

The coroutines of `Device` in `state_machine.py` as cooperative programs, and what their waits
do. The transport and the clock answer from outside: a transport operation succeeds or raises
anything, and time stands still within a turn.

A reply is awaited by one wait, which stands for the loop of `command`: it consumes queued events
until one of them decides, goes on waiting on an empty queue, and keeps its locals in `pending`
from the moment the queue is drained until then.
-/

namespace Lms200

open Coop

/-- What decides a wait for a reply, besides an exception. -/
inductive Heard where
  | reply (r : Response)
  | nak
  deriving DecidableEq, Repr

/-- The waits of the device. -/
inductive Request where
  | commandLock
  | operationLock
  | sleep (wake : ℚ)
  | openTransport
  | setBaud (rate : ℕ)
  | write (telegram : Bytes)
  | reply (cmd : Command)
  | joinReader
  | closeTransport
  deriving DecidableEq, Repr

/-- What a wait returns. -/
abbrev Request.Answer : Request → Type
  | .reply _ => Heard
  | _ => Unit

/-- How the outside lets a wait go on. -/
inductive Choice where
  | done
  | leased (baud : ℕ)
  | raised (e : Error)

namespace Device

/-- Record what happens on the transport. -/
def log (d : Device) (event : Wire) : Device := { d with wire := d.wire ++ [event] }

/-- The command takes its reply from the queue. -/
def accept (d : Device) (number : ℕ) (r : Response) : Device :=
  { d.log (.accepted r) with accepted := some number }

end Device

namespace Pending

/-- The exception of an expired deadline. -/
def expired (p : Pending) : Error :=
  .timeout ("No " ++ (if p.ack then "response" else "ACK") ++ " for " ++ p.command.name)

/-- One event: the loop goes on with new locals, or is decided. -/
def hear (cmd : Command) (p : Pending) (d : Device) (event : ℕ × Incoming) :
    (Pending ⊕ Except Error Heard) × Device :=
  match event.2 with
  | .error e => (.inr (.error e), d)
  | .control .NAK => (.inr (.ok .nak), { d with counters.naks := d.counters.naks + 1 })
  | .control .ACK =>
    if p.ack then (.inl p, d)
    else (.inl { p with
      ack := true
      deadline := d.now + cmd.timeout * d.settings.timeout_scale }, d)
  | .reply r =>
    if r.command = cmd.response_id ∧ p.ack then
      match confirm r cmd.payload with
      | .error e => (.inr (.error e), d)
      | .ok () => (.inr (.ok (.reply r)), d.accept event.1 r)
    else (.inl p, { d with counters.unexpected := d.counters.unexpected + 1 })

/-- The loop over the queued events, which checks the deadline before every one. -/
def listen (cmd : Command) (p : Pending) :
    List (ℕ × Incoming) → Device → Option (Except Error Heard) × Device
  | [], d =>
    if p.deadline ≤ d.now then (some (.error p.expired), { d with events := [], pending := none })
    else (none, { d with events := [], pending := some p })
  | event :: rest, d =>
    if p.deadline ≤ d.now then
      (some (.error p.expired), { d with events := event :: rest, pending := none })
    else
      match hear cmd p d event with
      | (.inl p', d') => listen cmd p' rest d'
      | (.inr outcome, d') => (some outcome, { d' with events := rest, pending := none })

/-- The loop after an event has woken it, which is used whatever the deadline. -/
def wake (cmd : Command) (p : Pending) (event : ℕ × Incoming) (rest : List (ℕ × Incoming))
    (d : Device) : Option (Except Error Heard) × Device :=
  match hear cmd p d event with
  | (.inl p', d') => listen cmd p' rest d'
  | (.inr outcome, d') => (some outcome, { d' with events := rest, pending := none })

end Pending

namespace Device

/-- Take the command lock if it is free. -/
def takeCommandLock (d : Device) (task : ℕ) : Option Device :=
  if d.command_lock = none then some { d with command_lock := some task } else none

/-- Take the operation lock if it is free. -/
def takeOperationLock (d : Device) (task : ℕ) : Option Device :=
  if d.operation_lock = none then some { d with operation_lock := some task } else none

/-- The waiting loop begins, on the events which are queued already. -/
def startListening (d : Device) (cmd : Command) : Option (Except Error Heard) × Device :=
  match d.pending with
  | none => (none, d)
  | some p => p.listen cmd d.events d

/-- The waiting loop goes on with a queued event. -/
def goOnListening (d : Device) (cmd : Command) : Option (Option (Except Error Heard) × Device) :=
  match d.pending, d.events with
  | some p, event :: rest => some (p.wake cmd event rest d)
  | _, _ => none

/-- The timer of the waiting loop fires. -/
def stopListening (d : Device) : Option (Option (Except Error Heard) × Device) :=
  match d.pending with
  | none => none
  | some p =>
    if p.deadline ≤ d.now then some (some (.error p.expired), { d with pending := none }) else none

/-- A wait reached by its task: a free lock is taken, and queued events are heard, at once. -/
def enter (task : ℕ) : (w : Request) → Device → Option (Except Error w.Answer) × Device
  | .commandLock, d => ((d.takeCommandLock task).map fun _ => .ok (), (d.takeCommandLock task).getD d)
  | .operationLock, d =>
    ((d.takeOperationLock task).map fun _ => .ok (), (d.takeOperationLock task).getD d)
  | .reply cmd, d => d.startListening cmd
  | _, d => (none, d)

/-- A turn of a suspended wait. -/
def resume (task : ℕ) : (w : Request) → Choice → Device →
    Option (Option (Except Error w.Answer) × Device)
  | .commandLock, _, d => (d.takeCommandLock task).map fun d' => (some (.ok ()), d')
  | .operationLock, _, d => (d.takeOperationLock task).map fun d' => (some (.ok ()), d')
  | .sleep wake, _, d => if wake ≤ d.now then some (some (.ok ()), d) else none
  | .openTransport, .done, d => some (some (.ok ()), d)
  | .openTransport, .leased baud, d => some (some (.ok ()), { d with transport.baud := baud })
  | .openTransport, .raised e, d => some (some (.error e), d)
  | .setBaud _, .raised e, d => some (some (.error e), d)
  | .setBaud rate, _, d =>
    some (some (.ok ()), { d.log (.baud rate) with transport.baud := rate })
  | .write _, .raised e, d => some (some (.error e), d)
  | .write _, _, d => some (some (.ok ()), d)
  | .reply _, .raised _, d => d.stopListening
  | .reply cmd, _, d => d.goOnListening cmd
  | .joinReader, _, d => some (some (.ok ()), d)
  | .closeTransport, .raised e, d => some (some (.error e), d)
  | .closeTransport, _, d => some (some (.ok ()), d)

/-- The waits of the device. -/
def waits : Waits Device Request Request.Answer Error Choice := ⟨enter, resume⟩

end Device

/-- A coroutine of the device. -/
abbrev Action := Program Device Request Request.Answer Error

namespace Action

/-- Await, and raise the exception which answers. -/
def await (w : Request) : Action w.Answer := Program.request w

/-- A computation which may raise. -/
def lift {α : Type} (value : Except Error α) : Action α := Program.ofExcept value

/-- Sleep for a time. -/
def sleep (seconds : ℚ) : Action Unit := do
  await (.sleep ((← get).now + seconds))

/-- `transition` -/
def transition (state : State) : Action Unit := modify (Device.transition · state)

/-- The queue is drained and the telegram handed to the transport. -/
def send (cmd : Command) : Action Unit := do
  modify fun d => { d with events := [], pending := some ⟨cmd, false, d.now⟩ }
  let telegram ← lift (cmd.telegram (← get).settings.address)
  modify (Device.log · (.wrote cmd.payload))
  await (.write telegram)

/-- The wait for what decides an attempt. -/
def awaitReply (cmd : Command) : Action Response := do
  modify fun d => { d with pending := some ⟨cmd, false, d.now + d.settings.ack_timeout⟩ }
  match ← await (.reply cmd) with
  | .reply r => pure r
  | .nak =>
    sleep (3 / 100)
    throw (.protocol "NAK")

/-- The attempts of a command which remain. -/
def attempts (cmd : Command) : ℕ → Action Response
  | 0 => throw (.protocol "Command retry budget exhausted")
  | remaining + 1 => do
    send cmd
    match ← (awaitReply cmd).attempt with
    | .ok r => pure r
    | .error (.timeout m) =>
      modify fun d => { d with counters.timeouts := d.counters.timeouts + 1 }
      if remaining = 0 then throw (.timeout m)
      else
        sleep (3 / 100)
        attempts cmd remaining
    | .error (.protocol m) =>
      if remaining = 0 then throw (.protocol m)
      else
        sleep (3 / 100)
        attempts cmd remaining
    | .error e => throw e

/-- Mutating commands pass the consent gate first. -/
def gate (cmd : Command) : Action Unit := do
  if cmd.mutates then
    lift (← get).settings.require_write
    modify fun d => { d with changed := true }

/-- `command` -/
def command (cmd : Command) : Action Response := do
  await .commandLock
  Program.andFinally
    (do
      gate cmd
      attempts cmd cmd.attempts)
    (modify fun d => { d with command_lock := none, pending := none })

/-- `_status` -/
def status : Action DeviceStatus := do
  transition .STATUS
  let reply ← command status_request
  let info ← lift (decode_status reply)
  modify fun d => { d with info := some info }
  pure info

/-- Read the configuration, as `connect` and the readback of `initialize` do. -/
def readConfiguration : Action Configuration := do
  let reply ← command configuration_request
  let configuration ← lift (Configuration.ofRaw reply.data)
  modify fun d => { d with configuration := some configuration }
  pure configuration

/-- The loop of `connect` over the rates. -/
def detect : List ℕ → Action Unit
  | [] => throw (.timeout "No scanner found at the permitted baud rates")
  | rate :: rates => do
    await (.setBaud rate)
    modify fun d => { d with framer := d.framer.reset }
    match ← status.attempt with
    | .ok _ => pure ()
    | .error (.timeout _) => detect rates
    | .error (.protocol _) => detect rates
    | .error (.device _) => detect rates
    | .error e => throw e

/-- The rates which are tried. -/
def rates (d : Device) : List ℕ :=
  if d.settings.detect_baud && d.transport.can_set_baud then
    [9600, 38400, 19200] ++ (if d.settings.high_speed then [500000] else [])
  else [d.transport.baud]

/-- An `assert` on a value which may be missing. -/
def asserted {α : Type} : Option α → Action α
  | some a => pure a
  | none => throw (.value "AssertionError")

/-- The identity and configuration requests of `connect`. -/
def identify : Action Unit := do
  let info ← asserted (← get).info
  if info.baud ≠ (← get).transport.baud then
    throw (.protocol "Status baud disagrees with adapter baud")
  else
    transition .CONNECTED
    let identity ← command type_request
    match asciiStrip identity.data with
    | none => throw (.protocol "Invalid scanner identity")
    | some model =>
      modify fun d => { d with model := some model }
      let _ ← readConfiguration
      transition .CONNECTED

/-- What `connect` does once the transport is open. -/
def attach : Action Unit := do
  match (← get).transport.replay with
  | some metadata =>
    let metadata ← lift metadata
    modify fun d => { d with
      configuration := some metadata.configuration
      info := some metadata.device_status
      model := some metadata.model }
    transition .CONNECTED
  | none =>
    modify fun d => { d with reader := some .created }
    transition .DETECTING
    detect (rates (← get))
    identify

/-- The optional wait for the scanner to start up. -/
def startupWait : Action Unit := do
  let seconds := (← get).settings.startup_wait
  if seconds ≠ 0 then sleep seconds

/-- `connect` -/
def connect : Action Unit := do
  if (← get).opened then pure ()
  else
    modify fun d => { d with
      error := none
      last_telegram_index := none
      times := []
      framer := d.framer.reset }
    transition .OPENING
    startupWait
    await .openTransport
    modify fun d => { d.log (.opened d.transport.baud) with opened := true }
    attach

/-- Stop the reader and wait for it. -/
def stopReader : Action Unit := do
  if (← get).reader.isSome then
    modify fun d => { d with reader := some .ended }
    await .joinReader
    modify fun d => { d with reader := none }

/-- The stop command of a close, if anything was changed; its failures are swallowed. -/
def stopScanner : Action Unit := do
  let d ← get
  if d.changed && d.transport.replay.isNone then
    let _ ← Program.attempt do
      command (← lift (operating_mode .ON_REQUEST))

/-- What `_close_unlocked` does with an open transport. -/
def closeOpened : Action Unit := do
  modify (Device.log · .stopping)
  transition .STOPPING
  stopScanner
  stopReader
  modify fun d => d.log (.closing d.changed)
  await .closeTransport
  modify fun d => { d with opened := false, changed := false }
  transition .DISCONNECTED

/-- `_close_unlocked` -/
def closeUnlocked : Action Unit := do
  if (← get).opened then closeOpened

/-- `LMS200;30106` -/
def modelSemicolon : Bytes :=
  [0x4C, 0x4D, 0x53, 0x32, 0x30, 0x30, 0x3B, 0x33, 0x30, 0x31, 0x30, 0x36]

/-- `LMS200-30106` -/
def modelHyphen : Bytes :=
  [0x4C, 0x4D, 0x53, 0x32, 0x30, 0x30, 0x2D, 0x33, 0x30, 0x31, 0x30, 0x36]

/-- The model may be configured. -/
def configurable (model : Option Bytes) : Bool :=
  match model with
  | none => false
  | some model => modelSemicolon.isPrefixOf model || modelHyphen.isPrefixOf model

/-- The checks before the first mutating command. -/
def vet : Action Unit := do
  let info ← asserted (← get).info
  let _ ← asserted (← get).configuration
  if info.device_error ≠ 0 then throw (.device "B1 reports a defective scanner")
  else if ¬ configurable (← get).model then
    throw (.device "Configuration is limited to LMS200-30106")

/-- Change the rate of the scanner and of the adapter, and read the status again. -/
def changeBaud (target : ℕ) : Action Unit := do
  transition .BAUD
  let _ ← command (← lift (baud_rate target))
  await (.setBaud target)
  let info ← status
  if info.baud ≠ target then throw (.protocol "Scanner did not confirm new baud")

/-- What is to be written, from what was read. -/
structure Changes where
  desired : Configuration
  geometry : Bool
  configuration : Bool

/-- The changes of `initialize`. -/
def changes (settings : Settings) (info : DeviceStatus) (configuration : Configuration) : Changes :=
  let desired := configuration.updated settings.unit settings.indices
  { desired
    geometry := (info.angle, info.resolution) ≠ (settings.angle, settings.resolution)
    configuration := desired.raw ≠ configuration.raw }

/-- Enter installation mode, if anything is to be written. -/
def enterInstallation (c : Changes) : Action Unit := do
  if c.configuration || c.geometry then
    transition .INSTALLATION
    let _ ← command (← lift (operating_mode .INSTALLATION (← get).settings.password))

/-- Change the rate, if another one than the adapter's is wanted. -/
def switchBaud : Action Unit := do
  let d ← get
  match d.settings.target_baud with
  | some target => if target ≠ d.transport.baud then changeBaud target
  | none => pure ()

/-- Write the variant, if the geometry differs. -/
def writeVariant (c : Changes) : Action Unit := do
  if c.geometry then
    let d ← get
    let _ ← command (← lift (variant d.settings.angle d.settings.resolution))

/-- Write the configuration, if it differs. -/
def writeConfiguration (c : Changes) : Action Unit := do
  if c.configuration then
    let _ ← command (← lift (write_configuration c.desired.raw))

/-- Write what differs. -/
def configure (c : Changes) : Action Unit := do
  enterInstallation c
  switchBaud
  transition .CONFIGURING
  writeVariant c
  writeConfiguration c

/-- Read back what was written. -/
def verify (desired : Configuration) : Action Unit := do
  transition .VERIFYING
  let configuration ← readConfiguration
  let info ← status
  let settings := (← get).settings
  let unit ← lift desired.unit
  if configuration.raw ≠ desired.raw ∨ info.angle ≠ settings.angle ∨
      info.resolution ≠ settings.resolution ∨ info.unit ≠ unit ∨
      info.measuring_mode ≠ desired.mode then
    throw (.protocol "Scanner configuration readback did not match")

/-- Start the measurement stream. -/
def startStream : Action Unit := do
  transition .STARTING
  let _ ← command (← lift (operating_mode .CONTINUOUS))
  modify fun d => { d with stream_since := d.now }
  transition .STREAMING

/-- What `initialize` does with a scanner. -/
def prepare (start_stream : Bool) : Action Unit := do
  vet
  let _ ← command (← lift (operating_mode .ON_REQUEST))
  let info ← asserted (← get).info
  let configuration ← asserted (← get).configuration
  let c := changes (← get).settings info configuration
  configure c
  verify c.desired
  let _ ← command (← lift (operating_mode .ON_REQUEST))
  if start_stream then startStream else transition .CONNECTED

/-- The body of the `try` of `initialize`. -/
def establish (start_stream : Bool) : Action Unit := do
  connect
  if (← get).transport.replay.isSome then
    transition .STREAMING
    modify fun d => { d with stream_since := d.now, reader := some .created }
  else prepare start_stream

/-- What `initialize` does while it holds the operation lock. -/
def initializeLocked (start_stream : Bool) : Action Unit := do
  if (← get).state = .STREAMING then pure ()
  else
    match ← (establish start_stream).attempt with
    | .ok () => pure ()
    | .error e =>
      closeUnlocked
      transition .FAULTED
      throw e

/-- Hold the operation lock. -/
def exclusively (body : Action Unit) : Action Unit := do
  await .operationLock
  Program.andFinally body (modify fun d => { d with operation_lock := none })

/-- `initialize` -/
def initializeDevice (start_stream : Bool) : Action Unit := do
  lift (← get).settings.require_write
  exclusively (initializeLocked start_stream)

/-- `close` -/
def close : Action Unit := exclusively closeUnlocked

/-- `reconnect` -/
def reconnect : Action Unit := do
  transition .RECOVERING
  close
  initializeDevice true

end Action

end Lms200
