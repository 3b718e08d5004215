import Lms200.Bridge.State

/-!
# The coroutines of the serial bridge

The handlers `_control` and `_data`, `_end_lease` and `close` of `bridge.py` in control mode as
cooperative programs. The task which runs a coroutine is its argument, as `current_task` gives it.

A control handler is observed for a number of lines, behind which its client only hangs up.
-/

namespace Lms200.Bridge

open Coop SerialBridge

/-- A coroutine of the bridge. -/
abbrev Task := Program SerialBridge Wait Wait.Answer Fault

/-- Await, and raise the exception which answers. -/
def await (w : Wait) : Task w.Answer := Program.request w

namespace SerialBridge

/-- The first step of a control handler. -/
def enterControl (task : ℕ) (s : SerialBridge) : SerialBridge :=
  { s with started := task :: s.started, clients := task :: s.clients }

/-- The first step of a data handler. -/
def enterData (task : ℕ) (s : SerialBridge) : SerialBridge := { s with started := task :: s.started }

/-- The lease is granted. Where the connection has no peer name the assignment of `_peer` raises, and
it is still `None`. -/
def grant (task : ℕ) (request : Message) (peer : Option Peer) (s : SerialBridge) : SerialBridge :=
  { s with
    lease := true
    owns := task :: s.owns
    peer
    trace := .granted task request peer :: s.trace }

/-- `_data_server.close` -/
def closeListener (s : SerialBridge) : SerialBridge :=
  match s.data_server with
  | some server => { s with listening := s.listening.filter (· ≠ server) }
  | none => s

/-- A data connection is admitted: it is the data task, the listener is closed, and both pumps are
created. -/
def engage (task : ℕ) (s : SerialBridge) : SerialBridge :=
  { s.closeListener with
    data_task := some task
    to_serial := Function.update s.to_serial task .running
    from_serial := Function.update s.from_serial task .running }

/-- `cancel` of a pump. -/
def cancelPump : Pump → Pump
  | .running => .cancelled
  | pump => pump

/-- Both pumps of a connection are cancelled. -/
def cancelPumps (task : ℕ) (s : SerialBridge) : SerialBridge :=
  { s with
    to_serial := Function.update s.to_serial task (cancelPump (s.to_serial task))
    from_serial := Function.update s.from_serial task (cancelPump (s.from_serial task)) }

/-- The lease is released, and no handler owns it any longer. -/
def release (s : SerialBridge) : SerialBridge :=
  { s with lease := false, peer := none, owns := [], trace := .released :: s.trace }

/-- The handler is done with its lease, released or not. -/
def disown (task : ℕ) (s : SerialBridge) : SerialBridge := { s with owns := s.owns.filter (· ≠ task) }

/-- A task has ended. -/
def finish (task : ℕ) (s : SerialBridge) : SerialBridge := { s with finished := task :: s.finished }

/-- The last step of a control handler: it leaves the clients, and has ended. -/
def leave (task : ℕ) (s : SerialBridge) : SerialBridge :=
  { s.finish task with clients := s.clients.filter (· ≠ task) }

end SerialBridge

/-- Run a task to its end. -/
def ending (task : ℕ) (body : Task Unit) : Task Unit := Program.andFinally body (modify (finish task))

/-- `writer.close` and `writer.wait_closed`; an `OSError` is suppressed. -/
def closeWriter : Task Unit :=
  tryCatch (await .transport_closed) fun
    | .os => pure ()
    | e => throw e

/-- `_end_lease` closes the data listener and waits for its connections. -/
def closeDataServer : Task Unit := do
  match (← get).data_server with
  | none => pure ()
  | some server => do
    modify closeListener
    await (.server_closed server)
    modify fun s => { s with data_server := none }

/-- Then it cancels the data task and waits for it. -/
def cancelDataTask : Task Unit := do
  match (← get).data_task with
  | none => pure ()
  | some task => do
    modify (cancel · [task])
    await (.gather [task])

/-- `_end_lease` -/
def end_lease : Task Unit := do
  closeDataServer
  cancelDataTask
  modify release

/-- The baud rate which a message asks for, if it is one of the adapter's. -/
def Message.rate (message : Message) : Option ℕ :=
  if message.op = .baud then message.baud.filter (· ∈ [9600, 19200, 38400, 500000]) else none

/-- One message of the holder. -/
def serve (task : ℕ) (message : Message) : Task Unit := do
  modify fun s => { s with requested := Function.update s.requested task message.baud }
  match message.rate with
  | none => do
    let s ← get
    await (.reply (if message.op = .status then ⟨true, some s.baud⟩ else ⟨false, none⟩))
  | some baud => do
    if baud = 500000 ∧ (← get).high_speed = false then await (.reply ⟨false, none⟩)
    else do
      await (.set_baud baud)
      await (.reply ⟨true, some (← get).baud⟩)

/-- The messages of the holder. -/
def serveLines (task : ℕ) : ℕ → Task Unit
  | 0 => await .hangup
  | lines + 1 => do
    match ← await .readline with
    | none => pure ()
    | some line => do
      let message ← Program.ofExcept line
      serve task message
      serveLines task lines

/-- The part of `_control` under the lease. -/
def hold (task : ℕ) (peer : Option Peer) (request : Message) (lines : ℕ) : Task Unit := do
  modify (grant task request peer)
  if peer = none then throw .other
  else do
    await .start_server
    await (.reply ⟨true, some (← get).baud⟩)
    serveLines task lines

/-- The lease request of a control connection. -/
def session (task : ℕ) (peer : Option Peer) (lines : ℕ) : Task Unit := do
  let line ← await .readline
  let request ← Program.ofExcept (line.getD (.error .value))
  modify fun s => { s with request := Function.update s.request task (some request) }
  if request.op ≠ .lease ∨ (← get).lease = true then await (.reply ⟨false, none⟩)
  else do
    let token ← Program.ofExcept request.token
    if token ≠ (← get).token then await (.reply ⟨false, none⟩)
    else hold task peer request lines

/-- The lease ends with the handler which holds it. -/
def endOwnLease (task : ℕ) : Task Unit := do
  if task ∈ (← get).owns then Program.andFinally end_lease (modify (disown task)) else pure ()

/-- `_control` -/
def control (task : ℕ) (peer : Option Peer) (lines : ℕ) : Task Unit :=
  ending task do
    await .scheduled
    modify (enterControl task)
    Program.andFinally
      (tryCatch (session task peer lines) fun
        | .value => pure ()
        | .os => pure ()
        | e => throw e)
      (do
        endOwnLease task
        closeWriter
        modify (leave task))

/-- The part of `_data` which pumps. -/
def pump (task : ℕ) : Task Unit := do
  modify (engage task)
  Program.andFinally
    (tryCatch (await .first_completed) fun
      | .os => pure ()
      | .eof => pure ()
      | e => throw e)
    (do
      modify (cancelPumps task)
      await .gather_pumps
      closeWriter
      modify fun s => { s with data_task := none })

/-- `_data` -/
def data (task : ℕ) (peer : Option Peer) : Task Unit :=
  ending task do
    await .scheduled
    modify (enterData task)
    match peer with
    | none => throw .other
    | some address => do
      let s ← get
      if s.data_task ≠ none ∨ s.lease = false ∨ s.peer ≠ some address then await .transport_closed
      else pump task

/-- `close` -/
def close (task : ℕ) : Task Unit :=
  ending task do
    modify fun s => { s with accepting := false }
    await .control_closed
    let clients := (← get).clients
    modify (cancel · clients)
    await (.gather clients)
    end_lease
    await .close_serial

/-- What may begin: a control connection whose client sends at most some lines, a data connection of a
listener, and `close`. -/
inductive Job where
  | control (peer : Option Peer) (lines : ℕ)
  | data (server : ℕ) (peer : Option Peer)
  | close
  deriving DecidableEq, Repr

/-- A slot is given to a role. -/
def SerialBridge.assign (s : SerialBridge) (task : ℕ) (role : Role) : SerialBridge :=
  { s with role := Function.update s.role task (some role) }

/-- A listener accepts a connection. -/
def SerialBridge.accept (s : SerialBridge) (task : ℕ) (role : Role) : SerialBridge :=
  { s.assign task role with attached := task :: s.attached }

/-- The tasks of the bridge. Each begins in a slot of its own. -/
def spawn : Spawn SerialBridge Wait Wait.Answer Fault Job
  | task, .control peer lines, s =>
    if s.role task = none ∧ s.accepting = true then
      some (control task peer lines, s.accept task (.control peer))
    else none
  | task, .data server peer, s =>
    if s.role task = none ∧ server ∈ s.listening then
      some (data task peer, s.accept task (.data server peer))
    else none
  | task, .close, s => if s.role task = none then some (close task, s.assign task .close) else none

/-- The bridge with its tasks. -/
abbrev World := Pool SerialBridge Wait Wait.Answer Fault

/-- A bridge which has just been started. -/
def started (token : Bytes) (high_speed : Bool) (baud : ℕ) : World :=
  ⟨start token high_speed baud, fun _ => .done (.ok ())⟩

/-- What a bridge may come to. -/
def Reachable (token : Bytes) (high_speed : Bool) (baud : ℕ) (world : World) : Prop :=
  Pool.Reaches waits env spawn (started token high_speed baud) world

end Lms200.Bridge
