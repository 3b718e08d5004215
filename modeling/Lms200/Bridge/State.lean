import Lms200.Bridge.Lease
import Lms200.Coop.Pool

/-!
# The serial bridge in control mode

`SerialBridge` of `bridge.py` with the parts of `asyncio` it runs on: the two listeners, the
connections they have accepted, and the tasks which handle these. A connection belongs to the slot
of its handler and is lost no earlier than the handler's first step. `Server.wait_closed` returns
once the listener is closed and all its connections are lost.

The pumps of a data connection are tasks of their own; each read or write of the serial port is one
step of the environment. Any suspended task may be cancelled at any time.
-/

namespace Lms200.Bridge

open Coop

/-- What a slot was given to: a control connection, a data connection of a listener, or a call of
`close`. -/
inductive Role where
  | control (peer : Option Peer)
  | data (server : ℕ) (peer : Option Peer)
  | close
  deriving DecidableEq, Repr

/-- One of the two pumps of a data connection. -/
inductive Pump where
  | idle
  | running
  | cancelled
  | ended
  deriving DecidableEq, Repr

/-- The pump has not ended. -/
def Pump.active : Pump → Bool
  | running | cancelled => true
  | _ => false

/-- `SerialBridge`. Behind its own fields are the local variables `owns`, `message` and `baud` of the
control handlers, the pumps, and what `asyncio` knows of servers, connections and tasks. -/
structure SerialBridge where
  token : Bytes
  high_speed : Bool
  baud : ℕ
  lease : Bool := false
  peer : Option Peer := none
  data_server : Option ℕ := none
  data_task : Option ℕ := none
  clients : List ℕ := []
  owns : List ℕ := []
  request : ℕ → Option Message := fun _ => none
  requested : ℕ → Option ℕ := fun _ => none
  to_serial : ℕ → Pump := fun _ => .idle
  from_serial : ℕ → Pump := fun _ => .idle
  role : ℕ → Option Role := fun _ => none
  accepting : Bool := true
  servers : ℕ := 0
  listening : List ℕ := []
  attached : List ℕ := []
  waiters : List (ℕ × ℕ) := []
  started : List ℕ := []
  finished : List ℕ := []
  cancelled : List ℕ := []
  trace : List Event := []

/-- A line of the control connection, read and parsed; nothing at its end. -/
abbrev Line := Option (Except Fault Message)

/-- An answer on the control connection; the port number of a lease is left out. -/
structure Reply where
  ok : Bool
  baud : Option ℕ := none
  deriving DecidableEq, Repr

/-- The waits of the bridge. `gather` returns the exceptions of what it waits for. -/
inductive Wait where
  | scheduled
  | readline
  | hangup
  | reply (reply : Reply)
  | start_server
  | set_baud (baud : ℕ)
  | server_closed (server : ℕ)
  | control_closed
  | gather (tasks : List ℕ)
  | first_completed
  | gather_pumps
  | transport_closed
  | close_serial
  deriving DecidableEq, Repr

/-- What each wait returns. -/
abbrev Wait.Answer : Wait → Type
  | .readline => Line
  | _ => Unit

/-- How a suspended wait goes on. -/
inductive Turn where
  | goes
  | line (line : Line)
  | raises (e : Fault)
  deriving DecidableEq, Repr

namespace SerialBridge

/-- A listener is closed and all its connections are lost. -/
def serverClosed (s : SerialBridge) (server : ℕ) : Bool :=
  server ∉ s.listening && s.attached.all fun c => match s.role c with
    | some (.data g _) => g ≠ server
    | _ => true

/-- The same for the control listener. -/
def controlClosed (s : SerialBridge) : Bool :=
  !s.accepting && s.attached.all fun c => match s.role c with
    | some (.control _) => false
    | _ => true

/-- A wait reached by its task. -/
def enter (task : ℕ) : (w : Wait) → SerialBridge → Option (Except Fault w.Answer) × SerialBridge
  | .server_closed server, s =>
    if s.serverClosed server then (some (.ok ()), s)
    else (none, { s with waiters := (task, server) :: s.waiters })
  | .control_closed, s => if s.controlClosed then (some (.ok ()), s) else (none, s)
  | .gather tasks, s => if tasks = [] then (some (.ok ()), s) else (none, s)
  | _, s => (none, s)

/-- The new data listener is the one of the lease. -/
def openServer (s : SerialBridge) : SerialBridge :=
  { s with
    data_server := some s.servers
    listening := s.servers :: s.listening
    servers := s.servers + 1
    trace := .opened s.servers :: s.trace }

/-- The serial port has a new baud rate. -/
def switch (s : SerialBridge) (task baud : ℕ) : SerialBridge :=
  { s with baud, trace := .switched task baud (s.requested task) :: s.trace }

/-- A task no longer waits for a listener. -/
def unwait (s : SerialBridge) (task : ℕ) : SerialBridge :=
  { s with waiters := s.waiters.filter (·.1 ≠ task) }

/-- `cancel` of some tasks. -/
def cancel (s : SerialBridge) (tasks : List ℕ) : SerialBridge :=
  { s with cancelled := tasks ++ s.cancelled }

/-- The waits which may fail by themselves. -/
def fails (task : ℕ) (s : SerialBridge) : Wait → Bool
  | .readline | .hangup | .reply _ | .start_server | .set_baud _ | .transport_closed | .close_serial => true
  | .first_completed => s.to_serial task = .ended || s.from_serial task = .ended
  | _ => false

/-- Both pumps of a connection have ended. -/
def pumpsEnded (task : ℕ) (s : SerialBridge) : Bool :=
  s.to_serial task = .ended && s.from_serial task = .ended

/-- A suspended wait raises. What awaits other tasks passes a cancellation on to them, and is only
left when they have ended. -/
def raising (task : ℕ) (e : Fault) : (w : Wait) → SerialBridge →
    Option (Option (Except Fault w.Answer) × SerialBridge)
  | .gather tasks, s =>
    if e ≠ .cancelled then none
    else if tasks.all (· ∈ s.finished) then some (some (.error .cancelled), s)
    else some (none, s.cancel tasks)
  | .gather_pumps, s =>
    if e = .cancelled ∧ s.pumpsEnded task then some (some (.error .cancelled), s) else none
  | .server_closed _, s => if e = .cancelled then some (some (.error .cancelled), s.unwait task) else none
  | w, s => if e = .cancelled ∨ s.fails task w then some (some (.error e), s) else none

/-- A turn of a suspended wait. -/
def resume (task : ℕ) : (w : Wait) → Turn → SerialBridge →
    Option (Option (Except Fault w.Answer) × SerialBridge)
  | w, .raises e, s => raising task e w s
  | .readline, .line line, s => some (some (.ok line), s)
  | .readline, .goes, _ => none
  | _, .line _, _ => none
  | .start_server, .goes, s => some (some (.ok ()), s.openServer)
  | .set_baud baud, .goes, s => some (some (.ok ()), s.switch task baud)
  | .server_closed server, .goes, s =>
    if s.serverClosed server then some (some (.ok ()), s.unwait task) else none
  | .control_closed, .goes, s => if s.controlClosed then some (some (.ok ()), s) else none
  | .gather tasks, .goes, s =>
    if tasks.all (· ∈ s.finished) then some (some (.ok ()), s) else none
  | .first_completed, .goes, s =>
    if s.to_serial task = .ended ∨ s.from_serial task = .ended then some (some (.ok ()), s) else none
  | .gather_pumps, .goes, s => if s.pumpsEnded task then some (some (.ok ()), s) else none
  | .transport_closed, .goes, s => if task ∉ s.attached then some (some (.ok ()), s) else none
  | .scheduled, .goes, s | .hangup, .goes, s | .reply _, .goes, s | .close_serial, .goes, s =>
    some (some (.ok ()), s)

/-- The waits of the bridge. -/
def waits : Waits SerialBridge Wait Wait.Answer Fault Turn := ⟨enter, resume⟩

/-- What happens outside of the handlers: a connection is lost, a task is cancelled, and the pumps
move a chunk or end. -/
inductive Input where
  | lost (task : ℕ)
  | cancel (task : ℕ)
  | to_serial (task : ℕ)
  | from_serial (task : ℕ)
  | to_serial_ends (task : ℕ)
  | from_serial_ends (task : ℕ)
  deriving DecidableEq, Repr

/-- Bytes of a data connection are pumped. -/
def pumped (s : SerialBridge) (task : ℕ) : Option SerialBridge :=
  match s.role task with
  | some (.data server (some peer)) => some { s with trace := .pumped task server peer :: s.trace }
  | _ => none

/-- What the outside does. A pump only moves bytes while it is not cancelled. -/
def react : Input → SerialBridge → Option SerialBridge
  | .lost task, s =>
    if task ∈ s.started ∨ task ∈ s.finished then
      some { s with attached := s.attached.filter (· ≠ task) }
    else none
  | .cancel task, s => some (s.cancel [task])
  | .to_serial task, s => if s.to_serial task = .running then s.pumped task else none
  | .from_serial task, s => if s.from_serial task = .running then s.pumped task else none
  | .to_serial_ends task, s =>
    if (s.to_serial task).active then
      some { s with to_serial := Function.update s.to_serial task .ended }
    else none
  | .from_serial_ends task, s =>
    if (s.from_serial task).active then
      some { s with from_serial := Function.update s.from_serial task .ended }
    else none

/-- The steps of the outside. -/
def env (s s' : SerialBridge) : Prop := ∃ input, react input s = some s'

/-- A bridge which has just been started. -/
def start (token : Bytes) (high_speed : Bool) (baud : ℕ) : SerialBridge := { token, high_speed, baud }

end SerialBridge

end Lms200.Bridge
