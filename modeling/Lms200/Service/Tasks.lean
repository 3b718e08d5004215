import Lms200.Coop.Pool
import Lms200.Service.State

/-!
# The coroutines of the service

The longer coroutines of `Service` in `service.py` as cooperative programs: an iteration of the
fault watcher, the operations, the end of a recording, and the shutdown. A cancelled task gets its
cancellation at a wait; a task which awaits a recording worker passes it on to the worker.

The operations of the device are opaque. Each ends, raises or is cancelled under the same lock as
in `state_machine.py`, and leaves the device in the state which `state_machine.py` gives it;
closing the transport does not raise.
-/

namespace Lms200

open Coop

namespace Service

/-- The waits of the service. -/
inductive Wait where
  | scheduled
  | nap
  | put (r : ℕ)
  | worker (r : ℕ)
  | operationLock
  | connect
  | establish
  | closeUnlocked
  | watcher
  | operation
  deriving DecidableEq, Repr

/-- Every wait returns nothing. -/
abbrev Wait.Answer (_ : Wait) : Type := Unit

/-- How a suspended wait goes on. -/
inductive Turn where
  | goes
  | raises
  | cancels
  deriving DecidableEq, Repr

/-- The fault watcher runs in the first slot, the operations in the second, the shutdown in the
third, and requests to end a recording in the others. -/
def watcherTask : ℕ := 0

/-- The slot of the operations. -/
def operationTask : ℕ := 1

/-- The slot of the shutdown. -/
def shutdownTask : ℕ := 2

/-- `put_nowait(None)` of a call which waited or not. -/
def putNone (s : Service) (task r : ℕ) : Service :=
  let recording := s.recordings r
  s.update r { recording with
    queue := recording.queue ++ [none]
    putters := recording.putters.filter (· ≠ task) }

/-- A task has come to the device, or has given up to. -/
def come (s : Service) (task : ℕ) : Service :=
  { s with attending := s.attending && task ≠ watcherTask }

/-- A wait reached by its task. -/
def enter (task : ℕ) : (w : Wait) → Service → Option (Except Failure w.Answer) × Service
  | .put r, s =>
    let recording := s.recordings r
    if recording.full then (none, s.update r { recording with putters := recording.putters ++ [task] })
    else (some (.ok ()), s.putNone task r)
  | .worker r, s =>
    match (s.recordings r).worker with
    | .ended outcome => (some outcome, s)
    | _ => (none, s)
  | .operationLock, s =>
    if s.operation_lock = none ∧ s.waiters = [] then
      (some (.ok ()), { s.come task with operation_lock := some task })
    else (none, { s with waiters := s.waiters ++ [task] })
  | .watcher, s =>
    match s.watcher with
    | .ended outcome => (some outcome, s)
    | _ => (none, s)
  | _, s => (none, s)

/-- The task has got its cancellation, or has passed it on. -/
def cancelled (s : Service) (task : ℕ) : Service :=
  { s with cancelling := s.cancelling.filter (· ≠ task) }

/-- A cancelled task takes a turn. -/
def resumeCancelled (task : ℕ) : (w : Wait) → Service → Option (Except Failure w.Answer) × Service
  | .worker r, s =>
    let recording := s.recordings r
    if recording.worker.done then (some (.error .cancelled), s.cancelled task)
    else (none, (s.cancelled task).update r { recording with cancelling := true })
  | .put r, s =>
    let recording := s.recordings r
    (some (.error .cancelled), (s.cancelled task).update r
      { recording with putters := recording.putters.filter (· ≠ task) })
  | .operationLock, s =>
    (some (.error .cancelled),
      { (s.cancelled task).come task with waiters := s.waiters.filter (· ≠ task) })
  | .establish, s => (some (.error .cancelled), { (s.cancelled task).fault with opened := false })
  | _, s => (some (.error .cancelled), s.cancelled task)

/-- A turn of a suspended wait. -/
def resume (task : ℕ) : (w : Wait) → Turn → Service →
    Option (Option (Except Failure w.Answer) × Service)
  | w, .cancels, s => if task ∈ s.cancelling then some (resumeCancelled task w s) else none
  | .scheduled, .goes, s => some (some (.ok ()), s)
  | .nap, .goes, s => some (some (.ok ()), s)
  | .put r, .goes, s =>
    if (s.recordings r).full then none else some (some (.ok ()), s.putNone task r)
  | .worker r, .goes, s =>
    match (s.recordings r).worker with
    | .ended outcome => some (some outcome, s)
    | _ => none
  | .operationLock, .goes, s =>
    if s.operation_lock = none ∧ s.waiters.head? = some task then
      some (some (.ok ()), { s.come task with operation_lock := some task, waiters := s.waiters.tail })
    else none
  | .connect, .goes, s => if s.opened then some (some (.ok ()), s) else none
  | .connect, .raises, s => some (some (.error .operation), s)
  | .establish, .goes, s => some (some (.ok ()), { s with state := .STREAMING, opened := true })
  | .establish, .raises, s => some (some (.error .operation), { s.fault with opened := false })
  | .closeUnlocked, .goes, s => some (some (.ok ()), { s with state := .DISCONNECTED, opened := false })
  | .watcher, .goes, s =>
    match s.watcher with
    | .ended outcome => some (some outcome, s)
    | _ => none
  | .operation, .goes, s => if s.busy then none else some (some s.operation, s)
  | _, .raises, _ => none

/-- The waits of the service. -/
def waits : Waits Service Wait Wait.Answer Failure Turn := ⟨enter, resume⟩

end Service

/-- A coroutine of the service. -/
abbrev Task := Program Service Service.Wait Service.Wait.Answer Failure

namespace Task

open Service

/-- Await, and raise the exception which answers. -/
def await (w : Wait) : Task Unit := Program.request w

/-- `transition` of the device. -/
def transition (state : State) : Task Unit := modify fun s => { s with state }

/-- Detach the recording before awaiting it. -/
def detach (task : ℕ) (s : Service) : Service :=
  match s.record_task with
  | none => { s with recorder := none }
  | some r => { s.update r { s.recordings r with holder := some task } with
      recorder := none
      record_task := none }

/-- `stop_recording` -/
def stop_recording (task : ℕ) : Task Unit := do
  let s ← get
  modify (detach task)
  match s.record_task with
  | none => pure ()
  | some r =>
    if s.recorder.isSome && !(s.recordings r).worker.done then await (.put (s.record_queue.getD r))
    await (.worker r)

/-- Hold the operation lock of the device. -/
def exclusively (body : Task Unit) : Task Unit := do
  await .operationLock
  Program.andFinally body (modify fun s => { s with operation_lock := none })

/-- `Device._close_unlocked`, with a note that an open transport is closed. -/
def closeUnlocked (note : Service → Service) : Task Unit := do
  if (← get).opened then
    modify note
    await .closeUnlocked

/-- `Device.close` -/
def close (note : Service → Service) : Task Unit := exclusively (closeUnlocked note)

/-- `Device.connect` -/
def connect : Task Unit := do
  if (← get).opened then pure () else await .connect

/-- What `Device.initialize` does while it holds the lock. -/
def initializeLocked : Task Unit := do
  if (← get).state = .STREAMING then pure () else await .establish

/-- `Device.initialize` -/
def initializeDevice : Task Unit := do
  match (← get).settings.require_write with
  | .error _ => throw .operation
  | .ok () => exclusively initializeLocked

/-- `Device.reconnect` -/
def reconnect : Task Unit := do
  transition .RECOVERING
  close id
  initializeDevice

end Task

/-- The names of the operations. -/
inductive Operation where
  | start
  | reconnect
  | stop
  | probe
  deriving DecidableEq, Repr

/-- The operation starts the stream, and needs permission to write. -/
def Operation.starts : Operation → Bool
  | .start | .reconnect => true
  | _ => false

namespace Task

open Service

/-- The operations of `_run_action`. -/
def perform : Operation → Task Unit
  | .start => initializeDevice
  | .reconnect => do
    stop_recording operationTask
    reconnect
  | .stop => do
    close id
    stop_recording operationTask
  | .probe => connect

/-- Something happens. -/
def log (happening : Happening) (s : Service) : Service := { s with trace := s.trace ++ [happening] }

/-- A start or reconnect which completes with the device streaming is a recovery. -/
def recover (name : Operation) (s : Service) : Service :=
  if name.starts ∧ s.state = .STREAMING then log .recovered s else s

/-- `_run_action`: whatever an operation raises, its cancellation apart, closes the device. -/
def runAction (name : Operation) : Task Unit := do
  match ← (perform name).attempt with
  | .ok () => modify (recover name)
  | .error .cancelled => throw .cancelled
  | .error _ =>
    close id
    modify Service.fault

/-- The outcome of an operation is kept when its task is done. -/
def concludeOperation (outcome : Except Failure Unit) (s : Service) : Service :=
  { s.cancelled operationTask with busy := false, operation := outcome }

/-- The task of an operation. -/
def operation (name : Operation) : Task Unit := do
  let outcome ← Program.attempt do
    await .scheduled
    runAction name
  modify (concludeOperation outcome)

/-- What the watcher does about a fault. -/
def attend : Task Unit := do
  modify fun s => { log .observed s with attending := true }
  stop_recording watcherTask
  close (log .closing)
  modify fun s => { log .overridden s with state := .FAULTED }

/-- One iteration of `_watch`. -/
def watch : Task Unit := do
  await .nap
  let s ← get
  if s.state = .FAULTED && !s.busy then
    Program.andFinally attend (modify fun s => { s with attending := false })

/-- The task of the watcher ends with an exception. -/
def concludeWatcher (e : Failure) (s : Service) : Service :=
  { s.cancelled watcherTask with watcher := .ended (.error e) }

/-- The watcher goes on to its next iteration, unless this one raises. -/
def iteration : Task Unit := do
  match ← watch.attempt with
  | .ok () => pure ()
  | .error e => modify (concludeWatcher e)

/-- `suppress(CancelledError)` around an await. -/
def suppressed (w : Wait) : Task Unit := do
  match ← (await w).attempt with
  | .ok () => pure ()
  | .error .cancelled => pure ()
  | .error e => throw e

/-- Cancel a task. -/
def cancel (task : ℕ) : Task Unit := modify fun s => { s with cancelling := task :: s.cancelling }

/-- `Service.close` -/
def shutdown : Task Unit := do
  match (← get).watcher with
  | .absent => pure ()
  | .running =>
    cancel watcherTask
    suppressed .watcher
  | .ended _ => suppressed .watcher
  if (← get).busy then
    cancel operationTask
    suppressed .operation
  modify fun s => { s with reached := true }
  close id
  stop_recording shutdownTask

end Task

namespace Service

/-- What may be started in a free slot. -/
inductive Job where
  | iteration
  | action (name : Operation)
  | shutdown
  | stop
  deriving DecidableEq, Repr

/-- A request for an operation is accepted unless one is running, and writing needs permission. -/
def accepts (s : Service) (name : Operation) : Bool :=
  !s.busy && (!name.starts || s.settings.require_write = .ok ())

/-- Start a task in its slot. -/
def spawn : Spawn Service Wait Wait.Answer Failure Job
  | 0, .iteration, s => if s.watcher = .running then some (Task.iteration, s) else none
  | 1, .action name, s => if s.accepts name then some (Task.operation name, { s with busy := true }) else none
  | 2, .shutdown, s => some (Task.shutdown, { s with shutdown := true, reached := false })
  | n + 3, .stop, s => some (Task.stop_recording (n + 3), s)
  | _, _, _ => none

/-- A pool of tasks of the service. -/
abbrev ServicePool := Pool Service Wait Wait.Answer Failure

/-- A service which has just been made. -/
def idle (settings : Settings) : ServicePool :=
  ⟨{ settings }, fun _ => .done (.ok ())⟩

/-- Let happen outside the coroutines what is allowed. -/
def reactIf (allowed : Input → Service → Bool) (input : Input) (s : Service) : Option Service :=
  if allowed input s then react input s else none

/-- What happens outside the coroutines, of what is allowed. -/
def Outside (allowed : Input → Service → Bool) (s s' : Service) : Prop :=
  ∃ input, reactIf allowed input s = some s'

/-- Anything may happen. -/
def anyInput (_ : Input) (_ : Service) : Bool := true

/-- A script of the service. -/
abbrev Script := List (Move Input Job Turn)

/-- A script which can be played is a run. -/
theorem reaches_of_played {allowed : Input → Service → Bool} {spawn : Spawn Service Wait Wait.Answer Failure Job}
    {waits : Waits Service Wait Wait.Answer Failure Turn} {script : Script} {pool pool' : ServicePool}
    (h : pool.play waits spawn (reactIf allowed) script = some pool') :
    Pool.Reaches waits (Outside allowed) spawn pool pool' :=
  Pool.Reaches.of_play (fun input _ _ hreact => ⟨input, hreact⟩) h

/-- A start, which ends with the device streaming, a recording, and its worker. -/
def recordingScript : Script :=
  [.outside .launch, .start 1 (.action .start), .turn 1 .goes, .turn 1 .goes, .outside .record,
    .outside (.worker 0 .begins)]

end Service

end Lms200
