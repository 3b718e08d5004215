import Lms200.Device.State
import Mathlib.Logic.Function.Basic

/-!
# The service and its recordings

The fields of `Service` in `service.py`, what its short requests do, and the recording worker
between its awaits. Recordings are numbered; each has its own queue and worker.

Of the device the service sees its state, its operation lock and whether its transport is open.
Whoever waits for the lock or for a free slot of a queue is listed there, as in `asyncio`. The
notes and the contents of recordings are left out, and the subscribers are a part of their own. The holder of a recording is
the call which has detached it; the last fields of the service record whether a shutdown has begun
and has called `Device.close`, whether the watcher has observed a fault and has not come to the device
yet, and what has become of the device.
-/

namespace Lms200

/-- What ends a coroutine of the service besides a value: its cancellation, an `OSError` of a
recorder, or an exception of an operation of the device. -/
inductive Failure where
  | cancelled
  | recording
  | operation
  deriving DecidableEq, Repr

/-- Where a recording worker stands: not begun, in `queue.get`, in `recorder.write`, past its loop
in `recorder.close` with what it will end in, or ended. -/
inductive Worker where
  | created
  | getting
  | writing
  | closing (outcome : Except Failure Unit)
  | ended (outcome : Except Failure Unit)
  deriving DecidableEq, Repr

/-- The worker has not left its loop. -/
def Worker.looping : Worker → Bool
  | .created | .getting | .writing => true
  | _ => false

/-- The task of the worker is done. -/
def Worker.done : Worker → Bool
  | .ended _ => true
  | _ => false

/-- A recorder with its queue and its worker. -/
structure Recording where
  closed : Bool := false
  queue : List (Option Scan) := []
  putters : List ℕ := []
  worker : Worker := .created
  cancelling : Bool := false
  holder : Option ℕ := none

/-- The size of a record queue. -/
def maxsize : ℕ := 128

namespace Recording

/-- `queue.full()` -/
def full (r : Recording) : Bool := maxsize ≤ r.queue.length

/-- The worker takes the next item, or waits for one. -/
def fetch (r : Recording) : Recording :=
  match r.queue with
  | [] => { r with worker := .getting }
  | none :: rest => { r with queue := rest, worker := .closing (.ok ()) }
  | some _ :: rest => { r with queue := rest, worker := .writing }

end Recording

/-- A turn of a recording worker. -/
inductive WorkerTurn where
  | begins
  | gets
  | writes
  | writeFails
  | closes
  | closeFails
  | cancelled
  deriving DecidableEq, Repr

/-- The fault watcher: not launched, between its awaits, or ended. -/
inductive Watcher where
  | absent
  | running
  | ended (outcome : Except Failure Unit)
  deriving DecidableEq, Repr

/-- What becomes of the device: the watcher observes a fault, a start or reconnect completes with the
device streaming, the device meets a fault, and the watcher closes it or sets it to `FAULTED`. -/
inductive Happening where
  | observed
  | recovered
  | faulted
  | closing
  | overridden
  deriving DecidableEq, Repr

/-- The service. -/
structure Service where
  settings : Settings
  state : State := .DISCONNECTED
  opened : Bool := false
  operation_lock : Option ℕ := none
  waiters : List ℕ := []
  record_drops : ℕ := 0
  recorder : Option ℕ := none
  record_queue : Option ℕ := none
  record_task : Option ℕ := none
  count : ℕ := 0
  recordings : ℕ → Recording := fun _ => {}
  busy : Bool := false
  operation : Except Failure Unit := .ok ()
  watcher : Watcher := .absent
  cancelling : List ℕ := []
  shutdown : Bool := false
  reached : Bool := false
  attending : Bool := false
  trace : List Happening := []

namespace Service

/-- Change one recording. -/
def update (s : Service) (r : ℕ) (recording : Recording) : Service :=
  { s with recordings := Function.update s.recordings r recording }

/-- `publish`, for the recorder. -/
def publish (s : Service) (scan : Scan) : Service :=
  match s.recorder, s.record_queue with
  | some r, some q =>
    if (s.recordings r).closed then s
    else if (s.recordings q).full then { s with record_drops := s.record_drops + 1 }
    else
      let recording := s.recordings q
      s.update q { recording with queue := recording.queue ++ [some scan] }
  | _, _ => s

/-- `start_recording`, once a recorder can be opened. -/
def start_recording (s : Service) : Option Service :=
  if s.state ≠ .STREAMING then none
  else if s.recorder.isSome then some s
  else
    some { s.update s.count {} with
      recorder := some s.count
      record_queue := some s.count
      record_task := some s.count
      count := s.count + 1 }

/-- A write fails: the worker leaves its loop and detaches its recorder. -/
def writeFails (s : Service) (r : ℕ) : Service :=
  let recording := s.recordings r
  { s.update r { recording with worker := .closing (.ok ()) } with
    record_drops := s.record_drops + (recording.queue.length + 1)
    recorder := if s.recorder = some r then none else s.recorder }

/-- One turn of `_record`, if its worker can take it. -/
def work (s : Service) (r : ℕ) (turn : WorkerTurn) : Option Service :=
  let recording := s.recordings r
  if r < s.count then
    match turn, recording.worker with
    | .begins, .created => some (s.update r recording.fetch)
    | .gets, .getting => if recording.queue = [] then none else some (s.update r recording.fetch)
    | .writes, .writing => some (s.update r recording.fetch)
    | .writeFails, .writing => some (s.writeFails r)
    | .closes, .closing outcome => some (s.update r { recording with worker := .ended outcome, closed := true })
    | .closeFails, .closing _ => some (s.update r { recording with worker := .ended (.error .recording) })
    | .cancelled, worker =>
      if recording.cancelling then
        match worker with
        | .created | .closing _ =>
          some (s.update r { recording with worker := .ended (.error .cancelled), cancelling := false })
        | .getting | .writing =>
          some (s.update r { recording with worker := .closing (.error .cancelled), cancelling := false })
        | .ended _ => none
      else none
    | _, _ => none
  else none

/-- `/api/consent` -/
def consent (s : Service) (enable_writes : Bool) (consent : HardwareConsent) : Option Service :=
  if s.busy ∨ ¬ (s.state = .DISCONNECTED ∨ s.state = .CONNECTED ∨ s.state = .FAULTED) then none
  else if enable_writes ∧ consent.require s.settings.serial_standard ≠ .ok () then none
  else some { s with settings := { s.settings with consent, read_only := !enable_writes } }

/-- The device meets a fault. -/
def fault (s : Service) : Service := { s with state := .FAULTED, trace := s.trace ++ [.faulted] }

/-- The device changes its state by itself: its reader meets a fault or the end of a replay, or an
operation makes progress. Only `initialize` starts the stream. -/
def moves (s : Service) (state : State) : Option Service :=
  if state = .STREAMING then none
  else if state = .FAULTED then some s.fault
  else some { s with state }

/-- What happens to the service outside its longer coroutines. -/
inductive Input where
  | launch
  | moves (state : State)
  | opens
  | publish (scan : Scan)
  | record
  | consent (enable_writes : Bool) (consent : HardwareConsent)
  | worker (r : ℕ) (turn : WorkerTurn)

/-- Let it happen, if it can. -/
def react : Input → Service → Option Service
  | .launch, s => if s.watcher = .absent then some { s with watcher := .running } else none
  | .moves state, s => s.moves state
  | .opens, s => if s.busy then some { s with opened := true } else none
  | .publish scan, s => some (s.publish scan)
  | .record, s => s.start_recording
  | .consent enable_writes consent, s => s.consent enable_writes consent
  | .worker r turn, s => s.work r turn

/-- A scan to record. -/
def someScan : Scan :=
  ⟨1, ⟨0x10, .ok, .lms_type_6, false, false, false⟩, 180, 100, 0, 0, .mm, 0, none, none, [], []⟩

end Service

end Lms200
