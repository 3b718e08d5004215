import Lms200.Coop.Pool
import Lms200.Coop.Zoom
import Lms200.Device.Stopping
import Lms200.Service.Tasks

/-!
# The service with its device

The coroutines of `Service` in `service.py` around the coroutines of the device: the operations, an
iteration of the fault watcher and what the shutdown does with the device. Requests to
`/api/consent` change the settings of the device when the endpoint accepts them.

Of a recording only the time is left which it takes to end it, and that this may raise. No task is
cancelled. The texts of errors are left out.
-/

namespace Lms200

open Coop

/-- The service with its device: whether an operation runs, the watcher runs, and a recording does. -/
structure Station where
  device : Device
  busy : Bool := false
  watching : Bool := false
  recording : Bool := false

namespace Station

/-- The device of the service. -/
def part : Part Station Device := ⟨(·.device), fun d s => { s with device := d }, fun _ _ => rfl⟩

/-- What the service waits for besides its device. -/
inductive Pause where
  | scheduled
  | nap
  | recording
  deriving DecidableEq, Repr

/-- Every pause returns nothing. -/
abbrev Pause.Answer (_ : Pause) : Type := Unit

/-- The end of a recording may raise. -/
def resumePause : Pause → Choice → Station → Option (Option (Except Error Unit) × Station)
  | .recording, .raised e, s => some (some (.error e), s)
  | _, _, s => some (some (.ok ()), s)

/-- The pauses of the service. -/
def pauses : Waits Station Pause Pause.Answer Error Choice := ⟨fun _ _ s => (none, s), fun _ => resumePause⟩

/-- The waits of the service. -/
def waits : Waits Station (Request ⊕ Pause) (Sum.elim Request.Answer Pause.Answer) Error Choice :=
  Device.waits.zoom part pauses

end Station

/-- A coroutine of the service. -/
abbrev Duty := Program Station (Request ⊕ Station.Pause) (Sum.elim Request.Answer Station.Pause.Answer) Error

namespace Duty

/-- A coroutine of the device. -/
def device {α : Type} (p : Action α) : Duty α := p.zoom Station.part

/-- Pause, and raise the exception which ends it. -/
def pause (p : Station.Pause) : Duty Unit := Program.request (Sum.inr p)

/-- `stop_recording` -/
def stop_recording : Duty Unit := do
  if (← get).recording then
    modify fun s => { s with recording := false }
    pause .recording

/-- The operations of `_run_action`. -/
def perform : Operation → Duty Unit
  | .start => device (Action.initializeDevice true)
  | .reconnect => do
    stop_recording
    device Action.reconnect
  | .stop => do
    device Action.close
    stop_recording
  | .probe => device Action.connect

/-- `_run_action`: whatever an operation raises closes the device. -/
def runAction (name : Operation) : Duty Unit := do
  match ← (perform name).attempt with
  | .ok () => pure ()
  | .error _ =>
    device Action.close
    device (Action.transition .FAULTED)

/-- The task of an operation. -/
def operation (name : Operation) : Duty Unit := do
  let _ ← Program.attempt do
    pause .scheduled
    runAction name
  modify fun s => { s with busy := false }

/-- One iteration of `_watch`. -/
def watch : Duty Unit := do
  pause .nap
  let s ← get
  if s.device.state = .FAULTED && !s.busy then
    stop_recording
    device Action.close
    device (modify fun d => { d with state := .FAULTED })

/-- The watcher goes on to its next iteration, unless this one raises. -/
def iteration : Duty Unit := do
  match ← watch.attempt with
  | .ok () => pure ()
  | .error _ => modify fun s => { s with watching := false }

/-- What `Service.close` does with the device. -/
def shutdown : Duty Unit := do
  device Action.close
  stop_recording

end Duty

namespace Station

/-- What may be started in a free slot. -/
inductive Job where
  | iteration
  | action (name : Operation)
  | shutdown
  deriving DecidableEq, Repr

/-- A request for an operation is accepted unless one is running, and writing needs permission. -/
def accepts (s : Station) (name : Operation) : Bool :=
  !s.busy && (!name.starts || s.device.settings.require_write = .ok ())

/-- Start a task in its slot. -/
def spawn : Spawn Station (Request ⊕ Pause) (Sum.elim Request.Answer Pause.Answer) Error Job
  | 0, .iteration, s => if s.watching then some (Duty.iteration, s) else none
  | 1, .action name, s => if s.accepts name then some (Duty.operation name, { s with busy := true }) else none
  | _ + 2, .shutdown, s => some (Duty.shutdown, s)
  | _, _, _ => none

/-- What happens to the service outside of its coroutines. -/
inductive Input where
  | launch
  | record
  | device (input : Lms200.Input)
  | consent (enable_writes : Bool) (consent : HardwareConsent)

/-- `/api/consent` -/
def consent (s : Station) (enable_writes : Bool) (consent : HardwareConsent) : Option Station :=
  if s.busy ∨ ¬ (s.device.state = .DISCONNECTED ∨ s.device.state = .CONNECTED ∨ s.device.state = .FAULTED) then
    none
  else if enable_writes ∧ consent.require s.device.settings.serial_standard ≠ .ok () then none
  else
    let settings := { s.device.settings with consent, read_only := !enable_writes }
    some { s with device := { s.device with settings } }

/-- Let it happen, if it can. -/
def react : Input → Station → Option Station
  | .launch, s => some { s with watching := true }
  | .record, s => if s.device.state = .STREAMING then some { s with recording := true } else none
  | .device input, s => some { s with device := s.device.react input }
  | .consent enable_writes consent, s => s.consent enable_writes consent

/-- Let happen what is allowed. -/
def reactIf (allowed : Input → Station → Bool) (input : Input) (s : Station) : Option Station :=
  if allowed input s then react input s else none

/-- What happens outside of the coroutines, of what is allowed. -/
def Outside (allowed : Input → Station → Bool) (s s' : Station) : Prop :=
  ∃ input, reactIf allowed input s = some s'

/-- Anything may happen. -/
def anyInput (_ : Input) (_ : Station) : Bool := true

/-- A pool of tasks of the service. -/
abbrev StationPool := Pool Station (Request ⊕ Pause) (Sum.elim Request.Answer Pause.Answer) Error

/-- A service which has just been made. -/
def idle (settings : Settings) (transport : Transport) : StationPool :=
  ⟨{ device := { settings, transport } }, fun _ => .done (.ok ())⟩

/-- A script which can be played is a run. -/
theorem reaches_of_played {allowed : Input → Station → Bool} {script : List (Move Input Job Choice)}
    {pool pool' : StationPool} (h : pool.play waits spawn (reactIf allowed) script = some pool') :
    Pool.Reaches waits (Outside allowed) spawn pool pool' :=
  Pool.Reaches.of_play (fun input _ _ hreact => ⟨input, hreact⟩) h

end Station

end Lms200
