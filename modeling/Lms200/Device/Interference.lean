import Lms200.Device.Rules

/-!
# What the reader changes

Whatever is received, the reader and the clock leave the session alone.
-/

namespace Lms200

namespace Device

@[simp] theorem transition_session (d : Device) (state : State) :
    (d.transition state).toSession = d.toSession := rfl

@[simp] theorem fault_session (d : Device) (error : String) :
    (d.fault error).toSession = d.toSession := rfl

@[simp] theorem malformed_session (d : Device) : d.malformed.toSession = d.toSession := rfl

@[simp] theorem keep_session (d : Device) (scan : Scan) :
    (d.keep scan).toSession = d.toSession := rfl

@[simp] theorem queue_session (d : Device) (event : Incoming) :
    (d.queue event).toSession = d.toSession := by
  unfold queue
  split <;> rfl

@[simp] theorem readerEnds_session (d : Device) (e : Error) :
    (d.readerEnds e).toSession = d.toSession := d.queue_session (.error e)

@[simp] theorem measure_session (d : Device) (reply : Response) :
    (d.measure reply).toSession = d.toSession := by
  unfold measure
  split
  · split <;> simp
  · rfl

@[simp] theorem handle_session (d : Device) (event : Event) :
    (d.handle event).toSession = d.toSession := by
  cases event with
  | control c => simp [handle]
  | frame f =>
    unfold handle
    dsimp only
    split
    · simp
    · rfl
    · split
      · simp
      · split
        · split <;> simp
        · simp

theorem foldl_handle_session (events : List Event) (d : Device) :
    (events.foldl handle d).toSession = d.toSession := by
  induction events generalizing d with
  | nil => rfl
  | cons event rest ih => rw [List.foldl_cons, ih, handle_session]

@[simp] theorem handleAll_session (d : Device) (fed : Emitted × Framer) :
    (d.handleAll fed).toSession = d.toSession := foldl_handle_session _ _

@[simp] theorem watchdog_session (d : Device) : d.watchdog.toSession = d.toSession := by
  unfold watchdog
  split <;> rfl

@[simp] theorem readData_session (d : Device) (last_bytes : ℚ) (bytes : Bytes) :
    (d.readData last_bytes bytes).toSession = d.toSession := by
  unfold readData
  split
  · simp
  · split <;> simp

@[simp] theorem readEof_session (d : Device) : d.readEof.toSession = d.toSession := by
  unfold readEof
  split
  · split <;> simp
  · simp

@[simp] theorem readFailure_session (d : Device) : d.readFailure.toSession = d.toSession := by
  simp [readFailure]

/-- The session is not touched. -/
theorem react_session (d : Device) (input : Input) : (d.react input).toSession = d.toSession := by
  cases input with
  | tick elapsed => rfl
  | begin =>
    unfold react
    dsimp only
    split <;> rfl
  | read result =>
    unfold react read
    dsimp only
    split <;> simp

end Device

end Lms200
