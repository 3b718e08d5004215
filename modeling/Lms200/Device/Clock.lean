import Lms200.Coop.Turns
import Lms200.Device.Reader

/-!
# What the watchdog goes by

The watchdog compares the time with the last scan, or with the entry into the stream where no scan
has been accepted since the transport was opened. No wait of the device touches any of this, so a
turn of its coroutines leaves it alone, forgets the scans as it opens the transport, or enters the
stream.
-/

namespace Lms200

open Coop

/-- What the watchdog of the stream goes by. -/
structure Clock where
  now : ℚ
  state : State
  history : List State
  times : List ℚ
  stream_since : ℚ
  received_scans : ℕ

/-- What the watchdog of a device goes by. -/
def Device.clock (d : Device) : Clock :=
  ⟨d.now, d.state, d.history, d.times, d.stream_since, d.counters.received_scans⟩

namespace Clock

/-- The device has been in some more states, the stream not among them. -/
def Moves (c c' : Clock) : Prop := ∃ more, c'.history = c.history ++ more ∧ .STREAMING ∉ more

/-- Nothing happens to the stream, except that it may be left. -/
structure Calm (c c' : Clock) : Prop where
  now : c'.now = c.now
  state : c'.state = .STREAMING → c.state = .STREAMING
  moves : Moves c c'
  times : c'.times = c.times
  stream_since : c'.stream_since = c.stream_since
  received_scans : c'.received_scans = c.received_scans

/-- The scans are forgotten outside of the stream. -/
structure Cleared (c c' : Clock) : Prop where
  now : c'.now = c.now
  state : c'.state ≠ .STREAMING
  moves : Moves c c'
  times : c'.times = []
  received_scans : c'.received_scans = c.received_scans

/-- The stream is entered, and may be left again. -/
structure Entered (c c' : Clock) : Prop where
  now : c'.now = c.now
  times : c'.times = c.times
  stream_since : c'.stream_since = c.now
  received_scans : c'.received_scans = c.received_scans

/-- What a turn comes to. -/
def Turned (c c' : Clock) : Prop := Calm c c' ∨ Cleared c c' ∨ Entered c c'

theorem Calm.refl (c : Clock) : Calm c c := ⟨rfl, id, ⟨[], by simp⟩, rfl, rfl, rfl⟩

theorem Calm.same {c c' c'' : Clock} (h : Calm c c') (heq : c'' = c') : Calm c c'' := heq ▸ h

/-- A turn may go on with another state. -/
theorem Moves.transition {c c' : Clock} (h : Moves c c') {state : State} (hstate : state ≠ .STREAMING) :
    Moves c { c' with state, history := c'.history ++ [state] } := by
  obtain ⟨more, hhistory, hmore⟩ := h
  exact ⟨more ++ [state], by simp [hhistory], by simp [hmore, hstate.symm]⟩

end Clock

namespace Pending

/-- An event is nothing to the watchdog. -/
theorem hear_clock (cmd : Command) (p : Pending) (d : Device) (event : ℕ × Incoming) :
    (hear cmd p d event).2.clock = d.clock := by
  unfold hear
  split
  · rfl
  · rfl
  · split <;> rfl
  · split
    · split <;> rfl
    · rfl

theorem listen_clock (cmd : Command) (p : Pending) (events : List (ℕ × Incoming)) (d : Device) :
    (listen cmd p events d).2.clock = d.clock := by
  induction events generalizing p d with
  | nil =>
    unfold listen
    split <;> rfl
  | cons event rest ih =>
    unfold listen
    split
    · rfl
    · have hevent := hear_clock cmd p d event
      split
      · next p' d' heq =>
        rw [heq] at hevent
        exact (ih p' d').trans hevent
      · next outcome d' heq =>
        rw [heq] at hevent
        exact hevent

theorem wake_clock (cmd : Command) (p : Pending) (event : ℕ × Incoming) (rest : List (ℕ × Incoming))
    (d : Device) : (wake cmd p event rest d).2.clock = d.clock := by
  have hevent := hear_clock cmd p d event
  unfold wake
  split
  · next p' d' heq =>
    rw [heq] at hevent
    exact (listen_clock cmd p' rest d').trans hevent
  · next outcome d' heq =>
    rw [heq] at hevent
    exact hevent

end Pending

namespace Device

variable {task : ℕ} {d d' : Device}

theorem takeCommandLock_clock (h : d.takeCommandLock task = some d') : d'.clock = d.clock := by
  unfold takeCommandLock at h
  split at h <;> cases h
  rfl

theorem takeOperationLock_clock (h : d.takeOperationLock task = some d') : d'.clock = d.clock := by
  unfold takeOperationLock at h
  split at h <;> cases h
  rfl

/-- Reaching a wait is nothing to the watchdog. -/
theorem enter_clock (w : Request) : (enter task w d).2.clock = d.clock := by
  cases w with
  | commandLock =>
    simp only [enter]
    cases h : d.takeCommandLock task with
    | none => rfl
    | some d' => exact takeCommandLock_clock h
  | operationLock =>
    simp only [enter]
    cases h : d.takeOperationLock task with
    | none => rfl
    | some d' => exact takeOperationLock_clock h
  | reply cmd =>
    simp only [enter, startListening]
    split
    · rfl
    · exact Pending.listen_clock ..
  | _ => rfl

theorem goOnListening_clock {cmd : Command} {answer : Option (Except Error Heard)}
    (h : d.goOnListening cmd = some (answer, d')) : d'.clock = d.clock := by
  unfold goOnListening at h
  split at h
  · next p event rest _ _ =>
    have hwake := Pending.wake_clock cmd p event rest d
    rwa [Option.some.inj h] at hwake
  · cases h

theorem stopListening_clock {answer : Option (Except Error Heard)} (h : d.stopListening = some (answer, d')) :
    d'.clock = d.clock := by
  unfold stopListening at h
  split at h
  · cases h
  · split at h <;> cases h
    rfl

/-- So is what a suspended wait does. -/
theorem resume_clock {w : Request} {choice : Choice} {answer : Option (Except Error w.Answer)}
    (h : resume task w choice d = some (answer, d')) : d'.clock = d.clock := by
  cases w with
  | commandLock =>
    obtain ⟨taken, htaken, heq⟩ := Option.map_eq_some_iff.mp h
    cases heq
    exact takeCommandLock_clock htaken
  | operationLock =>
    obtain ⟨taken, htaken, heq⟩ := Option.map_eq_some_iff.mp h
    cases heq
    exact takeOperationLock_clock htaken
  | sleep wake =>
    change (if wake ≤ d.now then some (some (.ok ()), d) else none) = some (answer, d') at h
    split at h <;> cases h
    rfl
  | reply cmd =>
    cases choice with
    | done => exact goOnListening_clock h
    | leased baud => exact goOnListening_clock h
    | raised e => exact stopListening_clock h
  | _ => cases choice <;> cases h <;> rfl

end Device

/-- A coroutine from which the stream is left at most. -/
def Calms {α : Type} (p : Action α) : Prop :=
  ∀ task start d, Clock.Calm start.clock d.clock →
    p.Turns Device.waits task (fun d d' => Clock.Turned d.clock d'.clock)
      (fun _ d d' => Clock.Calm d.clock d'.clock) start d

section Coroutines

variable {α β : Type}

theorem Calms.bind {p : Action α} {f : α → Action β} (hp : Calms p) (hf : ∀ a, Calms (f a)) :
    Calms (p >>= f) := fun task start d h =>
  (hp task start d h).seq (fun a t t' ht => hf a task t t' ht) fun _ _ _ ht => ht

theorem Calms.attempt_bind {p : Action α} {f : Except Error α → Action β} (hp : Calms p)
    (hf : ∀ outcome, Calms (f outcome)) : Calms (p.attempt >>= f) := fun task start d h =>
  (hp task start d h).attempt_seq fun outcome t t' ht => hf outcome task t t' ht

theorem Calms.pure (a : α) : Calms (Pure.pure a : Action α) := fun _ _ _ h => h

theorem Calms.throw (e : Error) : Calms (MonadExcept.throw e : Action α) := fun _ _ _ h => h

theorem Calms.get_bind {next : Device → Action α} (h : ∀ d, Calms (next d)) :
    Calms ((MonadState.get : Action Device) >>= next) := fun task start d hd => h d task start d hd

theorem Calms.lift (value : Except Error α) : Calms (Action.lift value) := by
  cases value with
  | ok a => exact Calms.pure a
  | error e => exact Calms.throw e

theorem Calms.asserted (value : Option α) : Calms (Action.asserted value) := by
  cases value with
  | some a => exact Calms.pure a
  | none => exact Calms.throw _

theorem Calms.ite {c : Prop} [Decidable c] {p q : Action α} (hp : Calms p) (hq : Calms q) :
    Calms (if c then p else q) := by
  split
  · exact hp
  · exact hq

/-- A change of what the watchdog does not go by. -/
theorem Calms.change {f : Device → Device} (hf : ∀ d, (f d).clock = d.clock) :
    Calms (modify f : Action Unit) := fun _ _ d h => h.same (hf d)

theorem Calms.transition {state : State} (hstate : state ≠ .STREAMING) :
    Calms (Action.transition state) := fun _ _ _ h =>
  ⟨h.now, fun hstreaming => absurd hstreaming hstate, h.moves.transition hstate, h.times, h.stream_since,
    h.received_scans⟩

theorem Calms.finally_modify {p : Action α} {f : Device → Device} (hp : Calms p)
    (hf : ∀ d, (f d).clock = d.clock) :
    Calms (Program.andFinally p (modify f : Action Unit)) := fun task start d h =>
  (hp task start d h).finally_modify fun _ _ t' ht => ht.same (hf t')

/-- Every wait. -/
theorem Calms.await (w : Request) : Calms (Action.await w) := by
  intro task start d h
  have henter : Clock.Calm start.clock (Device.enter task w d).2.clock := h.same (Device.enter_clock w)
  have hresume {choice answer t t'} (hturn : Device.resume task w choice t = some (answer, t')) :
      Clock.Calm t.clock t'.clock := (Clock.Calm.refl _).same (Device.resume_clock hturn)
  exact Program.Turns.request (fun _ _ => henter) (fun _ => .inl henter)
    ⟨fun _ _ _ hturn => .inl (hresume hturn), fun _ _ _ _ hturn => hresume hturn⟩

theorem Calms.sleep (seconds : ℚ) : Calms (Action.sleep seconds) :=
  Calms.get_bind fun _ => Calms.await _

theorem Calms.send (cmd : Command) : Calms (Action.send cmd) :=
  Calms.bind (Calms.change fun _ => rfl) fun _ => Calms.get_bind fun _ => Calms.bind (Calms.lift _) fun _ =>
    Calms.bind (Calms.change fun _ => rfl) fun _ => Calms.await _

theorem Calms.awaitReply (cmd : Command) : Calms (Action.awaitReply cmd) := by
  refine Calms.bind (Calms.change fun _ => rfl) fun _ => Calms.bind (Calms.await (.reply cmd)) fun heard => ?_
  match heard with
  | .reply r => exact Calms.pure r
  | .nak => exact Calms.bind (Calms.sleep _) fun _ => Calms.throw _

theorem Calms.attempts (cmd : Command) (remaining : ℕ) : Calms (Action.attempts cmd remaining) := by
  induction remaining with
  | zero => exact Calms.throw _
  | succ remaining ih =>
    have hagain (e : Error) : Calms (if remaining = 0 then (MonadExcept.throw e : Action Response) else do
        Action.sleep (3 / 100)
        Action.attempts cmd remaining) :=
      Calms.ite (Calms.throw e) (Calms.bind (Calms.sleep _) fun _ => ih)
    refine Calms.bind (Calms.send cmd) fun _ => Calms.attempt_bind (Calms.awaitReply cmd) fun outcome => ?_
    match outcome with
    | .ok r => exact Calms.pure r
    | .error (.timeout m) => exact Calms.bind (Calms.change fun _ => rfl) fun _ => hagain _
    | .error (.protocol m) => exact hagain _
    | .error (.device m) => exact Calms.throw _
    | .error (.value m) => exact Calms.throw _
    | .error (.eof m) => exact Calms.throw _
    | .error (.os m) => exact Calms.throw _

theorem Calms.command (cmd : Command) : Calms (Action.command cmd) := by
  refine Calms.bind (Calms.await _) fun _ => Calms.finally_modify
    (Calms.bind ?_ fun _ => Calms.attempts cmd _) fun _ => rfl
  unfold Action.gate
  exact Calms.ite (Calms.get_bind fun _ => Calms.bind (Calms.lift _) fun _ => Calms.change fun _ => rfl)
    (Calms.pure _)

/-- A command from a value which may be an error. -/
theorem Calms.mutate (cmd : Except Error Command) {f : Response → Action α} (hf : ∀ r, Calms (f r)) :
    Calms (Action.lift cmd >>= fun cmd => Action.command cmd >>= f) :=
  Calms.bind (Calms.lift cmd) fun _ => Calms.bind (Calms.command _) hf

theorem Calms.status : Calms Action.status :=
  Calms.bind (Calms.transition (by decide)) fun _ => Calms.bind (Calms.command _) fun _ =>
    Calms.bind (Calms.lift _) fun _ => Calms.bind (Calms.change fun _ => rfl) fun _ => Calms.pure _

theorem Calms.readConfiguration : Calms Action.readConfiguration :=
  Calms.bind (Calms.command _) fun _ => Calms.bind (Calms.lift _) fun _ =>
    Calms.bind (Calms.change fun _ => rfl) fun _ => Calms.pure _

theorem Calms.detect (rates : List ℕ) : Calms (Action.detect rates) := by
  induction rates with
  | nil => exact Calms.throw _
  | cons rate rates ih =>
    refine Calms.bind (Calms.await _) fun _ => Calms.bind (Calms.change fun _ => rfl) fun _ =>
      Calms.attempt_bind Calms.status fun outcome => ?_
    match outcome with
    | .ok _ => exact Calms.pure _
    | .error (.timeout _) => exact ih
    | .error (.protocol _) => exact ih
    | .error (.device _) => exact ih
    | .error (.value _) => exact Calms.throw _
    | .error (.eof _) => exact Calms.throw _
    | .error (.os _) => exact Calms.throw _

theorem Calms.identify : Calms Action.identify := by
  refine Calms.get_bind fun _ => Calms.bind (Calms.asserted _) fun info => Calms.get_bind fun _ =>
    Calms.ite (Calms.throw _) (Calms.bind (Calms.transition (by decide)) fun _ =>
      Calms.bind (Calms.command _) fun identity => ?_)
  split
  · exact Calms.throw _
  · exact Calms.bind (Calms.change fun _ => rfl) fun _ => Calms.bind Calms.readConfiguration fun _ =>
      Calms.transition (by decide)

theorem Calms.attach : Calms Action.attach := by
  refine Calms.get_bind fun d => ?_
  split
  · exact Calms.bind (Calms.lift _) fun _ => Calms.bind (Calms.change fun _ => rfl) fun _ =>
      Calms.transition (by decide)
  · exact Calms.bind (Calms.change fun _ => rfl) fun _ => Calms.bind (Calms.transition (by decide)) fun _ =>
      Calms.get_bind fun _ => Calms.bind (Calms.detect _) fun _ => Calms.identify

theorem Calms.vet : Calms Action.vet := by
  refine Calms.get_bind fun _ => Calms.bind (Calms.asserted _) fun info => Calms.get_bind fun _ =>
    Calms.bind (Calms.asserted _) fun _ => Calms.ite (Calms.throw _) (Calms.get_bind fun _ => ?_)
  exact Calms.ite (Calms.throw _) (Calms.pure _)

theorem Calms.configure (c : Action.Changes) : Calms (Action.configure c) := by
  have hinstall : Calms (Action.enterInstallation c) := by
    unfold Action.enterInstallation
    exact Calms.ite (Calms.bind (Calms.transition (by decide)) fun _ => Calms.get_bind fun _ =>
      Calms.mutate _ fun _ => Calms.pure _) (Calms.pure _)
  have hbaud (target : ℕ) : Calms (Action.changeBaud target) :=
    Calms.bind (Calms.transition (by decide)) fun _ => Calms.mutate _ fun _ => Calms.bind (Calms.await _) fun _ =>
      Calms.bind Calms.status fun info => Calms.ite (Calms.throw _) (Calms.pure _)
  have hswitch : Calms Action.switchBaud := by
    refine Calms.get_bind fun d => ?_
    split
    · exact Calms.ite (hbaud _) (Calms.pure _)
    · exact Calms.pure _
  have hvariant : Calms (Action.writeVariant c) := by
    unfold Action.writeVariant
    exact Calms.ite (Calms.get_bind fun _ => Calms.mutate _ fun _ => Calms.pure _) (Calms.pure _)
  have hwrite : Calms (Action.writeConfiguration c) := by
    unfold Action.writeConfiguration
    exact Calms.ite (Calms.mutate _ fun _ => Calms.pure _) (Calms.pure _)
  exact Calms.bind hinstall fun _ => Calms.bind hswitch fun _ => Calms.bind (Calms.transition (by decide)) fun _ =>
    Calms.bind hvariant fun _ => hwrite

theorem Calms.verify (desired : Configuration) : Calms (Action.verify desired) :=
  Calms.bind (Calms.transition (by decide)) fun _ => Calms.bind Calms.readConfiguration fun _ =>
    Calms.bind Calms.status fun _ => Calms.get_bind fun _ => Calms.bind (Calms.lift _) fun _ =>
      Calms.ite (Calms.throw _) (Calms.pure _)

theorem Calms.closeUnlocked : Calms Action.closeUnlocked := by
  have hstop : Calms Action.stopScanner := by
    refine Calms.get_bind fun d => Calms.ite ?_ (Calms.pure _)
    exact Calms.attempt_bind (Calms.bind (Calms.lift _) fun _ => Calms.command _) fun _ => Calms.pure _
  have hreader : Calms Action.stopReader :=
    Calms.get_bind fun _ => Calms.ite (Calms.bind (Calms.change fun _ => rfl) fun _ =>
      Calms.bind (Calms.await _) fun _ => Calms.change fun _ => rfl) (Calms.pure _)
  have hopened : Calms Action.closeOpened :=
    Calms.bind (Calms.change fun _ => rfl) fun _ => Calms.bind (Calms.transition (by decide)) fun _ =>
      Calms.bind hstop fun _ => Calms.bind hreader fun _ =>
        Calms.bind (Calms.change fun _ => rfl) fun _ => Calms.bind (Calms.await _) fun _ =>
        Calms.bind (Calms.change fun _ => rfl) fun _ => Calms.transition (by decide)
  exact Calms.get_bind fun _ => Calms.ite hopened (Calms.pure _)

theorem Calms.exclusively {body : Action Unit} (h : Calms body) : Calms (Action.exclusively body) :=
  Calms.bind (Calms.await _) fun _ => Calms.finally_modify h fun _ => rfl

end Coroutines

end Lms200
