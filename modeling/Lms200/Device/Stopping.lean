import Lms200.Device.InitTrace
import Lms200.Device.Keeps

/-!
# The stop before a close

Whoever closes the device holds the operation lock from the first step of the close to the last,
and nobody else closes it or marks it as changed in the meantime. As long as what has been changed
may still be written to, the stop is written before the transport of a changed scanner is closed.
-/

namespace Lms200

open Coop

/-- The stop has been written since the close began which goes on. -/
def StopWritten (wire : List Wire) : Prop :=
  ∃ earlier since, wire = earlier ++ .stopping :: since ∧ (∀ event ∈ since, event.closes = false) ∧
    .wrote stopPayload ∈ since

/-- Whenever the transport of a changed scanner is closed, the stop has been written. -/
def StopsFirst (wire : List Wire) : Prop :=
  ∀ before after, wire = before ++ .closing true :: after → StopWritten before

/-- One more event of the wire. -/
theorem StopsFirst.snoc {wire : List Wire} {event : Wire} (h : StopsFirst wire)
    (hclosing : event = .closing true → StopWritten wire) : StopsFirst (wire ++ [event]) := by
  intro before after heq
  rcases List.eq_nil_or_concat after with rfl | ⟨after, last, rfl⟩
  · obtain ⟨rfl, hlast⟩ := List.append_inj' heq rfl
    exact hclosing (List.cons.inj hlast).1
  · have : wire ++ [event] = (before ++ .closing true :: after) ++ [last] := by simpa using heq
    exact h before after (List.append_inj' this rfl).1

/-- Events which belong to no close. -/
theorem StopsFirst.append {wire more : List Wire} (h : StopsFirst wire)
    (hmore : ∀ event ∈ more, event.closes = false) : StopsFirst (wire ++ more) := by
  induction more generalizing wire with
  | nil => rwa [List.append_nil]
  | cons event rest ih =>
    rw [List.append_cons]
    refine ih (h.snoc fun heq => ?_) fun later hlater => hmore later (List.mem_cons_of_mem _ hlater)
    have hevent := hmore event List.mem_cons_self
    rw [heq] at hevent
    cases hevent

/-- When a close has just begun, the stop has not been written. -/
theorem not_stopWritten_stopping (earlier : List Wire) : ¬ StopWritten (earlier ++ [.stopping]) := by
  rintro ⟨before, since, heq, hsince, hwritten⟩
  rcases List.eq_nil_or_concat since with rfl | ⟨since, last, rfl⟩
  · cases hwritten
  · have : earlier ++ [.stopping] = (before ++ .stopping :: since) ++ [last] := by simpa using heq
    obtain ⟨-, hlast⟩ := List.append_inj' this rfl
    have hcloses := hsince last (by simp)
    rw [← (List.cons.inj hlast).1] at hcloses
    cases hcloses

namespace Device

/-- What has been changed may be stopped. -/
structure Stoppable (d : Device) : Prop where
  replay : d.transport.replay = none
  writable : d.changed = true → d.settings.require_write = .ok ()
  stops : StopsFirst d.wire

/-- The holder of the lock keeps it, and nobody else marks a change or closes. -/
structure LeftTo (task : ℕ) (d d' : Device) : Prop where
  held : d'.operation_lock = some task
  changed : d'.changed = d.changed
  wire : ∃ more, d'.wire = d.wire ++ more ∧ ∀ event ∈ more, event.closes = false

end Device

/-- Everybody keeps what has been changed stoppable, and leaves the holder of the lock alone. -/
def stoppable (task : ℕ) : Contract Device where
  rely d d' := d.Stoppable → d'.Stoppable ∧ (d.operation_lock = some task → d.LeftTo task d')
  guarantee d d' := d.Stoppable →
    d'.Stoppable ∧ ∀ other, other ≠ task → d.operation_lock = some other → d.LeftTo other d'

section Steps

variable {task : ℕ} {d d' : Device}

theorem Mild.stoppable (h : Mild d d') (hd : d.Stoppable) : d'.Stoppable := by
  obtain ⟨more, hwire, hmore⟩ := h.wire
  refine ⟨h.replay.trans hd.replay, fun hchanged => ?_, hwire ▸ hd.stops.append hmore⟩
  rw [h.settings]
  exact hd.writable (h.changed ▸ hchanged)

theorem Mild.leftTo (h : Mild d d') (hheld : d.operation_lock = some task) : d.LeftTo task d' :=
  ⟨h.operation_lock.trans hheld, h.changed, h.wire⟩

theorem Mild.guarantee (h : Mild d d') : (Lms200.stoppable task).guarantee d d' := fun hd =>
  ⟨h.stoppable hd, fun _ _ => h.leftTo⟩

/-- The holder of the lock may do anything. -/
theorem Device.guarantee_of_held (hheld : d.operation_lock = some task) (h : d.Stoppable → d'.Stoppable) :
    (stoppable task).guarantee d d' := fun hd =>
  ⟨h hd, fun _ hne hother => absurd (Option.some.inj (hother.symm.trans hheld)) hne⟩

/-- What is stoppable stays so. -/
theorem peaceful_stoppable (task : ℕ) : Peaceful (stoppable task) Device.Stoppable where
  admits _ _ h := (Mild.of_quiet h).guarantee
  rely _ _ hd hrely := (hrely hd).1
  mild _ _ hd h := ⟨h.guarantee, h.stoppable hd⟩

/-- A task which holds the lock of a stoppable device. -/
structure Device.Owned (task : ℕ) (d : Device) : Prop where
  stoppable : d.Stoppable
  held : d.operation_lock = some task

theorem peaceful_owned (task : ℕ) : Peaceful (stoppable task) (Device.Owned task) where
  admits := (peaceful_stoppable task).admits
  rely _ _ hd hrely := by
    obtain ⟨hstoppable, hleft⟩ := hrely hd.stoppable
    exact ⟨hstoppable, (hleft hd.held).held⟩
  mild _ _ hd h := ⟨h.guarantee, h.stoppable hd.stoppable, h.operation_lock.trans hd.held⟩

/-- A close which goes on, and whether the stop must have been written, of a changed scanner or not. -/
structure Device.Closing (task : ℕ) (written : Bool → Prop) (d : Device) : Prop extends d.Owned task where
  since : ∃ earlier since, d.wire = earlier ++ .stopping :: since ∧ (∀ event ∈ since, event.closes = false) ∧
    (written d.changed → .wrote stopPayload ∈ since)

/-- A close goes on. -/
theorem Device.Closing.append {written : Bool → Prop} (h : d.Closing task written) (howned : d'.Owned task)
    (hchanged : d'.changed = d.changed)
    (hwire : ∃ more, d'.wire = d.wire ++ more ∧ ∀ event ∈ more, event.closes = false) :
    d'.Closing task written := by
  obtain ⟨earlier, since, heq, hsince, hwritten⟩ := h.since
  obtain ⟨more, hmore, hcloses⟩ := hwire
  refine ⟨howned, earlier, since ++ more, by simp [hmore, heq], fun event hevent => ?_, fun hchange => ?_⟩
  · exact (List.mem_append.mp hevent).elim (hsince event) (hcloses event)
  · exact List.mem_append_left _ (hwritten (hchanged ▸ hchange))

theorem peaceful_closing (task : ℕ) (written : Bool → Prop) :
    Peaceful (stoppable task) (Device.Closing task written) where
  admits := (peaceful_stoppable task).admits
  rely d d' hd hrely := by
    have howned := (peaceful_owned task).rely d d' hd.toOwned hrely
    obtain ⟨-, hleft⟩ := hrely hd.stoppable
    have hleft := hleft hd.held
    exact hd.append howned hleft.changed hleft.wire
  mild d d' hd h := by
    obtain ⟨hguarantee, howned⟩ := (peaceful_owned task).mild d d' hd.toOwned h
    exact ⟨hguarantee, hd.append howned h.changed h.wire⟩

/-- A close of a changed scanner. -/
theorem peaceful_changed (task : ℕ) (written : Bool → Prop) :
    Peaceful (stoppable task) fun d => d.Closing task written ∧ d.changed = true where
  admits := (peaceful_stoppable task).admits
  rely d d' hd hrely := by
    refine ⟨(peaceful_closing task written).rely d d' hd.1 hrely, ?_⟩
    obtain ⟨-, hleft⟩ := hrely hd.1.stoppable
    exact (hleft hd.1.held).changed.trans hd.2
  mild d d' hd h := by
    obtain ⟨hguarantee, hclosing⟩ := (peaceful_closing task written).mild d d' hd.1 h
    exact ⟨hguarantee, hclosing, h.changed.trans hd.2⟩

/-- A close of a changed scanner which has attempted some stops. -/
def Device.Attempting (task : ℕ) : ℕ → Device → Prop
  | 0, d => d.Closing task (fun _ => False) ∧ d.changed = true
  | _ + 1, d => d.Closing task fun _ => True

theorem peaceful_attempting (task attempted : ℕ) : Peaceful (stoppable task) (Device.Attempting task attempted) := by
  cases attempted with
  | zero => exact peaceful_changed task _
  | succ attempted => exact peaceful_closing task _

/-- The lock is had, or the wait for it has failed. -/
def Device.Locked (task : ℕ) : Except Error Unit → Device → Prop
  | .ok (), d => d.Owned task
  | .error _, d => d.Stoppable

end Steps

section Coroutines

variable {task : ℕ}

/-- The stop is written to a changed scanner, whatever becomes of it. -/
theorem stopScanner_closing {d : Device} (h : d.Closing task fun _ => False) :
    Meets task (stoppable task) Action.stopScanner (fun _ d' => d'.Closing task (· = true)) d := by
  refine Meets.get_bind ?_
  split
  · next hneeded =>
    obtain ⟨hchanged, -⟩ : d.changed = true ∧ d.transport.replay.isNone = true := by simpa using hneeded
    let stopped (_ : Except Error Response) (d' : Device) : Prop := d'.Closing task fun _ => True
    refine Meets.attempt_bind (show Meets task _ _ stopped d from ?_) fun _ d' hd' => ?_
    · refine Meets.lift_bind (fun cmd hcmd => ?_) fun e he => by cases he
      obtain rfl : modeCommand .ON_REQUEST [0x25] = cmd := Except.ok.inj hcmd
      let P : ℕ → Device → Prop := Device.Attempting task
      have hP : ∀ n, Peaceful (stoppable task) (P n) := peaceful_attempting task
      have hclosing (n : ℕ) (d : Device) (hd : P n d) : d.Closing task fun _ => False := by
        cases n with
        | zero => exact hd.1
        | succ n =>
          obtain ⟨howned, earlier, since, heq, hsince, -⟩ := hd
          exact ⟨howned, earlier, since, heq, hsince, False.elim⟩
      have hdone (n : ℕ) (d : Device) (hd : P n d) (hn : 0 < n) : d.Closing task fun _ => True := by
        cases n with
        | zero => exact absurd hn (Nat.lt_irrefl 0)
        | succ n => exact hd
      refine Meets.command (hP 0).admits (P := P) (.inl (by decide)) (hP 0).kept (fun n => (hP n).kept) ?_
        (fun hplain => by cases hplain) ?_ ?_ ?_ ?_ ?_ ⟨h, hchanged⟩
      · exact fun _ d d' hd hquiet => (peaceful_closing task _).kept.quiet d d' hd hquiet
      · refine fun _ d hd => ⟨fun _ => ?_, fun e he => ?_⟩
        · have hsame : ({ d with changed := true } : Device).Stoppable :=
            ⟨hd.1.stoppable.replay, fun _ => hd.1.stoppable.writable hd.2, hd.1.stoppable.stops⟩
          exact ⟨Device.guarantee_of_held hd.1.held fun _ => hsame, ⟨⟨hsame, hd.1.held⟩, hd.1.since⟩, rfl⟩
        · rw [hd.1.stoppable.writable hd.2] at he
          cases he
      · intro n d e _ he
        have hshort : 1 ≤ (modeCommand .ON_REQUEST [0x25]).payload.length ∧
            (modeCommand .ON_REQUEST [0x25]).payload.length ≤ MAX_PAYLOAD := by decide
        obtain ⟨telegram, htelegram⟩ := Command.telegram_ok hshort d.settings
        rw [htelegram] at he
        cases he
      · intro n d hd _
        obtain ⟨howned, earlier, since, heq, hsince, -⟩ := hclosing n d hd
        have hmild : Mild d (d.log (.wrote stopPayload)) := .log rfl
        refine ⟨hmild.guarantee, ((peaceful_owned task).mild d _ howned hmild).2, earlier,
          since ++ [.wrote stopPayload], ?_, fun event hevent => ?_, fun _ => by simp⟩
        · simp [Device.log, heq, modeCommand, stopPayload]
        · rcases List.mem_append.mp hevent with hevent | hevent
          · exact hsince event hevent
          · rw [List.mem_singleton.mp hevent]
            rfl
      · intro n d r d' hd hn _ hheeded
        exact (peaceful_closing task _).mild d d' (hdone n d hd hn) (.of_heeded hheeded)
      · exact fun n d e hd hn _ => hdone n d hd hn
    · obtain ⟨howned, earlier, since, heq, hsince, hwritten⟩ := hd'
      exact ⟨howned, earlier, since, heq, hsince, fun _ => hwritten trivial⟩
  · next hneeded =>
    have hunchanged : d.changed = false := by
      simpa [h.stoppable.replay] using hneeded
    obtain ⟨howned, earlier, since, heq, hsince, -⟩ := h
    exact ⟨howned, earlier, since, heq, hsince, fun hchanged => by simp [hunchanged] at hchanged⟩

/-- A close writes the stop before it closes the transport. -/
theorem keeps_closeUnlocked (task : ℕ) :
    Keeps task (stoppable task) (Device.Owned task) Action.closeUnlocked := by
  refine Keeps.get_bind fun _ => ?_
  split
  swap
  · exact Keeps.pure _
  intro d hd
  have howned := peaceful_owned task
  have hbegun : (d.log .stopping).Closing task fun _ => False :=
    ⟨⟨⟨hd.stoppable.replay, hd.stoppable.writable, hd.stoppable.stops.snoc (by simp)⟩, hd.held⟩,
      d.wire, [], rfl, by simp, False.elim⟩
  refine Meets.modify_bind (Device.guarantee_of_held hd.held fun _ => hbegun.stoppable) ?_
  refine ((peaceful_closing task _).transition (by decide)).then (fun _ d hd => ?_)
    (fun _ _ hd => hd.toOwned) _ hbegun
  refine Meets.bind (stopScanner_closing hd) (fun _ d hd => ?_) fun _ _ hd => hd.toOwned
  refine (peaceful_closing task _).stopReader.then (fun _ d hd => ?_) (fun _ _ hd => hd.toOwned) _ hd
  have hclosed : (d.log (.closing d.changed)).Owned task := by
    refine ⟨⟨hd.stoppable.replay, hd.stoppable.writable, hd.stoppable.stops.snoc fun hevent => ?_⟩, hd.held⟩
    obtain ⟨earlier, since, heq, hsince, hwritten⟩ := hd.since
    exact ⟨earlier, since, heq, hsince, hwritten (Wire.closing.inj hevent)⟩
  refine Meets.modify_bind (Device.guarantee_of_held hd.held fun _ => hclosed.stoppable) ?_
  refine (howned.silent silent_closeTransport).then (fun _ d hd => ?_) (fun _ _ hd => hd) _ hclosed
  have hfresh : ({ d with opened := false, changed := false } : Device).Owned task :=
    ⟨⟨hd.stoppable.replay, nofun, hd.stoppable.stops⟩, hd.held⟩
  exact Meets.modify_bind (Device.guarantee_of_held hd.held fun _ => hfresh.stoppable)
    (howned.transition (by decide) _ hfresh)

/-- Whoever holds the lock in the meantime gives it back. -/
theorem keeps_exclusively {body : Action Unit} (hbody : Keeps task (stoppable task) (Device.Owned task) body) :
    Keeps task (stoppable task) Device.Stoppable (Action.exclusively body) := by
  have htaken {d d' : Device} (hd : d.Stoppable) (h : d.takeOperationLock task = some d') :
      (stoppable task).guarantee d d' ∧ d'.Owned task := by
    unfold Device.takeOperationLock at h
    split at h
    · next hfree =>
      cases h
      have hsame : ({ d with operation_lock := some task } : Device).Stoppable :=
        ⟨hd.replay, hd.writable, hd.stops⟩
      exact ⟨fun _ => ⟨hsame, fun _ _ hother => by simp [hfree] at hother⟩, hsame, rfl⟩
    · cases h
  intro d hd
  refine Meets.bind (show Meets task _ (Action.await .operationLock) (Device.Locked task) d from ?_) (fun _ d hd => ?_)
    fun _ _ hd => hd
  · refine Meets.await ?_
    cases hlock : d.takeOperationLock task with
    | some d' =>
      have henter : Device.waits.enter task .operationLock d = (some (.ok ()), d') := by
        simp [Device.waits, Device.enter, hlock]
      obtain ⟨hguarantee, howned⟩ := htaken hd hlock
      refine Program.Reached.intro henter hguarantee (fun a ha => ?_) (by simp)
      cases ha
      exact howned
    | none =>
      have henter : Device.waits.enter task .operationLock d = (none, d) := by
        simp [Device.waits, Device.enter, hlock]
      refine Program.Reached.intro henter ((peaceful_stoppable task).admits d d (.refl d)) (by simp) fun _ => ?_
      refine ⟨Device.Stoppable, hd, (peaceful_stoppable task).rely, ?_, ?_⟩
      · intro choice t t' _ hresume
        obtain ⟨_, -, heq⟩ := Option.map_eq_some_iff.mp hresume
        cases heq
      · intro choice t answer t' ht hresume
        obtain ⟨_, htake, heq⟩ := Option.map_eq_some_iff.mp hresume
        cases heq
        exact htaken ht htake
  · refine Meets.finally_modify (hbody d hd) fun _ d' hd' => ?_
    have hsame : ({ d' with operation_lock := none } : Device).Stoppable :=
      ⟨hd'.stoppable.replay, hd'.stoppable.writable, hd'.stoppable.stops⟩
    exact ⟨Device.guarantee_of_held hd'.held fun _ => hsame, hsame⟩

/-- A change of what is no session. -/
theorem Device.Owned.session {d d' : Device} (hd : d.Owned task) (h : d'.toSession = d.toSession) :
    (Lms200.stoppable task).guarantee d d' ∧ d'.Owned task := by
  have howned : d'.Owned task :=
    ⟨⟨by rw [h]; exact hd.stoppable.replay, by rw [h]; exact hd.stoppable.writable,
      by rw [h]; exact hd.stoppable.stops⟩, by rw [h]; exact hd.held⟩
  exact ⟨Device.guarantee_of_held hd.held fun _ => howned.stoppable, howned⟩

/-- The mark of a change is made where writing is allowed. -/
theorem owned_gate (d : Device) (hd : d.Owned task) (hwritable : d.settings.require_write = .ok ()) :
    (stoppable task).guarantee d { d with changed := true } ∧ ({ d with changed := true } : Device).Owned task := by
  have hmarked : ({ d with changed := true } : Device).Owned task :=
    ⟨⟨hd.stoppable.replay, fun _ => hwritable, hd.stoppable.stops⟩, hd.held⟩
  exact ⟨Device.guarantee_of_held hd.held fun _ => hmarked.stoppable, hmarked⟩

theorem keeps_startStream : Keeps task (stoppable task) (Device.Owned task) Action.startStream := by
  have howned := peaceful_owned task
  refine Keeps.bind (howned.transition (by decide)) fun _ => howned.change owned_gate _ fun _ => ?_
  exact Keeps.bind (Keeps.change fun d hd => hd.session rfl) fun _ => Keeps.change fun d hd => hd.session rfl

theorem keeps_initializeLocked (start_stream : Bool) :
    Keeps task (stoppable task) (Device.Owned task) (Action.initializeLocked start_stream) := by
  have howned := peaceful_owned task
  have hestablish : Keeps task (stoppable task) (Device.Owned task) (Action.establish start_stream) := by
    refine Keeps.bind howned.connect fun _ => Keeps.get_bind fun _ => ?_
    split
    · exact Keeps.bind (Keeps.change fun d hd => hd.session rfl) fun _ => Keeps.change fun d hd => hd.session rfl
    · exact howned.prepare owned_gate keeps_startStream fun _ _ hd => hd
  refine Keeps.get_bind fun _ => ?_
  split
  · exact Keeps.pure _
  · refine Keeps.attempt_bind hestablish fun outcome => ?_
    match outcome with
    | .ok () => exact Keeps.pure _
    | .error e =>
      exact Keeps.bind (keeps_closeUnlocked task) fun _ => Keeps.bind (howned.transition (by decide)) fun _ =>
        Keeps.throw e

theorem keeps_initializeDevice (start_stream : Bool) :
    Keeps task (stoppable task) Device.Stoppable (Action.initializeDevice start_stream) :=
  Keeps.get_bind fun _ => Keeps.bind (Keeps.lift _) fun _ =>
    keeps_exclusively (keeps_initializeLocked start_stream)

theorem keeps_close : Keeps task (stoppable task) Device.Stoppable Action.close :=
  keeps_exclusively (keeps_closeUnlocked task)

theorem keeps_reconnect : Keeps task (stoppable task) Device.Stoppable Action.reconnect :=
  Keeps.bind ((peaceful_stoppable task).transition (by decide)) fun _ => Keeps.bind keeps_close fun _ =>
    keeps_initializeDevice true

end Coroutines

end Lms200
