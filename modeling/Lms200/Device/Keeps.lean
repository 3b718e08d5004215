import Lms200.Device.Rules

/-!
# Assertions which the coroutines keep

Most steps of `connect` and of a reconfiguration are mild: they append to the log of the wire,
move between states other than streaming, note what was read and exchange the reader, but they
leave the settings, the lock and the record of the faults alone. An assertion which mild steps
and the others keep is kept by all these coroutines; only the marks of a change and of a close,
and the entry into the stream, are left to be looked at.
-/

namespace Lms200

open Coop

/-- The event belongs to a close. -/
def Wire.closes : Wire → Bool
  | .stopping | .closing _ => true
  | _ => false

/-- Two devices which differ in what is neither a close nor the start of a stream. -/
structure Mild (d d' : Device) : Prop where
  settings : d'.settings = d.settings
  replay : d'.transport.replay = d.transport.replay
  operation_lock : d'.operation_lock = d.operation_lock
  changed : d'.changed = d.changed
  opened : d.opened = true → d'.opened = true
  wire : ∃ more, d'.wire = d.wire ++ more ∧ ∀ event ∈ more, event.closes = false
  state : d'.state = .STREAMING → d.state = .STREAMING
  faults : d'.faults = d.faults
  queued : d'.queued = d.queued

namespace Mild

variable {d d' : Device}

/-- A change which leaves the log alone. -/
theorem silent (hsame : (d'.settings, d'.transport.replay, d'.operation_lock, d'.changed, d'.wire, d'.faults,
      d'.queued) = (d.settings, d.transport.replay, d.operation_lock, d.changed, d.wire, d.faults, d.queued))
    (hopened : d.opened = true → d'.opened = true) (hstate : d'.state = .STREAMING → d.state = .STREAMING) :
    Mild d d' := by
  simp only [Prod.mk.injEq] at hsame
  obtain ⟨hsettings, hreplay, hlock, hchanged, hwire, hfaults, hqueued⟩ := hsame
  exact ⟨hsettings, hreplay, hlock, hchanged, hopened, ⟨[], by simp [hwire]⟩, hstate, hfaults, hqueued⟩

theorem of_quiet (h : Quiet d d') : Mild d d' where
  settings := congrArg Session.settings h.session
  replay := congrArg (fun S => S.transport.replay) h.session
  operation_lock := congrArg Session.operation_lock h.session
  changed := congrArg Session.changed h.session
  opened := fun ho => (congrArg Session.opened h.session).trans ho
  wire := ⟨[], by simp [congrArg Session.wire h.session]⟩
  state := fun hs => h.state ▸ hs
  faults := h.faults
  queued := h.queued

/-- A reply is accepted. -/
theorem of_heeded {cmd : Command} {r : Response} (h : Heeded cmd r d d') : Mild d d' := by
  obtain ⟨-, -, number, hquiet⟩ := h
  have hmild := of_quiet hquiet
  refine ⟨hmild.settings, hmild.replay, hmild.operation_lock, hmild.changed, hmild.opened, ?_,
    hmild.state, hmild.faults, hmild.queued⟩
  exact ⟨[.accepted r], congrArg Session.wire hquiet.session, by simp [Wire.closes]⟩

theorem log {event : Wire} (h : event.closes = false) : Mild d (d.log event) :=
  ⟨rfl, rfl, rfl, rfl, id, ⟨[event], rfl, by simp [h]⟩, id, rfl, rfl⟩

theorem transition {state : State} (h : state ≠ .STREAMING) : Mild d (d.transition state) :=
  silent rfl id fun hs => absurd hs h

end Mild

/-- An assertion which mild steps and the others keep, under a contract which allows them. -/
structure Peaceful (contract : Contract Device) (P : Device → Prop) : Prop where
  admits : ∀ d d', Quiet d d' → contract.guarantee d d'
  rely : ∀ d d', P d → contract.rely d d' → P d'
  mild : ∀ d d', P d → Mild d d' → contract.guarantee d d' ∧ P d'

/-- A coroutine keeps an assertion, whatever its outcome. -/
def Keeps (task : ℕ) (contract : Contract Device) (P : Device → Prop) {α : Type}
    (p : Action α) : Prop :=
  ∀ d, P d → Meets task contract p (fun _ d' => P d') d

section Rules

variable {task : ℕ} {contract : Contract Device} {P : Device → Prop} {α β : Type}

theorem Keeps.bind {p : Action α} {f : α → Action β} (hp : Keeps task contract P p)
    (hf : ∀ a, Keeps task contract P (f a)) : Keeps task contract P (p >>= f) :=
  fun d hd => Meets.bind (hp d hd) (fun a d' => hf a d') fun _ _ h => h

/-- What follows a coroutine may end in another way. -/
theorem Keeps.then {p : Action α} {f : α → Action β} {post : Except Error β → Device → Prop}
    (hp : Keeps task contract P p) (hf : ∀ a d, P d → Meets task contract (f a) post d)
    (herror : ∀ e d, P d → post (.error e) d) :
    ∀ d, P d → Meets task contract (p >>= f) post d :=
  fun d hd => Meets.bind (hp d hd) hf herror

theorem Keeps.attempt_bind {p : Action α} {f : Except Error α → Action β}
    (hp : Keeps task contract P p) (hf : ∀ outcome, Keeps task contract P (f outcome)) :
    Keeps task contract P (p.attempt >>= f) :=
  fun d hd => Meets.attempt_bind (hp d hd) fun outcome d' => hf outcome d'

theorem Keeps.pure (a : α) : Keeps task contract P (Pure.pure a : Action α) := fun _ hd => hd

theorem Keeps.throw (e : Error) : Keeps task contract P (MonadExcept.throw e : Action α) :=
  fun _ hd => hd

theorem Keeps.get_bind {next : Device → Action β} (h : ∀ d, Keeps task contract P (next d)) :
    Keeps task contract P ((MonadState.get : Action Device) >>= next) :=
  fun d hd => Meets.get_bind (h d d hd)

theorem Keeps.lift (value : Except Error α) : Keeps task contract P (Action.lift value) :=
  fun _ hd => Meets.lift hd

theorem Keeps.asserted (value : Option α) : Keeps task contract P (Action.asserted value) := by
  cases value with
  | some a => exact Keeps.pure a
  | none => exact Keeps.throw _

/-- The checks raise or go on. -/
theorem Keeps.vet : Keeps task contract P Action.vet := by
  refine Keeps.get_bind fun d => Keeps.bind (Keeps.asserted _) fun info => Keeps.get_bind fun d =>
    Keeps.bind (Keeps.asserted _) fun _ => ?_
  split
  · exact Keeps.throw _
  · refine Keeps.get_bind fun d => ?_
    split
    · exact Keeps.throw _
    · exact Keeps.pure _

theorem Keeps.change {f : Device → Device}
    (h : ∀ d, P d → contract.guarantee d (f d) ∧ P (f d)) :
    Keeps task contract P (modify f : Action Unit) :=
  fun d hd => Meets.change (h d hd).1 (h d hd).2

theorem Keeps.finally_modify {body : Action α} {f : Device → Device}
    (hbody : Keeps task contract P body) (h : ∀ d, P d → contract.guarantee d (f d) ∧ P (f d)) :
    Keeps task contract P (Program.andFinally body (modify f : Action Unit)) :=
  fun d hd => Meets.finally_modify (hbody d hd) fun _ d' => h d'

end Rules

section Coroutines

variable {task : ℕ} {contract : Contract Device} {P : Device → Prop} {α β : Type}
  (h : Peaceful contract P)
include h

theorem Peaceful.kept : Kept contract P :=
  ⟨h.rely, fun d d' hd hquiet => (h.mild d d' hd (.of_quiet hquiet)).2⟩

/-- A mild change. -/
theorem Peaceful.modify {f : Device → Device} (hf : ∀ d, Mild d (f d)) :
    Keeps task contract P (modify f : Action Unit) :=
  Keeps.change fun d hd => h.mild d _ hd (hf d)

theorem Peaceful.transition {state : State} (hstate : state ≠ .STREAMING) :
    Keeps task contract P (Action.transition state) :=
  h.modify fun _ => .transition hstate

theorem Peaceful.silent {w : Request} {good : Except Error w.Answer → Prop}
    (hsilent : Silent w good) : Keeps task contract P (Action.await w) :=
  fun _ hd => Program.Safe.mono (Meets.silent h.admits hsilent h.kept hd) fun _ _ hafter => hafter.2

theorem Peaceful.sleep (seconds : ℚ) : Keeps task contract P (Action.sleep seconds) :=
  Keeps.get_bind fun _ => h.silent (silent_sleep _)

/-- A wait which first suspends, and whose turns are mild. -/
theorem Peaceful.suspends {w : Request} (henter : ∀ d, Device.enter task w d = (none, d))
    (hresume : ∀ choice d answer d', Device.resume task w choice d = some (answer, d') →
      Mild d d') : Keeps task contract P (Action.await w) := by
  refine fun d hd => Meets.await (Program.Reached.intro (henter d) ?_ (by simp) fun _ => ?_)
  · exact h.admits d d (Quiet.refl d)
  · exact ⟨P, hd, h.rely, fun choice t t' ht hturn => h.mild t t' ht (hresume choice t _ t' hturn),
      fun choice t answer t' ht hturn => h.mild t t' ht (hresume choice t _ t' hturn)⟩

theorem Peaceful.openTransport : Keeps task contract P (Action.await .openTransport) := by
  refine h.suspends (fun _ => rfl) fun choice d answer d' hturn => ?_
  cases choice <;> cases hturn <;> exact .silent rfl id id

theorem Peaceful.setBaud (rate : ℕ) : Keeps task contract P (Action.await (.setBaud rate)) := by
  refine h.suspends (fun _ => rfl) fun choice d answer d' hturn => ?_
  have hdone : Mild d { d.log (.baud rate) with transport.baud := rate } :=
    ⟨rfl, rfl, rfl, rfl, id, ⟨[.baud rate], rfl, by simp [Wire.closes]⟩, id, rfl, rfl⟩
  cases choice with
  | raised e =>
    cases hturn
    exact .silent rfl id id
  | done =>
    cases hturn
    exact hdone
  | leased baud =>
    cases hturn
    exact hdone

/-- A command, if the mark of a change keeps the assertion too. -/
theorem Peaceful.command {cmd : Command}
    (hgate : cmd.mutates = true → ∀ d, P d → d.settings.require_write = .ok () →
      contract.guarantee d { d with changed := true } ∧ P { d with changed := true }) :
    Keeps task contract P (Action.command cmd) := by
  intro d hd
  refine Meets.command h.admits (P := fun _ => P) (.inr fun _ _ hd => hd) h.kept (fun _ => h.kept)
    (fun _ d d' hd hquiet => h.kept.quiet d d' hd hquiet) (fun _ _ hd => hd) ?_ (fun _ _ _ hd _ => hd)
    ?_ (fun _ d r d' hd _ _ hheeded => h.mild d d' hd (.of_heeded hheeded)) (fun _ _ _ hd _ _ => hd) hd
  · exact fun hmutates d hd => ⟨hgate hmutates d hd, fun _ _ => hd⟩
  · exact fun _ d hd _ => h.mild d _ hd (.log rfl)

/-- A command which changes nothing. -/
theorem Peaceful.query {cmd : Command} (hplain : cmd.mutates = false) :
    Keeps task contract P (Action.command cmd) :=
  h.command fun hmutates => absurd hmutates (by simp [hplain])

theorem Peaceful.status : Keeps task contract P Action.status :=
  Keeps.bind (h.transition (by decide)) fun _ => Keeps.bind (h.query rfl) fun _ =>
    Keeps.bind (Keeps.lift _) fun _ => Keeps.bind (h.modify fun _ => .silent rfl id id) fun _ => Keeps.pure _

theorem Peaceful.readConfiguration : Keeps task contract P Action.readConfiguration :=
  Keeps.bind (h.query rfl) fun _ => Keeps.bind (Keeps.lift _) fun _ =>
    Keeps.bind (h.modify fun _ => .silent rfl id id) fun _ => Keeps.pure _

theorem Peaceful.detect (rates : List ℕ) : Keeps task contract P (Action.detect rates) := by
  induction rates with
  | nil => exact Keeps.throw _
  | cons rate rates ih =>
    refine Keeps.bind (h.setBaud rate) fun _ => Keeps.bind (h.modify fun _ => .silent rfl id id) fun _ =>
      Keeps.attempt_bind h.status fun outcome => ?_
    match outcome with
    | .ok _ => exact Keeps.pure _
    | .error (.timeout _) => exact ih
    | .error (.protocol _) => exact ih
    | .error (.device _) => exact ih
    | .error (.value _) => exact Keeps.throw _
    | .error (.eof _) => exact Keeps.throw _
    | .error (.os _) => exact Keeps.throw _

theorem Peaceful.identify : Keeps task contract P Action.identify := by
  refine Keeps.get_bind fun d => Keeps.bind (Keeps.asserted _) fun info => Keeps.get_bind fun d => ?_
  split
  · exact Keeps.throw _
  · refine Keeps.bind (h.transition (by decide)) fun _ => Keeps.bind (h.query rfl) fun identity => ?_
    split
    · exact Keeps.throw _
    · exact Keeps.bind (h.modify fun _ => .silent rfl id id) fun _ =>
        Keeps.bind h.readConfiguration fun _ => h.transition (by decide)

theorem Peaceful.attach : Keeps task contract P Action.attach := by
  refine Keeps.get_bind fun d => ?_
  split
  · exact Keeps.bind (Keeps.lift _) fun _ => Keeps.bind (h.modify fun _ => .silent rfl id id) fun _ =>
      h.transition (by decide)
  · exact Keeps.bind (h.modify fun _ => .silent rfl id id) fun _ =>
      Keeps.bind (h.transition (by decide)) fun _ => Keeps.get_bind fun d =>
        Keeps.bind (h.detect _) fun _ => h.identify

theorem Peaceful.startupWait : Keeps task contract P Action.startupWait := by
  refine Keeps.get_bind fun d => ?_
  dsimp only
  split
  · exact h.sleep _
  · exact Keeps.pure _

/-- Connecting is mild throughout. -/
theorem Peaceful.connect : Keeps task contract P Action.connect := by
  refine Keeps.get_bind fun d => ?_
  split
  · exact Keeps.pure _
  · refine Keeps.bind (h.modify fun _ => .silent rfl id id) fun _ => Keeps.bind (h.transition (by decide)) fun _ =>
      Keeps.bind h.startupWait fun _ => Keeps.bind h.openTransport fun _ =>
        Keeps.bind (h.modify fun d => ?_) fun _ => h.attach
    exact ⟨rfl, rfl, rfl, rfl, fun _ => rfl, ⟨[_], rfl, by simp [Wire.closes]⟩, id, rfl, rfl⟩

theorem Peaceful.stopReader : Keeps task contract P Action.stopReader := by
  refine Keeps.get_bind fun d => ?_
  split
  · exact Keeps.bind (h.modify fun _ => .silent rfl id id) fun _ =>
      Keeps.bind (h.silent silent_joinReader) fun _ => h.modify fun _ => .silent rfl id id
  · exact Keeps.pure _

theorem Peaceful.verify (desired : Configuration) :
    Keeps task contract P (Action.verify desired) := by
  refine Keeps.bind (h.transition (by decide)) fun _ => Keeps.bind h.readConfiguration fun _ =>
    Keeps.bind h.status fun _ => Keeps.get_bind fun _ => Keeps.bind (Keeps.lift _) fun _ => ?_
  split
  · exact Keeps.throw _
  · exact Keeps.pure _

section Changing

variable (hgate : ∀ d, P d → d.settings.require_write = .ok () →
  contract.guarantee d { d with changed := true } ∧ P { d with changed := true })
include hgate

/-- A command from a value which may be an error. -/
theorem Peaceful.change (cmd : Except Error Command) {f : Response → Action α}
    (hf : ∀ r, Keeps task contract P (f r)) :
    Keeps task contract P (Action.lift cmd >>= fun cmd => Action.command cmd >>= f) :=
  Keeps.bind (Keeps.lift cmd) fun _ => Keeps.bind (h.command fun _ => hgate) hf

theorem Peaceful.configure (c : Action.Changes) : Keeps task contract P (Action.configure c) := by
  have hdone : Keeps task contract P (Pure.pure () : Action Unit) := Keeps.pure _
  have hinstall : Keeps task contract P (Action.enterInstallation c) := by
    unfold Action.enterInstallation
    split
    · exact Keeps.bind (h.transition (by decide)) fun _ => Keeps.get_bind fun _ =>
        h.change hgate _ fun _ => hdone
    · exact hdone
  have hbaud : ∀ target, Keeps task contract P (Action.changeBaud target) := fun target =>
    Keeps.bind (h.transition (by decide)) fun _ => h.change hgate _ fun _ =>
      Keeps.bind (h.setBaud target) fun _ => Keeps.bind h.status fun info => by
        split
        · exact Keeps.throw _
        · exact hdone
  have hswitch : Keeps task contract P Action.switchBaud := by
    refine Keeps.get_bind fun d => ?_
    split
    · split
      · exact hbaud _
      · exact hdone
    · exact hdone
  have hvariant : Keeps task contract P (Action.writeVariant c) := by
    unfold Action.writeVariant
    split
    · exact Keeps.get_bind fun _ => h.change hgate _ fun _ => hdone
    · exact hdone
  have hwrite : Keeps task contract P (Action.writeConfiguration c) := by
    unfold Action.writeConfiguration
    split
    · exact h.change hgate _ fun _ => hdone
    · exact hdone
  exact Keeps.bind hinstall fun _ => Keeps.bind hswitch fun _ =>
    Keeps.bind (h.transition (by decide)) fun _ => Keeps.bind hvariant fun _ => hwrite

/-- A preparation, by what the start of the stream comes to. -/
theorem Peaceful.prepare {start_stream : Bool} {post : Except Error Unit → Device → Prop}
    (hstart : ∀ d, P d → Meets task contract Action.startStream post d)
    (hpost : ∀ outcome d, P d → post outcome d) :
    ∀ d, P d → Meets task contract (Action.prepare start_stream) post d := by
  have herror : ∀ e d, P d → post (.error e) d := fun e => hpost (.error e)
  have hchange : ∀ {cmd : Except Error Command} {f : Response → Action Unit},
      (∀ r d, P d → Meets task contract (f r) post d) →
      ∀ d, P d → Meets task contract (Action.lift cmd >>= fun cmd => Action.command cmd >>= f) post d :=
    fun hf d hd => Meets.bind (Keeps.lift _ d hd)
      (fun _ d hd => (h.command fun _ => hgate).then hf herror d hd) herror
  refine Keeps.vet.then (fun _ => hchange fun _ => ?_) herror
  refine fun d hd => Meets.get_bind ((Keeps.asserted _).then (fun info d hd => ?_) herror d hd)
  refine Meets.get_bind ((Keeps.asserted _).then (fun configuration d hd => ?_) herror d hd)
  refine Meets.get_bind ((h.configure hgate _).then (fun _ => ?_) herror d hd)
  refine (h.verify _).then (fun _ => hchange fun _ d hd => ?_) herror
  split
  · exact hstart d hd
  · exact Program.Safe.mono (h.transition (by decide) d hd) hpost

end Changing

end Coroutines

end Lms200
