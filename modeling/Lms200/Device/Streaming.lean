import Lms200.Device.Keeps
import Lms200.Device.StartReply

/-!
# Entering the stream

The call is followed to the start command outside the stream, through its two waits with the
assertion of `Starting`, and into the stream from there.
-/

namespace Lms200

open Coop

/-- The call keeps the device sound, among readers which do not fault at the wrong moment. -/
def unraced : Contract Device where
  rely d d' := d.Sound ∧ Reacts Device.Unraced d d'
  guarantee d d' := d.Sound → d'.Sound

section Call

variable {d : Device}

theorem Tame.rely {Q : Device → Prop} (hQ : Tame Q) {d d' : Device} (h : Q d)
    (hrely : unraced.rely d d') : Q d' := by
  obtain ⟨-, input, hraced, rfl⟩ := hrely
  exact hQ.react h hraced

/-- The waits of the start command are undisturbed. -/
theorem Device.Starting.rely {p : Pending} {d d' : Device} (h : d.Starting p)
    (hrely : unraced.rely d d') : d'.Starting p :=
  ((tame_starting p).rely ⟨hrely.1, h⟩ hrely).2

theorem unraced_admits (d d' : Device) (h : Quiet d d') : unraced.guarantee d d' := fun hsound =>
  ⟨by rw [Device.Served, Device.ReaderAlive, h.state, h.reader, h.accepted, h.faults]; exact hsound.served,
    by rw [h.session]; exact hsound.replay, by rw [h.faults, h.queued]; exact hsound.faults_le⟩

/-- Outside the stream everything mild is allowed. -/
theorem peaceful_calm : Peaceful unraced Device.Calm where
  admits := unraced_admits
  rely _ _ h hrely := tame_calm.rely h hrely
  mild d d' h hmild := by
    have hstate : d'.state ≠ .STREAMING := fun hs => h.state (hmild.state hs)
    have hreplay : d'.transport.replay = none := hmild.replay.trans h.replay
    refine ⟨fun hsound => .of_state hstate hreplay ?_, hstate, hreplay⟩
    rw [hmild.faults, hmild.queued]
    exact hsound.faults_le

/-- Bookkeeping between the waits of the start command does not matter outside the stream. -/
theorem Device.Calm.change {d : Device} (h : d.Calm) (d' : Device) (hstate : d'.state = d.state)
    (hreplay : d'.transport.replay = d.transport.replay) (hfaults : d'.faults = d.faults)
    (hqueued : d'.queued = d.queued) : unraced.guarantee d d' ∧ d'.Calm := by
  have hcalm : d'.Calm := ⟨hstate ▸ h.state, hreplay.trans h.replay⟩
  refine ⟨fun hsound => .of_state hcalm.state hcalm.replay ?_, hcalm⟩
  rw [hfaults, hqueued]
  exact hsound.faults_le

/-- The reply to the start command has been taken, and no fault followed it. -/
structure Device.Ready (d : Device) : Prop extends d.Calm where
  alive : d.ReaderAlive
  accepted : ∃ number, d.accepted = some number ∧ ∀ f ∈ d.faults, f ≤ number

/-- What the start command comes to. -/
def Device.Started {α : Type} : Except Error α → Device → Prop
  | .ok _, d => d.Ready
  | .error _, d => d.Calm

/-- What a turn of the waiting loop of the start command leaves. -/
def Device.Turned : Option (Except Error Heard) → Device → Prop
  | some (.ok (.reply _)), d => d.Ready
  | some _, d => d.Calm
  | none, d => ∃ p, d.Starting p

/-- A reply which the queue held is taken before any fault. -/
theorem Device.Starting.taken {p : Pending} (h : d.Starting p) {r : Response} {d' : Device}
    (hheeded : Heeded startCommand r d d') {number : ℕ} (haccepted : d'.accepted = some number)
    (hreply : replyIn startCommand p.ack d.events = some number) :
    unraced.guarantee d d' ∧ d'.Ready := by
  obtain ⟨-, -, n, hquiet⟩ := hheeded
  have halive : d.ReaderAlive := by
    by_contra hended
    rw [h.ended hended] at hreply
    cases hreply
  have hreplay : d'.transport.replay = d.transport.replay := congrArg (·.transport.replay) hquiet.session
  obtain ⟨hguarantee, hcalm⟩ := h.toCalm.change d' hquiet.state hreplay hquiet.faults hquiet.queued
  refine ⟨hguarantee, hcalm, ?_, number, haccepted, ?_⟩
  · unfold Device.ReaderAlive
    rw [hquiet.reader]
    exact halive
  · rw [hquiet.faults]
    exact h.alive halive 0 number hreply

/-- A turn of the waiting loop takes the reply, ends calmly or leaves the command starting. -/
theorem Device.Starting.turn {p : Pending} (h : d.Starting p) {d' : Device}
    {answer : Option (Except Error Heard)} (hfrom : Heard.From startCommand d (answer, d'))
    (hwithin : Heard.Within startCommand p d.events (answer, d')) :
    unraced.guarantee d d' ∧ Device.Turned answer d' := by
  have hcalm : ∀ {d'}, Quiet d d' → unraced.guarantee d d' ∧ d'.Calm := fun hquiet =>
    peaceful_calm.mild d _ h.toCalm (.of_quiet hquiet)
  match answer with
  | some (.ok (.reply r)) =>
    obtain ⟨number, haccepted, hreply⟩ := hwithin
    exact h.taken hfrom haccepted hreply
  | some (.ok .nak) => exact hcalm hfrom
  | some (.error e) => exact hcalm hfrom
  | none =>
    obtain ⟨hevents, p', hpending, hcommand⟩ := hwithin
    obtain ⟨hguarantee, hafter⟩ := hcalm hfrom
    have hnone : ∀ k, replyIn startCommand p'.ack (d'.events.drop k) = none := fun k => by
      rw [hevents, List.drop_nil]
      rfl
    refine ⟨hguarantee, p', hafter, hpending, hcommand.trans h.command, ?_, fun _ => hnone 0⟩
    intro _ k number hreply
    rw [hnone k] at hreply
    cases hreply

/-- The wait for the reply to the start command. -/
theorem Device.Starting.reply {p : Pending} (h : d.Starting p) :
    Meets 0 unraced (Action.await (.reply startCommand)) (fun
      | .ok (.reply _), d' => d'.Ready
      | _, d' => d'.Calm) d := by
  have hentered : ∀ {answer d'}, d.startListening startCommand = (answer, d') →
      unraced.guarantee d d' ∧ Device.Turned answer d' := by
    intro answer d' hstart
    refine h.turn (hstart ▸ startListening_from d startCommand) ?_
    rw [← hstart, Device.startListening, h.pending]
    exact Pending.listen_within startCommand p d.events d
  have hturn : ∀ choice t t' answer, (∃ p, t.Starting p) →
      Device.resume 0 (.reply startCommand) choice t = some (answer, t') →
      unraced.guarantee t t' ∧ Device.Turned answer t' := by
    rintro choice t t' answer ⟨p, ht⟩ hresume
    refine ht.turn (resume_reply_from hresume) ?_
    have hgo : t.goOnListening startCommand = some (answer, t') →
        Heard.Within startCommand p t.events (answer, t') := by
      intro hgo
      unfold Device.goOnListening at hgo
      rw [ht.pending] at hgo
      split at hgo
      · next q event rest hq hevents =>
        cases hq
        rw [← Option.some.inj hgo, hevents]
        exact Pending.wake_within startCommand p event rest t
      · cases hgo
    cases choice with
    | done => exact hgo hresume
    | leased baud => exact hgo hresume
    | raised e =>
      change t.stopListening = some (answer, t') at hresume
      unfold Device.stopListening at hresume
      rw [ht.pending] at hresume
      dsimp only at hresume
      split at hresume
      · cases hresume
        trivial
      · cases hresume
  obtain ⟨hguarantee, hafter⟩ := hentered rfl
  refine Meets.await (Program.Reached.intro rfl hguarantee (fun a ha => ?_) fun hnone => ?_)
  · rw [ha] at hafter
    match a with
    | .ok (.reply r) => exact hafter
    | .ok .nak => exact hafter
    | .error e => exact hafter
  · rw [hnone] at hafter
    refine ⟨fun t => ∃ p, t.Starting p, hafter, ?_, ?_, ?_⟩
    · exact fun t t' ⟨p, ht⟩ hrely => ⟨p, ht.rely hrely⟩
    · exact fun choice t t' ht hresume => hturn choice t t' none ht hresume
    · intro choice t a t' ht hresume
      have hafter := hturn choice t t' (some a) ht hresume
      match a with
      | .ok (.reply r) => exact hafter
      | .ok .nak => exact hafter
      | .error e => exact hafter

/-- The write of the start command, and the wait which follows it. -/
theorem Device.Calm.sendStart (h : d.Calm) :
    Meets 0 unraced (Action.send startCommand) (fun
      | .ok (), d' => ∃ p, p.ack = false ∧ d'.Starting p
      | .error _, d' => d'.Calm) d := by
  let drained : Device := { d with events := [], pending := some ⟨startCommand, false, d.now⟩ }
  let logged : Device := drained.log (.wrote startCommand.payload)
  obtain ⟨hdrain, hdrained⟩ : unraced.guarantee d drained ∧ drained.Calm := h.change _ rfl rfl rfl rfl
  obtain ⟨hlog, hlogged⟩ : unraced.guarantee drained logged ∧ logged.Calm :=
    hdrained.change _ rfl rfl rfl rfl
  refine Meets.modify_bind hdrain (Meets.get_bind ?_)
  refine Meets.lift_bind (fun telegram _ => ?_) fun _ _ => hdrained
  refine Meets.modify_bind hlog (Meets.await (Program.Reached.intro rfl id (by simp) fun _ => ?_))
  have hstarting : logged.Starting ⟨startCommand, false, d.now⟩ := by
    refine ⟨hlogged, rfl, rfl, fun _ k number hreply => ?_, fun _ => rfl⟩
    rw [show logged.events = [] from rfl, List.drop_nil] at hreply
    cases hreply
  refine ⟨fun t => t.Starting ⟨startCommand, false, d.now⟩, hstarting, fun _ _ ht => ht.rely, ?_, ?_⟩
  · intro choice t t' _ hresume
    cases choice <;> cases hresume
  · intro choice t answer t' ht hresume
    cases choice with
    | raised e =>
      cases hresume
      exact ⟨id, ht.toCalm⟩
    | done =>
      cases hresume
      exact ⟨id, _, rfl, ht⟩
    | leased baud =>
      cases hresume
      exact ⟨id, _, rfl, ht⟩

/-- The deadline is set when the telegram has been written. -/
theorem Device.Starting.rearm {p : Pending} (h : d.Starting p) (hack : p.ack = false) (deadline : ℚ) :
    unraced.guarantee d { d with pending := some ⟨startCommand, false, deadline⟩ } ∧
      Device.Starting ⟨startCommand, false, deadline⟩
        { d with pending := some ⟨startCommand, false, deadline⟩ } := by
  obtain ⟨hguarantee, hcalm⟩ := h.toCalm.change { d with pending := some ⟨startCommand, false, deadline⟩ } rfl rfl rfl rfl
  exact ⟨hguarantee, hcalm, rfl, rfl, hack ▸ h.alive, hack ▸ h.ended⟩

/-- The only attempt of the start command. -/
theorem Device.Calm.attemptStart (h : d.Calm) :
    Meets 0 unraced (Action.attempts startCommand 1) Device.Started d := by
  refine Meets.bind h.sendStart ?_ fun _ _ hcalm => hcalm
  rintro _ d ⟨p, hack, hstarting⟩
  have hawait : Meets 0 unraced (Action.awaitReply startCommand) Device.Started d := by
    obtain ⟨hguarantee, hrearmed⟩ := hstarting.rearm hack (d.now + d.settings.ack_timeout)
    refine Meets.modify_bind hguarantee (Meets.bind hrearmed.reply ?_ fun _ _ hcalm => hcalm)
    rintro (r | _) d' hafter
    · exact hafter
    · refine Meets.bind (Meets.sleep unraced_admits peaceful_calm.kept hafter) ?_ fun _ _ hafter => hafter.2
      exact fun _ _ hafter => hafter.2
  refine Meets.attempt_bind hawait fun outcome d' hafter => ?_
  match outcome with
  | .ok r => exact hafter
  | .error (.timeout m) =>
    obtain ⟨hguarantee, hcalm⟩ := Device.Calm.change hafter
      { d' with counters.timeouts := d'.counters.timeouts + 1 } rfl rfl rfl rfl
    exact Meets.modify_bind hguarantee hcalm
  | .error (.protocol m) => exact hafter
  | .error (.device m) => exact hafter
  | .error (.value m) => exact hafter
  | .error (.eof m) => exact hafter
  | .error (.os m) => exact hafter

/-- A change of the locks keeps what the start command has come to. -/
theorem Device.Started.change {α : Type} {outcome : Except Error α} {d d' : Device}
    (h : Device.Started outcome d) (hstate : d'.state = d.state)
    (hreplay : d'.transport.replay = d.transport.replay) (hfaults : d'.faults = d.faults)
    (hqueued : d'.queued = d.queued) (hreader : d'.reader = d.reader)
    (haccepted : d'.accepted = d.accepted) :
    unraced.guarantee d d' ∧ Device.Started outcome d' := by
  cases outcome with
  | error e => exact Device.Calm.change h d' hstate hreplay hfaults hqueued
  | ok a =>
    have hready : d.Ready := h
    obtain ⟨hguarantee, hcalm⟩ := hready.toCalm.change d' hstate hreplay hfaults hqueued
    refine ⟨hguarantee, hcalm, ?_, ?_⟩
    · unfold Device.ReaderAlive
      rw [hreader]
      exact hready.alive
    · rw [haccepted, hfaults]
      exact hready.accepted

/-- The start command is answered before any fault, or the device stays outside the stream. -/
theorem Device.Calm.start (h : d.Calm) :
    Meets 0 unraced (Action.command startCommand) Device.Started d := by
  refine Meets.bind (Meets.silent unraced_admits silent_commandLock peaceful_calm.kept h) ?_
    fun _ _ hlocked => hlocked.2
  rintro _ d ⟨-, hlocked⟩
  refine Meets.finally_modify (show Meets 0 unraced _ Device.Started d from ?_) fun outcome d' hafter =>
    hafter.change rfl rfl rfl rfl rfl rfl
  have hgate : Keeps 0 unraced Device.Calm (Action.gate startCommand) :=
    Keeps.get_bind fun _ => Keeps.bind (Keeps.lift _) fun _ =>
      Keeps.change fun _ h => h.change _ rfl rfl rfl rfl
  exact Meets.bind (hgate d hlocked) (fun _ _ hcalm => Device.Calm.attemptStart hcalm)
    fun _ _ hcalm => hcalm

/-- The stream is entered with a reader which serves it. -/
theorem Device.Calm.startStream (h : d.Calm) :
    Meets 0 unraced Action.startStream (fun
      | .ok (), _ => True
      | .error _, d' => d'.Calm) d := by
  refine Meets.bind (peaceful_calm.transition (by decide) d h) ?_ fun _ _ hcalm => hcalm
  intro _ d hcalm
  refine Meets.lift_bind (fun cmd hcmd => ?_) fun _ _ => hcalm
  obtain rfl : startCommand = cmd := Except.ok.inj hcmd
  refine Meets.bind (Device.Calm.start hcalm) (fun r d hready => ?_) fun _ _ hcalm => hcalm
  have hready : d.Ready := hready
  obtain ⟨hguarantee, -⟩ := hready.toCalm.change { d with stream_since := d.now } rfl rfl rfl rfl
  refine Meets.modify_bind hguarantee (Meets.change (fun hsound => ?_) trivial)
  exact ⟨fun _ => ⟨hready.alive, hready.accepted⟩, hready.replay, hsound.faults_le⟩

/-- The marks of a change are allowed outside the stream. -/
theorem calm_gate (d : Device) (h : d.Calm) (_ : d.settings.require_write = .ok ()) :
    unraced.guarantee d { d with changed := true } ∧ Device.Calm { d with changed := true } :=
  h.change _ rfl rfl rfl rfl

/-- A close leaves the device outside the stream. -/
theorem calm_closeUnlocked : Keeps 0 unraced Device.Calm Action.closeUnlocked := by
  have hchange : ∀ {f : Device → Device}, (∀ d, (f d).state = d.state) →
      (∀ d, (f d).transport.replay = d.transport.replay) → (∀ d, (f d).faults = d.faults) →
      (∀ d, (f d).queued = d.queued) → Keeps 0 unraced Device.Calm (modify f : Action Unit) :=
    fun hstate hreplay hfaults hqueued => Keeps.change fun d h =>
      h.change _ (hstate d) (hreplay d) (hfaults d) (hqueued d)
  have hstop : Keeps 0 unraced Device.Calm Action.stopScanner := by
    refine Keeps.get_bind fun d => ?_
    split
    · exact Keeps.attempt_bind (Keeps.bind (Keeps.lift _) fun _ =>
        peaceful_calm.command fun _ => calm_gate) fun _ => Keeps.pure _
    · exact Keeps.pure _
  refine Keeps.get_bind fun d => ?_
  split
  · refine Keeps.bind (hchange (fun _ => rfl) (fun _ => rfl) (fun _ => rfl) fun _ => rfl) fun _ => ?_
    refine Keeps.bind (peaceful_calm.transition (by decide)) fun _ => Keeps.bind hstop fun _ => ?_
    refine Keeps.bind peaceful_calm.stopReader fun _ => ?_
    refine Keeps.bind (hchange (fun _ => rfl) (fun _ => rfl) (fun _ => rfl) fun _ => rfl) fun _ => ?_
    refine Keeps.bind (peaceful_calm.silent silent_closeTransport) fun _ => ?_
    refine Keeps.bind (hchange (fun _ => rfl) (fun _ => rfl) (fun _ => rfl) fun _ => rfl) fun _ => ?_
    exact peaceful_calm.transition (by decide)
  · exact Keeps.pure _

/-- What an initialization owes on its way into the stream. -/
theorem Device.Calm.establish (h : d.Calm) {start_stream : Bool} :
    Meets 0 unraced (Action.establish start_stream) (fun
      | .ok (), _ => True
      | .error _, d' => d'.Calm) d := by
  have herror : ∀ (e : Error) (d : Device), d.Calm → d.Calm := fun _ _ => id
  refine peaceful_calm.connect.then (fun _ d hcalm => ?_) herror d h
  refine Meets.get_bind ?_
  rw [hcalm.replay]
  refine peaceful_calm.prepare calm_gate (fun _ hcalm => hcalm.startStream) ?_ d hcalm
  rintro (e | _) d hcalm
  · exact hcalm
  · trivial

/-- The call never enters the stream over a fault. -/
theorem Device.Sound.initializeDevice (hfree : d.operation_lock = none)
    (hreplay : d.transport.replay = none) {start_stream : Bool} :
    Meets 0 unraced (Action.initializeDevice start_stream) (fun _ _ => True) d := by
  refine Meets.get_bind (Meets.lift_bind (fun _ _ => ?_) fun _ _ => trivial)
  have hlock : ∀ {d d' : Device}, d'.toSession = { d.toSession with operation_lock := d'.operation_lock } →
      d'.state = d.state → d'.reader = d.reader → d'.faults = d.faults → d'.queued = d.queued →
      d'.accepted = d.accepted → unraced.guarantee d d' := by
    intro d d' hsession hstate hreader hfaults hqueued haccepted hsound
    refine ⟨?_, ?_, by rw [hfaults, hqueued]; exact hsound.faults_le⟩
    · rw [Device.Served, Device.ReaderAlive, hstate, hreader, haccepted, hfaults]
      exact hsound.served
    · rw [hsession]
      exact hsound.replay
  refine Meets.bind (Meets.operationLock_free hfree (hlock rfl rfl rfl rfl rfl rfl)) ?_
    fun _ _ h => by cases h.1
  rintro _ _ ⟨-, rfl⟩
  refine Meets.finally_modify (show Meets 0 unraced _ (fun _ _ => True) _ from ?_)
    fun _ d' _ => ⟨hlock rfl rfl rfl rfl rfl rfl, trivial⟩
  refine Meets.get_bind ?_
  split
  · trivial
  · next hstate =>
    have hcalm : Device.Calm { d with operation_lock := some 0 } := ⟨hstate, hreplay⟩
    refine Meets.attempt_bind hcalm.establish ?_
    rintro (e | _) d' hafter
    · have hfail : Keeps 0 unraced Device.Calm (do
          Action.closeUnlocked
          Action.transition .FAULTED
          throw e : Action Unit) :=
        Keeps.bind calm_closeUnlocked fun _ =>
          Keeps.bind (peaceful_calm.transition (by decide)) fun _ => Keeps.throw e
      exact Program.Safe.mono (hfail d' hafter) fun _ _ _ => trivial
    · trivial

end Call

/-- In every pool which a call of `initialize` reaches among readers which never fault while the
reply to the start command is queued, a device in the stream is served. -/
theorem initialize_served (d : Device) (start_stream : Bool) (hsound : d.Sound)
    (hfree : d.operation_lock = none) {pool : DevicePool}
    (hrun : d.CallReaches Device.Unraced (Action.initializeDevice start_stream) pool) :
    pool.shared.Served := by
  refine Device.Sound.served (hrun.safe (Device.Sound.initializeDevice hfree hsound.replay) hsound
    (fun _ _ hguarantee h => hguarantee h) (fun _ _ hallowed h => tame_sound.react h hallowed)
    (fun _ input hallowed h => ⟨h, input, hallowed, rfl⟩) fun _ _ _ _ _ => trivial).1

/-- No event of a read reports a fault of the scanner. -/
def Device.uncomplaining : Device → List Event → Bool
  | _, [] => true
  | d, event :: rest => (d.complaint event).isNone && (d.handle event).uncomplaining rest

/-- The reader receives what reports no fault, and goes on. -/
def reactUncomplaining (input : Input) (d : Device) : Option Device :=
  match input with
  | .read (.data bytes) =>
    if Device.uncomplaining { d with framer := (d.fed bytes).2 } ((d.fed bytes).1.events.map Prod.snd) then
      some (d.react input)
    else none
  | .read _ => none
  | _ => some (d.react input)

theorem Device.unhurt_of_uncomplaining {d : Device} {events : List Event}
    (h : d.uncomplaining events = true) : d.Unhurt events := by
  induction events generalizing d with
  | nil => trivial
  | cons event rest ih =>
    simp only [Device.uncomplaining, Bool.and_eq_true, Option.isNone_iff_eq_none] at h
    refine ⟨fun m hm => ?_, ih h.2⟩
    rw [h.1] at hm
    cases hm

theorem reactUncomplaining_unraced (input : Input) (d d' : Device)
    (h : reactUncomplaining input d = some d') : d.Unraced input ∧ d' = d.react input := by
  cases input with
  | tick elapsed => exact ⟨trivial, (Option.some.inj h).symm⟩
  | begin => exact ⟨trivial, (Option.some.inj h).symm⟩
  | read result =>
    cases result with
    | eof => cases h
    | failure => cases h
    | data bytes =>
      unfold reactUncomplaining at h
      dsimp only at h
      split at h
      · next hevents => exact ⟨Device.unhurt_of_uncomplaining hevents, (Option.some.inj h).symm⟩
      · cases h

/-- An acknowledged reply of the scanner at address 0, whose status byte reports no condition. -/
def reply (content : Bytes) : Bytes :=
  0x06 :: ((encode (content ++ [0x10]) 0x80).toOption.getD [])

/-- The status of a scanner at 9600 baud with the default geometry. -/
def defaultStatus : Bytes :=
  List.replicate 95 0 ++ [2, 0, 0, 0, 0, 180, 0, 100, 0, 0, 0, 0, 0, 0, 0x67, 0x80, 0, 0, 0, 0, 1] ++
    List.replicate 30 0

/-- The configuration of a scanner which needs no changes. -/
def defaultConfiguration : Bytes := [0, 0, 0, 0, 2, 2, 1] ++ List.replicate 27 0

/-- The script of an initialization up to the write of the start command. -/
def startScript : List (Move Input Unit Choice) :=
  [.turn 0 .done, .outside .begin, .turn 0 .done] ++
    [0xB1 :: defaultStatus, 0xBA :: Action.modelSemicolon, 0xF4 :: defaultConfiguration, [0xA0, 0],
      0xF4 :: defaultConfiguration, 0xB1 :: defaultStatus, [0xA0, 0]].flatMap fun content =>
        [.outside (.read (.data (reply content))), .turn 0 .done]

/-- The start command is answered, and the call enters the stream. -/
theorem initialize_served_undisturbed : ∃ pool,
    Device.played reactUncomplaining { settings := {} } (Action.initializeDevice true)
        (startScript ++ [.outside (.read (.data (reply [0xA0, 0]))), .turn 0 .done]) = some pool ∧
      pool.shared.state = .STREAMING ∧ pool.shared.Served := by
  have hoverview : (Device.played reactUncomplaining { settings := {} } (Action.initializeDevice true)
      (startScript ++ [.outside (.read (.data (reply [0xA0, 0]))), .turn 0 .done])).map
        (fun pool => pool.shared.state) = some .STREAMING := by decide +kernel
  obtain ⟨pool, hplayed, hstate⟩ := Option.map_eq_some_iff.mp hoverview
  refine ⟨pool, hplayed, hstate, ?_⟩
  refine initialize_served { settings := {} } true ⟨?_, rfl, by simp⟩ rfl
    (.of_played reactUncomplaining_unraced hplayed)
  exact fun hstreaming => absurd hstreaming (by decide)

/-- The transport ends after the reply to the start command: the call enters the stream over a
reader which has ended. -/
theorem initialize_unserved : ∃ pool,
    ({ settings := {} } : Device).CallReaches anything (Action.initializeDevice true) pool ∧
      pool.shared.state = .STREAMING ∧ pool.shared.reader = some .ended ∧
      pool.shared.accepted = some 15 ∧ pool.shared.faults = [16] ∧ ¬ pool.shared.Served := by
  have hoverview : (Device.played reactAnyhow { settings := {} } (Action.initializeDevice true)
      (startScript ++ [.outside (.read (.data (reply [0xA0, 0]))), .outside (.read .eof),
        .turn 0 .done])).map (fun pool => (pool.shared.state, pool.shared.reader,
          pool.shared.accepted, pool.shared.faults)) =
        some (.STREAMING, some .ended, some 15, [16]) := by decide +kernel
  obtain ⟨pool, hplayed, hfields⟩ := Option.map_eq_some_iff.mp hoverview
  simp only [Prod.mk.injEq] at hfields
  obtain ⟨hstate, hreader, haccepted, hfaults⟩ := hfields
  refine ⟨pool, .of_played reactAnyhow_anything hplayed, hstate, hreader, haccepted, hfaults, ?_⟩
  exact fun hserved => (hserved hstate).1.2 hreader

end Lms200
