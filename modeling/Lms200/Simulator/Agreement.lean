import Lms200.Simulator.Preparation

/-!
# The device and the simulated scanner agree

`initialize` beside the simulator, from any settings of the scanner: it returns with the stream
running, and the scanner has the settings of the client. Once they agree, no reconnection writes a
setting again.
-/

namespace Lms200

open Coop Program Bench

section Calls

variable {contour : Contour} {status : StatusByte} {K : Session} {N : Scanner} {unit : DistanceUnit}

/-- The operation lock is held during a call. -/
theorem carries_exclusively {P Q : Bench → Prop} {body : Action Unit} (hfree : ∀ b, P b → b.1.operation_lock = none)
    {R : Bench → Prop} (hbody : Carries contour Q body (.ok ()) R) {S : Bench → Prop}
    (htake : ∀ b, P b → Q ({ b.1 with operation_lock := some 0 }, b.2))
    (hrelease : ∀ b, R b → S ({ b.1 with operation_lock := none }, b.2)) :
    Carries contour P (Action.exclusively body) (.ok ()) S := by
  unfold Action.exclusively
  apply Yields.bind (Q := Q) (a := ())
  · apply Yields.at_once
    intro b hb
    have htaken : b.1.takeOperationLock 0 = some { b.1 with operation_lock := some 0 } := if_pos (hfree b hb)
    refine ⟨({ b.1 with operation_lock := some 0 }, b.2), ?_, htake b hb⟩
    change ((b.1.takeOperationLock 0).map fun _ => Except.ok (), (b.1.takeOperationLock 0).getD b.1, b.2) = _
    rw [htaken]
    rfl
  · exact Yields.andFinally_modify hbody hrelease

/-- A session which is closed, and a scanner which it will find and may configure. -/
structure Ready (status : StatusByte) (K : Session) (N : Scanner) : Prop extends Peers status K N where
  writable : K.settings.require_write = .ok ()
  password : K.settings.password = "SICK_LMS"
  opened : K.opened = false
  replay : K.transport.replay = none
  operation_lock : K.operation_lock = none
  found : N.device_baud.baud ∈ K.rates

/-- The session of a client whose settings the scanner has. -/
def Session.prepared (K : Session) (N : Scanner) (rate : Rate) (start_stream : Bool) (info : DeviceStatus)
    (w : List Wire) : Session :=
  { K with
    opened := true
    changed := true
    transport.baud := rate.baud
    info := some info
    model := asciiStrip simulatorType
    configuration := some (N.config.updated K.settings.unit K.settings.indices)
    wire := K.wire ++ (connecting K N ++ preparing start_stream w) }

/-- The state behind a call of `initialize`. -/
def Device.Initialized (start_stream : Bool) (d : Device) : Prop :=
  d.state = if start_stream then .STREAMING else .CONNECTED

/-- A connection, and what is written over it. -/
theorem carries_establish (contour : Contour) (hpeers : Peers status K N) (hwritable : K.settings.require_write = .ok ())
    (hpassword : K.settings.password = "SICK_LMS") (hopened : K.opened = false) (hreplay : K.transport.replay = none)
    (hfound : N.device_baud.baud ∈ K.rates) {rate : Rate}
    (hwanted : rate.baud = K.settings.target_baud.getD N.device_baud.baud) (start_stream : Bool) :
    ∃ info w, Carries contour (Apart none K N) (Action.establish start_stream) (.ok ())
        (fun b => b.Rests (K.prepared N rate start_stream info w) (N.prepared K.settings rate start_stream) ∧
          b.1.Initialized start_stream) ∧
      Wire.stopping ∉ w ∧ (N.Matches K.settings → rate = N.device_baud → w = []) := by
  obtain ⟨unit, hunit⟩ := hpeers.unit
  have hconnects : Carries contour _ _ _ _ := carries_connect hpeers hunit hopened hreplay hfound
  have hknown : Known status (K.connected N unit) { N with baud := N.device_baud.baud } :=
    ⟨hpeers.of_settings rfl rfl hpeers.unit, hwritable, hpassword, rfl, rfl⟩
  obtain ⟨info, w, hprepares, hw, hnone⟩ := carries_prepare contour hknown hunit rfl rfl rfl hwanted start_stream
  refine ⟨info, w, ?_, hw, fun hmatches hrate => hnone ⟨hmatches.angle, hmatches.resolution, hmatches.config⟩ hrate⟩
  unfold Action.establish
  apply Yields.bind hconnects
  apply Yields.get_bind (g := Action.prepare start_stream)
  · intro b hb
    have hnever : b.1.transport.replay = none := by
      rw [hb.transport]
      exact hreplay
    rw [hnever, if_neg (by simp)]
  · apply hprepares.mono (fun b hb => hb)
    intro b hb
    unfold Session.prepared
    rw [← List.append_assoc]
    exact hb

/-- An initialization from a closed bench. -/
theorem carries_initialize (contour : Contour) (h : Ready status K N) {rate : Rate}
    (hwanted : rate.baud = K.settings.target_baud.getD N.device_baud.baud) (start_stream : Bool) :
    ∃ info w, Carries contour (fun b => b.Apart none K N ∧ b.1.state ≠ .STREAMING)
        (Action.initializeDevice start_stream) (.ok ())
        (fun b => b.Rests (K.prepared N rate start_stream info w) (N.prepared K.settings rate start_stream) ∧
          b.1.Initialized start_stream) ∧
      Wire.stopping ∉ w ∧ (N.Matches K.settings → rate = N.device_baud → w = []) := by
  have hlocked : Peers status { K with operation_lock := some 0 } N := h.toPeers.of_settings rfl rfl h.unit
  obtain ⟨info, w, hestablish, hw, hnone⟩ := carries_establish contour hlocked h.writable h.password h.opened
    h.replay h.found hwanted start_stream
  refine ⟨info, w, ?_, hw, hnone⟩
  unfold Action.initializeDevice
  apply Yields.get_bind
  · intro b hb
    rw [hb.1.settings, h.writable]
  apply Yields.bind (Q := fun b : Bench => b.Apart none K N ∧ b.1.state ≠ .STREAMING) (a := ())
    (Yields.done fun b hb => hb)
  have hbody : Carries contour (fun b => b.Apart none { K with operation_lock := some 0 } N ∧ b.1.state ≠ .STREAMING)
      (Action.initializeLocked start_stream) (.ok ())
      (fun b => b.Rests (Session.prepared { K with operation_lock := some 0 } N rate start_stream info w)
        (N.prepared K.settings rate start_stream) ∧ b.1.Initialized start_stream) := by
    unfold Action.initializeLocked
    apply Yields.get_bind
    · intro b hb
      rw [if_neg hb.2]
    apply Yields.attempt_bind (hestablish.mono (fun b hb => hb.1) fun b hb => hb)
    exact Yields.done fun b hb => hb
  apply carries_exclusively (fun b hb => ?_) hbody
  · intro b hb
    obtain ⟨hapart, hstate⟩ := hb
    have hsession : ({ b.1 with operation_lock := some 0 } : Device).toSession.core = { K with operation_lock := some 0 } :=
      congrArg (fun S : Session => { S with operation_lock := some 0 }) hapart.session
    exact ⟨{ hapart with session := hsession }, hstate⟩
  · intro b hb
    obtain ⟨hrests, hstate⟩ := hb
    have hadapted := hrests.adapt (d := { b.1 with operation_lock := none }) (M := b.2.toScanner) rfl rfl rfl rfl rfl
    have hsession : ({ b.1 with operation_lock := none } : Device).toSession.core = K.prepared N rate start_stream info w := by
      have hfreed := congrArg (fun S : Session => { S with operation_lock := none }) hrests.session
      refine Eq.trans hfreed ?_
      unfold Session.prepared
      rw [← h.operation_lock]
      rfl
    rw [hrests.scanner, hsession] at hadapted
    exact ⟨hadapted, hstate⟩
  · rw [show b.1.operation_lock = K.operation_lock by rw [← hb.1.session]; rfl]
    exact h.operation_lock

/-- A wait which is answered in its first turn, at a bench without a reader. -/
theorem apart_wait {w : Request} {reader : Option Reader} (hreader : reader = none ∨ reader = some .ended)
    {answer : w.Answer} (henter : ∀ b, b.Apart reader K N → ∃ b', Bench.waits.enter 0 w b = (none, b') ∧ b'.Apart reader K N)
    (hresume : ∀ choice b, Bench.waits.resume 0 w choice b = some (some (.ok answer), b)) :
    Carries contour (Apart reader K N) (Action.await w) (.ok answer) (Apart reader K N) := by
  apply Yields.suspended
  intro b hb
  obtain ⟨b', hnone, hapart⟩ := henter b hb
  refine ⟨b', hnone, ?_⟩
  apply Attended.intro (Apart reader K N) (fun _ => 0) hapart (fun t t' ht hmove => ht.env hreader hmove)
  · intro choice t t' ht hturn
    rw [hresume] at hturn
    cases hturn
  · exact fun t ht => .inl ⟨.done, .ok answer, t, hresume .done t⟩
  · intro choice t answer t' ht hturn
    rw [hresume] at hturn
    cases hturn
    exact ⟨rfl, ht⟩

/-- The reader is stopped. -/
theorem carries_stopReader : Carries contour (Rests K N) Action.stopReader (.ok ()) (Apart none K N) := by
  unfold Action.stopReader
  apply Yields.get_bind
  · intro b hb
    have hsome : b.1.reader.isSome = true := by
      rcases hb.shows.reader with hcreated | ⟨last_bytes, hrunning⟩
      · rw [hcreated]
        rfl
      · rw [hrunning]
        rfl
    rw [if_pos hsome]
  apply Yields.modify_bind (Q := Apart (some .ended) K N)
  · exact fun b hb => { hb with reader := rfl }
  apply Yields.bind (apart_wait (.inr rfl) (fun b hb => ⟨b, rfl, hb⟩) fun choice b => rfl)
  exact Yields.change fun b hb => { hb with reader := rfl }

/-- One more event on the log at rest. -/
theorem Bench.Rests.log {b : Bench} (h : b.Rests K N) {e : Wire} (he : e.unread = true) :
    Bench.Rests { K with wire := K.wire ++ [e] } N (b.1.log e, b.2) := by
  have hadapted := h.adapt (d := b.1.log e) (M := b.2.toScanner) rfl rfl rfl rfl rfl
  have hsession : (b.1.log e).toSession.core = { K with wire := K.wire ++ [e] } :=
    (Session.core_log b.1.toSession he).trans (congrArg (fun S : Session => { S with wire := S.wire ++ [e] }) h.session)
  rw [h.scanner, hsession] at hadapted
  exact hadapted

/-- The session behind a close. -/
def Session.closed (K : Session) : Session :=
  { K with
    opened := false
    changed := false
    wire := K.wire ++ [.stopping, .wrote stopPayload, .closing true] }

/-- What a close does with an open transport. -/
theorem carries_closeOpened (h : Known status K N) (hchanged : K.changed = true) (hreplay : K.transport.replay = none) :
    Carries contour (Rests K N) Action.closeOpened (.ok ())
      (fun b => b.Apart none K.closed { N with mode := 0x25 } ∧ b.1.state = .DISCONNECTED) := by
  have hstopping : Known status { K with wire := K.wire ++ [.stopping] } N := h.next rfl rfl h.unit h.rate h.transport
  have hstops : Carries contour (Rests { K with wire := K.wire ++ [.stopping] } N) Action.stopScanner (.ok ())
      (Rests { K with changed := true, wire := K.wire ++ [.stopping] ++ [.wrote stopPayload] } { N with mode := 0x25 }) := by
    unfold Action.stopScanner
    apply Yields.get_bind
    · intro b hb
      have hboth : (b.1.changed && b.1.transport.replay.isNone) = true := by
        have hsame : b.1.changed = true := hb.changed.trans hchanged
        have hnever : b.1.transport.replay = none := (congrArg Transport.replay hb.transport).trans hreplay
        rw [hsame, hnever]
        rfl
      rw [if_pos hboth]
    · have hother : Mode.ON_REQUEST ≠ .INSTALLATION := by simp
      apply Yields.attempt_bind (carries_mode hstopping hother)
      exact Yields.done fun b hb => hb
  unfold Action.closeOpened
  apply Yields.modify_bind (fun b hb => Bench.Rests.log hb rfl)
  apply Yields.bind (carries_transition .STOPPING)
  apply Yields.bind hstops
  apply Yields.bind carries_stopReader
  apply Yields.modify_bind (Q := Apart none { K with
      changed := true
      wire := K.wire ++ [.stopping] ++ [.wrote stopPayload] ++ [.closing true] } { N with mode := 0x25 })
  · intro b hb
    have hsame : b.1.changed = true := hb.changed
    have hsession : (b.1.log (.closing true)).toSession.core = { K with
        changed := true
        wire := K.wire ++ [.stopping] ++ [.wrote stopPayload] ++ [.closing true] } :=
      (Session.core_log b.1.toSession rfl).trans
        (congrArg (fun S : Session => { S with wire := S.wire ++ [Wire.closing true] }) hb.session)
    rw [hsame]
    exact { hb with session := hsession }
  apply Yields.bind (apart_wait (.inl rfl) (fun b hb => ⟨(b.1, b.2.closing), rfl, { hb with }⟩) fun choice b => rfl)
  apply Yields.modify_bind (Q := Apart none K.closed { N with mode := 0x25 })
  · intro b hb
    have hsession : ({ b.1 with opened := false, changed := false } : Device).toSession.core = { K with
        opened := false
        changed := false
        wire := K.wire ++ [.stopping] ++ [.wrote stopPayload] ++ [.closing true] } :=
      congrArg (fun S : Session => { S with opened := false, changed := false }) hb.session
    rw [List.append_assoc, List.append_assoc] at hsession
    exact { hb with session := hsession }
  · exact Yields.change fun b hb => ⟨{ hb with }, rfl⟩

/-- A close stops the scanner, and leaves the bench closed. -/
theorem carries_close (h : Known status K N) (hopened : K.opened = true) (hchanged : K.changed = true)
    (hreplay : K.transport.replay = none) (hlock : K.operation_lock = none) :
    Carries contour (Rests K N) Action.close (.ok ())
      (fun b => b.Apart none K.closed { N with mode := 0x25 } ∧ b.1.state = .DISCONNECTED) := by
  have hlocked : Known status { K with operation_lock := some 0 } N := h.next rfl rfl h.unit h.rate h.transport
  have hbody : Carries contour (Rests { K with operation_lock := some 0 } N) Action.closeUnlocked (.ok ())
      (fun b => b.Apart none (Session.closed { K with operation_lock := some 0 }) { N with mode := 0x25 } ∧
        b.1.state = .DISCONNECTED) := by
    unfold Action.closeUnlocked
    apply Yields.get_bind ?_ (carries_closeOpened hlocked hchanged hreplay)
    intro b hb
    have hopen : b.1.opened = true := hb.opened.trans hopened
    rw [if_pos hopen]
  apply carries_exclusively (fun b hb => ?_) hbody
  · intro b hb
    have hadapted := hb.adapt (d := { b.1 with operation_lock := some 0 }) (M := b.2.toScanner) rfl rfl rfl rfl rfl
    have hsession : ({ b.1 with operation_lock := some 0 } : Device).toSession.core = { K with operation_lock := some 0 } :=
      congrArg (fun S : Session => { S with operation_lock := some 0 }) hb.session
    rw [hb.scanner, hsession] at hadapted
    exact hadapted
  · intro b hb
    obtain ⟨hapart, hstate⟩ := hb
    have hfreed := congrArg (fun S : Session => { S with operation_lock := none }) hapart.session
    have hsession : ({ b.1 with operation_lock := none } : Device).toSession.core = K.closed := by
      refine Eq.trans hfreed ?_
      unfold Session.closed
      rw [← hlock]
    exact ⟨{ hapart with session := hsession }, hstate⟩
  · rw [show b.1.operation_lock = K.operation_lock by rw [← hb.session]; rfl]
    exact hlock

/-- Nothing that happens outside disturbs a bench at rest. -/
theorem Bench.Rests.env {b b' : Bench} (hpeers : Peers status K N) (h : b.Rests K N) (hmove : Bench.env contour b b') :
    b'.Rests K N := by
  have hsession := h.session
  have hscanner := h.scanner
  subst hsession hscanner
  have hsound : (Scene.rest b.1.toSession b.2.toScanner).Sound status :=
    ⟨hpeers.status, hpeers.unit, hpeers.address, Nat.zero_le 2⟩
  exact Rests.of_shows (h.shows.env hpeers.healthy hsound hmove).1

/-- Telegrams which change no setting of the scanner. -/
def Gentle (wire : List Wire) : Prop :=
  ∀ payload ∈ payloads wire, Mutation.of payload = none ∨ Mutation.of payload = some .start

theorem Gentle.append {w w' : List Wire} (h : Gentle w) (h' : Gentle w') : Gentle (w ++ w') := by
  intro payload hmem
  rw [payloads_append, List.mem_append] at hmem
  rcases hmem with hfirst | hsecond
  · exact h payload hfirst
  · exact h' payload hsecond

theorem searched_gentle (found : ℕ) (rates : List ℕ) : Gentle (searched found rates) ∧ Wire.stopping ∉ searched found rates := by
  induction rates with
  | nil => exact ⟨fun payload hmem => absurd hmem List.not_mem_nil, List.not_mem_nil⟩
  | cons rate rates ih =>
    obtain ⟨hgentle, hunstopped⟩ := ih
    unfold searched
    split
    · exact ⟨by simp [Gentle, payloads, Mutation.of], by simp⟩
    · have htried : Gentle ([.baud rate] ++ List.replicate 3 (.wrote [0x31])) := by
        simp [Gentle, payloads, Mutation.of]
      exact ⟨htried.append hgentle, by simpa [List.mem_replicate] using hunstopped⟩

theorem connecting_gentle (K : Session) (N : Scanner) : Gentle (connecting K N) ∧ Wire.stopping ∉ connecting K N := by
  obtain ⟨hgentle, hunstopped⟩ := searched_gentle N.device_baud.baud K.rates
  have hfirst : Gentle [.opened K.transport.baud] := by simp [Gentle, payloads]
  have hlast : Gentle [.wrote [0x3A], .wrote [0x74]] := by simp [Gentle, payloads, Mutation.of]
  exact ⟨hfirst.append (hgentle.append hlast), by simp [connecting, hunstopped]⟩

theorem preparing_gentle (start_stream : Bool) : Gentle (preparing start_stream []) := by
  cases start_stream <;> simp [preparing, Gentle, payloads, Mutation.of, stopPayload, startPayload]

theorem preparing_unstopped {w : List Wire} (h : Wire.stopping ∉ w) (start_stream : Bool) :
    Wire.stopping ∉ preparing start_stream w := by
  cases start_stream <;> simp [preparing, h]

/-- An open session and a streaming scanner which has its settings. -/
structure Steady (status : StatusByte) (K : Session) (N : Scanner) : Prop extends Known status K N where
  opened : K.opened = true
  changed : K.changed = true
  replay : K.transport.replay = none
  operation_lock : K.operation_lock = none
  found : N.device_baud.baud ∈ K.rates
  wanted : N.device_baud.baud = K.settings.target_baud.getD N.device_baud.baud
  agreed : N.Matches K.settings
  streams : N.mode = 0x24

/-- The rate of the session behind an initialization is tried again. -/
theorem prepared_found (h : Ready status K N) {rate : Rate}
    (hfast : ∀ target ∈ K.settings.target_baud, target = 500000 → K.settings.high_speed = true)
    (hwanted : rate.baud = K.settings.target_baud.getD N.device_baud.baud) (start_stream : Bool) (info : DeviceStatus)
    (w : List Wire) : rate.baud ∈ (K.prepared N rate start_stream info w).rates := by
  have hfound := h.found
  unfold Session.rates Action.rates at hfound
  change rate.baud ∈ if K.settings.detect_baud && K.transport.can_set_baud then
    [9600, 38400, 19200] ++ (if K.settings.high_speed then [500000] else []) else [rate.baud]
  split
  · next hdetects =>
    rw [if_pos hdetects] at hfound
    cases htarget : K.settings.target_baud with
    | none =>
      rw [htarget, Option.getD_none] at hwanted
      rw [hwanted]
      exact hfound
    | some target =>
      rw [htarget, Option.getD_some] at hwanted
      have hspeed : rate.baud = 500000 → K.settings.high_speed = true := fun heq =>
        hfast target htarget (hwanted.symm.trans heq)
      have hknown := rate.known
      unfold BAUD_CODES at hknown
      split_ifs at hknown with h1 h2 h3 h4
      · simp [h1]
      · simp [h2]
      · simp [h3]
      · simp [h4, hspeed h4]
      · cases hknown
  · exact List.mem_singleton_self _

/-- Behind an initialization the session is open and the scanner has its settings. -/
theorem Ready.steady (h : Ready status K N) {rate : Rate}
    (hfast : ∀ target ∈ K.settings.target_baud, target = 500000 → K.settings.high_speed = true)
    (hwanted : rate.baud = K.settings.target_baud.getD N.device_baud.baud) (info : DeviceStatus) (w : List Wire) :
    Steady status (K.prepared N rate true info w) (N.prepared K.settings rate true) := by
  have hpeers : Peers status (K.prepared N rate true info w) (N.prepared K.settings rate true) :=
    h.toPeers.of_settings rfl rfl ⟨_, N.config.updated_unit _ _⟩
  have hsame : rate.baud = K.settings.target_baud.getD rate.baud := by
    cases htarget : K.settings.target_baud with
    | none => rfl
    | some target =>
      rw [htarget, Option.getD_some] at hwanted
      rw [hwanted, Option.getD_some]
  exact ⟨⟨hpeers, h.writable, h.password, rfl, rfl⟩, rfl, rfl, h.replay, h.operation_lock,
    prepared_found h hfast hwanted true info w, hsame, N.prepared_matches _ _ _, rfl⟩

/-- A reconnection changes nothing, and writes no setting. -/
theorem carries_reconnect (contour : Contour) (h : Steady status K N) :
    ∃ K', Carries contour (Rests K N) Action.reconnect (.ok ()) (fun b => b.Rests K' N ∧ b.1.state = .STREAMING) ∧
      Steady status K' N ∧ K'.settings = K.settings ∧ ∃ w, K'.wire = K.wire ++ w ∧ Gentle w := by
  have hready : Ready status K.closed { N with mode := 0x25 } :=
    ⟨h.toPeers.of_settings rfl rfl h.unit, h.writable, h.password, rfl, h.replay, h.operation_lock, h.found⟩
  obtain ⟨info, w, hinitializes, -, hnone⟩ := carries_initialize contour hready h.wanted true
  obtain rfl := hnone ⟨h.agreed.angle, h.agreed.resolution, h.agreed.config⟩ rfl
  have hsame : ({ N with mode := 0x25 } : Scanner).prepared K.closed.settings N.device_baud true = N := by
    obtain ⟨hangle, hresolution, hconfig⟩ := h.agreed
    have hrate := h.rate
    have hmode := h.streams
    unfold Scanner.prepared
    simp only [Session.closed, if_pos, ← hangle, ← hresolution, hconfig, ← hrate, ← hmode]
  rw [hsame] at hinitializes
  have hadapter : K.transport.baud = N.device_baud.baud := h.transport.trans h.rate
  refine ⟨Session.prepared K.closed { N with mode := 0x25 } N.device_baud true info [], ?_, ?_, rfl, ?_⟩
  · unfold Action.reconnect
    apply Yields.bind (carries_transition .RECOVERING)
    apply Yields.bind (carries_close h.toKnown h.opened h.changed h.replay h.operation_lock)
    apply hinitializes.mono
    · intro b hb
      refine ⟨hb.1, ?_⟩
      rw [hb.2]
      simp
    · exact fun b hb => hb
  · have hfound : N.device_baud.baud ∈ (Session.prepared K.closed { N with mode := 0x25 } N.device_baud true info []).rates := by
      have hrates : (Session.prepared K.closed { N with mode := 0x25 } N.device_baud true info []).rates = K.rates := by
        change (if K.settings.detect_baud && K.transport.can_set_baud then _ else [N.device_baud.baud]) = Action.rates _
        rw [← hadapter]
        rfl
      rw [hrates]
      exact h.found
    exact ⟨h.toKnown.next rfl rfl h.unit h.rate h.rate.symm, rfl, rfl, h.replay, h.operation_lock, hfound, h.wanted,
      h.agreed, h.streams⟩
  · refine ⟨[.stopping, .wrote stopPayload, .closing true] ++
      (connecting K.closed { N with mode := 0x25 } ++ preparing true []), ?_, ?_⟩
    · exact List.append_assoc _ _ _
    · have hclose : Gentle [.stopping, .wrote stopPayload, .closing true] := by
        simp [Gentle, payloads, Mutation.of, stopPayload]
      exact hclose.append ((connecting_gentle _ _).1.append (preparing_gentle true))

/-- Reconnect again and again, each time after a while. -/
def Action.reconnects : List ℚ → Action Unit
  | [] => pure ()
  | seconds :: rest => do
    sleep seconds
    reconnect
    reconnects rest

/-- No number of reconnections changes anything. -/
theorem carries_reconnects (contour : Contour) (h : Steady status K N) (pauses : List ℚ) :
    ∃ K', Carries contour (fun b => b.Rests K N ∧ b.1.state = .STREAMING) (Action.reconnects pauses) (.ok ())
        (fun b => b.Rests K' N ∧ b.1.state = .STREAMING) ∧
      Steady status K' N ∧ K'.settings = K.settings ∧ ∃ w, K'.wire = K.wire ++ w ∧ Gentle w := by
  induction pauses generalizing K with
  | nil => exact ⟨K, Yields.done fun b hb => hb, h, rfl, [], (List.append_nil _).symm, fun p hp => absurd hp List.not_mem_nil⟩
  | cons seconds rest ih =>
    obtain ⟨K₁, hreconnects, hsteady, hsettings, w, hwire, hgentle⟩ := carries_reconnect contour h
    obtain ⟨K₂, hrest, hsteady', hsettings', w', hwire', hgentle'⟩ := ih hsteady
    refine ⟨K₂, ?_, hsteady', hsettings'.trans hsettings, w ++ w', ?_, hgentle.append hgentle'⟩
    · unfold Action.reconnects
      have hsleep : Carries contour (Rests K N) (Action.sleep seconds) (.ok ()) (Rests K N) :=
        yields_sleep (fun b b' hb hmove => hb.env h.toPeers hmove) seconds
      apply Yields.bind (hsleep.mono (fun b hb => hb.1) fun b hb => hb)
      exact Yields.bind hreconnects hrest
    · rw [hwire', hwire, List.append_assoc]

end Calls

section Results

variable {contour : Contour}

/-- A bench at which a client may call `initialize`: the client is closed, nothing is under way, the
scanner is healthy and does not misbehave, and its rate is among those which will be tried. -/
structure Bench.Startable (b : Bench) : Prop where
  opened : b.1.opened = false
  reader : b.1.reader = none
  state : b.1.state ≠ .STREAMING
  command_lock : b.1.command_lock = none
  operation_lock : b.1.operation_lock = none
  events : b.1.events = []
  replay : b.1.transport.replay = none
  transport : b.1.settings.transport = .simulator
  address : b.1.settings.address ≤ 1
  password : b.1.settings.password = "SICK_LMS"
  ack_timeout : 0 < b.1.settings.ack_timeout
  timeout_scale : 0 < b.1.settings.timeout_scale
  found : b.2.device_baud.baud ∈ Action.rates b.1
  severity : b.2.status &&& 7 ≤ 2
  unit : b.2.config.raw.getD 6 0 = 0 ∨ b.2.config.raw.getD 6 0 = 1
  nak_next : b.2.nak_next = 0
  silence_next : b.2.silence_next = 0
  omit_ack : b.2.omit_ack = false
  incoming : b.2.incoming.buffer = []
  requests : b.2.requests = []
  reply : b.2.reply = none

/-- The client streams, or is connected, and the scanner has its settings. -/
structure Bench.Agrees (b : Bench) (start_stream : Bool) (t : Bench) : Prop where
  state : t.1.state = if start_stream then .STREAMING else .CONNECTED
  mode : t.2.mode = if start_stream then 0x24 else 0x25
  angle : t.2.angle = b.1.settings.angle
  resolution : t.2.resolution = b.1.settings.resolution
  config : t.2.config = b.2.config.updated b.1.settings.unit b.1.settings.indices
  device_rate : t.2.device_baud.baud = b.1.settings.target_baud.getD b.2.device_baud.baud
  adapter_rate : t.2.baud = b.1.settings.target_baud.getD b.2.device_baud.baud
  client_rate : t.1.transport.baud = b.1.settings.target_baud.getD b.2.device_baud.baud

namespace Bench.Startable

variable {b : Bench} (h : b.Startable)
include h

theorem apart : b.Apart none b.1.toSession.core b.2.toScanner.core where
  session := rfl
  scanner := rfl
  lock := h.command_lock
  events := h.events
  nak_next := h.nak_next
  silence_next := h.silence_next
  omit_ack := h.omit_ack
  incoming := h.incoming
  requests := h.requests
  reply := h.reply
  reader := h.reader

theorem ready : ∃ status, Ready status b.1.toSession.core b.2.toScanner.core := by
  obtain ⟨status, hraw, hhealthy⟩ := Healthy.of_severity h.severity
  have hunit : ∃ unit, b.2.config.unit = .ok unit := by
    unfold Configuration.unit
    rcases h.unit with hcm | hmm
    · exact ⟨.cm, if_pos hcm⟩
    · exact ⟨.mm, by rw [hmm]; rfl⟩
  have hwritable : b.1.settings.require_write = .ok () := by
    unfold Settings.require_write Settings.physical
    rw [h.transport]
    rfl
  exact ⟨status, ⟨hhealthy, hraw.symm, hunit, h.address, h.ack_timeout, h.timeout_scale⟩, hwritable, h.password, h.opened,
    h.replay, h.operation_lock, h.found⟩

omit h in
/-- The rate which is wanted in the end. -/
theorem exists_rate (b : Bench) : ∃ rate : Rate, rate.baud = b.1.settings.target_baud.getD b.2.device_baud.baud := by
  cases htarget : b.1.settings.target_baud with
  | none => exact ⟨b.2.device_baud, rfl⟩
  | some target => exact ⟨⟨target, b.1.settings.target_supported target htarget⟩, rfl⟩

end Bench.Startable

/-- In every run, a call which comes to one outcome can still return, and returns with it. -/
theorem Carries.run {P Q : Bench → Prop} {p : Action Unit} (h : Carries contour P p (.ok ()) Q) {b : Bench} (hb : P b)
    {c : Stage Device Request Request.Answer Error Unit × Bench}
    (hrun : Stage.Reaches Bench.waits (Bench.env contour) 0 (p.proceed Bench.waits 0 b) c) :
    (∃ t, Stage.Reaches Bench.waits (Bench.env contour) 0 c (.done (.ok ()), t)) ∧
      ∀ outcome t, c = (.done outcome, t) → outcome = .ok () ∧ Q t := by
  obtain ⟨hreturns, hpost⟩ := (h b hb).run hrun
  refine ⟨?_, hpost⟩
  obtain ⟨outcome, t, hreach⟩ := hreturns
  obtain ⟨-, hdone⟩ := (h b hb).run (hrun.trans hreach)
  obtain ⟨rfl, -⟩ := hdone outcome t rfl
  exact ⟨t, hreach⟩

theorem Bench.agrees_of_prepared {b t : Bench} {rate : Rate} {start_stream : Bool}
    (hwanted : rate.baud = b.1.settings.target_baud.getD b.2.device_baud.baud)
    (hscanner : t.2.toScanner.core = b.2.toScanner.core.prepared b.1.settings rate start_stream)
    (hclient : t.1.transport.baud = rate.baud) (hstate : t.1.Initialized start_stream) : b.Agrees start_stream t where
  state := hstate
  mode := congrArg Scanner.mode hscanner
  angle := congrArg Scanner.angle hscanner
  resolution := congrArg Scanner.resolution hscanner
  config := congrArg Scanner.config hscanner
  device_rate := (congrArg (fun M : Scanner => M.device_baud.baud) hscanner).trans hwanted
  adapter_rate := (congrArg Scanner.baud hscanner).trans hwanted
  client_rate := hclient.trans hwanted

theorem standard_geometry : validate_geometry 180 50 = .ok () := rfl

/-- A client with the default settings, and a scanner which streams at another rate. -/
def streamingBench : Bench :=
  ({ settings := Settings.defaults },
    { device_baud := ⟨19200, known_19200⟩, mode := 0x24, geometry := standard_geometry })

theorem streamingBench_startable : streamingBench.Startable where
  opened := rfl
  reader := rfl
  state := by simp [streamingBench]
  command_lock := rfl
  operation_lock := rfl
  events := rfl
  replay := rfl
  transport := rfl
  address := Nat.zero_le 1
  password := rfl
  ack_timeout := by norm_num [streamingBench, Settings.defaults]
  timeout_scale := by norm_num [streamingBench, Settings.defaults]
  found := by decide
  severity := by decide
  unit := by decide
  nak_next := rfl
  silence_next := rfl
  omit_ack := rfl
  incoming := rfl
  requests := rfl
  reply := rfl

/-- The log without its replies has the same telegrams since the first close. -/
theorem payloads_sinceClose_unread (wire : List Wire) :
    payloads (sinceClose (wire.filter Wire.unread)) = payloads (sinceClose wire) := by
  induction wire with
  | nil => rfl
  | cons e rest ih =>
    cases e with
    | accepted r => exact ih
    | stopping =>
      have hfilter : ∀ wire : List Wire, payloads (wire.filter Wire.unread) = payloads wire := by
        intro wire
        induction wire with
        | nil => rfl
        | cons e rest ih =>
          cases e with
          | wrote payload => exact congrArg (payload :: ·) ih
          | _ => exact ih
      exact hfilter rest
    | _ => exact ih

/-- What happened before the first close does not count. -/
theorem sinceClose_append {wire : List Wire} (h : Wire.stopping ∉ wire) (later : List Wire) :
    sinceClose (wire ++ later) = sinceClose later := by
  have hnil : wire.dropWhile (· ≠ .stopping) = [] := sinceClose_of_notMem h
  rw [sinceClose, List.dropWhile_append, hnil]
  rfl

/-- Once the client and the scanner agree, no number of reconnections writes a mode of installation,
a rate, a variant or a configuration again. -/
theorem reconnects_write_no_setting (b : Bench) (hb : b.Startable) (hfresh : Wire.stopping ∉ b.1.wire)
    (hfast : ∀ target ∈ b.1.settings.target_baud, target = 500000 → b.1.settings.high_speed = true) (pauses : List ℚ)
    {c : Stage Device Request Request.Answer Error Unit × Bench}
    (hrun : Stage.Reaches Bench.waits (Bench.env contour) 0
      ((do
        Action.initializeDevice true
        Action.reconnects pauses : Action Unit).proceed Bench.waits 0 b) c) :
    (∃ t, Stage.Reaches Bench.waits (Bench.env contour) 0 c (.done (.ok ()), t)) ∧
      ∀ outcome t, c = (.done outcome, t) → outcome = .ok () ∧ b.Agrees true t ∧
        ∀ payload ∈ payloads (sinceClose t.1.wire),
          Mutation.of payload = none ∨ Mutation.of payload = some .start := by
  obtain ⟨status, hready⟩ := hb.ready
  obtain ⟨rate, hwanted⟩ := Bench.Startable.exists_rate b
  obtain ⟨info, w, hcarries, hw, -⟩ := carries_initialize contour hready hwanted true
  have hsteady := hready.steady hfast hwanted info w
  obtain ⟨K', hreconnects, hsteady', -, w', hwire, hgentle⟩ := carries_reconnects contour hsteady pauses
  have hall : Carries contour
      (fun t => t.Apart none b.1.toSession.core b.2.toScanner.core ∧ t.1.state ≠ .STREAMING)
      (do
        Action.initializeDevice true
        Action.reconnects pauses) (.ok ())
      (fun t => t.Rests K' (b.2.toScanner.core.prepared b.1.settings rate true) ∧ t.1.state = .STREAMING) := by
    apply Yields.bind hcarries
    exact hreconnects
  obtain ⟨hreturns, hpost⟩ := Carries.run hall ⟨hb.apart, hb.state⟩ hrun
  refine ⟨hreturns, fun outcome t hdone => ?_⟩
  obtain ⟨hok, hrests, hstate⟩ := hpost outcome t hdone
  have hclient : t.1.transport.baud = rate.baud := (congrArg Transport.baud hrests.transport).trans hsteady'.transport
  refine ⟨hok, Bench.agrees_of_prepared hwanted hrests.scanner hclient hstate, ?_⟩
  have hlog : t.1.wire.filter Wire.unread = b.1.toSession.core.wire ++
      (connecting b.1.toSession.core b.2.toScanner.core ++ preparing true w) ++ w' :=
    (congrArg Session.wire hrests.session).trans hwire
  have hunstopped : Wire.stopping ∉ b.1.toSession.core.wire ++
      (connecting b.1.toSession.core b.2.toScanner.core ++ preparing true w) := by
    simp only [List.mem_append, not_or]
    exact ⟨fun hmem => hfresh (List.mem_of_mem_filter hmem), (connecting_gentle _ _).2, preparing_unstopped hw true⟩
  intro payload hmem
  rw [← payloads_sinceClose_unread, hlog, sinceClose_append hunstopped] at hmem
  apply hgentle payload
  rw [payloads_split w']
  exact List.mem_append_right _ hmem

theorem reconnects_write_no_setting_streaming : ∃ t,
    Stage.Reaches Bench.waits (Bench.env fun _ _ _ _ _ => 0) 0
        ((do
          Action.initializeDevice true
          Action.reconnects [1, 60] : Action Unit).proceed Bench.waits 0 streamingBench) (.done (.ok ()), t) ∧
      ∀ payload ∈ payloads (sinceClose t.1.wire),
        Mutation.of payload = none ∨ Mutation.of payload = some .start := by
  have hfast : ∀ target ∈ streamingBench.1.settings.target_baud, target = 500000 →
      streamingBench.1.settings.high_speed = true := fun target htarget => absurd htarget (by simp [streamingBench, Settings.defaults])
  obtain ⟨⟨t, hreach⟩, -⟩ := reconnects_write_no_setting streamingBench streamingBench_startable List.not_mem_nil hfast
    [1, 60] .refl
  obtain ⟨-, hdone⟩ := reconnects_write_no_setting streamingBench streamingBench_startable List.not_mem_nil hfast
    [1, 60] hreach
  exact ⟨t, hreach, (hdone _ t rfl).2.2⟩

end Results

end Lms200
