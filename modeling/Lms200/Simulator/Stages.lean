import Lms200.Simulator.Commands
import Lms200.Device.InitTrace

/-!
# The stages of a connection at the bench

What each stage of `connect` leaves behind, told by the session without the replies it has read and
by the scanner without the requests it has taken.
-/

namespace Lms200

open Coop Program

/-- Whether an event is not a reply. -/
def Wire.unread : Wire → Bool
  | .accepted _ => false
  | _ => true

/-- A session without the replies it has read. -/
def Session.core (S : Session) : Session := { S with wire := S.wire.filter Wire.unread }

/-- A scanner without the requests it has taken. -/
def Scanner.core (M : Scanner) : Scanner := { M with commands := [] }

/-- One telegram is on the log. -/
theorem Session.core_exchanged (S : Session) (cmd : Command) (r : Response) :
    ((S.sent cmd 1).accept r).core = S.core.sent cmd 1 := by
  have hwire : (((S.sent cmd 1).accept r).wire).filter Wire.unread =
      S.wire.filter Wire.unread ++ List.replicate 1 (.wrote cmd.payload) := by
    change (S.wire ++ [Wire.wrote cmd.payload] ++ [Wire.accepted r]).filter Wire.unread = _
    rw [List.filter_append, List.filter_append]
    exact List.append_nil _
  unfold core
  rw [hwire]
  rfl

theorem Session.core_sent (S : Session) (cmd : Command) (n : ℕ) : (S.sent cmd n).core = S.core.sent cmd n := by
  have hwire : ((S.sent cmd n).wire).filter Wire.unread =
      S.wire.filter Wire.unread ++ List.replicate n (.wrote cmd.payload) := by
    change (S.wire ++ List.replicate n (Wire.wrote cmd.payload)).filter Wire.unread = _
    rw [List.filter_append]
    congr 1
    exact List.filter_eq_self.mpr fun e he => by rw [List.eq_of_mem_replicate he]; rfl
  unfold core
  rw [hwire]
  rfl

/-- One more event, other than a reply. -/
theorem Session.core_log (S : Session) {e : Wire} (he : e.unread = true) :
    ({ S with wire := S.wire ++ [e] } : Session).core = { S.core with wire := S.core.wire ++ [e] } := by
  have hwire : (S.wire ++ [e]).filter Wire.unread = S.wire.filter Wire.unread ++ [e] := by
    rw [List.filter_append, List.filter_cons_of_pos he]
    rfl
  unfold core
  rw [hwire]

theorem Peers.of_core {status : StatusByte} {S : Session} {M : Scanner} (h : Peers status S.core M.core) :
    Peers status S M :=
  h.of_settings rfl rfl h.unit

namespace Bench

/-- A bench at which no command is under way, open or closed. -/
structure Idle (K : Session) (N : Scanner) (b : Bench) : Prop where
  session : b.1.toSession.core = K
  scanner : b.2.toScanner.core = N
  lock : b.1.command_lock = none
  events : b.1.events = []
  nak_next : b.2.nak_next = 0
  silence_next : b.2.silence_next = 0
  omit_ack : b.2.omit_ack = false
  incoming : b.2.incoming.buffer = []
  requests : b.2.requests = []
  reply : b.2.reply = none

/-- A bench whose reader does not run. -/
structure Apart (reader : Option Reader) (K : Session) (N : Scanner) (b : Bench) : Prop extends Idle K N b where
  reader : b.1.reader = reader

/-- An open bench, with nothing but scans on its way. -/
structure Rests (K : Session) (N : Scanner) (b : Bench) : Prop extends Idle K N b where
  shows : (Scene.rest b.1.toSession b.2.toScanner).Shows b

/-- An open bench with nothing on its way, up to what the framer holds. -/
structure Still (K : Session) (N : Scanner) (b : Bench) : Prop extends Idle K N b where
  producer : b.2.producer = true
  reader : b.1.reader = some .created ∨ ∃ last_bytes, b.1.reader = some (.running last_bytes)
  queue : b.2.queue = []

/-- An open bench at two rates. -/
structure Deaf (K : Session) (N : Scanner) (b : Bench) : Prop extends Idle K N b where
  hushed : (Scene.rest b.1.toSession b.2.toScanner).Hushed b

variable {K : Session} {N : Scanner} {b b' : Bench}

theorem Idle.settings (h : b.Idle K N) : b.1.settings = K.settings := by
  rw [← h.session]
  rfl

theorem Idle.transport (h : b.Idle K N) : b.1.transport = K.transport := by
  rw [← h.session]
  rfl

theorem Idle.info (h : b.Idle K N) : b.1.info = K.info := by
  rw [← h.session]
  rfl

theorem Idle.configuration (h : b.Idle K N) : b.1.configuration = K.configuration := by
  rw [← h.session]
  rfl

theorem Idle.model (h : b.Idle K N) : b.1.model = K.model := by
  rw [← h.session]
  rfl

theorem Idle.opened (h : b.Idle K N) : b.1.opened = K.opened := by
  rw [← h.session]
  rfl

theorem Idle.changed (h : b.Idle K N) : b.1.changed = K.changed := by
  rw [← h.session]
  rfl

theorem Rests.of_shows {S : Session} {M : Scanner} (h : (Scene.rest S M).Shows b) : b.Rests S.core M.core := by
  have hsession : b.1.toSession = S := h.session
  have hscanner : b.2.toScanner = M := h.scanner
  subst hsession hscanner
  obtain ⟨expected, -, -, hdue⟩ := h.coming
  have hevents : b.1.events = [] := List.map_eq_nil_iff.mp (List.append_eq_nil_iff.mp hdue).1
  exact ⟨⟨rfl, rfl, h.lock, hevents, h.nak_next, h.silence_next, h.omit_ack, h.incoming, h.requests, h.reply⟩, h⟩

theorem Deaf.of_hushed {S : Session} {M : Scanner} (h : (Scene.rest S M).Hushed b) : b.Deaf S.core M.core := by
  have hidle := (Rests.of_shows h.shows).toIdle
  have hsession : b.1.toSession = S := h.shows.session
  have hscanner : b.2.toScanner = M := h.shows.scanner
  subst hsession hscanner
  exact ⟨hidle, h⟩

/-- Nothing is on its way to a client at another rate. -/
theorem Deaf.still (h : b.Deaf K N) : b.Still K N :=
  ⟨h.toIdle, h.hushed.shows.producer, h.hushed.shows.reader, h.hushed.queue⟩

/-- A fresh framer with nothing on its way. -/
theorem Still.rests (h : b.Still K N) (hbuffer : b.1.framer.buffer = []) : b.Rests K N := by
  refine ⟨h.toIdle, ⟨rfl, h.lock, rfl, h.nak_next, h.silence_next, h.omit_ack, h.incoming, h.requests, h.reply, h.producer,
    h.reader, [], ?_, by simp, ?_⟩⟩
  · rw [h.queue]
    exact Coming.fresh hbuffer
  · rw [h.events]
    rfl

/-- The same at two rates. -/
theorem Still.deaf (h : b.Still K N) (hbuffer : b.1.framer.buffer = []) (hrates : N.baud ≠ N.device_baud.baud) :
    b.Deaf K N := by
  have hscanner : b.2.toScanner.core = N := h.scanner
  subst hscanner
  exact ⟨h.toIdle, (h.rests hbuffer).shows, h.queue, hrates⟩

/-- The adapter changes its rate. -/
theorem Idle.tuned (h : b.Idle K N) (rate : ℕ) :
    Idle { K with transport.baud := rate, wire := K.wire ++ [.baud rate] } { N with baud := rate }
      ({ b.1.log (.baud rate) with transport.baud := rate }, b.2.set_baud rate) := by
  have hlog := Session.core_log { b.1.toSession with transport.baud := rate } (e := Wire.baud rate) rfl
  exact { h with
    session := hlog.trans (congrArg
      (fun S : Session => { S with transport.baud := rate, wire := S.wire ++ [Wire.baud rate] }) h.session)
    scanner := congrArg (fun M : Scanner => { M with baud := rate }) h.scanner }

/-- A bench without a running reader stays as it is. -/
theorem Apart.env {contour : Contour} {reader : Option Reader} (h : b.Apart reader K N)
    (hreader : reader = none ∨ reader = some .ended) (hmove : Bench.env contour b b') : b'.Apart reader K N := by
  obtain ⟨d, s⟩ := b
  obtain ⟨input, hmove⟩ := hmove
  have hidle : d.reader ≠ some .created ∧ Bench.reading d = false := by
    have hsame : d.reader = reader := h.reader
    unfold Bench.reading
    rcases hreader with rfl | rfl <;> simp [hsame]
  cases input with
  | tick elapsed =>
    cases hmove
    exact { h with }
  | begin =>
    cases hmove
    change Apart reader K N (if d.reader = some .created then _ else _, s)
    rw [if_neg hidle.1]
    exact h
  | read size =>
    unfold Bench.react at hmove
    dsimp only at hmove
    rw [if_pos (.inl (by rw [hidle.2]; simp))] at hmove
    cases hmove
  | produce =>
    unfold Bench.react at hmove
    dsimp only at hmove
    split at hmove
    · split at hmove
      · next hscan =>
        cases hmove
        unfold Simulator.scan_bytes at hscan
        obtain ⟨unit, -, hscan⟩ := bind_eq_ok.mp hscan
        obtain ⟨telegram, -, heq⟩ := bind_eq_ok.mp hscan
        cases heq
        exact { h with }
      · cases hmove
    · cases hmove

end Bench

open Bench

section Exchanges

variable {contour : Contour} {status : StatusByte} {K : Session} {N N' : Scanner} {cmd : Command}

/-- What the bench goes through while a coroutine runs. -/
abbrev Carries (contour : Contour) {α : Type} (P : Bench → Prop) (p : Action α) (r : Except Error α) (Q : Bench → Prop) : Prop :=
  Yields Bench.waits (Bench.env contour) 0 P p r Q

/-- A command which can be sent and waited for. -/
structure Command.Regular (cmd : Command) : Prop where
  short : 1 ≤ cmd.payload.length ∧ cmd.payload.length ≤ MAX_PAYLOAD
  attempts : 0 < cmd.attempts
  timeout : 0 < cmd.timeout

/-- A change of the session and of the scanner at rest. -/
theorem Bench.Rests.adapt {b : Bench} (h : b.Rests K N) {d : Device} {M : Scanner} (hsettings : d.settings = b.1.settings)
    (hlock : d.command_lock = b.1.command_lock) (hevents : d.events = b.1.events) (hreader : d.reader = b.1.reader)
    (hframer : d.framer = b.1.framer) : Bench.Rests d.toSession.core M.core (d, { b.2 with toScanner := M }) := by
  have hx := h.shows
  have hshows : (Scene.rest d.toSession M).Shows (d, { b.2 with toScanner := M }) := by
    refine { hx with session := rfl, scanner := rfl, lock := hlock.trans hx.lock, reader := ?_, coming := ?_ }
    · rw [hreader]
      exact hx.reader
    · have haddress : (Scene.rest d.toSession M).session.settings.address =
          (Scene.rest b.1.toSession b.2.toScanner).session.settings.address := congrArg Settings.address hsettings
      rw [hframer, hevents, haddress]
      exact hx.coming
  exact Rests.of_shows hshows

/-- Notes on the device beside its session change nothing at rest. -/
theorem Bench.Rests.note {b : Bench} (h : b.Rests K N) {d : Device} (hsession : d.toSession = b.1.toSession)
    (hlock : d.command_lock = b.1.command_lock) (hevents : d.events = b.1.events) (hreader : d.reader = b.1.reader)
    (hframer : d.framer = b.1.framer) : Bench.Rests K N (d, b.2) := by
  have hadapted := h.adapt (M := b.2.toScanner) (congrArg Session.settings hsession) hlock hevents hreader hframer
  rw [hsession, h.session, h.scanner] at hadapted
  exact hadapted

/-- A change of the state machine. -/
theorem carries_transition (state : State) : Carries contour (Rests K N) (Action.transition state) (.ok ()) (Rests K N) :=
  Yields.change fun _ hb => hb.note rfl rfl rfl rfl rfl

/-- At one rate a command gets its reply. -/
theorem carries_command (h : Peers status K N) (hregular : cmd.Regular) {data : Bytes}
    (hanswers : ∀ M : Scanner, M.core = N → ∃ o, M.Answers status cmd o data ∧ o.after.core = N')
    (hgate : cmd.mutates = true → K.settings.require_write = .ok ()) (hrate : N.baud = N.device_baud.baud) :
    Carries contour (Rests K N) (Action.command cmd) (.ok (replyOf status (cmd.response_id :: data)))
      (Rests (K.sent cmd 1) N') := by
  intro b hb
  obtain ⟨o, hanswer, hafter⟩ := hanswers b.2.toScanner hb.scanner
  have hsession := hb.session
  have hscanner := hb.scanner
  subst hsession hscanner hafter
  have hcommand : Brings contour _ _ _ _ := brings_command h.of_core hanswer (Command.telegram_ok hregular.short _)
    hregular.attempts hregular.timeout hgate hrate
  apply (hcommand b hb.shows).mono
  intro outcome t ht
  refine ⟨ht.1, ?_⟩
  rw [← Session.core_exchanged]
  exact Rests.of_shows ht.2

/-- At two rates a query times out. -/
theorem deaf_command (h : Peers status K N) (hregular : cmd.Regular) (hmutates : cmd.mutates = false) :
    Carries contour (Deaf K N) (Action.command cmd) (.error (.timeout ("No ACK for " ++ cmd.name)))
      (Deaf (K.sent cmd cmd.attempts) N) := by
  intro b hb
  have hsession := hb.session
  have hscanner := hb.scanner
  subst hsession hscanner
  have hcommand : Carries contour _ _ _ _ := hushed_command h.of_core (Command.telegram_ok hregular.short _)
    hregular.attempts hmutates
  apply (hcommand b hb.hushed).mono
  intro outcome t ht
  refine ⟨ht.1, ?_⟩
  rw [← Session.core_sent]
  exact Deaf.of_hushed ht.2

/-- A computation which does not fail. -/
theorem carries_lift {α : Type} {P : Bench → Prop} {value : Except Error α} {a : α} (h : value = .ok a) :
    Carries contour P (Action.lift value) (.ok a) P := by
  rw [h]
  exact Yields.done fun _ hb => hb

/-- A query is on the log. -/
theorem Session.sent_query (K : Session) (hmutates : cmd.mutates = false) :
    K.sent cmd 1 = { K with wire := K.wire ++ [.wrote cmd.payload] } := by
  unfold Session.sent
  rw [hmutates, Bool.or_false]
  rfl

theorem Session.sent_queries (K : Session) (hmutates : cmd.mutates = false) (n : ℕ) :
    K.sent cmd n = { K with wire := K.wire ++ List.replicate n (.wrote cmd.payload) } := by
  unfold Session.sent
  rw [hmutates, Bool.or_false]

/-- An order is on the log, and has to be undone by a close. -/
theorem Session.sent_order (K : Session) (hmutates : cmd.mutates = true) :
    K.sent cmd 1 = { K with changed := true, wire := K.wire ++ [.wrote cmd.payload] } := by
  unfold Session.sent
  rw [hmutates, Bool.or_true]
  rfl

theorem status_request_regular : status_request.Regular := ⟨by decide, by decide, by norm_num [status_request]⟩

theorem type_request_regular : type_request.Regular := ⟨by decide, by decide, by norm_num [type_request]⟩

theorem configuration_request_regular : configuration_request.Regular :=
  ⟨by decide, by decide, by norm_num [configuration_request]⟩

section Agreed

variable {unit : DistanceUnit} (h : Peers status K N) (hunit : N.config.unit = .ok unit)
  (hrate : N.baud = N.device_baud.baud)
include h

omit h in
/-- The status which was read is kept. -/
theorem carries_inform (info : DeviceStatus) :
    Carries contour (Rests K N) (modify fun d => { d with info := some info }) (.ok ())
      (Rests { K with info := some info } N) := by
  apply Yields.change
  intro b hb
  have hadapted := hb.adapt (d := { b.1 with info := some info }) (M := b.2.toScanner) rfl rfl rfl rfl rfl
  rw [hb.scanner] at hadapted
  rw [← hb.session]
  exact hadapted

include hrate

include hunit in
/-- The status is read. -/
theorem carries_status :
    Carries contour (Rests K N) Action.status (.ok (N.deviceStatus unit))
      (Rests { K with info := some (N.deviceStatus unit), wire := K.wire ++ [.wrote [0x31]] } N) := by
  unfold Action.status
  apply Yields.bind (carries_transition .STATUS)
  have hanswers : ∀ M : Scanner, M.core = N →
      ∃ o, M.Answers status status_request o (N.statusBlock unit) ∧ o.after.core = N := by
    intro M hM
    subst hM
    exact ⟨_, M.answers_status hunit, rfl⟩
  apply Yields.bind (carries_command h status_request_regular hanswers (fun hc => absurd hc (by decide)) hrate)
  rw [K.sent_query rfl]
  have hdecoded : decode_status (replyOf status (status_request.response_id :: N.statusBlock unit)) =
      .ok (N.deviceStatus unit) := N.decode_status_block unit status
  rw [hdecoded]
  apply Yields.bind (carries_lift rfl)
  apply Yields.bind (carries_inform (N.deviceStatus unit))
  exact Yields.done fun _ hb => hb

/-- The configuration is read. -/
theorem carries_readConfiguration :
    Carries contour (Rests K N) Action.readConfiguration (.ok N.config)
      (Rests { K with configuration := some N.config, wire := K.wire ++ [.wrote [0x74]] } N) := by
  unfold Action.readConfiguration
  have hanswers : ∀ M : Scanner, M.core = N →
      ∃ o, M.Answers status configuration_request o N.config.raw ∧ o.after.core = N := by
    intro M hM
    subst hM
    exact ⟨_, M.answers_configuration, rfl⟩
  apply Yields.bind (carries_command h configuration_request_regular hanswers (fun hc => absurd hc (by decide)) hrate)
  rw [K.sent_query rfl]
  apply Yields.bind (carries_lift (show Configuration.ofRaw N.config.raw = .ok N.config from dif_pos N.config.documented))
  apply Yields.modify_bind (Q := Rests { K with configuration := some N.config, wire := K.wire ++ [.wrote [0x74]] } N)
  · intro b hb
    have hadapted := hb.adapt (d := { b.1 with configuration := some N.config }) (M := b.2.toScanner) rfl rfl rfl rfl rfl
    rw [hb.scanner] at hadapted
    have hsession : ({ b.1 with configuration := some N.config } : Device).toSession.core =
        { K with configuration := some N.config, wire := K.wire ++ [.wrote [0x74]] } :=
      congrArg (fun S : Session => { S with configuration := some N.config }) hb.session
    rw [hsession] at hadapted
    exact hadapted
  · exact Yields.done fun _ hb => hb

/-- An order of a mode or of a setting is confirmed. -/
theorem carries_order (hregular : cmd.Regular) (hmutates : cmd.mutates = true) {data : Bytes}
    (hanswers : ∀ M : Scanner, M.core = N → ∃ o, M.Answers status cmd o data ∧ o.after.core = N')
    (hgate : K.settings.require_write = .ok ()) :
    Carries contour (Rests K N) (Action.command cmd) (.ok (replyOf status (cmd.response_id :: data)))
      (Rests { K with changed := true, wire := K.wire ++ [.wrote cmd.payload] } N') := by
  have hcommand : Carries contour _ _ _ _ := carries_command h hregular hanswers (fun _ => hgate) hrate
  rw [K.sent_order hmutates] at hcommand
  exact hcommand

end Agreed

end Exchanges

/-- The log of a search which ends at a rate. -/
def searched (found : ℕ) : List ℕ → List Wire
  | [] => []
  | rate :: rates =>
    if rate = found then [.baud rate, .wrote [0x31]]
    else .baud rate :: (List.replicate 3 (.wrote [0x31]) ++ searched found rates)

section Connection

variable {contour : Contour} {status : StatusByte} {K : Session} {N : Scanner} {unit : DistanceUnit}

/-- At two rates no status is read. -/
theorem deaf_status (h : Peers status K N) :
    Carries contour (Deaf K N) Action.status (.error (.timeout "No ACK for status"))
      (Deaf { K with wire := K.wire ++ List.replicate 3 (.wrote [0x31]) } N) := by
  unfold Action.status
  apply Yields.bind (Q := Deaf K N) (a := ())
  · apply Yields.change
    exact fun b hb => { hb with hushed := ⟨{ hb.hushed.shows with }, hb.hushed.queue, hb.hushed.rates⟩ }
  · have hcommand : Carries contour _ _ _ _ := deaf_command h status_request_regular rfl
    rw [K.sent_queries rfl] at hcommand
    exact Yields.raises hcommand

/-- The search for the rate of the scanner. -/
theorem carries_detect (h : Peers status K N) (hunit : N.config.unit = .ok unit) {rates : List ℕ}
    (hmem : N.device_baud.baud ∈ rates) :
    Carries contour (Still K N) (Action.detect rates) (.ok ())
      (Rests { K with
          transport.baud := N.device_baud.baud
          info := some (N.deviceStatus unit)
          wire := K.wire ++ searched N.device_baud.baud rates }
        { N with baud := N.device_baud.baud }) := by
  induction rates generalizing K N with
  | nil => cases hmem
  | cons rate rates ih =>
    have htuned : Peers status { K with transport.baud := rate, wire := K.wire ++ [.baud rate] } { N with baud := rate } :=
      h.of_settings rfl rfl h.unit
    unfold Action.detect searched
    apply Yields.bind (Q := Still { K with transport.baud := rate, wire := K.wire ++ [.baud rate] } { N with baud := rate })
      (a := ())
    · apply Yields.at_once
      intro b hb
      exact ⟨_, rfl, { hb with toIdle := hb.tuned rate }⟩
    by_cases hfound : rate = N.device_baud.baud
    · apply Yields.modify_bind
        (Q := Rests { K with transport.baud := rate, wire := K.wire ++ [.baud rate] } { N with baud := rate })
      · intro b hb
        exact Still.rests (b := ({ b.1 with framer := b.1.framer.reset }, b.2)) { hb with } rfl
      · apply Yields.attempt_bind (carries_status htuned hunit hfound)
        apply Yields.done
        intro b hb
        rw [if_pos hfound, ← hfound]
        rw [List.append_assoc] at hb
        exact hb
    · apply Yields.modify_bind
        (Q := Deaf { K with transport.baud := rate, wire := K.wire ++ [.baud rate] } { N with baud := rate })
      · intro b hb
        exact Still.deaf (b := ({ b.1 with framer := b.1.framer.reset }, b.2)) { hb with } rfl hfound
      · apply Yields.attempt_bind (deaf_status htuned)
        have hrest : N.device_baud.baud ∈ rates := (List.mem_cons.mp hmem).resolve_left (Ne.symm hfound)
        have hlater := ih (K := { K with
            transport.baud := rate
            wire := K.wire ++ [.baud rate] ++ List.replicate 3 (.wrote [0x31]) }) (N := { N with baud := rate })
          (h.of_settings rfl rfl h.unit) hunit hrest
        rw [if_neg hfound]
        rw [List.append_assoc, List.append_assoc] at hlater
        exact hlater.mono (fun b hb => by rw [List.append_assoc] at hb; exact hb.still) fun b hb => hb

/-- The identity and the configuration are read. -/
theorem carries_identify (h : Peers status K N) (hinfo : K.info = some (N.deviceStatus unit))
    (hrate : N.baud = N.device_baud.baud) (htransport : K.transport.baud = N.baud) :
    Carries contour (Rests K N) Action.identify (.ok ())
      (Rests { K with
          model := asciiStrip simulatorType
          configuration := some N.config
          wire := K.wire ++ [.wrote [0x3A], .wrote [0x74]] } N) := by
  unfold Action.identify
  apply Yields.get_bind
  · intro b hb
    rw [hb.info, hinfo]
  · apply Yields.bind (Q := Rests K N) (a := N.deviceStatus unit) (Yields.done fun b hb => hb)
    apply Yields.get_bind
    · intro b hb
      have hsame : (N.deviceStatus unit).baud = b.1.transport.baud :=
        hrate.symm.trans (htransport.symm.trans (congrArg Transport.baud hb.transport).symm)
      rw [if_neg (not_not.mpr hsame)]
    apply Yields.bind (carries_transition .CONNECTED)
    have hanswers : ∀ M : Scanner, M.core = N →
        ∃ o, M.Answers status type_request o simulatorType ∧ o.after.core = N := by
      intro M hM
      subst hM
      exact ⟨_, M.answers_type, rfl⟩
    apply Yields.bind (carries_command h type_request_regular hanswers (fun hc => absurd hc (by decide)) hrate)
    rw [K.sent_query rfl]
    obtain ⟨model, hmodel⟩ : ∃ model, asciiStrip simulatorType = some model := ⟨_, rfl⟩
    have hread : asciiStrip (replyOf status (type_request.response_id :: simulatorType)).data = some model := hmodel
    rw [hread, hmodel]
    apply Yields.modify_bind (Q := Rests { K with model := some model, wire := K.wire ++ [.wrote [0x3A]] } N)
    · intro b hb
      have hadapted := hb.adapt (d := { b.1 with model := some model }) (M := b.2.toScanner) rfl rfl rfl rfl rfl
      rw [hb.scanner] at hadapted
      have hsession : ({ b.1 with model := some model } : Device).toSession.core =
          { K with model := some model, wire := K.wire ++ [.wrote [0x3A]] } :=
        congrArg (fun S : Session => { S with model := some model }) hb.session
      rw [hsession] at hadapted
      exact hadapted
    · have hlater : Peers status { K with model := some model, wire := K.wire ++ [.wrote [0x3A]] } N :=
        h.of_settings rfl rfl h.unit
      apply Yields.bind (carries_readConfiguration hlater hrate)
      rw [List.append_assoc]
      exact carries_transition .CONNECTED

/-- The rates which `connect` tries. -/
def Session.rates (K : Session) : List ℕ := Action.rates { toSession := K }

/-- The log of a connection. -/
def connecting (K : Session) (N : Scanner) : List Wire :=
  .opened K.transport.baud :: (searched N.device_baud.baud K.rates ++ [.wrote [0x3A], .wrote [0x74]])

/-- The session of a connection. -/
def Session.connected (K : Session) (N : Scanner) (unit : DistanceUnit) : Session :=
  { K with
    opened := true
    transport.baud := N.device_baud.baud
    info := some (N.deviceStatus unit)
    model := asciiStrip simulatorType
    configuration := some N.config
    wire := K.wire ++ connecting K N }

/-- A connection finds the scanner at its rate. -/
theorem carries_connect (h : Peers status K N) (hunit : N.config.unit = .ok unit) (hopened : K.opened = false)
    (hreplay : K.transport.replay = none) (hmem : N.device_baud.baud ∈ K.rates) :
    Carries contour (Apart none K N) Action.connect (.ok ())
      (Rests (K.connected N unit) { N with baud := N.device_baud.baud }) := by
  unfold Action.connect
  apply Yields.get_bind
  · intro b hb
    rw [if_neg (by rw [hb.opened, hopened]; simp)]
  apply Yields.modify_bind (Q := Apart none K N)
  · exact fun b hb => { hb with }
  apply Yields.bind (Q := Apart none K N) (a := ())
  · exact Yields.change fun b hb => { hb with }
  have hwait : Carries contour (Apart none K N) Action.startupWait (.ok ()) (Apart none K N) := by
    unfold Action.startupWait
    apply Yields.get_bind (g := if K.settings.startup_wait ≠ 0 then Action.sleep K.settings.startup_wait else pure ())
    · intro b hb
      rw [hb.settings]
    split
    · exact yields_sleep (fun b b' hb hmove => hb.env (.inl rfl) hmove) _
    · exact Yields.done fun b hb => hb
  apply Yields.bind hwait
  apply Yields.bind (Q := fun b : Bench => b.Apart none K N ∧ b.2.queue = [] ∧ b.2.producer = true) (a := ())
  · apply Yields.at_once
    intro b hb
    exact ⟨(b.1, b.2.opening), rfl, { hb with }, rfl, rfl⟩
  apply Yields.modify_bind (Q := fun b : Bench => b.Apart none { K with opened := true, wire := K.wire ++ [.opened K.transport.baud] } N ∧
    b.2.queue = [] ∧ b.2.producer = true)
  · intro b hb
    obtain ⟨hapart, hqueue, hproducer⟩ := hb
    have hlog := Session.core_log { b.1.toSession with opened := true } (e := Wire.opened b.1.transport.baud) rfl
    have hsession : ({ b.1.log (.opened b.1.transport.baud) with opened := true } : Device).toSession.core =
        { K with opened := true, wire := K.wire ++ [.opened K.transport.baud] } :=
      hlog.trans (congrArg (fun S : Session =>
        { S with opened := true, wire := S.wire ++ [Wire.opened S.transport.baud] }) hapart.session)
    exact ⟨{ hapart with session := hsession }, hqueue, hproducer⟩
  unfold Action.attach
  apply Yields.get_bind
  · intro b hb
    rw [hb.1.transport, hreplay]
  apply Yields.modify_bind (Q := Still { K with opened := true, wire := K.wire ++ [.opened K.transport.baud] } N)
  · intro b hb
    obtain ⟨hapart, hqueue, hproducer⟩ := hb
    exact { hapart with producer := hproducer, reader := .inl rfl, queue := hqueue }
  apply Yields.bind (Q := Still { K with opened := true, wire := K.wire ++ [.opened K.transport.baud] } N) (a := ())
  · exact Yields.change fun b hb => { hb with }
  apply Yields.get_bind (g := do
    Action.detect K.rates
    Action.identify)
  · intro b hb
    have hrates : Action.rates b.1 = K.rates := by
      unfold Session.rates Action.rates
      rw [hb.settings, hb.transport]
    rw [hrates]
  have hopen : Peers status { K with opened := true, wire := K.wire ++ [.opened K.transport.baud] } N :=
    h.of_settings rfl rfl h.unit
  apply Yields.bind (carries_detect hopen hunit hmem)
  have hidentify : Carries contour _ _ _ _ := carries_identify (K := { K with
      opened := true
      transport.baud := N.device_baud.baud
      info := some (N.deviceStatus unit)
      wire := K.wire ++ [.opened K.transport.baud] ++ searched N.device_baud.baud K.rates })
    (N := { N with baud := N.device_baud.baud }) (h.of_settings rfl rfl h.unit) rfl rfl rfl
  rw [List.append_assoc, List.append_assoc] at hidentify
  apply hidentify.mono
  · intro b hb
    rw [List.append_assoc] at hb
    exact hb
  · exact fun b hb => hb

end Connection

end Lms200
