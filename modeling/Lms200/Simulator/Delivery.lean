import Lms200.Simulator.Replies

/-!
# What is on its way to the client

Whatever the chunks in which the client reads, the bytes emitted and not yet read will give the same
events, since they are whole telegrams and control bytes behind what the framer holds. Scans among
them never reach the command which waits.

A `Scene` is what the bench looks like between two turns, up to the clock, the counters and the
scans: the events which are due are those queued and those still to be read. The clock, the reader
and the producer do not change the scene.
-/

namespace Lms200

open Coop

/-- The framer will find these events in the bytes on their way, and nothing will be left. -/
structure Coming (f : Framer) (queue : Bytes) (expected : List Event) : Prop where
  settled : telegramLexer.Settled f.cursor
  events : (f.feed queue).1.events.map Prod.snd = expected
  drained : (f.feed queue).2.buffer = []

/-- Bytes which arrive later extend what a call has found. -/
theorem Framer.feed_append (f : Framer) (first second : Bytes) :
    f.feed (first ++ second) =
      ((f.feed first).1.append ((f.feed first).2.feed second).1, ((f.feed first).2.feed second).2) := by
  have hcursor : (f.feed first).2.cursor = (telegramLexer.feed f.cursor first).2 := by
    rw [f.feed_eq]
    rfl
  rw [(f.feed first).2.feed_eq, hcursor, f.feed_eq, f.feed_eq]
  have hrun : telegramLexer.feed f.cursor (first ++ second) =
      ((telegramLexer.feed f.cursor first).1 ++
        (telegramLexer.feed (telegramLexer.feed f.cursor first).2 second).1,
        (telegramLexer.feed (telegramLexer.feed f.cursor first).2 second).2) := by
    rw [Resync.Lexer.feed, ← Resync.Cursor.push_push]
    exact telegramLexer.run_push _ second
  rw [hrun]
  simp only [emittedBy_append, absorb, FrameStats.recordAll_append]

namespace Coming

variable {f : Framer} {queue : Bytes} {expected : List Event}

/-- Nothing is on its way. -/
theorem fresh (h : f.buffer = []) : Coming f [] [] := by
  have hsettled : telegramLexer.Settled f.cursor := by
    change telegramLexer.front f.buffer = .undecided
    rw [h]
    exact telegramLexer.front_nil
  have hfeed : telegramLexer.feed f.cursor [] = ([], f.cursor) := by
    rw [Resync.Lexer.feed, Resync.Cursor.push_nil]
    exact telegramLexer.run_of_undecided hsettled
  refine ⟨hsettled, ?_, ?_⟩
  · rw [f.feed_eq, hfeed]
    rfl
  · rw [f.feed_eq, hfeed]
    exact h

/-- When all is read, nothing is left in the framer. -/
theorem idle (h : Coming f [] expected) : f.buffer = [] ∧ expected = [] := by
  have hfeed : telegramLexer.feed f.cursor [] = ([], f.cursor) := by
    rw [Resync.Lexer.feed, Resync.Cursor.push_nil]
    exact telegramLexer.run_of_undecided h.settled
  have hevents := h.events
  have hdrained := h.drained
  rw [f.feed_eq, hfeed] at hevents hdrained
  exact ⟨hdrained, hevents.symm⟩

/-- A chunk is read. -/
theorem read {first second : Bytes} (h : Coming f (first ++ second) expected) :
    ∃ later, expected = (f.feed first).1.events.map Prod.snd ++ later ∧ Coming (f.feed first).2 second later := by
  refine ⟨((f.feed first).2.feed second).1.events.map Prod.snd, ?_, ?_, rfl, ?_⟩
  · rw [← h.events, f.feed_append]
    exact List.map_append
  · rw [f.feed_eq]
    exact telegramLexer.run_settled _
  · rw [← h.drained, f.feed_append]

/-- One more telegram or control byte is emitted. -/
theorem emit (h : Coming f queue expected) (s : WireSegment) :
    Coming f (queue ++ s.bytes) (expected ++ s.event.toList) := by
  obtain ⟨hrest, hevents, -⟩ := run_segments [s] (f.feed queue).2.offset (f.feed queue).2.stats
  simp only [List.flatMap_cons, List.flatMap_nil, List.append_nil] at hrest hevents
  have hcursor : (f.feed queue).2.cursor.push s.bytes = ⟨(f.feed queue).2.offset, s.bytes⟩ := by
    change (⟨_, (f.feed queue).2.buffer ++ s.bytes⟩ : Resync.Cursor UInt8) = _
    rw [h.drained]
    rfl
  refine ⟨h.settled, ?_, ?_⟩
  · rw [f.feed_append, ← h.events, Framer.feed_eq (f.feed queue).2, Resync.Lexer.feed, hcursor]
    change ((f.feed queue).1.events ++ (emittedBy _).events).map Prod.snd = _
    rw [List.map_append, hevents]
    cases hevent : s.event with
    | none => rw [List.filterMap_cons_none hevent]; rfl
    | some e => rw [List.filterMap_cons_some hevent]; rfl
  · rw [f.feed_append, Framer.feed_eq (f.feed queue).2, Resync.Lexer.feed, hcursor]
    change (telegramLexer.run _).2.buffer = []
    rw [hrest]

end Coming

/-- What the client queues for an event, if anything. -/
def heardAs (address : ℕ) : Event → Option Incoming
  | .control c => some (.control c)
  | .frame f =>
    match response f address with
    | .ok r => if r.command = 0xB0 then none else some (.reply r)
    | .error _ => none

theorem heardAs_frame {address : ℕ} {f : Frame} {r : Response} (h : response f address = .ok r) :
    heardAs address (.frame f) = if r.command = 0xB0 then none else some (.reply r) := by
  unfold heardAs
  dsimp only
  rw [h]

/-- A control, or the telegram of a healthy scanner which has not been reset. -/
def Plain (address : ℕ) : Event → Prop
  | .control _ => True
  | .frame f => ∃ r, response f address = .ok r ∧ require_healthy r = .ok () ∧ r.command ≠ 0x90 ∧ r.command ≠ 0x91

/-- Two devices between which nothing happened to the call. -/
structure Undisturbed (d d' : Device) : Prop where
  session : d'.toSession = d.toSession
  pending : d'.pending = d.pending
  command_lock : d'.command_lock = d.command_lock

namespace Undisturbed

theorem refl (d : Device) : Undisturbed d d := ⟨rfl, rfl, rfl⟩

theorem trans {d d' d'' : Device} (h : Undisturbed d d') (h' : Undisturbed d' d'') : Undisturbed d d'' :=
  ⟨h'.session.trans h.session, h'.pending.trans h.pending, h'.command_lock.trans h.command_lock⟩

end Undisturbed

namespace Device

variable {address : ℕ}

/-- A queue with room takes the event. -/
theorem queue_appends {d : Device} (hroom : d.events.length < 64) (event : Incoming) :
    (d.queue event).events.map Prod.snd = d.events.map Prod.snd ++ [event] ∧ Undisturbed d (d.queue event) ∧
      (d.queue event).framer = d.framer := by
  unfold queue
  rw [if_neg (by omega)]
  exact ⟨List.map_append, ⟨rfl, rfl, rfl⟩, rfl⟩

/-- A scan of a healthy scanner queues nothing, whether it can be decoded or not. -/
theorem measure_quiet (d : Device) {r : Response} (h : require_healthy r = .ok ()) :
    (d.measure r).events = d.events ∧ Undisturbed d (d.measure r) ∧ (d.measure r).framer = d.framer := by
  unfold measure
  split
  · next configuration info _ _ =>
    have hscan : ∀ m, d.scanOf info configuration r ≠ .error (.device m) := by
      intro m hm
      unfold scanOf at hm
      cases hdecoded : decode_scan r info.angle info.resolution configuration (d.counters.received_scans + 1) with
      | error e =>
        rw [hdecoded] at hm
        cases hm
        exact Bool.false_ne_true (decode_scan_rejects _ _ _ _ _ _ hdecoded)
      | ok scan =>
        rw [hdecoded] at hm
        change (require_healthy r >>= fun _ => pure scan) = _ at hm
        rw [h] at hm
        cases hm
    split
    · exact ⟨rfl, ⟨rfl, rfl, rfl⟩, rfl⟩
    · next m hm => exact absurd hm (hscan m)
    · exact ⟨rfl, ⟨rfl, rfl, rfl⟩, rfl⟩
  · exact ⟨rfl, Undisturbed.refl d, rfl⟩

/-- An event of a healthy scanner queues what it is heard as. -/
theorem handle_plain {d : Device} {e : Event} (hplain : Plain address e) (haddress : d.settings.address = address)
    (hroom : d.events.length < 64) :
    (d.handle e).events.map Prod.snd = d.events.map Prod.snd ++ (heardAs address e).toList ∧
      Undisturbed d (d.handle e) ∧ (d.handle e).framer = d.framer := by
  cases e with
  | control c => exact queue_appends hroom _
  | frame f =>
    obtain ⟨r, hr, hhealthy, hstart, hreset⟩ := hplain
    unfold handle
    dsimp only
    rw [haddress, hr, heardAs_frame hr]
    dsimp only
    split
    · next hscan =>
      obtain ⟨hevents, hquiet, hframer⟩ := d.measure_quiet hhealthy
      exact ⟨by rw [hevents]; simp, hquiet, hframer⟩
    · next hother =>
      rw [if_neg (not_or.mpr ⟨hstart, hreset⟩)]
      exact queue_appends hroom _

/-- The events of one read, handled in order. -/
theorem foldl_handle {events : List Event} {d : Device} (hplain : ∀ e ∈ events, Plain address e)
    (haddress : d.settings.address = address)
    (hroom : d.events.length + (events.filterMap (heardAs address)).length < 64) :
    (events.foldl handle d).events.map Prod.snd = d.events.map Prod.snd ++ events.filterMap (heardAs address) ∧
      Undisturbed d (events.foldl handle d) ∧ (events.foldl handle d).framer = d.framer := by
  induction events generalizing d with
  | nil => simpa using Undisturbed.refl d
  | cons e rest ih =>
    have hsplit : (e :: rest).filterMap (heardAs address) =
        (heardAs address e).toList ++ rest.filterMap (heardAs address) := by
      cases h : heardAs address e <;> simp [h]
    rw [hsplit, List.length_append] at hroom
    obtain ⟨hevents, hquiet, hframer⟩ := handle_plain (hplain e List.mem_cons_self) haddress (by omega)
    have hlength : (d.handle e).events.length = d.events.length + (heardAs address e).toList.length := by
      rw [← List.length_map Prod.snd, hevents, List.length_append, List.length_map]
    have haddress' : (d.handle e).settings.address = address := by
      rw [← haddress]
      exact congrArg (fun S : Session => S.settings.address) hquiet.session
    obtain ⟨hevents', hquiet', hframer'⟩ := ih (fun e' he' => hplain e' (List.mem_cons_of_mem _ he')) haddress'
      (by omega)
    refine ⟨?_, hquiet.trans hquiet', hframer'.trans hframer⟩
    rw [List.foldl_cons, hevents', hevents, hsplit, List.append_assoc]

theorem watchdog_quiet (d : Device) : d.watchdog.events = d.events ∧ Undisturbed d d.watchdog ∧
    d.watchdog.framer = d.framer ∧ d.watchdog.reader = d.reader := by
  unfold watchdog
  split
  · exact ⟨rfl, ⟨rfl, rfl, rfl⟩, rfl, rfl⟩
  · exact ⟨rfl, Undisturbed.refl d, rfl, rfl⟩

end Device

/-- What the bench looks like, up to the clock, the counters and the scans. -/
structure Scene where
  session : Session
  scanner : Scanner
  lock : Option ℕ := none
  due : List Incoming := []
  requests : List Event := []
  reply : Option (Bytes × Option Rate) := none

/-- A bench which looks like this, with its reader and its producer at work. -/
structure Scene.Shows (x : Scene) (b : Bench) : Prop where
  session : b.1.toSession = x.session
  lock : b.1.command_lock = x.lock
  scanner : b.2.toScanner = x.scanner
  nak_next : b.2.nak_next = 0
  silence_next : b.2.silence_next = 0
  omit_ack : b.2.omit_ack = false
  incoming : b.2.incoming.buffer = []
  requests : b.2.requests = x.requests
  reply : b.2.reply = x.reply
  producer : b.2.producer = true
  reader : b.1.reader = some .created ∨ ∃ last_bytes, b.1.reader = some (.running last_bytes)
  coming : ∃ expected, Coming b.1.framer b.2.queue expected ∧
    (∀ e ∈ expected, Plain x.session.settings.address e) ∧
    b.1.events.map Prod.snd ++ expected.filterMap (heardAs x.session.settings.address) = x.due

/-- A scene with a healthy scanner, whose client uses an address of the simulator. -/
structure Scene.Sound (status : StatusByte) (x : Scene) : Prop where
  status : x.scanner.status = status.raw
  unit : ∃ unit, x.scanner.config.unit = .ok unit
  address : x.session.settings.address ≤ 1
  due : x.due.length ≤ 2

/-- The telegram of a scan. -/
theorem Simulator.scanPayload_legal (contour : Contour) (s : Simulator) (unit : DistanceUnit) :
    1 ≤ (s.scanPayload contour unit).length ∧ (s.scanPayload contour unit).length ≤ MAX_PAYLOAD := by
  obtain ⟨-, -, hcount⟩ := geometry_lt s.geometry
  have hdistances : ((List.range (s.angle * 100 / s.resolution + 1)).flatMap fun index =>
      toBytesLittle (contour s.angle s.resolution unit s.telegram_index index).toNat).length =
        (s.angle * 100 / s.resolution + 1) * 2 := by
    simp [List.length_flatMap, toBytesLittle]
  have hindices : (if s.config.indices then [UInt8.ofNat s.scan_index, UInt8.ofNat s.telegram_index] else []).length ≤ 2 := by
    split <;> simp
  simp only [scanPayload, List.length_cons, List.length_append, hdistances, MAX_PAYLOAD]
  simp only [toBytesLittle, List.length_cons, List.length_nil]
  omega

/-- A telegram, as it is emitted and received. -/
theorem exists_segment {address : UInt8} {payload telegram : Bytes}
    (h : encode payload address.toNat = .ok telegram) :
    ∃ s : WireSegment, s.bytes = telegram ∧ s.event = some (.frame ⟨address, payload, telegram⟩) := by
  have hlegal := ((encode_eq_ok_iff payload address telegram).mp h).1
  have hwire : (⟨address, payload, hlegal⟩ : Telegram).wire = telegram :=
    Except.ok.inj ((Telegram.encode_eq ⟨address, payload, hlegal⟩).symm.trans h)
  exact ⟨.telegram ⟨address, payload, hlegal⟩, hwire, by rw [← hwire]; rfl⟩

namespace Scene

variable {status : StatusByte} {x : Scene} {b b' : Bench}

/-- One more telegram or control byte is emitted. -/
theorem Shows.emitted (h : x.Shows b) (segment : WireSegment)
    (hplain : ∀ e ∈ segment.event.toList, Plain x.session.settings.address e) :
    ({ x with due := x.due ++ segment.event.toList.filterMap (heardAs x.session.settings.address) } : Scene).Shows
      (b.1, b.2.emit segment.bytes) := by
  obtain ⟨expected, hcoming, hearlier, hdue⟩ := h.coming
  refine { h with coming := ⟨expected ++ segment.event.toList, hcoming.emit segment, ?_, ?_⟩ }
  · intro e he
    rcases List.mem_append.mp he with hfirst | hnew
    · exact hearlier e hfirst
    · exact hplain e hnew
  · rw [List.filterMap_append, ← List.append_assoc, hdue]

/-- A control byte is emitted. -/
theorem Shows.control (h : x.Shows b) (c : Control) :
    ({ x with due := x.due ++ [.control c] } : Scene).Shows (b.1, b.2.emit [c.byte]) := by
  apply h.emitted (.control c)
  intro e he
  rw [List.mem_singleton.mp he]
  trivial

/-- A reply is emitted. -/
theorem Shows.replied (h : x.Shows b) (hstatus : Healthy status) (hx : x.Sound status) {command : UInt8} {data wire : Bytes}
    (hwire : encode (command :: data ++ [status.raw]) 0x81 = .ok wire)
    (hknown : command ∈ ([0xB1, 0xBA, 0xF4, 0xA0, 0xBB, 0xF7] : Bytes)) :
    ({ x with due := x.due ++ [.reply (replyOf status (command :: data))] } : Scene).Shows (b.1, b.2.emit wire) := by
  have hcodes : ¬ command < 0x80 ∧ command ≠ 0x92 ∧ command ≠ 0xB0 ∧ command ≠ 0x90 ∧ command ≠ 0x91 := by
    simp only [List.mem_cons, List.not_mem_nil, or_false] at hknown
    rcases hknown with rfl | rfl | rfl | rfl | rfl | rfl <;> decide
  obtain ⟨hlarge, hrejection, hscan, hstart, hreset⟩ := hcodes
  have hresponse := hstatus.response_eq hwire hlarge hrejection hx.address
  have hheard : heardAs x.session.settings.address (.frame ⟨0x81, command :: data ++ [status.raw], wire⟩) =
      some (.reply (replyOf status (command :: data))) := by
    rw [heardAs_frame hresponse, replyOf_command, if_neg hscan]
  obtain ⟨segment, hbytes, hevent⟩ := exists_segment (show encode _ (0x81 : UInt8).toNat = .ok _ from hwire)
  have hemitted := h.emitted segment
  rw [hevent, Option.toList_some, List.filterMap_cons_some hheard, List.filterMap_nil, hbytes] at hemitted
  apply hemitted
  intro e he
  rw [List.mem_singleton.mp he]
  exact ⟨_, hresponse, hstatus.require, hstart, hreset⟩

/-- A scan is emitted which the waiting command does not hear of. -/
theorem Shows.produce (hstatus : Healthy status) (hx : x.Sound status) (h : x.Shows b) {contour : Contour}
    {raw : Bytes} {s : Simulator} (hscan : b.2.scan_bytes contour = .ok (raw, s)) : x.Shows (b.1, s.emit raw) := by
  obtain ⟨unit, hunit⟩ := hx.unit
  have hraw : b.2.status = status.raw := (congrArg Scanner.status h.scanner).trans hx.status
  unfold Simulator.scan_bytes at hscan
  have hknown : b.2.config.unit = .ok unit := (congrArg (fun M : Scanner => M.config.unit) h.scanner).trans hunit
  obtain ⟨found, hfound, hscan⟩ := bind_eq_ok.mp hscan
  obtain ⟨telegram, hencode, heq⟩ := bind_eq_ok.mp hscan
  cases hknown.symm.trans hfound
  cases heq
  have hwire : encode (b.2.scanPayload contour unit) 0x81 = .ok raw := by
    cases hencoded : encode (b.2.scanPayload contour unit) 0x81 with
    | error m =>
      rw [hencoded] at hencode
      cases hencode
    | ok wire =>
      rw [hencoded] at hencode
      cases hencode
      rfl
  have hresponse : ∃ data, response ⟨0x81, b.2.scanPayload contour unit, raw⟩ x.session.settings.address =
      .ok (replyOf status (0xB0 :: data)) := by
    have hpayload : ∃ data, b.2.scanPayload contour unit = 0xB0 :: data ++ [status.raw] := by
      unfold Simulator.scanPayload
      rw [hraw]
      exact ⟨_, rfl⟩
    obtain ⟨data, hdata⟩ := hpayload
    rw [hdata] at hwire ⊢
    exact ⟨data, hstatus.response_eq hwire (by decide) (by decide) hx.address⟩
  obtain ⟨data, hresponse⟩ := hresponse
  have hheard : heardAs x.session.settings.address (.frame ⟨0x81, b.2.scanPayload contour unit, raw⟩) = none := by
    rw [heardAs_frame hresponse, replyOf_command, if_pos rfl]
  obtain ⟨segment, hbytes, hevent⟩ := exists_segment (show encode _ (0x81 : UInt8).toNat = .ok _ from hwire)
  have hemitted := h.emitted segment
  rw [hevent, Option.toList_some, List.filterMap_cons_none hheard, List.filterMap_nil, List.append_nil, hbytes] at hemitted
  have hshown : x.Shows (b.1, b.2.emit raw) := by
    apply hemitted
    intro e he
    rw [List.mem_singleton.mp he]
    exact ⟨_, hresponse, hstatus.require, by simp, by simp⟩
  exact { hshown with }

/-- A chunk is read and handled. -/
theorem Shows.read (hx : x.Sound status) (h : x.Shows b) {last_bytes : ℚ}
    (hreader : b.1.reader = some (.running last_bytes)) {size : ℕ} (hsize : size ≠ 0) :
    x.Shows (b.1.react (.read (.data (b.2.queue.take size))), { b.2 with queue := b.2.queue.drop size }) ∧
      (b.1.react (.read (.data (b.2.queue.take size)))).pending = b.1.pending := by
  obtain ⟨expected, hcoming, hplain, hdue⟩ := h.coming
  have hstart : b.1.react (.read (.data (b.2.queue.take size))) =
      b.1.readData last_bytes (b.2.queue.take size) := by
    change b.1.read _ = _
    unfold Device.read
    rw [hreader]
  rw [hstart]
  unfold Device.readData
  by_cases hempty : b.2.queue = []
  · -- an idle read finds the framer empty
    have hbuffer : b.1.framer.buffer = [] := by
      rw [hempty] at hcoming
      exact hcoming.idle.1
    obtain ⟨hevents, hquiet, hframer, hreads⟩ := b.1.watchdog_quiet
    rw [hempty, List.take_nil, List.drop_nil, if_neg (not_not.mpr rfl), if_neg (fun hc => hc.1 hbuffer)]
    refine ⟨{ h with
      session := hquiet.session.trans h.session
      lock := hquiet.command_lock.trans h.lock
      reader := .inr ⟨last_bytes, hreads.trans hreader⟩
      coming := ⟨expected, ?_, hplain, ?_⟩ }, hquiet.pending⟩
    · rw [hframer]
      rw [hempty] at hcoming
      exact hcoming
    · rw [hevents]
      exact hdue
  · have hchunk : b.2.queue.take size ≠ [] := by
      simp only [ne_eq, List.take_eq_nil_iff, not_or]
      exact ⟨hsize, hempty⟩
    rw [if_pos hchunk]
    rw [← List.take_append_drop size b.2.queue] at hcoming
    obtain ⟨later, heq, hlater⟩ := hcoming.read
    subst heq
    rw [List.filterMap_append] at hdue
    have hroom : b.1.events.length + (((b.1.framer.feed (b.2.queue.take size)).1.events.map Prod.snd).filterMap
        (heardAs x.session.settings.address)).length < 64 := by
      have hlength := congrArg List.length hdue
      have hbound := hx.due
      simp only [List.length_append, List.length_map] at hlength
      omega
    have haddress : ({ b.1 with framer := (b.1.framer.feed (b.2.queue.take size)).2 } : Device).settings.address =
        x.session.settings.address := congrArg (fun S : Session => S.settings.address) h.session
    obtain ⟨hevents, hquiet, hframer⟩ := Device.foldl_handle
      (d := { b.1 with framer := (b.1.framer.feed (b.2.queue.take size)).2 })
      (fun e he => hplain e (List.mem_append_left _ he)) haddress hroom
    obtain ⟨hevents', hquiet', hframer', hreads'⟩ := Device.watchdog_quiet
      { b.1.handleAll (b.1.framer.feed (b.2.queue.take size)) with reader := some (.running b.1.now) }
    refine ⟨{ h with
      session := hquiet'.session.trans (hquiet.session.trans h.session)
      lock := hquiet'.command_lock.trans (hquiet.command_lock.trans h.lock)
      reader := .inr ⟨b.1.now, hreads'⟩
      coming := ⟨later, ?_, fun e he => hplain e (List.mem_append_right _ he), ?_⟩ },
      hquiet'.pending.trans hquiet.pending⟩
    · rw [hframer']
      change Coming (List.foldl Device.handle _ _).framer _ _
      rw [hframer]
      exact hlater
    · rw [hevents']
      change (List.foldl Device.handle _ _).events.map Prod.snd ++ _ = _
      rw [hevents, List.append_assoc]
      exact hdue

/-- The clock, the reader and the producer change neither the scene nor the wait. -/
theorem Shows.env (hstatus : Healthy status) (hx : x.Sound status) (h : x.Shows b) {contour : Contour}
    (hmove : Bench.env contour b b') : x.Shows b' ∧ b'.1.pending = b.1.pending := by
  obtain ⟨d, s⟩ := b
  obtain ⟨input, hmove⟩ := hmove
  cases input with
  | tick elapsed =>
    cases hmove
    exact ⟨{ h with }, rfl⟩
  | begin =>
    cases hmove
    change x.Shows (if d.reader = some .created then _ else _, s) ∧
      (if d.reader = some .created then _ else d).pending = d.pending
    split
    · exact ⟨{ h with reader := .inr ⟨d.now, rfl⟩ }, rfl⟩
    · exact ⟨h, rfl⟩
  | read size =>
    unfold Bench.react at hmove
    dsimp only at hmove
    split at hmove
    · cases hmove
    · next hreading =>
      obtain ⟨hreading, hsize⟩ := not_or.mp hreading
      rw [if_neg (not_not.mpr h.producer)] at hmove
      cases hmove
      have hrunning : ∃ last_bytes, d.reader = some (.running last_bytes) := by
        rcases h.reader with hcreated | hrunning
        · exact absurd (show ¬ Bench.reading d = true by unfold Bench.reading; rw [hcreated]; simp) hreading
        · exact hrunning
      obtain ⟨last_bytes, hrunning⟩ := hrunning
      exact h.read hx hrunning hsize
  | produce =>
    unfold Bench.react at hmove
    dsimp only at hmove
    split at hmove
    · split at hmove
      · next hscan =>
        cases hmove
        exact ⟨h.produce hstatus hx hscan, rfl⟩
      · cases hmove
    · cases hmove

end Scene

end Lms200
