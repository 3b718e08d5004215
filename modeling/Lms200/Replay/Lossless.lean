import Lms200.Replay.Recorder

/-!
# Replaying a recording

What a device hands on when it replays what was written: the same scans in the same order,
numbered from one, with their own time stamps.

The writer and the index agree on where a telegram begins and ends, a read never takes bytes of
two telegrams, and the framer is empty between telegrams. So the time stamp of the transport is
still that of the telegram which a read completes.
-/

namespace Lms200

open Resync

section Pieces

variable (t : Telegram)

theorem wire_size : 7 ≤ t.wire.length ∧ t.wire.length ≤ 814 := by
  have hlength := encode_length t.encode_eq
  have hlow := t.legal.1
  have hhigh := t.legal.2
  simp only [MAX_PAYLOAD] at hhigh
  omega

/-- A telegram which is not complete is waited for. -/
theorem front_incomplete {k : ℕ} (hpos : 0 < k) (hk : k < t.wire.length) :
    telegramFront (t.wire.take k) = .undecided := by
  have hwhole : telegramFront t.wire = .consume (t.wire.length - 1) (.frame t.wire) := by
    have hfront := (WireSegment.telegram t).front_bytes []
    rwa [List.append_nil] at hfront
  cases hfront : telegramFront (t.wire.take k) with
  | undecided => rfl
  | consume extra finding =>
    have hfits := telegramFront_fits hfront
    have hstable := telegramFront_stable (t.wire.drop k) hfront
    rw [List.take_append_drop, hwhole] at hstable
    obtain ⟨hextra, -⟩ := Verdict.consume.inj hstable
    rw [List.length_take] at hfits
    omega

/-- The bytes of a telegram come in order. -/
theorem take_slice {k m : ℕ} (h : k ≤ m) : t.wire.take k ++ slice t.wire k m = t.wire.take m := by
  have htake : t.wire.take k = (t.wire.take m).take k := by rw [List.take_take, min_eq_left h]
  rw [slice, htake, List.take_append_drop]

variable {f : Framer} {k m : ℕ}

/-- More of a telegram, but not all of it, is kept. -/
theorem feed_incomplete (hbuffer : f.buffer = t.wire.take k) (hpos : 0 < m) (hkm : k ≤ m)
    (hm : m < t.wire.length) :
    f.feed (slice t.wire k m) = ({}, { f with buffer := t.wire.take m }) := by
  have hpush : f.cursor.push (slice t.wire k m) = ⟨f.offset, t.wire.take m⟩ := by
    rw [Framer.cursor, Cursor.push, hbuffer, take_slice t hkm]
  rw [Framer.feed_eq, Lexer.feed, hpush,
    telegramLexer.run_of_undecided (c := ⟨f.offset, t.wire.take m⟩) (front_incomplete t hpos hm)]
  rfl

/-- The rest of a telegram completes it. -/
theorem feed_complete (hbuffer : f.buffer = t.wire.take k) (hk : k ≤ t.wire.length) :
    let fed := f.feed (slice t.wire k t.wire.length)
    fed.1.events.map Prod.snd = [.frame ⟨t.address, t.payload, t.wire⟩] ∧ fed.2.buffer = [] ∧
      fed.2.stats = { f.stats with frames := f.stats.frames + 1 } := by
  have hpush : f.cursor.push (slice t.wire k t.wire.length) = ⟨f.offset, t.wire⟩ := by
    rw [Framer.cursor, Cursor.push, hbuffer, take_slice t hk, List.take_length]
  obtain ⟨hcursor, hevents, hstats⟩ := run_segments [.telegram t] f.offset f.stats
  simp only [List.flatMap_cons, List.flatMap_nil, List.append_nil, WireSegment.bytes] at hcursor hevents hstats
  simp only [Framer.feed_eq, Lexer.feed, hpush]
  refine ⟨hevents, ?_, hstats⟩
  simp only [Framer.absorb, hcursor]

end Pieces

namespace Recorded

/-- The telegram index which the device keeps after the telegrams. -/
def lastIndex (last : Option UInt8) (recorded : List Recorded) : Option UInt8 :=
  (recorded.getLast?.map fun r => r.scan.telegram_index).getD last

theorem lastIndex_append (last : Option UInt8) (recorded : List Recorded) (r : Recorded) :
    lastIndex last (recorded ++ [r]) = r.scan.telegram_index := by
  simp [lastIndex]

theorem dropped_append (last : Option UInt8) (recorded : List Recorded) (r : Recorded) :
    dropped last (recorded ++ [r]) = dropped last recorded + gap (lastIndex last recorded) r.scan := by
  induction recorded generalizing last with
  | nil => simp [dropped, lastIndex]
  | cons head rest ih =>
    have hlast : lastIndex last (head :: rest) = lastIndex head.scan.telegram_index rest := by
      cases rest with
      | nil => rfl
      | cons next rest => simp [lastIndex, List.getLast?_eq_some_getLast]
    rw [List.cons_append, dropped, ih, dropped, hlast, add_assoc]

theorem renumbered_append (n : ℕ) (recorded : List Recorded) (r : Recorded) :
    renumbered n (recorded ++ [r]) = renumbered n recorded ++
      [(some r.timestamp, { r.scan with sequence := n + recorded.length + 1 })] := by
  induction recorded generalizing n with
  | nil => rfl
  | cons head rest ih =>
    rw [List.cons_append, renumbered, ih, renumbered, List.cons_append, List.length_cons,
      show n + 1 + rest.length = n + (rest.length + 1) by omega]

end Recorded

namespace Player

/-- What the device has made of the telegrams it has read completely. -/
structure Heard (first : Device) (done : List Recorded) (d : Device) : Prop where
  session : d.toSession = first.toSession
  running : ∃ last, d.reader = some (.running last)
  received : d.counters.received_scans = first.counters.received_scans + done.length
  malformed : d.counters.malformed = first.counters.malformed
  dropped : d.counters.dropped_scans =
    first.counters.dropped_scans + Recorded.dropped first.last_telegram_index done
  last : d.last_telegram_index = Recorded.lastIndex first.last_telegram_index done
  stats : d.framer.stats =
    { first.framer.stats with frames := first.framer.stats.frames + done.length }

section Delivery

variable {first d : Device} {done : List Recorded} {r : Recorded} {k m : ℕ}

theorem Heard.watchdog (h : Heard first done d) : Heard first done d.watchdog := by
  have hreader := d.watchdog_reader
  unfold Device.watchdog at hreader ⊢
  split
  · exact ⟨h.session, h.running, h.received, h.malformed, h.dropped, h.last, h.stats⟩
  · exact h

theorem watchdog_framer (d : Device) : d.watchdog.framer = d.framer := by
  unfold Device.watchdog
  split <;> rfl

/-- A piece of a telegram is kept for later. -/
theorem Heard.incomplete (h : Heard first done d) (hbuffer : d.framer.buffer = r.telegram.wire.take k)
    (hkm : k < m) (hm : m < r.telegram.wire.length) :
    let data := slice r.telegram.wire k m
    Heard first done (d.read (.data data)) ∧
      (d.read (.data data)).framer.buffer = r.telegram.wire.take m ∧
      d.handedAll ((d.framer.feed data).1.events.map Prod.snd) = [] := by
  intro data
  have hfeed : d.framer.feed data = _ := feed_incomplete r.telegram hbuffer (by omega) hkm.le hm
  have hdata : data ≠ [] := by
    refine List.length_pos_iff.mp ?_
    simp only [data, slice, List.length_drop, List.length_take]
    omega
  obtain ⟨last, hlast⟩ := h.running
  have hread : d.read (.data data) = ({ d with
      framer := { d.framer with buffer := r.telegram.wire.take m }
      reader := some (.running d.now) } : Device).watchdog := by
    simp only [Device.read, hlast, Device.readData, if_pos hdata, hfeed]
    rfl
  rw [hread, watchdog_framer]
  refine ⟨Heard.watchdog ?_, rfl, by rw [hfeed]; rfl⟩
  exact ⟨h.session, ⟨_, rfl⟩, h.received, h.malformed, h.dropped, h.last, h.stats⟩

/-- The last piece of a telegram hands its scan on. -/
theorem Heard.complete {info : DeviceStatus} {configuration : Configuration}
    (h : Heard first done d) (hbuffer : d.framer.buffer = r.telegram.wire.take k)
    (hk : k < r.telegram.wire.length)
    (haccepted : r.Accepted first.settings.address info configuration)
    (hinfo : first.info = some info) (hconfiguration : first.configuration = some configuration) :
    let data := slice r.telegram.wire k r.telegram.wire.length
    Heard first (done ++ [r]) (d.read (.data data)) ∧ (d.read (.data data)).framer.buffer = [] ∧
      d.handedAll ((d.framer.feed data).1.events.map Prod.snd) =
        [{ r.scan with sequence := first.counters.received_scans + done.length + 1 }] := by
  intro data
  obtain ⟨hevents, hempty, hstats⟩ := feed_complete r.telegram hbuffer hk.le
  have hevents : (d.framer.feed data).1.events.map Prod.snd = [.frame r.frame] := hevents
  have hdata : data ≠ [] := by
    refine List.length_pos_iff.mp ?_
    simp only [data, slice, List.length_drop, List.length_take]
    omega
  obtain ⟨last, hlast⟩ := h.running
  have hsession := h.session
  have hhanded : ∀ framer, ({ d with framer } : Device).handed (.frame r.frame) =
      some { r.scan with sequence := first.counters.received_scans + done.length + 1 } := by
    intro framer
    rw [← h.received]
    refine haccepted.handed (d := { d with framer }) ?_ ?_ ?_
    · exact congrArg (fun s : Session => s.settings.address) hsession
    · exact (congrArg Session.info hsession).trans hinfo
    · exact (congrArg Session.configuration hsession).trans hconfiguration
  have hall : d.handleAll (d.framer.feed data) =
      ({ d with framer := (d.framer.feed data).2 } : Device).keep
        { r.scan with sequence := first.counters.received_scans + done.length + 1 } := by
    rw [Device.handleAll, hevents, List.foldl_cons, List.foldl_nil, Device.handle_of_handed (hhanded _)]
  have hread : d.read (.data data) = ({ d.handleAll (d.framer.feed data) with
      reader := some (.running d.now) } : Device).watchdog := by
    have hpass : d.read (.data data) = d.readData last data := by simp only [Device.read, hlast]
    rw [hpass, Device.readData, if_pos hdata]
  rw [hread, hall, watchdog_framer]
  refine ⟨Heard.watchdog ?_, hempty, ?_⟩
  · refine ⟨hsession, ⟨_, rfl⟩, ?_, h.malformed, ?_, (Recorded.lastIndex_append _ _ _).symm, ?_⟩
    · rw [List.length_append]
      exact congrArg (· + 1) h.received
    · rw [Recorded.dropped_append, ← add_assoc, ← h.dropped, ← h.last]
      rfl
    · have hstats' : (d.framer.feed data).2.stats = _ := hstats
      rw [List.length_append]
      exact hstats'.trans (by rw [h.stats]; rfl)
  · rw [hevents]
    simp only [Device.handedAll]
    rw [hhanded d.framer]
    rfl

end Delivery

/-- The transport is between two telegrams. -/
structure Between (file : Bytes) (start : ℕ) (later : List Recorded) (tr : ReplayTransport) : Prop where
  file_eq : tr.file = some file
  position : tr.position = start
  index : tr.index = some (Recorded.entries start later)
  remaining : tr.remaining = 0

/-- The transport has read some bytes of a telegram, and its time stamp is the telegram's. -/
structure Midway (file : Bytes) (start : ℕ) (r : Recorded) (later : List Recorded) (k : ℕ)
    (tr : ReplayTransport) : Prop where
  file_eq : tr.file = some file
  position : tr.position = start + k
  inside : k < r.telegram.wire.length
  index : tr.index = some (Recorded.entries (start + r.telegram.wire.length) later)
  remaining : tr.remaining = (r.telegram.wire.length : ℤ) - k
  timestamp : tr.timestamp = some r.timestamp

/-- A read inside a telegram, which may complete it. -/
def Piece (file : Bytes) (start : ℕ) (r : Recorded) (later : List Recorded) (k : ℕ)
    (result : Except Error Bytes × ReplayTransport) : Prop :=
  ∃ m, k < m ∧ m ≤ r.telegram.wire.length ∧ result.1 = .ok (slice r.telegram.wire k m) ∧
    result.2.position = start + m ∧ result.2.timestamp = some r.timestamp ∧
    (m < r.telegram.wire.length → Midway file start r later m result.2) ∧
    (m = r.telegram.wire.length → Between file (start + m) later result.2)

section Reads

variable {file : Bytes} {start k : ℕ} {r : Recorded} {later : List Recorded} {tr : ReplayTransport}

/-- A read inside a telegram takes some of its bytes. -/
theorem Midway.nextBytes (h : Midway file start r later k tr)
    (hfile : ∀ k m, m ≤ r.telegram.wire.length →
      slice file (start + k) (start + m) = slice r.telegram.wire k m) :
    Piece file start r later k (tr.nextBytes file 4096) := by
  have hinside := h.inside
  have hremaining := h.remaining
  have hindexed : tr.index.isSome = true := by rw [h.index]; rfl
  obtain ⟨m, hm, hkm, hmax⟩ : ∃ m, tr.position + tr.amount 4096 = start + m ∧ k < m ∧
      m ≤ r.telegram.wire.length := by
    refine ⟨k + tr.amount 4096, by rw [h.position, add_assoc], ?_, ?_⟩
    all_goals
      rw [ReplayTransport.amount, if_pos hindexed]
      omega
  have hdata : slice file tr.position (tr.position + tr.amount 4096) = slice r.telegram.wire k m := by
    rw [hm, h.position]
    exact hfile k m hmax
  have hlength : (slice r.telegram.wire k m).length = m - k := by
    simp only [slice, List.length_drop, List.length_take]
    omega
  have hne : slice r.telegram.wire k m ≠ [] := List.length_pos_iff.mp (by omega)
  have hposition : tr.position + (m - k) = start + m := by
    rw [h.position]
    omega
  have hresult : tr.nextBytes file 4096 = (.ok (slice r.telegram.wire k m), { tr with
      position := tr.position + (m - k)
      remaining := tr.remaining - (m - k : ℕ) }) := by
    rw [ReplayTransport.nextBytes, hdata, if_neg hne, hlength]
    exact congrArg (Prod.mk _) (if_pos hindexed)
  rw [hresult]
  refine ⟨m, hkm, hmax, rfl, hposition, h.timestamp, fun hless => ?_, fun hall => ?_⟩
  · exact ⟨h.file_eq, hposition, hless, h.index, by dsimp only; omega, h.timestamp⟩
  · exact ⟨h.file_eq, hposition, by rw [hall]; exact h.index, by dsimp only; omega⟩

/-- A read inside a telegram needs no entry of the index. -/
theorem Midway.read (h : Midway file start r later k tr)
    (hfile : ∀ k m, m ≤ r.telegram.wire.length →
      slice file (start + k) (start + m) = slice r.telegram.wire k m) :
    Piece file start r later k (tr.read 4096) := by
  have hne : tr.remaining ≠ 0 := by
    have := h.inside
    have := h.remaining
    omega
  have hread : tr.read 4096 = tr.nextBytes file 4096 := by
    simp only [ReplayTransport.read, h.file_eq, ReplayTransport.nextEntry, if_neg hne]
  rw [hread]
  exact h.nextBytes hfile

/-- A read between telegrams takes the next entry, and begins its telegram. -/
theorem Between.read (h : Between file start (r :: later) tr)
    (hfile : ∀ k m, m ≤ r.telegram.wire.length →
      slice file (start + k) (start + m) = slice r.telegram.wire k m) :
    Piece file start r later 0 (tr.read 4096) := by
  obtain ⟨hlow, hhigh⟩ := wire_size r.telegram
  have hvalid : ¬ (¬ (1 ≤ (r.telegram.wire.length : ℤ) ∧ (r.telegram.wire.length : ℤ) ≤ 814) ∨
      (start : ℤ) ≠ tr.position) := by
    rw [h.position]
    omega
  have hread : tr.read 4096 = ({ tr with
      index := some (Recorded.entries (start + r.telegram.wire.length) later)
      remaining := r.telegram.wire.length
      timestamp := some r.timestamp } : ReplayTransport).nextBytes file 4096 := by
    simp only [ReplayTransport.read, h.file_eq, ReplayTransport.nextEntry, if_pos h.remaining, h.index,
      Recorded.entries, if_neg hvalid]
  rw [hread]
  exact Midway.nextBytes ⟨h.file_eq, h.position, by omega, rfl, (sub_zero _).symm, rfl⟩ hfile

/-- A read behind the last telegram ends the replay. -/
theorem Between.read_end (h : Between file file.length [] tr) :
    (tr.read 4096).1 = .error (.eof "Replay complete") := by
  simp only [ReplayTransport.read, h.file_eq, ReplayTransport.nextEntry, if_pos h.remaining, h.index,
    Recorded.entries, h.position, if_neg (lt_irrefl _)]

end Reads

/-- Where the transport and the framer are after the telegrams which were read completely. -/
inductive Place (recorded done : List Recorded) (p : Player) : Prop
  | between (later : List Recorded) (split : recorded = done ++ later)
      (transport : Between (Recorded.bytes recorded) (Recorded.bytes done).length later p.transport)
      (buffer : p.device.framer.buffer = [])
  | midway (r : Recorded) (later : List Recorded) (k : ℕ) (split : recorded = done ++ r :: later)
      (transport : Midway (Recorded.bytes recorded) (Recorded.bytes done).length r later k p.transport)
      (buffer : p.device.framer.buffer = r.telegram.wire.take k)

/-- The replay is on its way, after some telegrams. -/
structure Underway (first : Device) (recorded done : List Recorded) (p : Player) : Prop where
  heard : Heard first done p.device
  scans : p.scans = Recorded.renumbered first.counters.received_scans done
  place : Place recorded done p

/-- The replay has ended, after all telegrams. -/
structure Finished (first : Device) (recorded : List Recorded) (p : Player) : Prop where
  scans : p.scans = Recorded.renumbered first.counters.received_scans recorded
  reader : p.device.reader = some .ended
  state : p.device.state = .CONNECTED
  buffer : p.device.framer.buffer = []
  malformed : p.device.counters.malformed = first.counters.malformed
  dropped : p.device.counters.dropped_scans =
    first.counters.dropped_scans + Recorded.dropped first.last_telegram_index recorded
  stats : p.device.framer.stats =
    { first.framer.stats with frames := first.framer.stats.frames + recorded.length }

section Run

variable {first : Device} {recorded done : List Recorded} {p : Player} {info : DeviceStatus}
  {configuration : Configuration}

/-- The end of the reader does not count as a malformed or a dropped telegram. -/
theorem readerEnds_counters (d : Device) (e : Error) :
    (d.readerEnds e).counters.malformed = d.counters.malformed ∧
      (d.readerEnds e).counters.dropped_scans = d.counters.dropped_scans := by
  unfold Device.readerEnds Device.queue
  dsimp only
  split <;> exact ⟨rfl, rfl⟩

theorem Heard.tick {d : Device} (h : Heard first done d) (elapsed : ℚ≥0) :
    Heard first done (d.react (.tick elapsed)) :=
  ⟨h.session, h.running, h.received, h.malformed, h.dropped, h.last, h.stats⟩

/-- The bytes of a telegram of the recording. -/
theorem slice_bytes (r : Recorded) (later : List Recorded) (k m : ℕ) (hm : m ≤ r.telegram.wire.length) :
    slice (Recorded.bytes (done ++ r :: later)) ((Recorded.bytes done).length + k)
      ((Recorded.bytes done).length + m) = slice r.telegram.wire k m := by
  have hsplit : Recorded.bytes (done ++ r :: later) =
      Recorded.bytes done ++ (r.telegram.wire ++ Recorded.bytes later) := by
    simp [Recorded.bytes]
  rw [hsplit, slice, slice, List.take_length_add_append, List.drop_length_add_append,
    List.take_append_of_le_length hm]

theorem Underway.position_le (h : Underway first recorded done p) :
    p.transport.position ≤ (Recorded.bytes recorded).length := by
  cases h.place with
  | between later split transport buffer =>
    rw [transport.position, split]
    simp [Recorded.bytes]
  | midway r later k split transport buffer =>
    have hinside := transport.inside
    rw [transport.position, split]
    simp only [Recorded.bytes, List.flatMap_append, List.flatMap_cons, List.length_append]
    omega

/-- A read inside a telegram, or at the start of one, keeps the replay underway. -/
theorem Underway.piece (h : Underway first recorded done p) {r : Recorded} {later : List Recorded} {k : ℕ}
    (hsplit : recorded = done ++ r :: later) (hbuffer : p.device.framer.buffer = r.telegram.wire.take k)
    (hpiece : Piece (Recorded.bytes recorded) (Recorded.bytes done).length r later k (p.transport.read 4096))
    (haccepted : r.Accepted first.settings.address info configuration)
    (hinfo : first.info = some info) (hconfiguration : first.configuration = some configuration)
    (elapsed : ℚ≥0) :
    (∃ done', Underway first recorded done' (p.step elapsed)) ∧
      (p.step elapsed).transport.position > (Recorded.bytes done).length + k := by
  obtain ⟨m, hkm, hmax, hdata, hposition, htimestamp, hless, hall⟩ := hpiece
  obtain ⟨last, hlast⟩ := h.heard.running
  have hticked := h.heard.tick elapsed
  have hbuffer' : (p.device.react (.tick elapsed)).framer.buffer = r.telegram.wire.take k := hbuffer
  simp only [step, hlast, hdata, ReadResult.ofRead]
  rw [hposition]
  refine ⟨?_, by omega⟩
  rcases hmax.lt_or_eq with hm | hm
  · obtain ⟨hheard, hkept, hnone⟩ := hticked.incomplete hbuffer' hkm hm
    refine ⟨done, hheard, ?_, .midway r later m hsplit (hless hm) hkept⟩
    rw [hnone]
    exact (List.append_nil _).trans h.scans
  · subst hm
    obtain ⟨hheard, hkept, hscan⟩ :=
      hticked.complete hbuffer' hkm haccepted hinfo hconfiguration
    refine ⟨done ++ [r], hheard, ?_, .between later (by rw [hsplit, List.append_cons]) ?_ hkept⟩
    · rw [hscan, Recorded.renumbered_append, h.scans, htimestamp]
      rfl
    · have hsize : (Recorded.bytes (done ++ [r])).length =
          (Recorded.bytes done).length + r.telegram.wire.length := by
        simp [Recorded.bytes]
      rw [hsize]
      exact hall rfl

/-- A pass keeps the replay underway, or ends it after all telegrams. -/
theorem Underway.step (h : Underway first recorded done p)
    (haccepted : ∀ r ∈ recorded, r.Accepted first.settings.address info configuration)
    (hinfo : first.info = some info) (hconfiguration : first.configuration = some configuration)
    (hreplay : first.transport.replay.isSome = true) (elapsed : ℚ≥0) :
    (∃ done', Underway first recorded done' (p.step elapsed)) ∧
        p.transport.position < (p.step elapsed).transport.position ∨
      Finished first recorded (p.step elapsed) := by
  cases h.place with
  | between later split transport buffer =>
    cases later with
    | nil =>
      refine .inr ?_
      have hdone : recorded = done := split.trans (List.append_nil _)
      subst hdone
      have hread := transport.read_end
      obtain ⟨last, hlast⟩ := h.heard.running
      have hticked := h.heard.tick elapsed
      have hempty : (p.device.react (.tick elapsed)).framer.buffer = [] := buffer
      have hrunning : (p.device.react (.tick elapsed)).reader = some (.running last) := hlast
      have hreplaying : (p.device.react (.tick elapsed)).transport.replay.isSome = true := by
        rw [show (p.device.react (.tick elapsed)).transport = first.transport from
          congrArg Session.transport hticked.session]
        exact hreplay
      simp only [Player.step, hlast, hread, ReadResult.ofRead]
      generalize p.device.react (.tick elapsed) = d at hticked hempty hrunning hreplaying
      have heof : d.read .eof = (d.transition .CONNECTED).readerEnds (.eof "Transport ended") := by
        simp only [Device.read, hrunning, Device.readEof, if_pos hreplaying, if_pos hempty]
      rw [heof]
      obtain ⟨hreader, hstate, hframer, -⟩ :=
        readerEnds_fields (d.transition .CONNECTED) (.eof "Transport ended")
      have hcounters := readerEnds_counters (d.transition .CONNECTED) (.eof "Transport ended")
      exact {
        scans := (List.append_nil _).trans h.scans
        reader := hreader
        state := hstate
        buffer := (congrArg Framer.buffer hframer).trans hempty
        malformed := hcounters.1.trans hticked.malformed
        dropped := hcounters.2.trans hticked.dropped
        stats := (congrArg Framer.stats hframer).trans hticked.stats }
    | cons r later =>
      left
      have hpiece := transport.read fun k m hm => by
        rw [split]
        exact slice_bytes r later k m hm
      have hr := haccepted r (by rw [split]; simp)
      have hnext := h.piece split (buffer.trans List.take_zero.symm) hpiece hr hinfo hconfiguration elapsed
      exact ⟨hnext.1, by rw [transport.position]; exact hnext.2⟩
  | midway r later k split transport buffer =>
    left
    have hpiece := transport.read fun k m hm => by
      rw [split]
      exact slice_bytes r later k m hm
    have hr := haccepted r (by rw [split]; simp)
    have hnext := h.piece split buffer hpiece hr hinfo hconfiguration elapsed
    exact ⟨hnext.1, by rw [transport.position]; exact hnext.2⟩

theorem Finished.play (h : Finished first recorded p) (delays : List ℚ≥0) :
    Finished first recorded (p.play delays) := by
  rw [play_of_ended h.reader]
  exact h

/-- However long the reads take, the replay goes through all telegrams. -/
theorem Underway.play {delays : List ℚ≥0} (h : Underway first recorded done p)
    (haccepted : ∀ r ∈ recorded, r.Accepted first.settings.address info configuration)
    (hinfo : first.info = some info) (hconfiguration : first.configuration = some configuration)
    (hreplay : first.transport.replay.isSome = true)
    (hlong : (Recorded.bytes recorded).length - p.transport.position < delays.length) :
    Finished first recorded (p.play delays) := by
  induction delays generalizing done p with
  | nil => exact absurd hlong (Nat.not_lt_zero _)
  | cons elapsed delays ih =>
    rcases h.step haccepted hinfo hconfiguration hreplay elapsed with ⟨⟨done', hnext⟩, hmoved⟩ | hfinished
    · refine ih hnext ?_
      have hinside := hnext.position_le
      rw [List.length_cons] at hlong
      omega
    · exact hfinished.play delays

end Run

end Player

end Lms200
