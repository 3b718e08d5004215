import Lms200.Protocol.Telegram

/-!
# Telegrams survive encoding, chunking and decoding

A stream built from controls, noise and encoded telegrams is decoded segment by segment: the
framer is at a segment boundary whenever it has consumed the segments before it, so the STX,
ACK and NAK values inside a payload are never looked at on their own. Conversely every frame
the framer ever emits is the encoding of its payload and address.
-/

namespace Lms200

open Resync

/-- A payload which fits one telegram, with the address it is sent under. -/
structure Telegram where
  address : UInt8
  payload : Bytes
  legal : 1 ≤ payload.length ∧ payload.length ≤ MAX_PAYLOAD

/-- The encoded telegram. -/
def Telegram.wire (t : Telegram) : Bytes :=
  match encode t.payload t.address.toNat with
  | .ok wire => wire
  | .error _ => []

/-- A legal payload always encodes. -/
theorem Telegram.encode_eq (t : Telegram) : encode t.payload t.address.toNat = .ok t.wire := by
  have h := (encode_eq_ok_iff t.payload t.address _).mpr ⟨t.legal, rfl⟩
  simp only [Telegram.wire, h]

/-- One piece of a well-formed stream. -/
inductive WireSegment where
  | control (c : Control)
  | noise (b : UInt8) (h : b ≠ 0x02 ∧ b ≠ 0x06 ∧ b ≠ 0x15)
  | telegram (t : Telegram)

namespace WireSegment

/-- The bytes of a segment. -/
def bytes : WireSegment → Bytes
  | control c => [c.byte]
  | noise b _ => [b]
  | telegram t => t.wire

/-- The event a segment should be received as. -/
def event : WireSegment → Option Event
  | control c => some (.control c)
  | noise _ _ => none
  | telegram t => some (.frame ⟨t.address, t.payload, t.wire⟩)

/-- The segment is an encoded telegram. -/
def isTelegram : WireSegment → Bool
  | telegram _ => true
  | _ => false

/-- The segment is a noise byte. -/
def isNoise : WireSegment → Bool
  | noise _ _ => true
  | _ => false

/-- What the framing loop finds at the start of a segment. -/
def finding : WireSegment → Finding
  | control c => .control c
  | noise _ _ => .noise
  | telegram t => .frame t.wire

theorem bytes_length_pos (s : WireSegment) : 0 < s.bytes.length := by
  cases s with
  | control c => simp [bytes]
  | noise b h => simp [bytes]
  | telegram t =>
    simp only [bytes, encode_length t.encode_eq]
    omega

/-- At a segment boundary the framing loop consumes exactly the segment. -/
theorem front_bytes (s : WireSegment) (later : Bytes) :
    telegramFront (s.bytes ++ later) = .consume (s.bytes.length - 1) s.finding := by
  cases s with
  | control c => cases c <;> rfl
  | noise b h =>
    have hnone : Control.ofByte b = none := by
      rw [Control.ofByte, if_neg h.2.1, if_neg h.2.2]
    simp [telegramFront, bytes, finding, hnone, STX, h.1]
  | telegram t =>
    have hfound : telegramAt (t.wire ++ later) = some ⟨t.address, t.payload, t.wire⟩ :=
      (telegramAt_eq_some_iff _ _).mpr ⟨t.encode_eq, List.prefix_append _ _⟩
    refine (telegramFront_eq_frame_iff _ _ _).mpr ⟨?_, ?_⟩
    · exact hfound.trans (congrArg some (telegramAt_ofRaw hfound).symm)
    · have := bytes_length_pos (telegram t)
      simp only [bytes] at this ⊢
      omega

/-- An accepted segment is received as its own event. -/
theorem finding_events (s : WireSegment) (offset : ℕ) :
    (s.finding.emitted offset).events.map Prod.snd = s.event.toList := by
  cases s with
  | control c => rfl
  | noise b h => rfl
  | telegram t =>
    have hfound : telegramAt t.wire = some ⟨t.address, t.payload, t.wire⟩ :=
      (telegramAt_eq_some_iff _ _).mpr ⟨t.encode_eq, List.prefix_refl _⟩
    simp [finding, Finding.emitted, event, telegramAt_ofRaw hfound]

end WireSegment

/-- A stream of segments is consumed completely, one token for each segment. -/
theorem run_segments (segments : List WireSegment) (offset : ℕ) (stats : FrameStats) :
    let stream := segments.flatMap WireSegment.bytes
    let received := telegramLexer.run ⟨offset, stream⟩
    received.2 = ⟨offset + stream.length, []⟩ ∧
      (emittedBy received.1).events.map Prod.snd = segments.filterMap WireSegment.event ∧
      stats.recordAll received.1 =
        { stats with
          frames := stats.frames + segments.countP WireSegment.isTelegram
          noise_bytes := stats.noise_bytes + segments.countP WireSegment.isNoise } := by
  induction segments generalizing offset stats with
  | nil =>
    simp only [List.flatMap_nil]
    rw [telegramLexer.run_of_undecided telegramLexer.front_nil]
    exact ⟨rfl, rfl, rfl⟩
  | cons s rest ih =>
    simp only [List.flatMap_cons]
    have hfront : telegramLexer.front (s.bytes ++ rest.flatMap WireSegment.bytes) = _ := s.front_bytes _
    have hsize : s.bytes.length - 1 + 1 = s.bytes.length := Nat.succ_pred_eq_of_pos s.bytes_length_pos
    rw [telegramLexer.run_of_consume hfront, hsize]
    simp only [Cursor.skip, List.drop_left]
    obtain ⟨hrest, hevents, hstats⟩ := ih (offset + s.bytes.length) (stats.record s.finding)
    refine ⟨?_, ?_, ?_⟩
    · rw [hrest, List.length_append, Nat.add_assoc]
    · rw [emittedBy, Emitted.append, List.map_append, hevents, s.finding_events]
      cases hs : s.event <;> simp [hs]
    · refine Eq.trans hstats ?_
      cases s <;>
        simp [WireSegment.finding, FrameStats.record, WireSegment.isTelegram, WireSegment.isNoise,
          List.countP_cons] <;> omega

/-- Calls a reader makes on its framer. -/
inductive Framer.Call where
  | feed (data : Bytes)
  | expire
  | reset

/-- One call, with what it returns. -/
def Framer.call (f : Framer) : Framer.Call → Emitted × Framer
  | .feed data => f.feed data
  | .expire => f.expire
  | .reset => ({}, f.reset)

/-- Calls in order, keeping everything emitted. -/
def Framer.calls : Framer → List Framer.Call → Emitted × Framer
  | f, [] => ({}, f)
  | f, c :: rest =>
    let now := f.call c
    let later := calls now.2 rest
    (now.1.append later.1, later.2)

/-- Every frame of a run is the encoding of its payload and address. -/
theorem run_frame_encoded (c : Cursor UInt8) {offset : ℕ} {f : Frame}
    (h : (offset, Event.frame f) ∈ (emittedBy (telegramLexer.run c).1).events) :
    encode f.payload f.address.toNat = .ok f.raw := by
  generalize hr : (telegramLexer.run c).1 = tokens at h
  have hdecision : ∀ t ∈ tokens, ∃ suffix, telegramFront suffix = .consume (t.width - 1) t.finding :=
    fun t ht => ⟨_, telegramLexer.run_decision c (hr ▸ ht)⟩
  clear hr
  induction tokens with
  | nil => simp [emittedBy] at h
  | cons t rest ih =>
    rw [emittedBy, Emitted.append, List.mem_append] at h
    rcases h with h | h
    · obtain ⟨suffix, hsuffix⟩ := hdecision t List.mem_cons_self
      cases hfinding : t.finding with
      | frame raw =>
        rw [hfinding] at h hsuffix
        obtain ⟨-, hf⟩ := Prod.mk.inj (List.mem_singleton.mp h)
        obtain rfl := Event.frame.inj hf
        have hat := ((telegramFront_eq_frame_iff _ _ _).mp hsuffix).1
        exact ((telegramAt_eq_some_iff _ _).mp hat).1
      | _ => simp [hfinding, Finding.emitted] at h
    · exact ih h fun u hu => hdecision u (List.mem_cons_of_mem _ hu)

/-- Every frame emitted by any sequence of calls is the encoding of its payload and address. -/
theorem calls_frame_encoded (f : Framer) (calls : List Framer.Call) {offset : ℕ} {frame : Frame}
    (h : (offset, Event.frame frame) ∈ (f.calls calls).1.events) :
    encode frame.payload frame.address.toNat = .ok frame.raw := by
  induction calls generalizing f with
  | nil => simp [Framer.calls] at h
  | cons c rest ih =>
    rw [Framer.calls, Emitted.append, List.mem_append] at h
    rcases h with h | h
    · have hfeed : ∀ (g : Framer) data, (offset, Event.frame frame) ∈ (g.feed data).1.events →
          encode frame.payload frame.address.toNat = .ok frame.raw := by
        intro g data hg
        rw [Framer.feed_eq] at hg
        exact run_frame_encoded _ hg
      cases c with
      | feed data => exact hfeed f data h
      | expire =>
        simp only [Framer.call, Framer.expire] at h
        split at h
        · simp at h
        · exact hfeed _ _ h
      | reset => simp [Framer.call] at h
    · exact ih _ h

/-- Encoding and framing are inverse on the whole wire format, whatever the chunks. -/
theorem encode_feed_roundTrip :
    (∀ (segments : List WireSegment) (chunks : List Bytes),
      chunks.flatten = segments.flatMap WireSegment.bytes →
      let received := ({} : Framer).feedAll chunks
      received.1.events.map Prod.snd = segments.filterMap WireSegment.event ∧
        received.2.buffer = [] ∧
        received.2.stats =
          { frames := segments.countP WireSegment.isTelegram, noise_bytes := segments.countP WireSegment.isNoise,
            crc_errors := 0, invalid_lengths := 0, truncated_frames := 0 }) ∧
    (∀ (calls : List Framer.Call) (offset : ℕ) (f : Frame),
      (offset, Event.frame f) ∈ (({} : Framer).calls calls).1.events →
      encode f.payload f.address.toNat = .ok f.raw) := by
  refine ⟨?_, fun calls offset f h => calls_frame_encoded {} calls h⟩
  intro segments chunks h
  have hrun := run_segments segments 0 {}
  have hpush : ({} : Framer).cursor.push chunks.flatten = ⟨0, segments.flatMap WireSegment.bytes⟩ := by
    simp [Framer.cursor, Cursor.push, h]
  simp only [Framer.feedAll_eq_feed, Framer.feed_eq, Lexer.feed, hpush, Framer.absorb]
  obtain ⟨hcursor, hevents, hstats⟩ := hrun
  refine ⟨hevents, by rw [hcursor], ?_⟩
  simpa using hstats

/-- The documented A0 reply to an operating-mode command. -/
def modeResponse : Telegram := ⟨0x81, [0xA0, 0x00, 0x10], by decide⟩

/-- An ACK, a noise byte and an A0 reply, cut inside the reply's header. -/
theorem encode_feed_roundTrip_modeResponse :
    (({} : Framer).feedAll
        [[0x06, 0x55, 0x02], [0x81, 0x03, 0x00, 0xA0, 0x00, 0x10, 0x36, 0x1A]]).1.events.map Prod.snd =
      [.control .ACK, .frame ⟨0x81, [0xA0, 0x00, 0x10], modeResponse.wire⟩] ∧
    encode [0xA0, 0x00, 0x10] 0x81 = .ok [0x02, 0x81, 0x03, 0x00, 0xA0, 0x00, 0x10, 0x36, 0x1A] :=
  ⟨(encode_feed_roundTrip.1 [.control .ACK, .noise 0x55 (by decide), .telegram modeResponse] _
      (by decide)).1,
    encode_feed_roundTrip.2 [.feed [0x02, 0x81, 0x03, 0x00, 0xA0, 0x00, 0x10, 0x36, 0x1A]] 0
      ⟨0x81, [0xA0, 0x00, 0x10], _⟩ (by decide)⟩

end Lms200
