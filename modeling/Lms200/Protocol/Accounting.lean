import Lms200.Protocol.Evidence
import Lms200.Protocol.Damage

/-!
# Every received byte is accounted for

Over any feeds and expiries the findings of a framer tile what it has consumed of the stream, each is
what the stream has at its offset, and the rest of the stream is the buffer. What is emitted and counted
is read off the findings.
-/

namespace Lms200

open Resync

/-- The bytes of a finding. -/
def Finding.size : Finding → ℕ
  | .frame raw => raw.length
  | _ => 1

/-- The bytes of a complete candidate. -/
def Finding.candidate? : Finding → Option Bytes
  | .badCrc raw | .frame raw => some raw
  | _ => none

/-- A candidate is what a buffer starts with. -/
theorem candidateFront_prefix {buffer raw : Bytes} {extra : ℕ} {finding : Finding}
    (h : candidateFront buffer = .consume extra finding) (hraw : finding.candidate? = some raw) :
    raw <+: buffer := by
  unfold candidateFront at h
  split at h
  · cases h
  split at h
  · obtain ⟨-, rfl⟩ := Verdict.consume.inj h
    cases hraw
  split at h
  · cases h
  split at h
  all_goals
    obtain ⟨-, rfl⟩ := Verdict.consume.inj h
    obtain rfl := Option.some.inj hraw
    exact List.take_prefix _ _

theorem telegramFront_prefix {buffer raw : Bytes} {extra : ℕ} {finding : Finding}
    (h : telegramFront buffer = .consume extra finding) (hraw : finding.candidate? = some raw) :
    raw <+: buffer := by
  cases buffer with
  | nil => cases h
  | cons first rest =>
    simp only [telegramFront] at h
    split at h
    · obtain ⟨-, rfl⟩ := Verdict.consume.inj h
      cases hraw
    · split at h
      · obtain ⟨-, rfl⟩ := Verdict.consume.inj h
        cases hraw
      · exact candidateFront_prefix h hraw

/-- A frame is consumed whole, and everything else byte by byte. -/
theorem telegramFront_size {buffer : Bytes} {extra : ℕ} {finding : Finding}
    (h : telegramFront buffer = .consume extra finding) : extra + 1 = finding.size := by
  cases finding with
  | frame raw => exact ((telegramFront_eq_frame_iff _ _ _).mp h).2.symm
  | _ => simp [width_eq_one_of_not_frame h (fun raw => by nofun), Finding.size]

/-- A finding is what the stream has at its offset. -/
structure Found (stream : Bytes) (t : Token Finding) : Prop where
  width : t.width = t.finding.size
  sound : t.finding.Sound
  bytes : ∀ raw, t.finding.candidate? = some raw → raw <+: stream.drop t.offset

/-- Bytes which arrive later do not change what the stream has. -/
theorem Found.later {stream : Bytes} {t : Token Finding} (h : Found stream t) (later : Bytes)
    (hle : t.offset ≤ stream.length) : Found (stream ++ later) t := by
  refine ⟨h.width, h.sound, fun raw hraw => ?_⟩
  rw [List.drop_append_of_le_length hle]
  exact (h.bytes raw hraw).trans (List.prefix_append _ _)

/-- The findings of a run are what the stream has. -/
theorem run_found {stream : Bytes} {c : Cursor UInt8} (hbuffer : c.buffer = stream.drop c.offset) :
    ∀ t ∈ (telegramLexer.run c).1, Found stream t := by
  intro t ht
  have hfront : telegramFront (c.buffer.drop (t.offset - c.offset)) = .consume (t.width - 1) t.finding :=
    telegramLexer.run_decision c ht
  obtain ⟨hoffset, hwidth, -⟩ := (telegramLexer.run_tiles c).mem_bounds ht
  rw [hbuffer, List.drop_drop, Nat.add_sub_cancel' hoffset] at hfront
  refine ⟨?_, telegramFront_sound hfront, fun raw hraw => telegramFront_prefix hfront hraw⟩
  rw [← telegramFront_size hfront, Nat.sub_add_cancel hwidth]

/-- What a framer has made of a stream. -/
structure Parsed (stream : Bytes) (tokens : List (Token Finding)) (f : Framer) : Prop where
  tiles : Tiles 0 tokens f.offset
  found : ∀ t ∈ tokens, Found stream t
  stats : f.stats = ({} : FrameStats).recordAll tokens
  offset : f.offset ≤ stream.length
  buffer : f.buffer = stream.drop f.offset
  settled : f.Settled

theorem parsed_fresh : Parsed [] [] {} :=
  ⟨rfl, nofun, rfl, le_rfl, rfl, Framer.fresh_settled⟩

namespace Parsed

variable {stream : Bytes} {tokens : List (Token Finding)} {f : Framer}

/-- A run behind some findings. -/
theorem run (c : Cursor UInt8) (stats : FrameStats) (htiles : Tiles 0 tokens c.offset)
    (hfound : ∀ t ∈ tokens, Found stream t) (hstats : stats = ({} : FrameStats).recordAll tokens)
    (hoffset : c.offset ≤ stream.length) (hbuffer : c.buffer = stream.drop c.offset) :
    Parsed stream (tokens ++ (telegramLexer.run c).1)
      ⟨(telegramLexer.run c).2.buffer, stats.recordAll (telegramLexer.run c).1, (telegramLexer.run c).2.offset⟩ where
  tiles := htiles.append (telegramLexer.run_tiles c)
  found := fun t ht => (List.mem_append.mp ht).elim (hfound t) (run_found hbuffer t)
  stats := by rw [FrameStats.recordAll_append, hstats]
  offset := by
    have hsum := telegramLexer.run_offset_add_length c
    rw [hbuffer, List.length_drop] at hsum
    dsimp only
    omega
  buffer := by
    have hle := (telegramLexer.run_tiles c).le
    dsimp only
    rw [telegramLexer.run_buffer c, hbuffer, List.drop_drop, Nat.add_sub_cancel' hle]
  settled := telegramLexer.run_settled c

/-- Bytes arrive. -/
theorem feed (h : Parsed stream tokens f) (data : Bytes) :
    ∃ later, Parsed (stream ++ data) (tokens ++ later) (f.feed data).2 ∧ (f.feed data).1 = emittedBy later := by
  refine ⟨(telegramLexer.feed f.cursor data).1, ?_, by rw [Framer.feed_eq]⟩
  rw [Framer.feed_eq]
  refine run (f.cursor.push data) f.stats h.tiles (fun t ht => ?_) h.stats ?_ ?_
  · have hend := (h.tiles.mem_bounds ht).2.2
    exact (h.found t ht).later data ((Nat.le_add_right _ _).trans (hend.trans h.offset))
  · rw [List.length_append]
    exact Nat.le_add_right_of_le h.offset
  · simp only [Cursor.push, Framer.cursor, h.buffer]
    rw [List.drop_append_of_le_length h.offset]

/-- A stale candidate expires. -/
theorem expire (h : Parsed stream tokens f) :
    ∃ later, Parsed stream (tokens ++ later) f.expire.2 ∧ f.expire.1 = emittedBy later := by
  by_cases hempty : f.buffer = []
  · refine ⟨[], ?_, by rw [Framer.expire, if_pos hempty]; rfl⟩
    rw [Framer.expire, if_pos hempty, List.append_nil]
    exact h
  · refine ⟨(telegramLexer.expire f.cursor).1, ?_, by rw [Framer.expire_eq f hempty]⟩
    rw [Framer.expire_eq f hempty]
    have hlt : f.offset < stream.length := by
      by_contra hge
      exact hempty (h.buffer.trans (List.drop_eq_nil_of_le (Nat.not_lt.mp hge)))
    have htiles : Tiles 0 (tokens ++ [⟨f.offset, 1, .truncated⟩]) (f.offset + 1) :=
      h.tiles.append ⟨rfl, Nat.one_pos, rfl⟩
    have hrun := run (f.cursor.skip 1) (f.stats.record .truncated) htiles (fun t ht => ?_) ?_ hlt ?_
    · rw [List.append_assoc] at hrun
      exact hrun
    · rcases List.mem_append.mp ht with ht | ht
      · exact h.found t ht
      · rw [List.mem_singleton.mp ht]
        exact ⟨rfl, trivial, fun _ hraw => by cases hraw⟩
    · rw [FrameStats.recordAll_append, ← h.stats]
      rfl
    · simp only [Cursor.skip, Framer.cursor, h.buffer, List.drop_drop]

end Parsed

/-- The bytes a call feeds. -/
def Framer.Call.data : Framer.Call → Bytes
  | .feed data => data
  | _ => []

/-- Everything received by a sequence of calls. -/
def Framer.received (calls : List Framer.Call) : Bytes := calls.flatMap Framer.Call.data

/-- One call without a reset. -/
theorem Parsed.call {stream : Bytes} {tokens : List (Token Finding)} {f : Framer} (h : Parsed stream tokens f)
    {c : Framer.Call} (hc : c ≠ .reset) :
    ∃ later, Parsed (stream ++ c.data) (tokens ++ later) (f.call c).2 ∧ (f.call c).1 = emittedBy later := by
  cases c with
  | feed data => exact h.feed data
  | expire =>
    have hdata : stream ++ Framer.Call.data .expire = stream := List.append_nil stream
    rw [hdata]
    exact h.expire
  | reset => exact absurd rfl hc

/-- A sequence of calls without a reset. -/
theorem Parsed.calls {stream : Bytes} {tokens : List (Token Finding)} {f : Framer} (h : Parsed stream tokens f)
    {calls : List Framer.Call} (hreset : .reset ∉ calls) :
    ∃ later, Parsed (stream ++ Framer.received calls) (tokens ++ later) (f.calls calls).2 ∧
      (f.calls calls).1 = emittedBy later := by
  induction calls generalizing stream tokens f with
  | nil =>
    refine ⟨[], ?_, rfl⟩
    rw [Framer.received, List.flatMap_nil, List.append_nil, List.append_nil]
    exact h
  | cons c rest ih =>
    obtain ⟨hc, hrest⟩ := not_or.mp (mt List.mem_cons.mpr hreset)
    obtain ⟨now, hnow, hemitted⟩ := h.call (Ne.symm hc)
    obtain ⟨later, hlater, hlaterEmitted⟩ := ih hnow hrest
    refine ⟨now ++ later, ?_, ?_⟩
    · rw [List.append_assoc, List.append_assoc] at hlater
      exact hlater
    · rw [Framer.calls, emittedBy_append, ← hemitted, ← hlaterEmitted]

/-- The frames of what is emitted, with where they start. -/
def Emitted.frames (e : Emitted) : List (ℕ × Bytes) := e.events.filterMap frameAt

/-- The event is a control byte. -/
def Event.isControl : Event → Bool
  | .control _ => true
  | .frame _ => false

/-- How many controls are emitted. -/
def Emitted.controls (e : Emitted) : ℕ := e.events.countP fun event => event.2.isControl

/-- How many bytes the emitted frames have. -/
def Emitted.frameBytes (e : Emitted) : ℕ := (e.frames.map fun frame => frame.2.length).sum

/-- The bytes which are counted as errors. -/
def FrameStats.discarded (stats : FrameStats) : ℕ :=
  stats.noise_bytes + stats.crc_errors + stats.invalid_lengths + stats.truncated_frames

theorem Emitted.append_frames (first second : Emitted) :
    (first.append second).frames = first.frames ++ second.frames :=
  List.filterMap_append

theorem Emitted.append_controls (first second : Emitted) :
    (first.append second).controls = first.controls + second.controls :=
  List.countP_append

theorem Emitted.append_frameBytes (first second : Emitted) :
    (first.append second).frameBytes = first.frameBytes + second.frameBytes := by
  simp only [frameBytes, append_frames, List.map_append, List.sum_append]

/-- A finding adds its bytes to exactly one of the sums. -/
theorem Finding.balance (finding : Finding) (offset : ℕ) (stats : FrameStats) :
    (stats.record finding).discarded + (finding.emitted offset).controls + (finding.emitted offset).frameBytes =
      stats.discarded + finding.size := by
  cases finding with
  | frame raw => rfl
  | control c => rfl
  | _ =>
    simp only [FrameStats.record, FrameStats.discarded, Finding.emitted, Finding.size, Emitted.controls,
      Emitted.frameBytes, Emitted.frames, List.countP_nil, List.filterMap_nil, List.map_nil, List.sum_nil]
    omega

/-- What is emitted and what is counted as errors add up to the bytes consumed. -/
theorem tiles_balance {tokens : List (Token Finding)} {start stop : ℕ} (h : Tiles start tokens stop)
    (hwidth : ∀ t ∈ tokens, t.width = t.finding.size) (stats : FrameStats) :
    start + ((stats.recordAll tokens).discarded + (emittedBy tokens).controls + (emittedBy tokens).frameBytes) =
      stop + stats.discarded := by
  induction tokens generalizing start stats with
  | nil =>
    obtain rfl : start = stop := h
    rfl
  | cons t rest ih =>
    obtain ⟨rfl, -, hrest⟩ := h
    have hlater := ih hrest (fun u hu => hwidth u (List.mem_cons_of_mem _ hu)) (stats.record t.finding)
    have hthis := t.finding.balance t.offset stats
    rw [← hwidth t List.mem_cons_self] at hthis
    rw [emittedBy, Emitted.append_controls, Emitted.append_frameBytes]
    have hrecord : stats.recordAll (t :: rest) = (stats.record t.finding).recordAll rest := rfl
    rw [hrecord]
    omega

/-- The frame of a finding, with where it starts. -/
def frameOf (t : Token Finding) : Option (ℕ × Bytes) :=
  match t.finding with
  | .frame raw => some (t.offset, raw)
  | _ => none

theorem frameOf_eq_some_iff (t : Token Finding) (frame : ℕ × Bytes) :
    frameOf t = some frame ↔ t.offset = frame.1 ∧ t.finding = .frame frame.2 := by
  obtain ⟨offset, width, finding⟩ := t
  cases finding <;> simp [frameOf, Prod.ext_iff]

/-- What one finding emits. -/
theorem emitted_frames (t : Token Finding) : (t.finding.emitted t.offset).frames = (frameOf t).toList := by
  obtain ⟨offset, width, finding⟩ := t
  cases finding <;> rfl

/-- The frames among findings. -/
theorem emittedBy_frames (tokens : List (Token Finding)) :
    (emittedBy tokens).frames = tokens.filterMap frameOf := by
  induction tokens with
  | nil => rfl
  | cons t rest ih =>
    rw [emittedBy, Emitted.append_frames, ih, emitted_frames, List.filterMap_cons]
    cases frameOf t <;> rfl

/-- The candidates among findings. -/
theorem emittedBy_candidates (tokens : List (Token Finding)) :
    (emittedBy tokens).candidates =
      tokens.filterMap fun t => t.finding.candidate?.map (FrameCandidate.ofRaw t.offset) := by
  induction tokens with
  | nil => rfl
  | cons t rest ih =>
    obtain ⟨offset, width, finding⟩ := t
    rw [emittedBy, Emitted.append, ih]
    cases finding <;> rfl

/-- The candidates of tiling findings are at increasing offsets. -/
theorem emittedBy_candidates_sorted {tokens : List (Token Finding)} {start stop : ℕ}
    (h : Tiles start tokens stop) :
    (emittedBy tokens).candidates.Pairwise fun first second => first.offset < second.offset := by
  rw [emittedBy_candidates, List.pairwise_filterMap]
  apply h.pairwise.imp_of_mem
  intro t u ht _ htu first hfirst second hsecond
  obtain ⟨raw, -, rfl⟩ := Option.map_eq_some_iff.mp hfirst
  obtain ⟨raw', -, rfl⟩ := Option.map_eq_some_iff.mp hsecond
  have hwidth := (h.mem_bounds ht).2.1
  change t.offset < u.offset
  omega

/-- The frames of findings are counted. -/
theorem recordAll_frames (tokens : List (Token Finding)) (stats : FrameStats) :
    (stats.recordAll tokens).frames = stats.frames + (emittedBy tokens).frames.length := by
  induction tokens generalizing stats with
  | nil => rfl
  | cons t rest ih =>
    have hrecord : stats.recordAll (t :: rest) = (stats.record t.finding).recordAll rest := rfl
    rw [hrecord, ih, emittedBy, Emitted.append_frames, List.length_append]
    have hthis : (stats.record t.finding).frames =
        stats.frames + (t.finding.emitted t.offset).frames.length := by
      cases t.finding <;> rfl
    rw [hthis, Nat.add_assoc]

/-- The frames of tiling findings are apart. -/
theorem emittedBy_frames_apart {tokens : List (Token Finding)} {start stop : ℕ} (h : Tiles start tokens stop)
    (hwidth : ∀ t ∈ tokens, t.width = t.finding.size) :
    (emittedBy tokens).frames.Pairwise fun first second => first.1 + first.2.length ≤ second.1 := by
  rw [emittedBy_frames, List.pairwise_filterMap]
  refine h.pairwise.imp_of_mem fun {t u} ht _ htu first hfirst second hsecond => ?_
  obtain ⟨hoffset, hfinding⟩ := (frameOf_eq_some_iff t first).mp hfirst
  obtain ⟨hnext, -⟩ := (frameOf_eq_some_iff u second).mp hsecond
  have hsize := hwidth t ht
  rw [hfinding, Finding.size] at hsize
  rw [← hoffset, ← hnext, ← hsize]
  exact htu

/-- Every byte of a stream is in what was emitted, in what was counted as an error, or in the buffer. -/
structure Accounted (stream : Bytes) (emitted : Emitted) (f : Framer) : Prop where
  total : f.offset + f.buffer.length = stream.length
  consumed : f.offset = f.stats.noise_bytes + emitted.controls + emitted.frameBytes + f.stats.crc_errors +
    f.stats.invalid_lengths + f.stats.truncated_frames
  counted : f.stats.frames = emitted.frames.length
  apart : emitted.frames.Pairwise fun first second => first.1 + first.2.length ≤ second.1
  evidence : (emitted.candidates.filter (·.crc_valid)).map (fun c => (c.offset, c.raw)) = emitted.frames
  slices : ∀ c ∈ emitted.candidates,
    c.offset + c.raw.length ≤ stream.length ∧ slice stream c.offset (c.offset + c.raw.length) = c.raw
  pending : f.buffer = [] ∨ unfinished f.buffer
  bounded : f.buffer.length ≤ 813

/-- An unfinished candidate is shorter than the longest telegram. -/
theorem unfinished_length {buffer : Bytes} (h : unfinished buffer) : buffer.length ≤ 813 := by
  obtain ⟨-, hheader | ⟨⟨-, hlegal⟩, hshort⟩⟩ := h
  · omega
  · rw [MAX_PAYLOAD] at hlegal
    omega

/-- What a stream has at an offset is a slice of it. -/
theorem slice_of_prefix {stream raw : Bytes} {offset : ℕ} (h : raw <+: stream.drop offset)
    (hle : offset ≤ stream.length) :
    offset + raw.length ≤ stream.length ∧ slice stream offset (offset + raw.length) = raw := by
  have hlength := h.length_le
  rw [List.length_drop] at hlength
  refine ⟨by omega, ?_⟩
  rw [slice, List.drop_take, Nat.add_sub_cancel_left]
  exact (List.prefix_iff_eq_take.mp h).symm

/-- What a framer has made of a stream accounts for it. -/
theorem Parsed.accounted {stream : Bytes} {tokens : List (Token Finding)} {f : Framer}
    (h : Parsed stream tokens f) : Accounted stream (emittedBy tokens) f := by
  have hwidth : ∀ t ∈ tokens, t.width = t.finding.size := fun t ht => (h.found t ht).width
  have hpending := (telegramFront_eq_undecided_iff f.buffer).mp h.settled
  refine ⟨?_, ?_, ?_, emittedBy_frames_apart h.tiles hwidth, ?_, ?_, hpending, ?_⟩
  · rw [h.buffer, List.length_drop]
    exact Nat.add_sub_cancel' h.offset
  · have hbalance := tiles_balance h.tiles hwidth {}
    rw [← h.stats] at hbalance
    simp only [FrameStats.discarded] at hbalance
    omega
  · rw [h.stats, recordAll_frames]
    exact Nat.zero_add _
  · exact emittedBy_evidence tokens fun t ht => (h.found t ht).sound
  · intro c hc
    rw [emittedBy_candidates] at hc
    obtain ⟨t, ht, hcandidate⟩ := List.mem_filterMap.mp hc
    obtain ⟨raw, hraw, rfl⟩ := Option.map_eq_some_iff.mp hcandidate
    have hend := (h.tiles.mem_bounds ht).2.2
    have hle : t.offset ≤ stream.length := (Nat.le_add_right _ _).trans (hend.trans h.offset)
    exact slice_of_prefix ((h.found t ht).bytes raw hraw) hle
  · rcases hpending with hempty | hstuck
    · rw [hempty]
      exact Nat.zero_le _
    · exact unfinished_length hstuck

/-- After any feeds and expiries of a fresh framer every received byte is accounted for. -/
theorem Framer.calls_accounted (calls : List Framer.Call) (hreset : .reset ∉ calls) :
    Accounted (received calls) (({} : Framer).calls calls).1 (({} : Framer).calls calls).2 := by
  obtain ⟨tokens, hparsed, hemitted⟩ := parsed_fresh.calls hreset
  rw [hemitted]
  exact hparsed.accounted

/-- A noise byte, an expired telegram start and a control behind it. -/
theorem Framer.calls_accounted_expired :
    Accounted [0x55, 0x02, 0x81, 0x06] (({} : Framer).calls [.feed [0x55, 0x02], .feed [0x81, 0x06], .expire]).1
      (({} : Framer).calls [.feed [0x55, 0x02], .feed [0x81, 0x06], .expire]).2 :=
  Framer.calls_accounted [.feed [0x55, 0x02], .feed [0x81, 0x06], .expire] (by simp)

end Lms200
