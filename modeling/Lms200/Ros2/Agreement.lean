import Lms200.Ros2.Observations
import Lms200.Native.DecoderEquivalence

/-!
# What the node sees of the owner's telegrams

The Windows owner's framer rescans one byte behind a bad length or checksum, the node drops the
header or the whole candidate and accepts only two addresses as a candidate's. So the node
misses a telegram of the framer exactly when one of its own candidates lies over its start.
-/

namespace Lms200.Ros2

open Resync

/-- The library builds the documented telegram of every payload of the protocol's length. -/
structure SickLMSMessage.Documented (library : SickLMSMessage) : Prop where
  max : MAX_PAYLOAD ≤ library.MESSAGE_PAYLOAD_MAX_LENGTH
  build : ∀ (address : UInt8) (payload : Bytes), 1 ≤ payload.length → payload.length ≤ MAX_PAYLOAD →
    encode payload address.toNat = .ok (library.BuildMessage address payload)

/-- The node reports the telegram, at its offset and with a valid checksum. -/
def Reported (observations : List Observation) (offset : ℕ) (raw : Bytes) : Prop :=
  ∃ item ∈ observations,
    item.kind = .frame ∧ item.offset = offset ∧ item.bytes = raw ∧ item.crc_ok = true

/-- A candidate which the node has dropped or accepted, or which it still waits for, begins before
the offset and reaches beyond it. -/
def Covered (observations : List Observation) (a : Accumulator) (offset : ℕ) : Prop :=
  (∃ item ∈ observations, (item.kind = .invalid_length ∨ item.kind = .frame) ∧
    item.offset < offset ∧ offset < item.offset + item.bytes.length) ∨ a.consumed < offset

/-- An observation without its transmit mark. -/
def Observation.unmarked (item : Observation) : Observation := { item with post_tx := false }

/-- A library as documented, with the payload limit of the installed one. -/
def laviria : SickLMSMessage where
  MESSAGE_PAYLOAD_MAX_LENGTH := 812
  BuildMessage address payload :=
    let message := [STX, address] ++ toBytesLittle payload.length ++ payload
    message ++ toBytesLittle (crc16 message)

theorem laviria_documented : laviria.Documented where
  max := by decide
  build address payload hpos hmax := (encode_eq_ok_iff _ _ _).mpr ⟨⟨hpos, hmax⟩, rfl⟩

variable {library : SickLMSMessage}

/-- Whatever the calls, what is observed is the lexer's run over what is delivered. -/
theorem Accumulator.calls_run (calls : List Call) (a : Accumulator)
    (h : decision library a.pending = .undecided) :
    ∃ observations a', a.calls library calls = .ok (observations, a') ∧
      observations.map Observation.unmarked =
        ((observationLexer library).run ⟨a.consumed, a.pending ++ delivered calls⟩).1.map (stamp none) ∧
      a'.cursor = ((observationLexer library).run ⟨a.consumed, a.pending ++ delivered calls⟩).2 := by
  induction calls generalizing a with
  | nil =>
    refine ⟨[], a, rfl, ?_⟩
    rw [show delivered [] = [] from rfl, List.append_nil,
      (observationLexer library).run_of_undecided (c := ⟨a.consumed, a.pending⟩) h]
    exact ⟨rfl, rfl⟩
  | cons c rest ih =>
    cases c with
    | mark_tx_boundary =>
      obtain ⟨observations, a', hcalls, hrest⟩ := ih a.mark_tx_boundary h
      refine ⟨observations, a', ?_, hrest⟩
      rw [calls, call]
      simp only [bind, Except.bind, hcalls, List.nil_append]
    | feed bytes =>
      have hpush := (observationLexer library).run_push ⟨a.consumed, a.pending ++ bytes⟩ (delivered rest)
      have hsettled := (observationLexer library).run_settled ⟨a.consumed, a.pending ++ bytes⟩
      have hfeed := @Accumulator.feed_eq library a bytes
      simp only [Lexer.feed, Cursor.push, cursor, List.append_assoc] at hfeed hpush
      generalize (observationLexer library).run ⟨a.consumed, a.pending ++ bytes⟩ = now at *
      obtain ⟨observations, a', hcalls, hitems, hcursor⟩ := ih
        { a.absorb now.2 with received := a.received + bytes.length } hsettled
      refine ⟨now.1.map (stamp a.tx_boundary) ++ observations, a', ?_, ?_, ?_⟩
      · rw [calls, call, hfeed]
        simp only [bind, Except.bind, hcalls]
      · rw [List.map_append, hitems, List.map_map,
          show delivered (.feed bytes :: rest) = bytes ++ delivered rest from rfl, hpush, List.map_append]
        rfl
      · rw [hcursor, show delivered (.feed bytes :: rest) = bytes ++ delivered rest from rfl, hpush]
        rfl

/-- A telegram of the framer is a frame of the stream, encoded where it was emitted. -/
theorem emitted_frame (c : Cursor UInt8) {offset : ℕ} {f : Frame}
    (h : (offset, Event.frame f) ∈ (emittedBy (telegramLexer.run c).1).events) :
    telegramAt (c.buffer.drop (offset - c.offset)) = some f := by
  rw [emittedBy_events, List.mem_flatMap] at h
  obtain ⟨t, ht, hevent⟩ := h
  have hdecision := telegramLexer.run_decision c ht
  cases hfinding : t.finding with
  | frame raw =>
    rw [hfinding] at hevent hdecision
    obtain ⟨rfl, hf⟩ := Prod.mk.inj (List.mem_singleton.mp hevent)
    obtain rfl := Event.frame.inj hf
    exact ((telegramFront_eq_frame_iff _ _ _).mp hdecision).1
  | _ => simp [hfinding, Finding.emitted] at hevent

/-- The two ways of reading a header agree. -/
theorem declared_eq {stream : Bytes} (h : 4 ≤ stream.length) :
    declared stream = declaredLength stream := by
  rw [← Native.payload_size_eq h, Native.word, Native.join_toNat, declared]

/-- The node accepts a telegram which it meets at the front of what is pending. -/
theorem decision_telegram (hlibrary : library.Documented) {stream : Bytes} {f : Frame}
    (h : telegramAt stream = some f) (haddress : f.address = 0x80 ∨ f.address = 0x81) :
    ∃ extra item, decision library stream = .consume extra item ∧ item.kind = .frame ∧
      item.bytes = f.raw ∧ item.crc_ok = true := by
  obtain ⟨hstx, ⟨hpos, hmax⟩, htotal, hraw⟩ := telegramAt_header h
  obtain ⟨hwire, hstart⟩ := (telegramAt_eq_some_iff _ _).mp h
  obtain ⟨-, haddr, hlength, -⟩ := encode_prefix_header hwire hstart
  obtain ⟨-, hrawAddr, -, hrawPayload⟩ := encode_prefix_header hwire (List.prefix_refl _)
  have hdeclared : declared stream = f.payload.length := by
    rw [declared_eq (by omega), hlength]
  have hmax' := hlibrary.max
  -- The library rebuilds the wire bytes themselves.
  have hrebuilt : library.BuildMessage f.address f.payload = f.raw := by
    have hbuild := hlibrary.build f.address f.payload (hlength ▸ hpos) (hlength ▸ hmax)
    rw [hwire] at hbuild
    exact (Except.ok.inj hbuild).symm
  have hpayload : (f.raw.drop 4).take f.payload.length = f.payload := by
    rw [slice, List.drop_take, Nat.add_sub_cancel] at hrawPayload
    exact hrawPayload
  obtain ⟨first, rest, rfl⟩ : ∃ first rest, stream = first :: rest :=
    List.exists_cons_of_length_pos (by omega)
  obtain rfl : first = STX := hstx
  refine ⟨f.payload.length + 5, candidateObservation library f.raw f.payload.length, ?_, rfl, rfl, ?_⟩
  · have hforeign : ¬ ((STX :: rest).getD 1 0 ≠ 0x80 ∧ (STX :: rest).getD 1 0 ≠ 0x81) := by
      rw [haddr]
      rintro ⟨h80, h81⟩
      exact haddress.elim h80 h81
    rw [decision, if_neg (by simp [STX]), candidateDecision, if_neg (by omega), if_neg hforeign,
      if_neg (by omega), hdeclared, if_neg (by omega), if_neg (by omega), ← hlength, hraw]
  · simp only [candidateObservation, hrawAddr, hpayload, hrebuilt, decide_true]

/-- Only a dropped header or a complete candidate is longer than a byte. -/
theorem decision_wide {stream : Bytes} {extra : ℕ} {item : Observation}
    (h : decision library stream = .consume extra item) (hwide : 0 < extra) :
    item.kind = .invalid_length ∨ item.kind = .frame := by
  cases stream with
  | nil => cases h
  | cons first rest =>
    rw [decision] at h
    split at h
    · obtain ⟨rfl, -⟩ := Verdict.consume.inj h
      omega
    rw [candidateDecision] at h
    split_ifs at h
    · obtain ⟨rfl, -⟩ := Verdict.consume.inj h
      omega
    · obtain ⟨-, rfl⟩ := Verdict.consume.inj h
      exact .inl rfl
    · obtain ⟨-, rfl⟩ := Verdict.consume.inj h
      exact .inr rfl

/-- Over the lexer's run, a telegram of the stream is the finding at its offset exactly when no
longer finding lies over its start and the run goes beyond it. -/
theorem run_reports_iff (hlibrary : library.Documented) {stream : Bytes} {offset : ℕ} {f : Frame}
    (hat : telegramAt (stream.drop offset) = some f)
    (haddress : f.address = 0x80 ∨ f.address = 0x81) :
    let run := (observationLexer library).run ⟨0, stream⟩
    (∃ t ∈ run.1, t.offset = offset ∧ t.finding.kind = .frame ∧ t.finding.bytes = f.raw ∧
        t.finding.crc_ok = true) ↔
      ¬ ((∃ t ∈ run.1, (t.finding.kind = .invalid_length ∨ t.finding.kind = .frame) ∧
        t.offset < offset ∧ offset < t.offset + t.width) ∨ run.2.offset < offset) := by
  intro run
  obtain ⟨extra, item, hdecision, hkind, hbytes, hcrc⟩ := decision_telegram hlibrary hat haddress
  have htiles := (observationLexer library).run_tiles ⟨0, stream⟩
  have hsettled := (observationLexer library).run_settled ⟨0, stream⟩
  have hbuffer := (observationLexer library).run_buffer ⟨0, stream⟩
  constructor
  · rintro ⟨t, ht, rfl, -⟩ (⟨u, hu, -, hbefore, hover⟩ | hpending)
    · have := htiles.end_le hu ht hbefore
      omega
    · obtain ⟨-, -, hend⟩ := htiles.mem_bounds ht
      exact absurd hpending (by have : t.offset ≤ run.2.offset := Nat.le_of_add_right_le hend; omega)
  · intro hclear
    obtain ⟨hcovered, hreached⟩ := not_or.mp hclear
    rcases Nat.eq_or_lt_of_le (not_lt.mp hreached) with heq | hlt
    · -- The run would not have stopped in front of the telegram.
      rw [Lexer.Settled, hbuffer, Nat.sub_zero, ← heq] at hsettled
      exact absurd (hdecision.symm.trans hsettled) (by simp)
    · obtain ⟨t, ht, hstart, hend⟩ := htiles.covers (Nat.zero_le offset) hlt
      have htoken := (observationLexer library).run_decision _ ht
      rcases Nat.eq_or_lt_of_le hstart with rfl | hbefore
      · have hsame := htoken.symm.trans hdecision
        obtain ⟨-, hfinding⟩ := Verdict.consume.inj hsame
        exact ⟨t, ht, rfl, hfinding ▸ hkind, hfinding ▸ hbytes, hfinding ▸ hcrc⟩
      · exact absurd ⟨t, ht, decision_wide htoken (by omega), hbefore, hend⟩ hcovered

/-- Every stream, every calls of the node and every chunking of the framer: a telegram with one of
the accepted addresses which the framer emits is reported by the node, at its offset and with a
valid checksum, exactly when no candidate of the node begins before it and lies over its start. -/
theorem reported_iff_not_covered (hlibrary : library.Documented) (calls : List Call)
    (chunks : List Bytes) (hstream : chunks.flatten = delivered calls) :
    ∃ observations a, ({} : Accumulator).calls library calls = .ok (observations, a) ∧
      ∀ offset f, (offset, Event.frame f) ∈ (({} : Framer).feedAll chunks).1.events →
        f.address = 0x80 ∨ f.address = 0x81 →
        (Reported observations offset f.raw ↔ ¬ Covered observations a offset) := by
  obtain ⟨observations, a, hcalls, hitems, hcursor⟩ :=
    @Accumulator.calls_run library calls {} rfl
  refine ⟨observations, a, hcalls, fun offset f hemitted haddress => ?_⟩
  rw [Framer.feedAll_eq_feed, Framer.feed_eq, hstream] at hemitted
  have hat := emitted_frame _ hemitted
  have hwidth := @Accumulator.token_width library ⟨0, delivered calls⟩
  have hiff := run_reports_iff hlibrary hat haddress
  simp only [List.nil_append] at hitems hcursor
  have hconsumed : a.consumed = ((observationLexer library).run ⟨0, delivered calls⟩).2.offset :=
    congrArg Cursor.offset hcursor
  -- Observations and tokens are the same list up to the transmit marks.
  have hmem : ∀ P : Observation → Prop, (∀ item, P item.unmarked ↔ P item) →
      ((∃ item ∈ observations, P item) ↔
        ∃ t ∈ ((observationLexer library).run ⟨0, delivered calls⟩).1, P (stamp none t)) := by
    intro P hP
    have hmapped : (∃ item ∈ observations, P item) ↔
        ∃ item ∈ observations.map Observation.unmarked, P item := by
      simp [hP]
    rw [hmapped, hitems]
    simp
  rw [Reported, hmem _ (fun item => Iff.rfl), Covered, hmem _ (fun item => Iff.rfl), hconsumed]
  refine Iff.trans ?_ (hiff.trans (not_congr (or_congr_left ?_)))
  · refine exists_congr fun t => and_congr_right fun _ => ?_
    exact ⟨fun ⟨hkind, hrest⟩ => ⟨hrest.1, hkind, hrest.2⟩, fun ⟨hoffset, hkind, hrest⟩ => ⟨hkind, hoffset, hrest⟩⟩
  · refine exists_congr fun t => and_congr_right fun ht => ?_
    rw [← hwidth t ht]
    rfl

/-- A mode reply behind the first two bytes of a lost one. -/
def cutReply : Bytes := [0x02, 0x81, 0x02, 0x81, 0x03, 0x00, 0xA0, 0x00, 0x10, 0x36, 0x1A]

/-- The cut header covers the start of the reply, which the node then misses. -/
theorem reported_iff_not_covered_cut :
    ∃ observations a, ({} : Accumulator).calls laviria [.feed cutReply] = .ok (observations, a) ∧
      ∀ offset f, (offset, Event.frame f) ∈ (({} : Framer).feedAll [cutReply]).1.events →
        f.address = 0x80 ∨ f.address = 0x81 →
        (Reported observations offset f.raw ↔ ¬ Covered observations a offset) :=
  reported_iff_not_covered laviria_documented [.feed cutReply] [cutReply] rfl

/-- Not every telegram which the framer emits is reported by the node. -/
theorem not_every_telegram_reported :
    ¬ ∀ library : SickLMSMessage, library.Documented → ∀ (calls : List Call) (chunks : List Bytes),
      chunks.flatten = delivered calls → ∀ observations a,
      ({} : Accumulator).calls library calls = .ok (observations, a) → ∀ offset f,
      (offset, Event.frame f) ∈ (({} : Framer).feedAll chunks).1.events →
      f.address = 0x80 ∨ f.address = 0x81 → Reported observations offset f.raw := by
  intro h
  obtain ⟨item, hitem, -, hoffset, -⟩ := h laviria laviria_documented [.feed cutReply] [cutReply] rfl _ _ rfl 2
    ⟨0x81, [0xA0, 0x00, 0x10], [0x02, 0x81, 0x03, 0x00, 0xA0, 0x00, 0x10, 0x36, 0x1A]⟩
    (by decide) (by decide)
  revert item
  decide

end Lms200.Ros2
