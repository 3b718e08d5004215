import Lms200.Protocol.Telegram

/-!
# Complete resynchronisation

Feeding a stream and then expiring until nothing is pending yields the plain left-to-right
scan: at each position a complete CRC-valid telegram is accepted and jumped over, otherwise a
control byte is reported, otherwise one byte is skipped. The scan visits every position it does
not jump over, so no telegram is lost except inside another one.
-/

namespace Lms200

open Resync

/-- A telegram at the front of a stream occupies some of it. -/
theorem telegramAt_length_pos {stream : Bytes} {f : Frame} (h : telegramAt stream = some f) :
    0 < f.raw.length ∧ f.raw.length ≤ stream.length := by
  obtain ⟨hwire, hstart⟩ := (telegramAt_eq_some_iff _ _).mp h
  have := encode_length hwire
  exact ⟨by omega, hstart.length_le⟩

/-- Scan a complete capture from left to right. -/
def offlineScan (offset : ℕ) (stream : Bytes) : List (ℕ × Event) :=
  match stream with
  | [] => []
  | first :: rest =>
    match _hf : telegramAt (first :: rest) with
    | some f =>
      (offset, .frame f) :: offlineScan (offset + f.raw.length) ((first :: rest).drop f.raw.length)
    | none =>
      match Control.ofByte first with
      | some c => (offset, .control c) :: offlineScan (offset + 1) rest
      | none => offlineScan (offset + 1) rest
termination_by stream.length
decreasing_by
  · have := telegramAt_length_pos _hf
    simp only [List.length_drop, List.length_cons] at this ⊢
    omega
  · simp
  · simp

theorem offlineScan_nil (offset : ℕ) : offlineScan offset [] = [] := by
  rw [offlineScan]

theorem offlineScan_frame {offset : ℕ} {stream : Bytes} {f : Frame}
    (h : telegramAt stream = some f) :
    offlineScan offset stream =
      (offset, .frame f) :: offlineScan (offset + f.raw.length) (stream.drop f.raw.length) := by
  cases stream with
  | nil =>
    have := telegramAt_length_pos h
    simp only [List.length_nil] at this
    omega
  | cons first rest =>
    rw [offlineScan]
    split
    · next f' h' =>
      obtain rfl : f = f' := Option.some.inj (h.symm.trans h')
      rfl
    · simp_all

theorem offlineScan_control {offset : ℕ} {first : UInt8} {rest : Bytes} {c : Control}
    (h : telegramAt (first :: rest) = none) (hc : Control.ofByte first = some c) :
    offlineScan offset (first :: rest) = (offset, .control c) :: offlineScan (offset + 1) rest := by
  rw [offlineScan]
  split
  · simp_all
  · simp [hc]

theorem offlineScan_skip {offset : ℕ} {first : UInt8} {rest : Bytes}
    (h : telegramAt (first :: rest) = none) (hc : Control.ofByte first = none) :
    offlineScan offset (first :: rest) = offlineScan (offset + 1) rest := by
  rw [offlineScan]
  split
  · simp_all
  · simp [hc]

/-- Every decision of a framing pass: a control, an accepted telegram, or one discarded byte. -/
theorem telegramFront_cases {first : UInt8} {rest : Bytes} {extra : ℕ} {finding : Finding}
    (h : telegramFront (first :: rest) = .consume extra finding) :
    (∃ c, finding = .control c ∧ extra = 0 ∧ Control.ofByte first = some c) ∨
      (∃ raw, finding = .frame raw ∧ telegramAt (first :: rest) = some (Frame.ofRaw raw) ∧
        raw.length = extra + 1) ∨
      (extra = 0 ∧ Control.ofByte first = none ∧
        (finding = .noise ∨ finding = .invalidLength ∨ ∃ raw, finding = .badCrc raw)) := by
  cases finding with
  | frame raw => exact .inr (.inl ⟨raw, rfl, (telegramFront_eq_frame_iff _ _ _).mp h⟩)
  | control c =>
    simp only [telegramFront, candidateFront] at h
    split at h
    · next c' hc' =>
      obtain ⟨rfl, hc⟩ := Verdict.consume.inj h
      exact .inl ⟨c, rfl, rfl, by rw [hc', Finding.control.inj hc]⟩
    · repeat' split at h
      all_goals simp at h
  | _ =>
    simp only [telegramFront, candidateFront] at h
    split at h
    · simp at h
    · next hnone =>
      repeat' split at h
      all_goals simp at h
      all_goals simp [hnone, h]

/-- Where the loop finds no frame, no telegram is encoded. -/
theorem telegramAt_eq_none {stream : Bytes}
    (h : ∀ extra raw, telegramFront stream ≠ .consume extra (.frame raw)) :
    telegramAt stream = none := by
  cases hf : telegramAt stream with
  | none => rfl
  | some f =>
    have hpos := (telegramAt_length_pos hf).1
    refine absurd ((telegramFront_eq_frame_iff stream (f.raw.length - 1) f.raw).mpr ?_) (h _ _)
    exact ⟨by rw [telegramAt_ofRaw hf, hf], by omega⟩

/-- A frame is the only finding which consumes more than one byte. -/
theorem width_eq_one_of_not_frame {stream : Bytes} {extra : ℕ} {finding : Finding}
    (h : telegramFront stream = .consume extra finding) (hframe : ∀ raw, finding ≠ .frame raw) :
    extra = 0 := by
  cases stream with
  | nil => cases h
  | cons first rest =>
    rcases telegramFront_cases h with ⟨c, -, hextra, -⟩ | ⟨raw, hraw, -, -⟩ | ⟨hextra, -, -⟩
    · exact hextra
    · exact absurd hraw (hframe raw)
    · exact hextra

/-- The events of the terminal pass are those of the offline scan. -/
theorem finish_events (c : Cursor UInt8) :
    (emittedBy (telegramLexer.finish c)).events = offlineScan c.offset c.buffer := by
  induction c using telegramLexer.finish_induction with
  | nil c h =>
    rw [telegramLexer.finish_of_nil h, h, offlineScan_nil]
    rfl
  | giveUp c h hne ih =>
    rw [telegramLexer.finish_of_undecided h hne]
    obtain ⟨offset, buffer⟩ := c
    cases buffer with
    | nil => exact absurd rfl hne
    | cons first rest =>
      have hfront : telegramFront (first :: rest) = .undecided := h
      have hcontrol : Control.ofByte first = none := by
        cases hc : Control.ofByte first with
        | none => rfl
        | some c => simp [telegramFront, hc] at hfront
      rw [offlineScan_skip (telegramAt_eq_none (by simp [hfront])) hcontrol]
      exact ih
  | step c extra finding h ih =>
    rw [telegramLexer.finish_of_consume h]
    obtain ⟨offset, buffer⟩ := c
    cases buffer with
    | nil => cases h
    | cons first rest =>
      have hfront : telegramFront (first :: rest) = .consume extra finding := h
      rcases telegramFront_cases hfront with ⟨c, rfl, rfl, hc⟩ | ⟨raw, rfl, hraw, hsize⟩ |
        ⟨rfl, hc, hdiscard⟩
      · rw [offlineScan_control (telegramAt_eq_none (by simp [hfront])) hc]
        exact congrArg (List.cons _) ih
      · rw [offlineScan_frame hraw, show (Frame.ofRaw raw).raw.length = extra + 1 from hsize]
        exact congrArg (List.cons _) ih
      · rw [offlineScan_skip (telegramAt_eq_none ?_) hc]
        · rcases hdiscard with rfl | rfl | ⟨raw, rfl⟩ <;> exact ih
        · rcases hdiscard with rfl | rfl | ⟨raw, rfl⟩ <;> simp [hfront]

namespace Framer

/-- `while framer.buffer: framer.expire()`. Each expiry drops a byte, so the loop ends. -/
def drain (f : Framer) : Emitted × Framer :=
  if _h : f.buffer = [] then ({}, f)
  else
    let now := f.expire
    let later := drain now.2
    (now.1.append later.1, later.2)
termination_by f.buffer.length
decreasing_by
  rw [expire_eq f _h]
  exact telegramLexer.expire_length_lt f.cursor _h

/-- A framer between calls waits at the front of its buffer. -/
def Settled (f : Framer) : Prop := telegramLexer.Settled f.cursor

theorem feed_settled (f : Framer) (data : Bytes) : (f.feed data).2.Settled := by
  rw [feed_eq]
  exact telegramLexer.run_settled _

theorem expire_settled (f : Framer) (h : f.buffer ≠ []) : f.expire.2.Settled := by
  rw [expire_eq f h]
  exact telegramLexer.run_settled _

/-- Draining is the lexer's terminal pass over the pending bytes. -/
theorem drain_eq (f : Framer) (hf : f.Settled) :
    f.drain = (emittedBy (telegramLexer.finish f.cursor),
      f.absorb (telegramLexer.finish f.cursor) ⟨f.offset + f.buffer.length, []⟩) := by
  induction hn : f.buffer.length using Nat.strongRecOn generalizing f with
  | ind n ih =>
    rw [drain]
    by_cases h : f.buffer = []
    · rw [dif_pos h, telegramLexer.finish_of_nil (c := f.cursor) h]
      obtain ⟨buffer, stats, offset⟩ := f
      obtain rfl : buffer = [] := h
      subst hn
      rfl
    · have hexpire := expire_eq f h
      have hshort := telegramLexer.expire_length_lt f.cursor h
      have hsplit := telegramLexer.finish_eq_expire f.cursor hf h
      have hend := telegramLexer.run_offset_add_length (f.cursor.skip 1)
      have hrest := ih _ (by rw [hexpire]; exact hn ▸ hshort) _ (expire_settled f h) rfl
      rw [dif_neg h]
      simp only [hrest]
      rw [hexpire, hsplit, emittedBy_append]
      simp only [absorb, cursor, FrameStats.recordAll_append, Prod.mk.injEq, true_and, Framer.mk.injEq]
      have hpos := List.length_pos_of_ne_nil h
      simp only [Cursor.skip, List.length_drop, cursor] at hend
      simp only [Lexer.expire, Cursor.skip]
      omega

/-- The number of expiries is at most the number of pending bytes. -/
theorem drain_calls (f : Framer) :
    ∃ calls ≤ f.buffer.length, (fun g : Framer => g.expire.2)^[calls] f = f.drain.2 := by
  induction hn : f.buffer.length using Nat.strongRecOn generalizing f with
  | ind n ih =>
    rw [drain]
    by_cases h : f.buffer = []
    · exact ⟨0, Nat.zero_le _, by rw [dif_pos h]; rfl⟩
    · have hshort : f.expire.2.buffer.length < n := by
        rw [expire_eq f h, ← hn]
        exact telegramLexer.expire_length_lt f.cursor h
      obtain ⟨calls, hcalls, heq⟩ := ih _ hshort _ rfl
      exact ⟨calls + 1, by omega, by rw [dif_neg h]; exact heq⟩

/-- Feeding and draining together are one terminal pass over the stream. -/
theorem feedAll_drain (chunks : List Bytes) :
    let fed := ({} : Framer).feedAll chunks
    (fed.1.append fed.2.drain.1, fed.2.drain.2) =
      (emittedBy (telegramLexer.finish ⟨0, chunks.flatten⟩),
        ({} : Framer).absorb (telegramLexer.finish ⟨0, chunks.flatten⟩) ⟨chunks.flatten.length, []⟩) := by
  have hfed := feed_eq {} chunks.flatten
  have hsettled := feed_settled {} chunks.flatten
  have hend := telegramLexer.run_offset_add_length ⟨0, chunks.flatten⟩
  have hsplit := telegramLexer.finish_eq_run ⟨0, chunks.flatten⟩
  have hpush : ({} : Framer).cursor.push chunks.flatten = ⟨0, chunks.flatten⟩ := by
    simp [cursor, Cursor.push]
  simp only [feedAll_eq_feed]
  rw [drain_eq _ hsettled, hfed, Lexer.feed, hpush, hsplit, emittedBy_append]
  simp only [absorb, cursor, FrameStats.recordAll_append, Prod.mk.injEq, true_and, Framer.mk.injEq]
  simpa using hend

end Framer

/-- The events of a list of findings, one finding at a time. -/
theorem emittedBy_events (tokens : List (Token Finding)) :
    (emittedBy tokens).events = tokens.flatMap fun t => (t.finding.emitted t.offset).events := by
  induction tokens with
  | nil => rfl
  | cons t rest ih => simp [emittedBy, Emitted.append, ih]

/-- The terminal pass emits every telegram of the stream which is not inside an emitted one. -/
theorem finish_emits (stream : Bytes) (p : ℕ) (f : Frame)
    (h : telegramAt (stream.drop p) = some f) :
    ∃ o g, (o, Event.frame g) ∈ (emittedBy (telegramLexer.finish ⟨0, stream⟩)).events ∧
      ((o = p ∧ g = f) ∨ (o < p ∧ p < o + g.raw.length)) := by
  have hlength := telegramAt_length_pos h
  rw [List.length_drop] at hlength
  obtain ⟨t, ht, hlow, hhigh⟩ :=
    (telegramLexer.finish_tiles ⟨0, stream⟩).covers (p := p) (Nat.zero_le _) (by simp only; omega)
  have hdecision := telegramLexer.finish_decision _ ht
  simp only [Nat.sub_zero, Lexer.decision] at hdecision
  have hemit : ∀ raw, t.finding = .frame raw →
      (t.offset, Event.frame (Frame.ofRaw raw)) ∈
        (emittedBy (telegramLexer.finish ⟨0, stream⟩)).events := by
    intro raw hraw
    rw [emittedBy_events, List.mem_flatMap]
    exact ⟨t, ht, by simp [hraw, Finding.emitted]⟩
  rcases Nat.eq_or_lt_of_le hlow with heq | hlt
  · have hfront := (telegramFront_eq_frame_iff (stream.drop p) (f.raw.length - 1) f.raw).mpr
      ⟨by rw [telegramAt_ofRaw h, h], by omega⟩
    have hfront : telegramLexer.front (stream.drop p) = _ := hfront
    rw [heq, hfront] at hdecision
    have hraw := (Prod.mk.inj hdecision).2
    exact ⟨_, _, hemit _ hraw, .inl ⟨heq, telegramAt_ofRaw h⟩⟩
  · cases hfront : telegramLexer.front (stream.drop t.offset) with
    | undecided =>
      rw [hfront] at hdecision
      have := (Prod.mk.inj hdecision).1
      omega
    | consume extra finding =>
      rw [hfront] at hdecision
      obtain ⟨hwidth, hfinding⟩ := Prod.mk.inj hdecision
      by_cases hframe : ∃ raw, finding = .frame raw
      · obtain ⟨raw, rfl⟩ := hframe
        have hsize := ((telegramFront_eq_frame_iff _ _ _).mp hfront).2
        refine ⟨_, _, hemit _ hfinding, .inr ⟨hlt, ?_⟩⟩
        show p < t.offset + raw.length
        omega
      · have := width_eq_one_of_not_frame hfront (not_exists.mp hframe)
        omega

namespace Framer

/-- Feeding any chunks and expiring until nothing is pending ends and is the offline scan, which
emits every telegram of the stream except those strictly inside an emitted telegram. -/
theorem resynchronisation_complete (chunks : List Bytes) :
    let fed := ({} : Framer).feedAll chunks
    let drained := fed.2.drain
    let events := fed.1.events ++ drained.1.events
    (∃ calls ≤ fed.2.buffer.length, (fun g : Framer => g.expire.2)^[calls] fed.2 = drained.2) ∧
      drained.2.buffer = [] ∧
      events = offlineScan 0 chunks.flatten ∧
      ∀ p f, telegramAt (chunks.flatten.drop p) = some f →
        ∃ o g, (o, Event.frame g) ∈ events ∧ ((o = p ∧ g = f) ∨ (o < p ∧ p < o + g.raw.length)) := by
  have h := feedAll_drain chunks
  simp only at h
  obtain ⟨hemitted, hframer⟩ := Prod.mk.inj h
  have hevents := congrArg Emitted.events hemitted
  simp only [Emitted.append] at hevents
  refine ⟨drain_calls _, by rw [hframer]; rfl, ?_, ?_⟩
  · rw [hevents, finish_events]
  · intro p f hp
    rw [hevents]
    exact finish_emits _ p f hp

end Framer

end Lms200
