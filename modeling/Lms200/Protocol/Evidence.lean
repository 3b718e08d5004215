import Lms200.Protocol.OfflineScan

/-!
# What the framer finds in a stream

The events of feeding a stream at once, as a function of the bytes alone: what an earlier part
of the stream yields stays as it is when more arrives, offsets increase, frames are telegrams
of the stream, and the evidence handed to the observer pairs with the frames in order.
-/

namespace Lms200

open Resync

/-- The events of feeding a stream to a fresh framer. -/
def scan (stream : Bytes) : List (ℕ × Event) := (({} : Framer).feed stream).1.events

/-- Bytes which arrive later only add events. -/
theorem scan_append (stream : Bytes) (chunks : List Bytes) :
    scan (stream ++ chunks.flatten) =
      scan stream ++ ((({} : Framer).feed stream).2.feedAll chunks).1.events := by
  have h := Framer.feedAll_eq_feed (stream :: chunks)
  rw [List.flatten_cons] at h
  rw [scan, ← h]
  rfl

/-- A framer which has consumed a stream goes on as if it had been fed at once. -/
theorem feed_feed (stream data : Bytes) :
    ((({} : Framer).feed stream).2.feed data).2 = (({} : Framer).feed (stream ++ data)).2 := by
  have h := Framer.feedAll_eq_feed [stream, data]
  rw [show ([stream, data] : List Bytes).flatten = stream ++ data by simp] at h
  rw [← h]
  rfl

/-- A finding is reported at its own offset, and only once. -/
theorem Finding.emitted_events (finding : Finding) (offset : ℕ) :
    (finding.emitted offset).events = [] ∨ ∃ e, (finding.emitted offset).events = [(offset, e)] := by
  cases finding with
  | control c => exact .inr ⟨_, rfl⟩
  | frame raw => exact .inr ⟨_, rfl⟩
  | _ => exact .inl rfl

/-- The tokens behind the events of a scan. -/
theorem scan_eq (stream : Bytes) :
    scan stream = (telegramLexer.run ⟨0, stream⟩).1.flatMap fun t =>
      (t.finding.emitted t.offset).events := by
  rw [scan, Framer.feed_eq, ← emittedBy_events]
  rfl

/-- Events are found at increasing offsets. -/
theorem scan_sorted (stream : Bytes) : (scan stream).Pairwise fun a b => a.1 < b.1 := by
  rw [scan_eq]
  have htiles := telegramLexer.run_tiles (⟨0, stream⟩ : Cursor UInt8)
  refine List.pairwise_flatMap.mpr ⟨fun t _ => ?_, (htiles.pairwise.imp_of_mem ?_)⟩
  · rcases t.finding.emitted_events t.offset with h | ⟨e, h⟩ <;> simp [h]
  · intro t u ht _ hlt a ha b hb
    have hwidth := (htiles.mem_bounds ht).2.1
    have hoffset : ∀ (t : Token Finding) a, a ∈ (t.finding.emitted t.offset).events →
        a.1 = t.offset := by
      intro t a ha
      rcases t.finding.emitted_events t.offset with h | ⟨e, h⟩
      · simp [h] at ha
      · rw [h, List.mem_singleton] at ha
        rw [ha]
    rw [hoffset t a ha, hoffset u b hb]
    omega

/-- A frame of a scan is a telegram of the stream at its offset. -/
theorem scan_frame {stream : Bytes} {o : ℕ} {f : Frame} (h : (o, Event.frame f) ∈ scan stream) :
    telegramAt (stream.drop o) = some f := by
  rw [scan_eq, List.mem_flatMap] at h
  obtain ⟨t, ht, hmem⟩ := h
  cases hfinding : t.finding with
  | frame raw =>
    rw [hfinding] at hmem
    simp only [Finding.emitted, List.mem_singleton, Prod.mk.injEq, Event.frame.injEq] at hmem
    obtain ⟨rfl, rfl⟩ := hmem
    have hdecision := telegramLexer.run_decision _ ht
    rw [hfinding] at hdecision
    exact ((telegramFront_eq_frame_iff _ _ _).mp hdecision).1
  | _ =>
    rw [hfinding] at hmem
    simp [Finding.emitted] at hmem

/-- The offset and the wire bytes of a frame event. -/
def frameAt : ℕ × Event → Option (ℕ × Bytes)
  | (o, .frame f) => some (o, f.raw)
  | _ => none

/-- Only accepted candidates are valid ones. -/
def Finding.Sound : Finding → Prop
  | .badCrc raw => (FrameCandidate.ofRaw 0 raw).crc_valid = false
  | .frame raw => (FrameCandidate.ofRaw 0 raw).crc_valid = true
  | _ => True

/-- The framing loop calls a candidate valid exactly when its checksums agree. -/
theorem telegramFront_sound {buffer : Bytes} {extra : ℕ} {finding : Finding}
    (h : telegramFront buffer = .consume extra finding) : finding.Sound := by
  have hcandidate : ∀ buffer : Bytes, candidateFront buffer = .consume extra finding →
      finding.Sound := by
    intro buffer h
    unfold candidateFront at h
    split at h
    · cases h
    split at h
    · obtain ⟨-, rfl⟩ := Verdict.consume.inj h
      trivial
    split at h
    · cases h
    split at h
    · next hcrc =>
      obtain ⟨-, rfl⟩ := Verdict.consume.inj h
      exact hcrc
    · next hcrc =>
      obtain ⟨-, rfl⟩ := Verdict.consume.inj h
      exact Bool.eq_true_of_not_eq_false hcrc
  cases buffer with
  | nil => cases h
  | cons first rest =>
    simp only [telegramFront] at h
    split at h
    · obtain ⟨-, rfl⟩ := Verdict.consume.inj h
      trivial
    · split at h
      · obtain ⟨-, rfl⟩ := Verdict.consume.inj h
        trivial
      · exact hcandidate _ h

/-- The valid candidates of sound findings are their frames, in order. -/
theorem emittedBy_evidence (tokens : List (Token Finding)) (h : ∀ t ∈ tokens, t.finding.Sound) :
    ((emittedBy tokens).candidates.filter (·.crc_valid)).map (fun c => (c.offset, c.raw)) =
      (emittedBy tokens).events.filterMap frameAt := by
  induction tokens with
  | nil => rfl
  | cons t rest ih =>
    have hrest := ih fun u hu => h u (List.mem_cons_of_mem _ hu)
    have hthis := h t List.mem_cons_self
    simp only [emittedBy, Emitted.append, List.filter_append, List.map_append,
      List.filterMap_append, hrest]
    congr 1
    have hcrc : ∀ raw, (FrameCandidate.ofRaw t.offset raw).crc_valid =
        (FrameCandidate.ofRaw 0 raw).crc_valid := fun _ => rfl
    cases hfinding : t.finding with
    | badCrc raw =>
      rw [hfinding] at hthis
      simp only [Finding.emitted]
      rw [List.filter_cons_of_neg (by rw [hcrc]; exact Bool.not_eq_true _ ▸ hthis)]
      rfl
    | frame raw =>
      rw [hfinding] at hthis
      simp only [Finding.emitted]
      rw [List.filter_cons_of_pos (by rw [hcrc]; exact hthis)]
      rfl
    | _ => rfl

/-- The valid candidates of one call pair with its frames, in order. -/
theorem feed_evidence (f : Framer) (data : Bytes) :
    ((f.feed data).1.candidates.filter (·.crc_valid)).map (fun c => (c.offset, c.raw)) =
      (f.feed data).1.events.filterMap frameAt := by
  rw [Framer.feed_eq]
  exact emittedBy_evidence _ fun t ht => telegramFront_sound (telegramLexer.run_decision _ ht)

end Lms200
