import Lms200.Protocol.Framing
import Lms200.Resync.Lexer

/-!
# The `Framer` is a resynchronising lexer

`telegramFront` states the decision one pass of the framing loop takes at the front of its
buffer. It reads only bytes it has, so it is a stable lexer, and `feed` and `expire` are
that lexer's run and expiry with the findings counted in `stats`. Chunk independence of
`feed` is then the lexer's.
-/

namespace Lms200

open Resync

/-- What one pass of the framing loop finds at the front of the buffer. -/
inductive Finding where
  | control (c : Control)
  | noise
  | invalidLength
  | badCrc (raw : Bytes)
  | frame (raw : Bytes)
  | truncated
  deriving DecidableEq, Repr

/-- The payload length declared by a telegram header. -/
def declaredLength (buffer : Bytes) : ℕ := fromBytesLittle (slice buffer 2 4)

/-- The decision on a candidate, which starts with `STX`: only a CRC-valid telegram is consumed
whole. -/
def candidateFront (buffer : Bytes) : Verdict Finding :=
  if buffer.length < 4 then .undecided
  else if ¬ (1 ≤ declaredLength buffer ∧ declaredLength buffer ≤ MAX_PAYLOAD) then
    .consume 0 .invalidLength
  else if buffer.length < declaredLength buffer + 6 then .undecided
  else if (FrameCandidate.ofRaw 0 (buffer.take (declaredLength buffer + 6))).crc_valid = false then
    .consume 0 (.badCrc (buffer.take (declaredLength buffer + 6)))
  else .consume (declaredLength buffer + 5) (.frame (buffer.take (declaredLength buffer + 6)))

/-- The decision of one pass. -/
def telegramFront (buffer : Bytes) : Verdict Finding :=
  match buffer with
  | [] => .undecided
  | first :: _ =>
    match Control.ofByte first with
    | some c => .consume 0 (.control c)
    | none => if first ≠ STX then .consume 0 .noise else candidateFront buffer

/-- A complete header declares the same length whatever follows it. -/
theorem declaredLength_append {buffer : Bytes} (later : Bytes) (h : 4 ≤ buffer.length) :
    declaredLength (buffer ++ later) = declaredLength buffer := by
  rw [declaredLength, slice, List.take_append_of_le_length h]
  rfl

/-- A candidate is consumed up to its end, or only its first byte is. -/
theorem candidateFront_fits {buffer : Bytes} {extra : ℕ} {finding : Finding}
    (h : candidateFront buffer = .consume extra finding) : extra < buffer.length := by
  unfold candidateFront at h
  split at h
  · cases h
  · split at h
    · obtain ⟨rfl, rfl⟩ := Verdict.consume.inj h
      omega
    · split at h
      · cases h
      · split at h
        · obtain ⟨rfl, rfl⟩ := Verdict.consume.inj h
          omega
        · obtain ⟨rfl, rfl⟩ := Verdict.consume.inj h
          omega

/-- A decided candidate stays decided: the decision reads the declared telegram only. -/
theorem candidateFront_stable {buffer : Bytes} {extra : ℕ} {finding : Finding} (later : Bytes)
    (h : candidateFront buffer = .consume extra finding) :
    candidateFront (buffer ++ later) = .consume extra finding := by
  unfold candidateFront at h ⊢
  split at h
  · cases h
  next hheader =>
  have hlength := declaredLength_append later (not_lt.mp hheader)
  rw [if_neg (by rw [List.length_append]; omega), hlength]
  split at h
  · next hbad => rwa [if_pos hbad]
  next hgood =>
  rw [if_neg hgood]
  split at h
  · cases h
  next htotal =>
  rw [if_neg (by rw [List.length_append]; omega), List.take_append_of_le_length (not_lt.mp htotal)]
  exact h

theorem telegramFront_fits {buffer : Bytes} {extra : ℕ} {finding : Finding}
    (h : telegramFront buffer = .consume extra finding) : extra < buffer.length := by
  cases buffer with
  | nil => cases h
  | cons first rest =>
    simp only [telegramFront] at h
    cases hc : Control.ofByte first with
    | some c =>
      rw [hc] at h
      obtain ⟨rfl, rfl⟩ := Verdict.consume.inj h
      simp
    | none =>
      simp only [hc] at h
      split at h
      · obtain ⟨rfl, rfl⟩ := Verdict.consume.inj h
        simp
      · exact candidateFront_fits h

theorem telegramFront_stable {buffer : Bytes} {extra : ℕ} {finding : Finding} (later : Bytes)
    (h : telegramFront buffer = .consume extra finding) :
    telegramFront (buffer ++ later) = .consume extra finding := by
  cases buffer with
  | nil => cases h
  | cons first rest =>
    unfold telegramFront at h
    rw [List.cons_append, telegramFront]
    cases hc : Control.ofByte first with
    | some c => simpa only [hc] using h
    | none =>
      simp only [hc] at h ⊢
      split at h
      · next hnoise => rwa [if_pos hnoise]
      · next hstx =>
        rw [if_neg hstx]
        exact candidateFront_stable later h

/-- The framing loop's decision procedure. -/
def telegramLexer : Lexer UInt8 Finding where
  front := telegramFront
  giveUp _ := .truncated
  fits := telegramFront_fits
  stable := telegramFront_stable

/-- What a finding adds to the output of `feed`. -/
def Finding.emitted (offset : ℕ) : Finding → Emitted
  | .control c => { events := [(offset, .control c)] }
  | .badCrc raw => { candidates := [FrameCandidate.ofRaw offset raw] }
  | .frame raw =>
    { events := [(offset, .frame (Frame.ofRaw raw))], candidates := [FrameCandidate.ofRaw offset raw] }
  | _ => {}

/-- What a finding adds to the counters. -/
def FrameStats.record (stats : FrameStats) : Finding → FrameStats
  | .control _ => stats
  | .noise => { stats with noise_bytes := stats.noise_bytes + 1 }
  | .invalidLength => { stats with invalid_lengths := stats.invalid_lengths + 1 }
  | .badCrc _ => { stats with crc_errors := stats.crc_errors + 1 }
  | .frame _ => { stats with frames := stats.frames + 1 }
  | .truncated => { stats with truncated_frames := stats.truncated_frames + 1 }

/-- The output of a list of findings, in stream order. -/
def emittedBy : List (Token Finding) → Emitted
  | [] => {}
  | t :: rest => (t.finding.emitted t.offset).append (emittedBy rest)

/-- The counters after a list of findings. -/
def FrameStats.recordAll (stats : FrameStats) (tokens : List (Token Finding)) : FrameStats :=
  tokens.foldl (fun stats t => stats.record t.finding) stats

@[simp] theorem Emitted.nil_append (e : Emitted) : Emitted.append {} e = e := rfl

@[simp] theorem Emitted.append_nil (e : Emitted) : e.append {} = e := by
  cases e
  simp [Emitted.append]

theorem Emitted.append_assoc (a b c : Emitted) : (a.append b).append c = a.append (b.append c) := by
  simp [Emitted.append]

theorem emittedBy_append (first second : List (Token Finding)) :
    emittedBy (first ++ second) = (emittedBy first).append (emittedBy second) := by
  induction first with
  | nil => rfl
  | cons t rest ih => rw [List.cons_append, emittedBy, ih, emittedBy, Emitted.append_assoc]

theorem FrameStats.recordAll_append (stats : FrameStats) (first second : List (Token Finding)) :
    stats.recordAll (first ++ second) = (stats.recordAll first).recordAll second :=
  List.foldl_append

namespace Framer

/-- The pending bytes and where they start. -/
def cursor (f : Framer) : Cursor UInt8 := ⟨f.offset, f.buffer⟩

/-- The framer after a list of findings which leave the given bytes pending. -/
def absorb (f : Framer) (tokens : List (Token Finding)) (c : Cursor UInt8) : Framer :=
  ⟨c.buffer, f.stats.recordAll tokens, c.offset⟩

/-- The loop of `feed` is a run of the lexer, given one pass for each buffered byte. -/
theorem loop_eq_run (fuel : ℕ) (f : Framer) (h : f.buffer.length ≤ fuel) :
    f.loop fuel = (emittedBy (telegramLexer.run f.cursor).1,
      f.absorb (telegramLexer.run f.cursor).1 (telegramLexer.run f.cursor).2) := by
  induction fuel generalizing f with
  | zero =>
    have hnil : f.buffer = [] := List.length_eq_zero_iff.mp (Nat.le_zero.mp h)
    have hfront : telegramLexer.front f.cursor.buffer = .undecided := by
      simp [cursor, hnil, telegramLexer.front_nil]
    rw [telegramLexer.run_of_undecided hfront]
    rfl
  | succ fuel ih =>
    have hwait : telegramFront f.buffer = .undecided →
        (({}, f) : Emitted × Framer) = (emittedBy (telegramLexer.run f.cursor).1,
          f.absorb (telegramLexer.run f.cursor).1 (telegramLexer.run f.cursor).2) := by
      intro hfront
      rw [telegramLexer.run_of_undecided (c := f.cursor) hfront]
      rfl
    -- Every branch which goes round again records one finding and then runs on the rest.
    have hstep : ∀ (extra : ℕ) (finding : Finding),
        telegramFront f.buffer = .consume extra finding →
        let next := loop fuel ({ f with stats := f.stats.record finding }.discard (extra + 1))
        ((finding.emitted f.offset).append next.1, next.2) =
          (emittedBy (telegramLexer.run f.cursor).1,
            f.absorb (telegramLexer.run f.cursor).1 (telegramLexer.run f.cursor).2) := by
      intro extra finding hfront
      have hpos := telegramFront_fits hfront
      have hshort : ({ f with stats := f.stats.record finding }.discard (extra + 1)).buffer.length ≤
          fuel := by
        simp only [discard, List.length_drop]
        omega
      rw [telegramLexer.run_of_consume (c := f.cursor) hfront]
      simp only [ih _ hshort]
      rfl
    obtain ⟨buffer, stats, offset⟩ := f
    cases buffer with
    | nil => exact hwait rfl
    | cons first rest =>
      have hfront : telegramFront (first :: rest) = match Control.ofByte first with
          | some c => .consume 0 (.control c)
          | none => if first ≠ STX then .consume 0 .noise else candidateFront (first :: rest) := rfl
      rw [loop]
      dsimp only
      cases hc : Control.ofByte first with
      | some c =>
        rw [hc] at hfront
        exact hstep 0 (.control c) hfront
      | none =>
        rw [hc] at hfront
        dsimp only at hfront ⊢
        by_cases hstx : first ≠ STX
        · rw [if_pos hstx] at hfront ⊢
          exact hstep 0 .noise hfront
        rw [if_neg hstx, candidateFront] at hfront
        rw [if_neg hstx]
        by_cases hheader : (first :: rest).length < 4
        · rw [if_pos hheader] at hfront ⊢
          exact hwait hfront
        rw [if_neg hheader] at hfront ⊢
        by_cases hlength : ¬ (1 ≤ declaredLength (first :: rest) ∧
            declaredLength (first :: rest) ≤ MAX_PAYLOAD)
        · rw [if_pos hlength] at hfront
          exact (if_pos hlength).trans (hstep 0 .invalidLength hfront)
        rw [if_neg hlength] at hfront
        refine (if_neg hlength).trans ?_
        by_cases htotal : (first :: rest).length < declaredLength (first :: rest) + 6
        · rw [if_pos htotal] at hfront
          exact (if_pos htotal).trans (hwait hfront)
        rw [if_neg htotal] at hfront
        refine (if_neg htotal).trans ?_
        by_cases hcrc : (FrameCandidate.ofRaw 0
            ((first :: rest).take (declaredLength (first :: rest) + 6))).crc_valid = false
        · rw [if_pos hcrc] at hfront
          exact (if_pos hcrc).trans (hstep 0 (.badCrc _) hfront)
        · rw [if_neg hcrc] at hfront
          exact (if_neg hcrc).trans (hstep _ (.frame _) hfront)

/-- `feed` runs the lexer on the extended buffer. -/
theorem feed_eq (f : Framer) (data : Bytes) :
    f.feed data = (emittedBy (telegramLexer.feed f.cursor data).1,
      f.absorb (telegramLexer.feed f.cursor data).1 (telegramLexer.feed f.cursor data).2) :=
  loop_eq_run _ _ le_rfl

/-- `expire` on pending bytes is the lexer's expiry. -/
theorem expire_eq (f : Framer) (h : f.buffer ≠ []) :
    f.expire = (emittedBy (telegramLexer.expire f.cursor).1,
      f.absorb (telegramLexer.expire f.cursor).1 (telegramLexer.expire f.cursor).2) := by
  rw [expire, if_neg h, feed_eq]
  simp only [Lexer.feed, Cursor.push_nil]
  rfl

/-- A chunk list is fed as the lexer feeds it. -/
theorem feedAll_eq (f : Framer) (chunks : List Bytes) :
    f.feedAll chunks = (emittedBy (telegramLexer.feedAll f.cursor chunks).1,
      f.absorb (telegramLexer.feedAll f.cursor chunks).1
        (telegramLexer.feedAll f.cursor chunks).2) := by
  induction chunks generalizing f with
  | nil => rfl
  | cons chunk rest ih =>
    rw [feedAll, feed_eq]
    simp only [ih, Lexer.feedAll, emittedBy_append]
    simp only [absorb, FrameStats.recordAll_append, cursor]

/-- A fresh framer waits for data. -/
theorem fresh_settled : telegramLexer.Settled ({} : Framer).cursor := telegramLexer.front_nil

/-- Chunks are received exactly as their concatenation. -/
theorem feedAll_eq_feed (chunks : List Bytes) :
    ({} : Framer).feedAll chunks = ({} : Framer).feed chunks.flatten := by
  rw [feedAll_eq, feed_eq, telegramLexer.feedAll_eq_feed _ fresh_settled]

/-- Every two ways of cutting a stream give the same events, candidates and final framer. -/
theorem feedAll_fragmentation (first second : List Bytes) (h : first.flatten = second.flatten) :
    ({} : Framer).feedAll first = ({} : Framer).feedAll second := by
  rw [feedAll_eq_feed, feedAll_eq_feed, h]

/-- A telegram cut inside its header, with an empty chunk, against the same bytes at once. -/
theorem feedAll_fragmentation_cut_header :
    ({} : Framer).feedAll [[0x02, 0x81], [], [0x03, 0x00, 0xA0, 0x00, 0x10, 0x36, 0x1A]] =
      ({} : Framer).feedAll [[0x02, 0x81, 0x03, 0x00, 0xA0, 0x00, 0x10, 0x36, 0x1A]] :=
  feedAll_fragmentation _ _ (by decide)

end Framer

end Lms200
