import Lms200.Ros2.Accumulator
import Lms200.Resync.Lexer

/-!
# The observations depend on the stream and the transmit point

The accumulator takes its decisions at one, two, four and the declared number of bytes and
never revises one, so it is a stable lexer whose findings are the observations without their
offset and transmit mark. What arrives before the transmit point starts before it.
-/

namespace Lms200.Ros2

open Resync

variable (library : SickLMSMessage)

/-- The payload length declared at the front of the pending bytes. -/
def declared (pending : Bytes) : ℕ := (pending.getD 2 0).toNat ||| ((pending.getD 3 0).toNat <<< 8)

/-- The observation of a complete candidate, without offset and transmit mark. -/
def candidateObservation (raw : Bytes) (length : ℕ) : Observation :=
  let payload := (raw.drop 4).take length
  let rebuilt := library.BuildMessage (raw.getD 1 0) payload
  { kind := .frame, bytes := raw, declared_payload := length
    wire_crc := Native.word raw (length + 4)
    calculated_crc := Native.word rebuilt (length + 4)
    crc_ok := Native.word raw (length + 4) = Native.word rebuilt (length + 4)
    status_layout := payload.getD 0 0 = 0xB1 ∧ (length = 148 ∨ length = 154) }

/-- The decision on pending bytes which start with `STX`. -/
def candidateDecision (pending : Bytes) : Verdict Observation :=
  if pending.length < 2 then .undecided
  else if pending.getD 1 0 ≠ 0x80 ∧ pending.getD 1 0 ≠ 0x81 then
    .consume 0 { kind := .unrecognized_stx, bytes := pending.take 1 }
  else if pending.length < 4 then .undecided
  else if declared pending = 0 ∨ declared pending > library.MESSAGE_PAYLOAD_MAX_LENGTH then
    .consume 3
      { kind := .invalid_length, bytes := pending.take 4, declared_payload := declared pending }
  else if pending.length < declared pending + 6 then .undecided
  else .consume (declared pending + 5)
    (candidateObservation library (pending.take (declared pending + 6)) (declared pending))

/-- The decision of one pass. -/
def decision (pending : Bytes) : Verdict Observation :=
  match pending with
  | [] => .undecided
  | first :: rest =>
    if first ≠ 0x02 then
      .consume 0
        { kind := if first = 0x06 then .ack else if first = 0x15 then .nak else .noise
          bytes := [first] }
    else candidateDecision library (first :: rest)

variable {library}

/-- A complete header declares the same length whatever follows it. -/
theorem declared_append {pending : Bytes} (later : Bytes) (h : 4 ≤ pending.length) :
    declared (pending ++ later) = declared pending := by
  rw [declared, declared, List.getD_append _ _ _ _ (by omega), List.getD_append _ _ _ _ (by omega)]

/-- A decision consumes what it records, which is there. -/
theorem decision_stretch {pending : Bytes} {extra : ℕ} {item : Observation}
    (h : decision library pending = .consume extra item) :
    extra < pending.length ∧ item.bytes = pending.take (extra + 1) := by
  cases pending with
  | nil => cases h
  | cons first rest =>
    rw [decision] at h
    by_cases hstx : first ≠ 0x02
    · rw [if_pos hstx] at h
      obtain ⟨rfl, rfl⟩ := Verdict.consume.inj h
      exact ⟨Nat.succ_pos _, rfl⟩
    rw [if_neg hstx, candidateDecision] at h
    split at h
    · cases h
    split at h
    · obtain ⟨rfl, rfl⟩ := Verdict.consume.inj h
      exact ⟨Nat.succ_pos _, rfl⟩
    split at h
    · cases h
    next hheader =>
    split at h
    · obtain ⟨rfl, rfl⟩ := Verdict.consume.inj h
      exact ⟨not_lt.mp hheader, rfl⟩
    split at h
    · cases h
    next htotal =>
    obtain ⟨rfl, rfl⟩ := Verdict.consume.inj h
    exact ⟨not_lt.mp htotal, rfl⟩

/-- A decision reads only bytes which are there. -/
theorem decision_stable {pending : Bytes} {extra : ℕ} {item : Observation} (later : Bytes)
    (h : decision library pending = .consume extra item) :
    decision library (pending ++ later) = .consume extra item := by
  cases pending with
  | nil => cases h
  | cons first rest =>
    rw [List.cons_append, decision]
    rw [decision] at h
    by_cases hstx : first ≠ 0x02
    · rwa [if_pos hstx] at h ⊢
    rw [if_neg hstx] at h ⊢
    rw [← List.cons_append]
    generalize first :: rest = pending at h ⊢
    rw [candidateDecision] at h ⊢
    split at h
    · cases h
    next htwo =>
    have haddress : (pending ++ later).getD 1 0 = pending.getD 1 0 :=
      List.getD_append _ _ _ _ (by omega)
    rw [if_neg (by rw [List.length_append]; omega), haddress]
    split at h
    · next hforeign => rwa [if_pos hforeign, List.take_append_of_le_length (by omega)]
    next haccepted =>
    rw [if_neg haccepted]
    split at h
    · cases h
    next hfour =>
    rw [if_neg (by rw [List.length_append]; omega), declared_append later (by omega)]
    split at h
    · next hbad => rwa [if_pos hbad, List.take_append_of_le_length (by omega)]
    next hgood =>
    rw [if_neg hgood]
    split at h
    · cases h
    next htotal =>
    rwa [if_neg (by rw [List.length_append]; omega), List.take_append_of_le_length (by omega)]

variable (library) in
/-- The accumulator's decision procedure. A capture which ends reports nothing more. -/
def observationLexer : Lexer UInt8 Observation where
  front := decision library
  giveUp _ := {}
  fits h := (decision_stretch h).1
  stable := decision_stable

/-- The observation of a token, given the transmit point. -/
def stamp (boundary : Option ℕ) (t : Token Observation) : Observation :=
  { t.finding with offset := t.offset, post_tx := boundary.any fun b => t.offset ≥ b }

namespace Accumulator

/-- The pending bytes and where they start. -/
def cursor (a : Accumulator) : Cursor UInt8 := ⟨a.consumed, a.pending⟩

/-- One pass takes the lexer's decision and never throws. -/
theorem pass_eq (a : Accumulator) :
    a.pass library = match decision library a.pending with
      | .undecided => .wait
      | .consume extra item =>
        .observe (stamp a.tx_boundary ⟨a.consumed, extra + 1, item⟩) (extra + 1) := by
  obtain ⟨pending, received, consumed, boundary⟩ := a
  cases pending with
  | nil => rfl
  | cons first rest =>
    have hdeclared : ((first :: rest).getD 2 0).toNat ||| (((first :: rest).getD 3 0).toNat <<< 8) =
        declared (first :: rest) := rfl
    simp only [pass, decision, hdeclared]
    by_cases hstx : first ≠ 0x02
    · rw [if_pos hstx, if_pos hstx]
      rfl
    rw [if_neg hstx, if_neg hstx, candidateDecision]
    split_ifs with htwo hforeign hfour hbad htotal
    · rfl
    · rfl
    · rfl
    · rfl
    · rfl
    · -- The guard of `build_frame` has been checked before.
      obtain ⟨hzero, hmax⟩ := not_or.mp hbad
      have hpayload : (((first :: rest).take (declared (first :: rest) + 6)).drop 4).take
          (declared (first :: rest)) = ((first :: rest).drop 4).take (declared (first :: rest)) := by
        rw [List.drop_take, List.take_take, min_eq_left (by omega)]
      have hlength : (((first :: rest).drop 4).take (declared (first :: rest))).length =
          declared (first :: rest) := by
        rw [List.length_take, List.length_drop]
        omega
      have hguard : ¬ (((first :: rest).drop 4).take (declared (first :: rest)) = [] ∨
          (((first :: rest).drop 4).take (declared (first :: rest))).length >
            library.MESSAGE_PAYLOAD_MAX_LENGTH) := by
        rw [hlength]
        rintro (hnil | hlong)
        · rw [hnil] at hlength
          exact hzero hlength.symm
        · exact hmax hlong
      have haddress : ((first :: rest).take (declared (first :: rest) + 6)).getD 1 0 =
          (first :: rest).getD 1 0 := by
        simp
      rw [build_frame, if_neg hguard]
      simp only [candidateObservation, stamp, hpayload, haddress]
      rfl

/-- The accumulator after decisions which leave the given bytes pending. -/
def absorb (a : Accumulator) (c : Cursor UInt8) : Accumulator :=
  { a with pending := c.buffer, consumed := c.offset }

/-- The loop of `feed` is a run of the lexer, given one pass for each pending byte. -/
theorem loop_eq_run (fuel : ℕ) (a : Accumulator) (h : a.pending.length ≤ fuel) :
    a.loop library fuel = .ok
      (((observationLexer library).run a.cursor).1.map (stamp a.tx_boundary),
        a.absorb ((observationLexer library).run a.cursor).2) := by
  have hwait : ∀ a : Accumulator, decision library a.pending = .undecided →
      .ok ([], a) = (.ok (((observationLexer library).run a.cursor).1.map (stamp a.tx_boundary),
        a.absorb ((observationLexer library).run a.cursor).2) :
          Except String (List Observation × Accumulator)) := by
    intro a hfront
    rw [(observationLexer library).run_of_undecided (c := a.cursor) hfront]
    rfl
  induction fuel generalizing a with
  | zero =>
    have hnil : a.pending = [] := List.length_eq_zero_iff.mp (Nat.le_zero.mp h)
    exact hwait a (by rw [hnil]; rfl)
  | succ fuel ih =>
    rw [loop, pass_eq]
    cases hfront : decision library a.pending with
    | undecided => exact hwait a hfront
    | consume extra item =>
      have hfit := (decision_stretch hfront).1
      have hshort : (a.consume (extra + 1)).pending.length ≤ fuel := by
        simp only [consume, List.length_drop]
        omega
      rw [(observationLexer library).run_of_consume (c := a.cursor) hfront]
      simp only [ih _ hshort]
      rfl

/-- Receiving bytes runs the lexer on what is then pending. -/
theorem feed_eq (a : Accumulator) (bytes : Bytes) :
    a.feed library bytes = .ok
      (((observationLexer library).feed a.cursor bytes).1.map (stamp a.tx_boundary),
        { a.absorb ((observationLexer library).feed a.cursor bytes).2 with
          received := a.received + bytes.length }) :=
  loop_eq_run _ _ le_rfl

/-- Receiving chunks runs the lexer on all of them. -/
theorem calls_feed_eq (a : Accumulator) (chunks : List Bytes) :
    a.calls library (chunks.map .feed) = .ok
      (((observationLexer library).feedAll a.cursor chunks).1.map (stamp a.tx_boundary),
        { a.absorb ((observationLexer library).feedAll a.cursor chunks).2 with
          received := a.received + chunks.flatten.length }) := by
  induction chunks generalizing a with
  | nil => rfl
  | cons chunk rest ih =>
    have hlater := ih { a.absorb ((observationLexer library).feed a.cursor chunk).2 with
      received := a.received + chunk.length }
    rw [List.map_cons, calls, call, feed_eq]
    simp only [bind, Except.bind, hlater, List.flatten_cons, List.length_append, Lexer.feedAll,
      List.map_append, Nat.add_assoc]
    rfl

/-- A settled accumulator receives chunks as it receives their concatenation. -/
theorem calls_feed_run (a : Accumulator) (h : decision library a.pending = .undecided)
    (chunks : List Bytes) :
    let run := (observationLexer library).run ⟨a.consumed, a.pending ++ chunks.flatten⟩
    a.calls library (chunks.map .feed) = .ok (run.1.map (stamp a.tx_boundary),
      { pending := run.2.buffer, consumed := run.2.offset
        received := a.received + chunks.flatten.length, tx_boundary := a.tx_boundary }) := by
  have hsettled : (observationLexer library).Settled a.cursor := h
  rw [calls_feed_eq, (observationLexer library).feedAll_eq_feed _ hsettled]
  rfl

/-- Calls in two parts. -/
theorem calls_append {first second : List Call} {a a' : Accumulator} {items : List Observation}
    (h : a.calls library first = .ok (items, a')) :
    a.calls library (first ++ second) = (a'.calls library second).map fun later =>
      (items ++ later.1, later.2) := by
  induction first generalizing a items with
  | nil =>
    obtain ⟨rfl, rfl⟩ := Prod.mk.inj (Except.ok.inj h)
    rw [List.nil_append]
    cases a.calls library second <;> rfl
  | cons c rest ih =>
    rw [calls] at h
    rw [List.cons_append, calls]
    cases hnow : a.call library c with
    | error message => rw [hnow] at h; cases h
    | ok now =>
      rw [hnow] at h
      cases hlater : now.2.calls library rest with
      | error message => simp [bind, Except.bind, hlater] at h
      | ok later =>
        simp only [bind, Except.bind, hlater, Except.ok.injEq, Prod.mk.injEq] at h
        obtain ⟨rfl, rfl⟩ := h
        simp only [bind, Except.bind, ih hlater]
        cases later.2.calls library second with
        | error message => rfl
        | ok more => simp [Except.map]

/-- Decisions taken before the transmit point lie before it, so stamping them later changes nothing. -/
theorem stamp_before {tokens : List (Token Observation)} {stop boundary : ℕ}
    (h : Tiles 0 tokens stop) (hstop : stop ≤ boundary) :
    tokens.map (stamp none) = tokens.map (stamp (some boundary)) := by
  refine List.map_congr_left fun t ht => ?_
  obtain ⟨-, hwidth, hend⟩ := h.mem_bounds ht
  have hbefore : ¬ t.offset ≥ boundary := by omega
  simp [stamp, hbefore]

/-- The run with one transmit point is the lexer's run over the whole stream, stamped with it. -/
theorem calls_marked (before after : List Bytes) :
    let run := (observationLexer library).run ⟨0, before.flatten ++ after.flatten⟩
    ({} : Accumulator).calls library
        (before.map .feed ++ .mark_tx_boundary :: after.map .feed) = .ok
      (run.1.map (stamp (some before.flatten.length)),
        { pending := run.2.buffer, consumed := run.2.offset
          received := before.flatten.length + after.flatten.length
          tx_boundary := some before.flatten.length }) := by
  have hbefore := @calls_feed_run library {} rfl before
  have hpush := (observationLexer library).run_push ⟨0, before.flatten⟩ after.flatten
  have htiles := (observationLexer library).run_tiles ⟨0, before.flatten⟩
  have hlength := (observationLexer library).run_offset_add_length ⟨0, before.flatten⟩
  have hsettled := (observationLexer library).run_settled ⟨0, before.flatten⟩
  simp only [List.nil_append, Nat.zero_add] at hbefore hlength
  simp only [Cursor.push] at hpush
  generalize (observationLexer library).run ⟨0, before.flatten⟩ = first at *
  have hafter := @calls_feed_run library
    ⟨first.2.buffer, before.flatten.length, first.2.offset, some before.flatten.length⟩ hsettled after
  simp only [hpush, List.map_append]
  rw [calls_append hbefore, calls, call, stamp_before htiles (show _ ≤ before.flatten.length by omega)]
  simp only [bind, Except.bind, mark_tx_boundary, hafter, Except.map, List.nil_append]

@[simp] theorem stamp_bytes (boundary : Option ℕ) (t : Token Observation) :
    (stamp boundary t).bytes = t.finding.bytes := rfl

/-- A token of a run records as many bytes as it consumes. -/
theorem token_width (c : Cursor UInt8) :
    ∀ t ∈ ((observationLexer library).run c).1, t.finding.bytes.length = t.width := by
  intro t ht
  obtain ⟨-, hwidth, -⟩ := ((observationLexer library).run_tiles c).mem_bounds ht
  obtain ⟨hfits, hbytes⟩ := decision_stretch ((observationLexer library).run_decision c ht)
  rw [hbytes, List.length_take]
  omega

/-- Whatever the chunks, with the transmit point between two of them: the calls succeed, and what
they observe is what the stream received at once shows, marked as after the transmit point exactly
from there on; the observed bytes, in order and joined to the pending ones, are the stream, and
every observation carries the offset at which its bytes stand. -/
theorem observations_stable (library : SickLMSMessage) (before after : List Bytes) :
    ∃ observations a,
      ({} : Accumulator).calls library
          (before.map .feed ++ .mark_tx_boundary :: after.map .feed) = .ok (observations, a) ∧
      (∀ before' after' : List Bytes,
        before'.flatten = before.flatten → after'.flatten = after.flatten →
        ({} : Accumulator).calls library
          (before'.map .feed ++ .mark_tx_boundary :: after'.map .feed) = .ok (observations, a)) ∧
      (∃ plain whole, ({} : Accumulator).feed library (before.flatten ++ after.flatten) =
          .ok (plain, whole) ∧
        observations.map (fun item => { item with post_tx := false }) = plain) ∧
      (∀ item ∈ observations, item.post_tx = true ↔ before.flatten.length ≤ item.offset) ∧
      observations.flatMap Observation.bytes ++ a.pending = before.flatten ++ after.flatten ∧
      ∀ earlier item later, observations = earlier ++ item :: later →
        item.bytes ≠ [] ∧ item.offset = (earlier.flatMap Observation.bytes).length := by
  refine ⟨_, _, calls_marked before after, ?_, ⟨_, _, feed_eq {} _, ?_⟩, ?_, ?_, ?_⟩
  · intro before' after' hbefore hafter
    rw [calls_marked, hbefore, hafter]
  · rw [List.map_map]
    rfl
  · intro item hitem
    obtain ⟨t, -, rfl⟩ := List.mem_map.mp hitem
    simp [stamp]
  · have hstretches := (observationLexer library).run_stretches Observation.bytes
      (fun h => (decision_stretch h).2) ⟨0, before.flatten ++ after.flatten⟩
    rw [List.flatMap_map]
    exact hstretches
  · intro earlier item later hsplit
    obtain ⟨first, rest, htokens, rfl, hrest⟩ := List.map_eq_append_iff.mp hsplit
    obtain ⟨t, more, rfl, rfl, rfl⟩ := List.map_eq_cons_iff.mp hrest
    have htiles := (observationLexer library).run_tiles ⟨0, before.flatten ++ after.flatten⟩
    have hwidth := @token_width library ⟨0, before.flatten ++ after.flatten⟩
    rw [htokens] at htiles hwidth
    have hpos := (htiles.mem_bounds (t := t) (by simp)).2.1
    refine ⟨List.ne_nil_of_length_pos ?_, ?_⟩
    · rw [stamp_bytes, hwidth t (by simp)]
      exact hpos
    · rw [List.flatMap_map, List.length_flatMap]
      refine htiles.offset_eq.trans ?_
      rw [Nat.zero_add]
      congr 1
      exact List.map_congr_left fun u hu => (hwidth u (by simp [hu])).symm

end Accumulator

end Lms200.Ros2
