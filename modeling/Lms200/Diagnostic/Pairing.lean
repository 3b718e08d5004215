import Lms200.Diagnostic.Credit
import Lms200.Protocol.Accounting
import Mathlib.Data.List.Nodup

/-!
# Every telegram is paired with its own evidence

The observer queues a detail for each valid candidate while the framer parses; the events which the same
call returns then take the details from the queue. The frames and the valid candidates of a call agree in
order, so each frame meets the detail with its own bytes, and what decoding adds to a listed detail is
what its own bytes decode to.
-/

namespace Lms200.Diagnostic

/-- The detail without what decoding added. -/
def Detail.evidence (d : Detail) : Detail :=
  { d with
    status_byte := none
    identity := none
    decoded_status := none
    preceding_post_tx_ack := none
    decode_error := none }

/-- What processing a frame makes of the detail it takes. -/
def describe (post_ack : Bool) (frame : Frame) (detail : Detail) : Detail :=
  match response frame with
  | .error e => { detail with decode_error := some e }
  | .ok reply =>
    let detail := { detail with status_byte := some reply.status }
    if reply.command = 0x90 then
      if frame.payload.length ≠ 23 ∨ reply.data.take 7 ≠ Capture.identityStart then
        { detail with decode_error := some (.protocol "90h is not the documented LMS200 startup layout") }
      else
        match asciiStrip reply.data with
        | none => { detail with decode_error := some (.value "not ASCII") }
        | some identity => { detail with identity := some identity }
    else if reply.command = 0xB1 then
      match decode_status reply with
      | .error e => { detail with decode_error := some e }
      | .ok status => { detail with decoded_status := some status, preceding_post_tx_ack := some post_ack }
    else detail

/-- Decoding leaves the evidence as it was. -/
theorem describe_evidence (post_ack : Bool) (frame : Frame) (detail : Detail) :
    (describe post_ack frame detail).evidence = detail.evidence := by
  unfold describe
  cases response frame with
  | error e => rfl
  | ok reply =>
    dsimp only
    split
    · split
      · rfl
      · split <;> rfl
    · split
      · split <;> rfl
      · rfl

/-- What processing a frame does with the detail it takes: it is shown, and may become the startup, or
the status when the boundary and the acknowledgement allow it. -/
structure Decoded (before after : Capture) (frame : Frame) (detail : Detail) : Prop where
  shown : after.telegrams = (before.annotate (describe before.post_ack frame detail)).telegrams
  startup : after.startup = before.startup ∨
    after.startup = some (describe before.post_ack frame detail) ∧
      (describe before.post_ack frame detail).identity.isSome = true
  status : after.status = before.status ∨
    after.status = some (describe before.post_ack frame detail) ∧
      (describe before.post_ack frame detail).decoded_status.isSome = true ∧
      before.credits detail = true

namespace Capture

/-- Only what a detail shows is annotated, when neither the startup nor the status is set. -/
theorem annotate_decoded {c : Capture} {frame : Frame} {detail shown : Detail} (queue : List Detail)
    (h : describe c.post_ack frame detail = shown) :
    Decoded c ({ c with valid_candidates := queue }.annotate shown) frame detail := by
  subst h
  exact ⟨rfl, .inl rfl, .inl rfl⟩

/-- A frame decodes with the oldest detail not yet taken. -/
theorem processFrame_decoded (c : Capture) (frame : Frame) (detail : Detail) (rest : List Detail)
    (h : c.valid_candidates = detail :: rest) : Decoded c (c.processFrame frame) frame detail := by
  unfold processFrame
  rw [h]
  dsimp only
  cases hreply : response frame with
  | error e => exact annotate_decoded rest (by rw [describe, hreply])
  | ok reply =>
    have hdescribe := describe.eq_def c.post_ack frame detail
    rw [hreply] at hdescribe
    dsimp only at hdescribe ⊢
    unfold processReply
    dsimp only
    by_cases hstartup : reply.command = 0x90
    · rw [if_pos hstartup] at hdescribe ⊢
      by_cases hlayout : frame.payload.length ≠ 23 ∨ reply.data.take 7 ≠ identityStart
      · rw [if_pos hlayout] at hdescribe ⊢
        exact annotate_decoded rest hdescribe
      · rw [if_neg hlayout] at hdescribe ⊢
        cases hidentity : asciiStrip reply.data with
        | none =>
          rw [hidentity] at hdescribe
          exact annotate_decoded rest hdescribe
        | some identity =>
          rw [hidentity] at hdescribe
          exact ⟨by rw [hdescribe]; rfl, .inr ⟨by rw [hdescribe], by rw [hdescribe]; rfl⟩, .inl rfl⟩
    rw [if_neg hstartup] at hdescribe ⊢
    by_cases hstatus : reply.command = 0xB1
    · rw [if_pos hstatus] at hdescribe ⊢
      cases hdecoded : decode_status reply with
      | error e =>
        rw [hdecoded] at hdescribe
        exact annotate_decoded rest hdescribe
      | ok status =>
        rw [hdecoded] at hdescribe
        dsimp only
        split
        · next hcredits =>
          exact ⟨by rw [hdescribe]; rfl, .inl rfl,
            .inr ⟨by rw [hdescribe], by rw [hdescribe]; rfl, hcredits⟩⟩
        · exact annotate_decoded rest hdescribe
    · rw [if_neg hstatus] at hdescribe ⊢
      exact annotate_decoded rest hdescribe

/-- A listed telegram is shown as its own bytes decode, and only when they are valid. -/
def Described (t : Detail) : Prop :=
  if t.crc_valid then ∃ post_ack, t = describe post_ack (Frame.ofRaw t.raw) t.evidence else t = t.evidence

/-- A moment of a read: the details of the events still to be processed are queued, and the other listed
telegrams are described. -/
structure Pairs (found : List FrameCandidate) (rest : List (ℕ × Event)) (c : Capture) : Prop where
  listed : c.telegrams.map Detail.evidence = found.map Detail.ofCandidate
  queue : c.valid_candidates.map (fun d => (d.offset_start, d.raw)) = rest.filterMap frameAt
  queued : ∀ d ∈ c.valid_candidates, d ∈ c.telegrams ∧ d.evidence = d ∧ d.crc_valid = true
  described : ∀ t ∈ c.telegrams, t ∈ c.valid_candidates ∨ Described t
  startup : ∀ d, c.startup = some d → d ∈ c.telegrams ∧ d.identity.isSome = true
  status : ∀ d, c.status = some d → d ∈ c.telegrams ∧ d.decoded_status.isSome = true

/-- What the report lists after an annotation. -/
theorem mem_annotate (c : Capture) (shown t : Detail) :
    t ∈ (c.annotate shown).telegrams ↔
      (t = shown ∧ ∃ u ∈ c.telegrams, u.offset_start = shown.offset_start) ∨
        t ∈ c.telegrams ∧ t.offset_start ≠ shown.offset_start := by
  rw [annotate, List.mem_map]
  constructor
  · rintro ⟨u, hu, rfl⟩
    by_cases hoffset : u.offset_start = shown.offset_start
    · rw [if_pos hoffset]
      exact .inl ⟨rfl, u, hu, hoffset⟩
    · rw [if_neg hoffset]
      exact .inr ⟨hu, hoffset⟩
  · rintro (⟨rfl, u, hu, hoffset⟩ | ⟨ht, hoffset⟩)
    · exact ⟨u, hu, if_pos hoffset⟩
    · exact ⟨t, ht, if_neg hoffset⟩

/-- Listed telegrams are told apart by their offsets. -/
theorem Pairs.eq_of_offset {found : List FrameCandidate} {rest : List (ℕ × Event)} {c : Capture}
    (h : Pairs found rest c) (hdistinct : (found.map (·.offset)).Nodup) {t u : Detail} (ht : t ∈ c.telegrams)
    (hu : u ∈ c.telegrams) (hoffset : t.offset_start = u.offset_start) : t = u := by
  have hoffsets : c.telegrams.map (·.offset_start) = found.map (·.offset) := by
    have hmap := congrArg (List.map (·.offset_start)) h.listed
    rw [List.map_map, List.map_map] at hmap
    exact hmap
  rw [← hoffsets] at hdistinct
  exact List.inj_on_of_nodup_map hdistinct ht hu hoffset

/-- A control changes nothing that is paired. -/
theorem Pairs.control {found : List FrameCandidate} {rest : List (ℕ × Event)} {c : Capture} {o : ℕ}
    {control : Control} (h : Pairs found ((o, .control control) :: rest) c) (phase : Phase) :
    Pairs found rest (c.processControl phase control) := by
  obtain ⟨ack, nak, heq⟩ := processControl_eq c phase control
  rw [heq]
  exact ⟨h.listed, h.queue, h.queued, h.described, h.startup, h.status⟩

/-- The next frame meets the detail with its own bytes. -/
theorem Pairs.head {found : List FrameCandidate} {rest : List (ℕ × Event)} {c : Capture} {o : ℕ}
    {frame : Frame} (h : Pairs found ((o, .frame frame) :: rest) c) :
    ∃ detail queue, c.valid_candidates = detail :: queue ∧ detail.offset_start = o ∧ detail.raw = frame.raw ∧
      queue.map (fun d => (d.offset_start, d.raw)) = rest.filterMap frameAt := by
  have hqueue := h.queue
  cases hcandidates : c.valid_candidates with
  | nil => simp [hcandidates, frameAt] at hqueue
  | cons detail queue =>
    simp only [hcandidates, frameAt, List.map_cons, List.filterMap_cons, List.cons.injEq, Prod.mk.injEq] at hqueue
    exact ⟨detail, queue, rfl, hqueue.1.1, hqueue.1.2, hqueue.2⟩

/-- Processing a frame describes its own telegram. -/
theorem Pairs.frame {found : List FrameCandidate} {rest : List (ℕ × Event)} {c : Capture} {o : ℕ}
    {frame : Frame} (h : Pairs found ((o, .frame frame) :: rest) c) (hdistinct : (found.map (·.offset)).Nodup)
    (hlater : ∀ e ∈ rest, o < e.1) (hframe : Frame.ofRaw frame.raw = frame) :
    Pairs found rest (c.processFrame frame) := by
  obtain ⟨detail, queue, hcandidates, hoffset, hraw, hqueue⟩ := h.head
  obtain ⟨hlisted, hbare, hvalid⟩ := h.queued detail (by rw [hcandidates]; exact List.mem_cons_self)
  have hdecoded := processFrame_decoded c frame detail queue hcandidates
  have htaken : (c.processFrame frame).valid_candidates = queue := by
    obtain ⟨_, _, _, heq, -⟩ := c.processFrame_cases frame detail queue hcandidates
    rw [heq]
  obtain ⟨hshown, hstartup, hstatus⟩ := hdecoded
  generalize hdescribe : describe c.post_ack frame detail = shown at hshown hstartup hstatus
  have hevidence : shown.evidence = detail := by rw [← hdescribe, describe_evidence, hbare]
  have hsame : shown.offset_start = detail.offset_start := by
    rw [← hevidence]
    rfl
  have hdescribed : Described shown := by
    have hsameRaw : shown.raw = frame.raw := by
      rw [← hraw, ← hevidence]
      rfl
    have hsameValid : shown.crc_valid = true := by
      rw [← hvalid, ← hevidence]
      rfl
    rw [Described, if_pos hsameValid, hsameRaw, hframe, hevidence]
    exact ⟨_, hdescribe.symm⟩
  have hmem : ∀ t, t ∈ (c.processFrame frame).telegrams ↔
      t = shown ∨ t ∈ c.telegrams ∧ t.offset_start ≠ shown.offset_start := by
    intro t
    rw [hshown, mem_annotate]
    exact or_congr_left (and_iff_left ⟨detail, hlisted, hsame.symm⟩)
  -- A detail which is annotated already is not the one taken now.
  have hother : ∀ {t : Detail}, t ∈ c.telegrams → t ≠ detail → t ∈ (c.processFrame frame).telegrams := by
    intro t ht hne
    refine (hmem t).mpr (.inr ⟨ht, fun heq => hne ?_⟩)
    exact h.eq_of_offset hdistinct ht hlisted (heq.trans hsame)
  refine ⟨?_, ?_, ?_, ?_, ?_, ?_⟩
  · rw [← h.listed, hshown, annotate, List.map_map]
    apply List.map_congr_left
    intro t ht
    by_cases heq : t.offset_start = shown.offset_start
    · obtain rfl := h.eq_of_offset hdistinct ht hlisted (heq.trans hsame)
      simp only [Function.comp_apply, if_pos heq, hevidence, hbare]
    · simp only [Function.comp_apply, if_neg heq]
  · rw [htaken]
    exact hqueue
  · intro d hd
    rw [htaken] at hd
    obtain ⟨hin, hbare', hvalid'⟩ := h.queued d (by rw [hcandidates]; exact List.mem_cons_of_mem _ hd)
    refine ⟨hother hin ?_, hbare', hvalid'⟩
    rintro rfl
    have hpending : (d.offset_start, d.raw) ∈ rest.filterMap frameAt := by
      rw [← hqueue]
      exact List.mem_map_of_mem hd
    obtain ⟨e, he, hat⟩ := List.mem_filterMap.mp hpending
    have hlt := hlater e he
    obtain ⟨o', event⟩ := e
    cases event with
    | control k => cases hat
    | frame f =>
      obtain ⟨rfl, -⟩ := Prod.mk.inj (Option.some.inj hat)
      omega
  · intro t ht
    rcases (hmem t).mp ht with rfl | ⟨hin, hne⟩
    · exact .inr hdescribed
    · rw [htaken]
      refine (h.described t hin).imp_left fun hqueued => ?_
      rw [hcandidates] at hqueued
      refine (List.mem_cons.mp hqueued).resolve_left ?_
      rintro rfl
      exact hne hsame.symm
  · intro d hd
    rcases hstartup with hkept | ⟨hset, hsome⟩
    · rw [hkept] at hd
      obtain ⟨hin, hsome⟩ := h.startup d hd
      refine ⟨hother hin ?_, hsome⟩
      rintro rfl
      rw [← hbare] at hsome
      cases hsome
    · rw [hset] at hd
      obtain rfl := Option.some.inj hd
      exact ⟨(hmem _).mpr (.inl rfl), hsome⟩
  · intro d hd
    rcases hstatus with hkept | ⟨hset, hsome, -⟩
    · rw [hkept] at hd
      obtain ⟨hin, hsome⟩ := h.status d hd
      refine ⟨hother hin ?_, hsome⟩
      rintro rfl
      rw [← hbare] at hsome
      cases hsome
    · rw [hset] at hd
      obtain rfl := Option.some.inj hd
      exact ⟨(hmem _).mpr (.inl rfl), hsome⟩

/-- Processing events describes the telegrams of their frames. -/
theorem Pairs.process {found : List FrameCandidate} {rest : List (ℕ × Event)} (done : List (ℕ × Event))
    {c : Capture} (h : Pairs found (done ++ rest) c) (hdistinct : (found.map (·.offset)).Nodup)
    (hsorted : (done ++ rest).Pairwise fun a b => a.1 < b.1)
    (hframes : ∀ o f, (o, Event.frame f) ∈ done ++ rest → Frame.ofRaw f.raw = f) (phase : Phase) :
    Pairs found rest (c.process (done.map Prod.snd) phase) := by
  induction done generalizing c with
  | nil => exact h
  | cons first done ih =>
    obtain ⟨o, event⟩ := first
    obtain ⟨hlater, hsorted'⟩ := List.pairwise_cons.mp hsorted
    have hnext : Pairs found (done ++ rest) (processEvent phase c event) := by
      cases event with
      | control control => exact Pairs.control h phase
      | frame frame => exact Pairs.frame h hdistinct hlater (hframes o frame List.mem_cons_self)
    exact ih hnext hsorted' fun o f hmem => hframes o f (List.mem_cons_of_mem _ hmem)

end Capture

/-- The complete candidates of a stream. -/
def candidates (stream : Bytes) : List FrameCandidate := (({} : Framer).feed stream).1.candidates

theorem candidates_append (stream data : Bytes) :
    candidates (stream ++ data) =
      candidates stream ++ ((({} : Framer).feed stream).2.feed data).1.candidates := by
  have h := Framer.feedAll_eq_feed [stream, data]
  rw [show ([stream, data] : List Bytes).flatten = stream ++ data by simp] at h
  rw [candidates, ← h]
  exact congrArg (candidates stream ++ ·) (List.append_nil _)

/-- The findings of a stream fed at once. -/
theorem parsed_stream (stream : Bytes) :
    ∃ tokens, Parsed stream tokens (({} : Framer).feed stream).2 ∧
      (({} : Framer).feed stream).1 = emittedBy tokens :=
  parsed_fresh.feed stream

/-- Candidates are told apart by their offsets. -/
theorem candidates_sorted (stream : Bytes) :
    (candidates stream).Pairwise fun first second => first.offset < second.offset := by
  obtain ⟨tokens, hparsed, hemitted⟩ := parsed_stream stream
  rw [candidates, hemitted]
  exact emittedBy_candidates_sorted hparsed.tiles

theorem candidates_distinct (stream : Bytes) : ((candidates stream).map (·.offset)).Nodup :=
  List.pairwise_map.mpr ((candidates_sorted stream).imp Nat.ne_of_lt)

namespace Capture

/-- The observer lists every candidate. -/
theorem foldl_candidate_telegrams (found : List FrameCandidate) (c : Capture) :
    (found.foldl candidate c).telegrams = c.telegrams ++ found.map Detail.ofCandidate := by
  induction found generalizing c with
  | nil => simp
  | cons first rest ih => simp [ih, candidate]

/-- Receiving bytes at rest lists the details of their candidates and queues the valid ones. -/
theorem AtRest.receive_eq {received : Bytes} {c : Capture} (h : c.AtRest received) (data : Bytes) :
    c.receive data = { c with
      raw := c.raw ++ data
      framer := (c.framer.feed data).2
      telegrams := c.telegrams ++ (c.framer.feed data).1.candidates.map Detail.ofCandidate
      valid_candidates := ((c.framer.feed data).1.candidates.filter (·.crc_valid)).map Detail.ofCandidate } := by
  rw [receive, foldl_candidate, foldl_candidate_telegrams, h.valid_candidates, List.nil_append]

/-- Receiving bytes at rest queues the details of their frames. -/
theorem Pairs.receive {received : Bytes} {c : Capture} (h : Pairs (candidates received) [] c)
    (hrest : c.AtRest received) (data : Bytes) :
    Pairs (candidates (received ++ data)) (c.framer.feed data).1.events (c.receive data) := by
  rw [hrest.receive_eq]
  refine ⟨?_, ?_, ?_, ?_, ?_, ?_⟩
  · rw [candidates_append, List.map_append, List.map_append, h.listed, List.map_map, hrest.framer]
    rfl
  · rw [← feed_evidence, List.map_map]
    rfl
  · intro d hd
    obtain ⟨found, hfound, rfl⟩ := List.mem_map.mp hd
    obtain ⟨hfound, hvalid⟩ := List.mem_filter.mp hfound
    exact ⟨List.mem_append_right _ (List.mem_map_of_mem hfound), rfl, hvalid⟩
  · intro t ht
    rcases List.mem_append.mp ht with hold | hnew
    · have hdescribed := h.described t hold
      rw [hrest.valid_candidates] at hdescribed
      exact .inr (hdescribed.resolve_left List.not_mem_nil)
    · obtain ⟨found, hfound, rfl⟩ := List.mem_map.mp hnew
      by_cases hvalid : found.crc_valid = true
      · exact .inl (List.mem_map_of_mem (List.mem_filter.mpr ⟨hfound, hvalid⟩))
      · refine .inr ?_
        have hinvalid : ¬ (Detail.ofCandidate found).crc_valid = true := hvalid
        rw [Described, if_neg hinvalid]
        rfl
  · intro d hd
    obtain ⟨hin, hsome⟩ := h.startup d hd
    exact ⟨List.mem_append_left _ hin, hsome⟩
  · intro d hd
    obtain ⟨hin, hsome⟩ := h.status d hd
    exact ⟨List.mem_append_left _ hin, hsome⟩

/-- The events of the bytes received next are events of the whole stream. -/
theorem AtRest.events_suffix {received : Bytes} {c : Capture} (h : c.AtRest received) (data : Bytes) :
    (c.framer.feed data).1.events <:+ scan (received ++ data) := by
  have happend := scan_append received [data]
  rw [List.flatten_singleton, ← h.framer] at happend
  rw [happend]
  refine ⟨scan received, congrArg (scan received ++ ·) ?_⟩
  exact (List.append_nil _).symm

/-- In the middle of a read the details of the remaining events are queued. -/
theorem Pairs.during {received : Bytes} {c : Capture} (h : Pairs (candidates received) [] c)
    (hrest : c.AtRest received) (phase : Phase) {data : Bytes} {done rest : List (ℕ × Event)}
    (hevents : (c.framer.feed data).1.events = done ++ rest) :
    Pairs (candidates (received ++ data)) rest ((c.receive data).process (done.map Prod.snd) phase) := by
  have hreceive := h.receive hrest data
  have hsuffix := hrest.events_suffix data
  rw [hevents] at hreceive hsuffix
  refine hreceive.process done (candidates_distinct _) ((scan_sorted _).sublist hsuffix.sublist) ?_ phase
  intro o f hmem
  exact telegramAt_ofRaw (scan_frame (hsuffix.subset hmem))

/-- A read describes the telegrams of its bytes. -/
theorem Pairs.read {received : Bytes} {c : Capture} (h : Pairs (candidates received) [] c)
    (hrest : c.AtRest received) (phase : Phase) (data : Bytes) :
    Pairs (candidates (received ++ data)) [] (c.read phase data) := by
  rw [Capture.read]
  split
  · next hdata =>
    rw [hdata, List.append_nil]
    exact h
  · exact h.during hrest phase (List.append_nil _).symm

end Capture

/-- What is done with a capture: reads, and the transmit boundaries between them. -/
inductive Move where
  | read (phase : Phase) (data : Bytes)
  | mark
  | nextAttempt

/-- One move. -/
def Capture.move (c : Capture) : Move → Capture
  | .read phase data => c.read phase data
  | .mark => c.mark
  | .nextAttempt => c.nextAttempt

/-- Moves in order. -/
def Capture.moves (c : Capture) (moves : List Move) : Capture := moves.foldl Capture.move c

/-- The chunk of a move. -/
def Move.data : Move → Bytes
  | .read _ data => data
  | _ => []

/-- Every moves end at rest, with the telegrams of the received bytes paired. -/
theorem Capture.moves_paired (moves : List Move) {c : Capture} {received : Bytes}
    (h : Capture.Pairs (candidates received) [] c) (hrest : c.AtRest received) :
    Capture.Pairs (candidates (received ++ moves.flatMap Move.data)) [] (c.moves moves) ∧
      (c.moves moves).AtRest (received ++ moves.flatMap Move.data) := by
  induction moves generalizing c received with
  | nil =>
    rw [List.flatMap_nil, List.append_nil]
    exact ⟨h, hrest⟩
  | cons first rest ih =>
    rw [List.flatMap_cons, ← List.append_assoc]
    cases first with
    | read phase data => exact ih (h.read hrest phase data) (hrest.read phase data).1
    | mark =>
      have hdata : received ++ Move.mark.data = received := List.append_nil _
      have hpairs : Capture.Pairs (candidates received) [] c.mark :=
        ⟨h.listed, h.queue, h.queued, h.described, h.startup, h.status⟩
      have hmarked : c.mark.AtRest received := ⟨hrest.raw, hrest.framer, hrest.valid_candidates⟩
      rw [hdata]
      exact ih hpairs hmarked
    | nextAttempt =>
      have hdata : received ++ Move.nextAttempt.data = received := List.append_nil _
      have hnone : c.nextAttempt.status = none := rfl
      have hpairs : Capture.Pairs (candidates received) [] c.nextAttempt :=
        ⟨h.listed, h.queue, h.queued, h.described, h.startup, fun d hd => by rw [hnone] at hd; cases hd⟩
      have hattempt : c.nextAttempt.AtRest received := ⟨hrest.raw, hrest.framer, hrest.valid_candidates⟩
      rw [hdata]
      exact ih hpairs hattempt

/-- Everything a capture shows is evidence from its own bytes. -/
structure Evident (received : Bytes) (c : Capture) : Prop where
  raw : c.raw = received
  listed : c.telegrams.map Detail.evidence = (candidates received).map Detail.ofCandidate
  ordered : c.telegrams.Pairwise fun first second => first.offset_start < second.offset_start
  slices : ∀ t ∈ c.telegrams,
    t.offset_end = t.offset_start + t.raw.length ∧ slice c.raw t.offset_start t.offset_end = t.raw
  queue : c.valid_candidates = []
  described : ∀ t ∈ c.telegrams, Capture.Described t
  startup : ∀ d, c.startup = some d → d ∈ c.telegrams ∧ d.identity.isSome = true
  status : ∀ d, c.status = some d → d ∈ c.telegrams ∧ d.decoded_status.isSome = true

theorem candidates_nil : candidates [] = [] := rfl

/-- A fresh capture shows nothing. -/
theorem Capture.fresh_pairs : Capture.Pairs [] [] {} where
  listed := rfl
  queue := rfl
  queued d hd := absurd hd List.not_mem_nil
  described t ht := absurd ht List.not_mem_nil
  startup d hd := by cases hd
  status d hd := by cases hd

/-- Paired captures at rest are evident. -/
theorem Capture.Pairs.evident {received : Bytes} {c : Capture} (h : Capture.Pairs (candidates received) [] c)
    (hrest : c.AtRest received) : Evident received c := by
  have hoffsets : c.telegrams.map (·.offset_start) = (candidates received).map (·.offset) := by
    have hmap := congrArg (List.map (·.offset_start)) h.listed
    rw [List.map_map, List.map_map] at hmap
    exact hmap
  refine ⟨hrest.raw, h.listed, ?_, ?_, hrest.valid_candidates, ?_, h.startup, h.status⟩
  · have hsorted : ((candidates received).map (·.offset)).Pairwise (· < ·) :=
      List.pairwise_map.mpr (candidates_sorted received)
    rw [← hoffsets] at hsorted
    exact List.pairwise_map.mp hsorted
  · intro t ht
    have hmem : t.evidence ∈ (candidates received).map Detail.ofCandidate := by
      rw [← h.listed]
      exact List.mem_map_of_mem ht
    obtain ⟨found, hfound, heq⟩ := List.mem_map.mp hmem
    obtain ⟨tokens, hparsed, hemitted⟩ := parsed_stream received
    rw [candidates, hemitted] at hfound
    have hslice := (hparsed.accounted.slices found hfound).2
    have hstart : t.offset_start = found.offset := (congrArg Detail.offset_start heq).symm
    have hend : t.offset_end = found.offset + found.raw.length := (congrArg Detail.offset_end heq).symm
    have hraw : t.raw = found.raw := (congrArg Detail.raw heq).symm
    rw [hstart, hend, hraw, hrest.raw]
    exact ⟨rfl, hslice⟩
  · intro t ht
    have hdescribed := h.described t ht
    rw [hrest.valid_candidates] at hdescribed
    exact hdescribed.resolve_left List.not_mem_nil

/-- After any reads and boundaries everything shown is evidence from the received bytes, and whenever a
frame is processed the detail it takes is listed and has its bytes and offset. -/
theorem capture_paired (moves : List Move) :
    let c := ({} : Capture).moves moves
    Evident (moves.flatMap Move.data) c ∧
      ∀ (phase : Phase) (data : Bytes) (done rest : List (ℕ × Event)) (o : ℕ) (frame : Frame),
        (c.framer.feed data).1.events = done ++ (o, .frame frame) :: rest →
        let now := (c.receive data).process (done.map Prod.snd) phase
        ∃ detail queue, now.valid_candidates = detail :: queue ∧ detail ∈ now.telegrams ∧
          detail.offset_start = o ∧ detail.raw = frame.raw ∧
          Decoded now (Capture.processEvent phase now (.frame frame)) frame detail := by
  have hfresh : Capture.Pairs (candidates []) [] {} := by
    rw [candidates_nil]
    exact Capture.fresh_pairs
  obtain ⟨hpairs, hrest⟩ := Capture.moves_paired moves hfresh ⟨rfl, rfl, rfl⟩
  refine ⟨hpairs.evident hrest, fun phase data done rest o frame hevents => ?_⟩
  have hnow := hpairs.during hrest phase hevents
  obtain ⟨detail, queue, hqueue, hoffset, hraw, -⟩ := hnow.head
  obtain ⟨hlisted, -⟩ := hnow.queued detail (by rw [hqueue]; exact List.mem_cons_self)
  exact ⟨detail, queue, hqueue, hlisted, hoffset, hraw, Capture.processFrame_decoded _ frame detail queue hqueue⟩

end Lms200.Diagnostic
