import Lms200.Diagnostic.Capture
import Lms200.Protocol.Evidence

/-!
# What a diagnostic credits to its request

Telegrams are credited by their offset, controls by the phase of the read which surfaces them.
The two agree unless the framer still holds a control byte in an unfinished candidate when the
request is sent: the byte is then released later, and credited although it was received before.

`scan` finds what is standalone in the bytes received so far, so the exact condition is that
nothing before the boundary is found only once later bytes have arrived.
-/

namespace Lms200.Diagnostic

/-- The telegram decodes as a status response. -/
def Decodes (frame : Frame) : Prop :=
  ∃ reply status, response frame = .ok reply ∧ reply.command = 0xB1 ∧
    decode_status reply = .ok status

namespace Capture

/-- Between reads nothing is queued, and the framer has consumed the bytes received. -/
structure AtRest (c : Capture) (received : Bytes) : Prop where
  raw : c.raw = received
  framer : c.framer = (({} : Framer).feed received).2
  valid_candidates : c.valid_candidates = []

/-- The observer queues the details of the valid candidates and touches only the report. -/
theorem foldl_candidate (candidates : List FrameCandidate) (c : Capture) :
    let c' := candidates.foldl candidate c
    c' = { c with
      telegrams := c'.telegrams
      valid_candidates := c.valid_candidates ++
        (candidates.filter (·.crc_valid)).map Detail.ofCandidate } := by
  induction candidates generalizing c with
  | nil => simp
  | cons first rest ih =>
    rw [List.foldl_cons, ih]
    cases hvalid : first.crc_valid <;> simp [candidate, hvalid]

/-- Receiving bytes queues exactly the frames which the same call of the framer returns. -/
theorem receive_eq (c : Capture) (data : Bytes) :
    ∃ telegrams queued, c.receive data = { c with
        raw := c.raw ++ data
        framer := (c.framer.feed data).2
        telegrams
        valid_candidates := c.valid_candidates ++ queued } ∧
      queued.map (·.offset_start) =
        ((c.framer.feed data).1.events.filterMap frameAt).map Prod.fst := by
  refine ⟨_, _, foldl_candidate _ _, ?_⟩
  rw [← feed_evidence, List.map_map, List.map_map]
  rfl

/-- What a credited status requires. -/
theorem credits_eq_true {c : Capture} {detail : Detail} (h : c.credits detail = true) :
    c.post_ack = true ∧ ∃ boundary, c.tx_boundary = some boundary ∧ boundary ≤ detail.offset_start := by
  unfold credits at h
  cases hboundary : c.tx_boundary with
  | none => simp [hboundary] at h
  | some boundary =>
    simp only [hboundary, Bool.and_eq_true, decide_eq_true_eq] at h
    exact ⟨h.2, boundary, rfl, h.1⟩

/-- Everything a processed telegram can change. -/
theorem processFrame_cases (c : Capture) (frame : Frame) (detail : Detail) (rest : List Detail)
    (h : c.valid_candidates = detail :: rest) :
    ∃ telegrams startup status, c.processFrame frame = { c with
        telegrams, startup, status, valid_candidates := rest } ∧
      (status = c.status ∨ Decodes frame ∧ c.post_ack = true ∧
        ∃ boundary, c.tx_boundary = some boundary ∧ boundary ≤ detail.offset_start) := by
  unfold processFrame
  rw [h]
  dsimp only
  cases hreply : response frame with
  | error e => exact ⟨_, _, _, rfl, .inl rfl⟩
  | ok reply =>
    dsimp only
    unfold processReply
    dsimp only
    split
    · split
      · exact ⟨_, _, _, rfl, .inl rfl⟩
      · split
        · exact ⟨_, _, _, rfl, .inl rfl⟩
        · exact ⟨_, _, _, rfl, .inl rfl⟩
    · split
      · next hcommand =>
        split
        · exact ⟨_, _, _, rfl, .inl rfl⟩
        · next status hstatus =>
          split
          · next hcredited =>
            obtain ⟨hack, hboundary⟩ := credits_eq_true hcredited
            exact ⟨_, _, _, rfl, .inr ⟨⟨reply, status, hreply, hcommand, hstatus⟩, hack, hboundary⟩⟩
          · exact ⟨_, _, _, rfl, .inl rfl⟩
      · exact ⟨_, _, _, rfl, .inl rfl⟩

/-- A control changes only the report and, after transmission, its own flag. -/
theorem processControl_eq (c : Capture) (phase : Phase) (control : Control) :
    ∃ ack nak, c.processControl phase control = { c with
      ack, nak
      post_ack := c.post_ack || (phase == .post_tx && control == .ACK)
      post_nak := c.post_nak || (phase == .post_tx && control == .NAK) } := by
  cases control <;> cases phase <;> simp [processControl]

/-- A moment of a read: the events before it have been processed, the others are still queued. -/
structure Tracks (boundary : Option ℕ) (recognised rest : List (ℕ × Event)) (c : Capture) : Prop where
  tx_boundary : c.tx_boundary = boundary
  queue : c.valid_candidates.map (·.offset_start) = (rest.filterMap frameAt).map Prod.fst
  post_ack : c.post_ack = true → ∃ o, (o, Event.control .ACK) ∈ recognised
  post_nak : c.post_nak = true → ∃ o, (o, Event.control .NAK) ∈ recognised
  credited : ∀ o control, (o, Event.control control) ∈ recognised →
    (control = .ACK → c.post_ack = true) ∧ (control = .NAK → c.post_nak = true)
  status : c.status.isSome = true → ∃ before o frame after b, boundary = some b ∧
    recognised = before ++ (o, .frame frame) :: after ∧ b ≤ o ∧ Decodes frame ∧
    ∃ o', (o', Event.control .ACK) ∈ before

/-- Processing the next event of a read after transmission. -/
theorem Tracks.step {boundary : Option ℕ} {recognised rest : List (ℕ × Event)} {c : Capture}
    {o : ℕ} {event : Event} (h : Tracks boundary recognised ((o, event) :: rest) c) :
    Tracks boundary (recognised ++ [(o, event)]) rest (processEvent .post_tx c event) := by
  have hmono : ∀ {control}, (∃ o', (o', Event.control control) ∈ recognised) →
      ∃ o', (o', Event.control control) ∈ recognised ++ [(o, event)] :=
    fun ⟨o', hmem⟩ => ⟨o', List.mem_append_left _ hmem⟩
  have hstatus : c.status.isSome = true → ∃ before o' frame after b, boundary = some b ∧
      recognised ++ [(o, event)] = before ++ (o', .frame frame) :: after ∧ b ≤ o' ∧
      Decodes frame ∧ ∃ o'', (o'', Event.control .ACK) ∈ before := by
    intro hsome
    obtain ⟨before, o', frame, after, b, hb, hsplit, hrest⟩ := h.status hsome
    exact ⟨before, o', frame, after ++ [(o, event)], b, hb, by simp [hsplit], hrest⟩
  cases event with
  | control control =>
    obtain ⟨ack, nak, heq⟩ := processControl_eq c .post_tx control
    rw [processEvent, heq]
    refine ⟨h.tx_boundary, h.queue, ?_, ?_, ?_, hstatus⟩
    · intro hack
      rcases Bool.or_eq_true_iff.mp hack with hold | hnew
      · exact hmono (h.post_ack hold)
      · exact ⟨o, by simp [by simpa using hnew]⟩
    · intro hnak
      rcases Bool.or_eq_true_iff.mp hnak with hold | hnew
      · exact hmono (h.post_nak hold)
      · exact ⟨o, by simp [by simpa using hnew]⟩
    · intro o' control' hmem
      rcases List.mem_append.mp hmem with hold | hnew
      · obtain ⟨hack, hnak⟩ := h.credited o' control' hold
        exact ⟨fun hc => by simp [hack hc], fun hc => by simp [hnak hc]⟩
      · cases List.mem_singleton.mp hnew
        exact ⟨fun hc => by simp [hc], fun hc => by simp [hc]⟩
  | frame frame =>
    have hqueue := h.queue
    cases hcandidates : c.valid_candidates with
    | nil => simp [hcandidates, frameAt] at hqueue
    | cons detail queued =>
      simp only [hcandidates, frameAt, List.map_cons, List.filterMap_cons, List.cons.injEq] at hqueue
      obtain ⟨telegrams, startup, status, heq, hcase⟩ := c.processFrame_cases frame detail queued
        hcandidates
      rw [processEvent, heq]
      have hcontrols : ∀ o' control, (o', Event.control control) ∈ recognised ++ [(o, .frame frame)] →
          (o', Event.control control) ∈ recognised := fun o' control hmem => by simpa using hmem
      refine ⟨h.tx_boundary, hqueue.2, fun hack => hmono (h.post_ack hack),
        fun hnak => hmono (h.post_nak hnak), fun o' control hmem =>
          h.credited o' control (hcontrols o' control hmem), ?_⟩
      rcases hcase with rfl | ⟨hdecodes, hack, b, hb, hle⟩
      · exact hstatus
      · exact fun _ => ⟨recognised, o, frame, [], b, h.tx_boundary.symm.trans hb, rfl, hqueue.1 ▸ hle,
          hdecodes, h.post_ack hack⟩

/-- Nothing has been credited. -/
def Quiet (c : Capture) : Prop := c.post_ack = false ∧ c.post_nak = false ∧ c.status = none

/-- Processing takes one queued detail for each frame, and credits nothing before transmission. -/
theorem process_queue (phase : Phase) (events : List (ℕ × Event)) (c : Capture)
    (hqueue : c.valid_candidates.map (·.offset_start) = (events.filterMap frameAt).map Prod.fst) :
    let c' := c.process (events.map Prod.snd) phase
    c'.raw = c.raw ∧ c'.framer = c.framer ∧ c'.tx_boundary = c.tx_boundary ∧
      c'.valid_candidates = [] ∧ (phase ≠ .post_tx → Quiet c → Quiet c') := by
  induction events generalizing c with
  | nil =>
    have hnil : c.valid_candidates = [] := by simpa using hqueue
    exact ⟨rfl, rfl, rfl, hnil, fun _ hquiet => hquiet⟩
  | cons first rest ih =>
    obtain ⟨o, event⟩ := first
    cases event with
    | control control =>
      obtain ⟨ack, nak, heq⟩ := processControl_eq c phase control
      have hrest := ih (c.processControl phase control) (by rw [heq]; exact hqueue)
      rw [heq] at hrest
      refine ⟨?_, ?_, ?_, ?_, fun hphase hquiet => ?_⟩
      all_goals simp only [List.map_cons, process, List.foldl_cons, processEvent, heq]
      · exact hrest.1
      · exact hrest.2.1
      · exact hrest.2.2.1
      · exact hrest.2.2.2.1
      · refine hrest.2.2.2.2 hphase ?_
        have hbefore : (phase == Phase.post_tx) = false := by simpa using hphase
        obtain ⟨hack, hnak, hstatus⟩ := hquiet
        exact ⟨by simp [hack, hbefore], by simp [hnak, hbefore], hstatus⟩
    | frame frame =>
      cases hcandidates : c.valid_candidates with
      | nil => simp [hcandidates, frameAt] at hqueue
      | cons detail queued =>
        simp only [hcandidates, frameAt, List.map_cons, List.filterMap_cons, List.cons.injEq] at hqueue
        obtain ⟨telegrams, startup, status, heq, hcase⟩ := c.processFrame_cases frame detail queued
          hcandidates
        have hrest := ih (c.processFrame frame) (by rw [heq]; exact hqueue.2)
        rw [heq] at hrest
        refine ⟨?_, ?_, ?_, ?_, fun hphase hquiet => ?_⟩
        all_goals simp only [List.map_cons, process, List.foldl_cons, processEvent, heq]
        · exact hrest.1
        · exact hrest.2.1
        · exact hrest.2.2.1
        · exact hrest.2.2.2.1
        · obtain ⟨hack, hnak, hstatus⟩ := hquiet
          refine hrest.2.2.2.2 hphase ⟨hack, hnak, ?_⟩
          rcases hcase with rfl | ⟨-, hthis, -⟩
          · exact hstatus
          · rw [hack] at hthis
            exact absurd hthis Bool.false_ne_true

variable {c : Capture} {received : Bytes}

/-- Receiving at rest queues the frames of the received bytes. -/
theorem AtRest.receive_queue (h : c.AtRest received) (data : Bytes) :
    (c.receive data).valid_candidates.map (·.offset_start) =
      ((c.framer.feed data).1.events.filterMap frameAt).map Prod.fst := by
  obtain ⟨telegrams, queued, heq, hqueue⟩ := c.receive_eq data
  rw [heq, h.valid_candidates]
  exact hqueue

/-- Every read returns to rest, with its bytes received. -/
theorem AtRest.read (h : c.AtRest received) (phase : Phase) (data : Bytes) :
    (c.read phase data).AtRest (received ++ data) ∧
      (c.read phase data).tx_boundary = c.tx_boundary ∧
      (phase ≠ .post_tx → Quiet c → Quiet (c.read phase data)) := by
  unfold Capture.read
  split
  · next hdata =>
    subst hdata
    rw [List.append_nil]
    exact ⟨h, rfl, fun _ hquiet => hquiet⟩
  · obtain ⟨hraw, hframer, hboundary, hqueue, hquiet⟩ :=
      process_queue phase _ (c.receive data) (h.receive_queue data)
    obtain ⟨telegrams, queued, heq, -⟩ := c.receive_eq data
    refine ⟨⟨hraw.trans ?_, hframer.trans ?_, hqueue⟩, hboundary.trans ?_,
      fun hphase hq => hquiet hphase ?_⟩
    · simp [heq, h.raw]
    · simp only [heq, h.framer, feed_feed]
    · rw [heq]
    · rw [heq]
      exact hq

/-- Reads of one phase return to rest. -/
theorem AtRest.readAll (h : c.AtRest received) (phase : Phase) (chunks : List Bytes) :
    (c.readAll phase chunks).AtRest (received ++ chunks.flatten) ∧
      (c.readAll phase chunks).tx_boundary = c.tx_boundary := by
  induction chunks generalizing c received with
  | nil => simpa [Capture.readAll] using h
  | cons data rest ih =>
    obtain ⟨hrest, hboundary, -⟩ := h.read phase data
    obtain ⟨hall, hboundary'⟩ := ih hrest
    rw [List.flatten_cons, ← List.append_assoc]
    exact ⟨hall, hboundary'.trans hboundary⟩

/-- At rest, a settled framer has no event to give without new bytes. -/
theorem AtRest.feed_nil (h : c.AtRest received) :
    c.framer.feed [] = ({}, c.framer) := by
  have hsettled : c.framer.Settled := h.framer ▸ Framer.feed_settled _ _
  rw [Framer.feed_eq, Resync.Lexer.feed, Resync.Cursor.push_nil,
    telegramLexer.run_of_undecided hsettled]
  rfl

/-- A read after transmission processes exactly the events of its bytes. -/
theorem AtRest.read_eq (h : c.AtRest received) (data : Bytes) :
    c.read .post_tx data =
      (c.receive data).process ((c.framer.feed data).1.events.map Prod.snd) .post_tx := by
  unfold Capture.read
  split
  · next hdata =>
    subst hdata
    simp [receive, h.feed_nil, process]
  · rfl

/-- Once the bytes are received, every event processed is tracked. -/
theorem Tracks.process {boundary : Option ℕ} {recognised rest : List (ℕ × Event)}
    (done : List (ℕ × Event)) (h : Tracks boundary recognised (done ++ rest) c) :
    Tracks boundary (recognised ++ done) rest (c.process (done.map Prod.snd) .post_tx) := by
  induction done generalizing c recognised with
  | nil => simpa [Capture.process] using h
  | cons first done ih =>
    have hnext := ih h.step
    rw [List.append_assoc, List.singleton_append] at hnext
    exact hnext

/-- Receiving bytes at rest queues their events. -/
theorem Tracks.receive {boundary : Option ℕ} {recognised : List (ℕ × Event)}
    (h : Tracks boundary recognised [] c) (hrest : c.AtRest received) (data : Bytes) :
    Tracks boundary recognised (c.framer.feed data).1.events (c.receive data) := by
  have hqueue := hrest.receive_queue data
  obtain ⟨telegrams, queued, heq, -⟩ := c.receive_eq data
  rw [heq] at hqueue ⊢
  exact ⟨h.tx_boundary, hqueue, h.post_ack, h.post_nak, h.credited, h.status⟩

/-- Reads after transmission keep track of all their events. -/
theorem Tracks.readAll {boundary : Option ℕ} {recognised : List (ℕ × Event)}
    (h : Tracks boundary recognised [] c) (hrest : c.AtRest received) (chunks : List Bytes) :
    Tracks boundary (recognised ++ (c.framer.feedAll chunks).1.events) []
      (c.readAll .post_tx chunks) ∧
    (c.framer.feedAll chunks).2 = (c.readAll .post_tx chunks).framer := by
  induction chunks generalizing c received recognised with
  | nil => simpa [Capture.readAll, Framer.feedAll] using h
  | cons data chunks ih =>
    obtain ⟨hthis, -, -⟩ := hrest.read .post_tx data
    have hframer : (c.read .post_tx data).framer = (c.framer.feed data).2 := by
      rw [hthis.framer, hrest.framer, feed_feed]
    have hstep := (h.receive hrest data)
    rw [← List.append_nil (c.framer.feed data).1.events] at hstep
    have hread := Tracks.process _ hstep
    rw [← hrest.read_eq] at hread
    obtain ⟨htracks, hend⟩ := ih hread hthis
    rw [hframer, List.append_assoc] at htracks
    rw [hframer] at hend
    exact ⟨htracks, hend⟩

end Capture

namespace Lead

/-- Reads before a single request return to rest and credit nothing. -/
theorem reads_spec (reads : List (PreTx × Bytes)) {c : Capture} {received : Bytes}
    (hrest : c.AtRest received) (hquiet : c.Quiet) :
    let c' := reads.foldl (fun (c : Capture) r => c.read r.1.phase r.2) c
    c'.AtRest (received ++ reads.flatMap Prod.snd) ∧ c'.Quiet := by
  induction reads generalizing c received with
  | nil => simpa using And.intro hrest hquiet
  | cons r reads ih =>
    obtain ⟨hthis, -, hkeep⟩ := hrest.read r.1.phase r.2
    have hphase : r.1.phase ≠ .post_tx := by cases r.1 <;> decide
    rw [List.flatMap_cons, ← List.append_assoc]
    exact ih hthis (hkeep hphase hquiet)

/-- Earlier attempts return to rest. -/
theorem attempts_spec (attempts : List (List Bytes)) {c : Capture} {received : Bytes}
    (hrest : c.AtRest received) :
    (attempts.foldl (fun (c : Capture) chunks => c.nextAttempt.readAll .post_tx chunks) c).AtRest
      (received ++ attempts.flatten.flatten) := by
  induction attempts generalizing c received with
  | nil => simpa using hrest
  | cons chunks attempts ih =>
    have hnext : c.nextAttempt.AtRest received := ⟨hrest.raw, hrest.framer, hrest.valid_candidates⟩
    rw [List.flatten_cons, List.flatten_append, ← List.append_assoc]
    exact ih (hnext.readAll .post_tx chunks).1

/-- The capture at the transmit boundary is at rest, marked there, and has credited nothing. -/
theorem capture_spec (lead : Lead) :
    lead.capture.AtRest lead.bytes ∧ lead.capture.tx_boundary = some lead.bytes.length ∧
      lead.capture.Quiet := by
  have hfresh : ({} : Capture).AtRest [] := ⟨rfl, rfl, rfl⟩
  cases lead with
  | single reads =>
    obtain ⟨hrest, hquiet⟩ := reads_spec reads hfresh ⟨rfl, rfl, rfl⟩
    exact ⟨⟨hrest.raw, hrest.framer, hrest.valid_candidates⟩,
      congrArg (fun raw : Bytes => some raw.length) hrest.raw, hquiet⟩
  | repeated reads attempts =>
    have hrest := attempts_spec attempts (hfresh.readAll .pre_tx reads).1
    rw [List.nil_append] at hrest
    exact ⟨⟨hrest.raw, hrest.framer, hrest.valid_candidates⟩,
      congrArg (fun raw : Bytes => some raw.length) hrest.raw, rfl, rfl, rfl⟩

end Lead

/-- A moment after the boundary: whole reads, then some events of the next one. -/
def Moment (c : Capture) (chunks : List Bytes) (recognised : List (ℕ × Event)) (now : Capture) :
    Prop :=
  ∃ before data after done rest, chunks = before ++ data :: after ∧
    ((c.readAll .post_tx before).framer.feed data).1.events = done ++ rest ∧
    recognised = (c.framer.feedAll before).1.events ++ done ∧
    now = ((c.readAll .post_tx before).receive data).process (done.map Prod.snd) .post_tx

/-- An acknowledgement at or after the boundary is followed by a CRC-valid status response of
the stream which starts there too. -/
def Answered (stream : Bytes) (boundary : ℕ) (recognised : List (ℕ × Event)) : Prop :=
  ∃ before o frame after, recognised = before ++ (o, .frame frame) :: after ∧ boundary ≤ o ∧
    telegramAt (stream.drop o) = some frame ∧ Decodes frame ∧
    ∃ o', (o', Event.control .ACK) ∈ before ∧ boundary ≤ o'

/-- What is credited at a moment was received at or after the boundary. -/
def CreditedAt (stream : Bytes) (boundary : ℕ) (recognised : List (ℕ × Event)) (c : Capture) :
    Prop :=
  (c.post_ack = true → ∃ o, (o, Event.control .ACK) ∈ recognised ∧ boundary ≤ o) ∧
    (c.post_nak = true → ∃ o, (o, Event.control .NAK) ∈ recognised ∧ boundary ≤ o) ∧
    (c.status.isSome = true → Answered stream boundary recognised)

/-- Nothing is credited to the request that was received before it, and a run succeeds only
with an answer to it. -/
def CreditsOnlyItsRequest (lead : Lead) (chunks : List Bytes) : Prop :=
  let stream := lead.bytes ++ chunks.flatten
  let boundary := lead.bytes.length
  (∀ recognised now, Moment lead.capture chunks recognised now →
    CreditedAt stream boundary recognised now) ∧
  (lead.capture.statusWindow chunks = true →
    Answered stream boundary (lead.capture.framer.feedAll chunks).1.events) ∧
  (lead.capture.windowVerdict chunks = true →
    Answered stream boundary (lead.capture.framer.feedAll chunks).1.events)

/-- Every control which the whole stream has before the boundary is found without the bytes
after it: none is still held back in an unfinished candidate. -/
def NoneHeldBack (earlier later : Bytes) : Prop :=
  ∀ o control, (o, Event.control control) ∈ scan (earlier ++ later) → o < earlier.length →
    (o, Event.control control) ∈ scan earlier

section Moments

variable {c : Capture} {received : Bytes}

/-- The events after a first read, and what the framer goes on with. -/
theorem feedAll_append (f : Framer) (before after : List Bytes) :
    (f.feedAll (before ++ after)).1.events =
      (f.feedAll before).1.events ++ ((f.feedAll before).2.feedAll after).1.events := by
  induction before generalizing f with
  | nil => rfl
  | cons data before ih => simp [Framer.feedAll, Emitted.append, ih]

/-- At every moment the processed events are tracked, and are the first ones after the boundary. -/
theorem Moment.tracks {boundary : Option ℕ} (hrest : c.AtRest received)
    (h : Capture.Tracks boundary [] [] c) {chunks : List Bytes} {recognised : List (ℕ × Event)}
    {now : Capture} (hmoment : Moment c chunks recognised now) :
    (∃ rest, Capture.Tracks boundary recognised rest now) ∧
      recognised <+: (c.framer.feedAll chunks).1.events := by
  obtain ⟨before, data, after, done, rest, rfl, hevents, rfl, rfl⟩ := hmoment
  obtain ⟨htracks, hframer⟩ := h.readAll hrest before
  have hnext := htracks.receive (hrest.readAll .post_tx before).1 data
  rw [hevents] at hnext
  refine ⟨⟨rest, hnext.process done⟩, ?_⟩
  rw [feedAll_append, hframer]
  refine (List.prefix_append_right_inj _).mpr ?_
  simp only [Framer.feedAll, Emitted.append, hevents, List.append_assoc]
  exact List.prefix_append _ _

/-- Every nonempty beginning of the events is reached at some moment. -/
theorem Moment.of_prefix (hrest : c.AtRest received) (chunks : List Bytes)
    {recognised : List (ℕ × Event)} (hne : recognised ≠ [])
    (hstart : recognised <+: (c.framer.feedAll chunks).1.events) :
    ∃ now, Moment c chunks recognised now := by
  induction chunks generalizing c received recognised with
  | nil => exact absurd (List.prefix_nil.mp hstart) hne
  | cons data chunks ih =>
    obtain ⟨hthis, -, -⟩ := hrest.read .post_tx data
    have hframer : (c.read .post_tx data).framer = (c.framer.feed data).2 := by
      rw [hthis.framer, hrest.framer, feed_feed]
    have hfirst : (c.framer.feed data).1.events <+: (c.framer.feedAll (data :: chunks)).1.events :=
      List.prefix_append _ _
    rcases List.prefix_or_prefix_of_prefix hstart hfirst with hwithin | ⟨later, rfl⟩
    · obtain ⟨rest, hsplit⟩ := hwithin
      exact ⟨_, [], data, chunks, recognised, rest, rfl, hsplit.symm, rfl, rfl⟩
    · by_cases hlater : later = []
      · subst hlater
        rw [List.append_nil]
        exact ⟨_, [], data, chunks, (c.framer.feed data).1.events, [], rfl,
          (List.append_nil _).symm, rfl, rfl⟩
      · have hrestStart : later <+: ((c.read .post_tx data).framer.feedAll chunks).1.events := by
          rw [hframer]
          exact (List.prefix_append_right_inj _).mp hstart
        obtain ⟨now, before, data', after, done, rest, hchunks, hevents, hlaterEq, hnow⟩ :=
          ih hthis hlater hrestStart
        refine ⟨now, data :: before, data', after, done, rest, by rw [hchunks]; rfl, hevents, ?_, hnow⟩
        rw [hlaterEq, hframer]
        simp [Framer.feedAll, Emitted.append]

end Moments

section Boundary

/-- What is answered stays answered. -/
theorem Answered.mono {stream : Bytes} {boundary : ℕ} {recognised later : List (ℕ × Event)}
    (h : Answered stream boundary recognised) (hstart : recognised <+: later) :
    Answered stream boundary later := by
  obtain ⟨before, o, frame, after, rfl, hrest⟩ := h
  obtain ⟨more, rfl⟩ := hstart
  exact ⟨before, o, frame, after ++ more, by simp, hrest⟩

variable (lead : Lead) (chunks : List Bytes)

/-- The events after the boundary. -/
def Lead.events : List (ℕ × Event) := (lead.capture.framer.feedAll chunks).1.events

/-- The whole stream has the events from before the boundary and those after it. -/
theorem Lead.scan_stream :
    scan (lead.bytes ++ chunks.flatten) = scan lead.bytes ++ lead.events chunks := by
  rw [scan_append, Lead.events, lead.capture_spec.1.framer]

/-- At the boundary nothing is tracked yet. -/
theorem Lead.tracks : Capture.Tracks (some lead.bytes.length) [] [] lead.capture := by
  obtain ⟨hrest, hboundary, hack, hnak, hstatus⟩ := lead.capture_spec
  refine ⟨hboundary, by rw [hrest.valid_candidates]; rfl, ?_, ?_, ?_, ?_⟩
  · simp [hack]
  · simp [hnak]
  · simp
  · simp [hstatus]

variable {lead chunks}

/-- When nothing is held back, the controls surfacing after the boundary were received after it. -/
theorem NoneHeldBack.after (h : NoneHeldBack lead.bytes chunks.flatten) {o : ℕ} {control : Control}
    (hmem : (o, Event.control control) ∈ lead.events chunks) : lead.bytes.length ≤ o := by
  by_contra hbefore
  have hsorted := scan_sorted (lead.bytes ++ chunks.flatten)
  rw [lead.scan_stream] at hsorted
  have hstream : (o, Event.control control) ∈ scan (lead.bytes ++ chunks.flatten) := by
    rw [lead.scan_stream]
    exact List.mem_append_right _ hmem
  have hearly := h o control hstream (Nat.lt_of_not_le hbefore)
  exact (List.pairwise_append.mp hsorted).2.2 _ hearly _ hmem |>.false

/-- When nothing is held back, whatever is tracked is credited rightly. -/
theorem NoneHeldBack.creditedAt (h : NoneHeldBack lead.bytes chunks.flatten)
    {recognised rest : List (ℕ × Event)} {now : Capture}
    (htracks : Capture.Tracks (some lead.bytes.length) recognised rest now)
    (hstart : recognised <+: lead.events chunks) :
    CreditedAt (lead.bytes ++ chunks.flatten) lead.bytes.length recognised now := by
  refine ⟨fun hack => ?_, fun hnak => ?_, fun hstatus => ?_⟩
  · obtain ⟨o, hmem⟩ := htracks.post_ack hack
    exact ⟨o, hmem, h.after (hstart.subset hmem)⟩
  · obtain ⟨o, hmem⟩ := htracks.post_nak hnak
    exact ⟨o, hmem, h.after (hstart.subset hmem)⟩
  · obtain ⟨before, o, frame, after, b, hb, rfl, hle, hdecodes, o', hack⟩ := htracks.status hstatus
    cases hb
    have hframe : (o, Event.frame frame) ∈ scan (lead.bytes ++ chunks.flatten) := by
      rw [lead.scan_stream]
      exact List.mem_append_right _ (hstart.subset (by simp))
    exact ⟨before, o, frame, after, rfl, hle, scan_frame hframe, hdecodes, o', hack,
      h.after (hstart.subset (List.mem_append_left _ hack))⟩

/-- When nothing is held back, a status after some of the reads is an answer. -/
theorem NoneHeldBack.answered (h : NoneHeldBack lead.bytes chunks.flatten) {before after : List Bytes}
    (hchunks : chunks = before ++ after)
    (hsome : (lead.capture.readAll .post_tx before).status.isSome = true) :
    Answered (lead.bytes ++ chunks.flatten) lead.bytes.length (lead.events chunks) := by
  have hstart : lead.events before <+: lead.events chunks := by
    rw [hchunks, Lead.events, Lead.events, feedAll_append]
    exact List.prefix_append _ _
  have htracks := (lead.tracks.readAll lead.capture_spec.1 before).1
  exact ((h.creditedAt htracks hstart).2.2 hsome).mono hstart

/-- A control which surfaces after the boundary, but was received before it, is credited. -/
theorem CreditsOnlyItsRequest.after (h : CreditsOnlyItsRequest lead chunks) {o : ℕ}
    {control : Control} (hmem : (o, Event.control control) ∈ lead.events chunks) :
    lead.bytes.length ≤ o := by
  -- The first control of its kind sets the flag, and is the only one it can be credited to.
  have hfound : ((lead.events chunks).find? fun e => e.2 = .control control).isSome = true :=
    List.find?_isSome.mpr ⟨_, hmem, by simp⟩
  obtain ⟨⟨first, event⟩, hfirst⟩ := Option.isSome_iff_exists.mp hfound
  obtain ⟨hevent, before, after, hsplit, hnone⟩ := List.find?_eq_some_iff_append.mp hfirst
  simp only [decide_eq_true_eq] at hevent
  subst hevent
  have hstart : before ++ [(first, Event.control control)] <+: lead.events chunks :=
    ⟨after, by simp [hsplit]⟩
  obtain ⟨now, hmoment⟩ := Moment.of_prefix lead.capture_spec.1 chunks (by simp) hstart
  obtain ⟨⟨rest, htracks⟩, -⟩ := hmoment.tracks lead.capture_spec.1 lead.tracks
  have honly : ∀ o', (o', Event.control control) ∈ before ++ [(first, Event.control control)] →
      o' = first := by
    intro o' hmem'
    rcases List.mem_append.mp hmem' with hbefore | hlast
    · exact absurd (hnone _ hbefore) (by simp)
    · exact congrArg Prod.fst (List.mem_singleton.mp hlast)
  have hcredited : lead.bytes.length ≤ first := by
    obtain ⟨hack, hnak, -⟩ := h.1 _ _ hmoment
    obtain ⟨hsetAck, hsetNak⟩ := htracks.credited first control (by simp)
    cases control with
    | ACK =>
      obtain ⟨o', hmem', hle⟩ := hack (hsetAck rfl)
      exact honly o' hmem' ▸ hle
    | NAK =>
      obtain ⟨o', hmem', hle⟩ := hnak (hsetNak rfl)
      exact honly o' hmem' ▸ hle
  have hsorted := scan_sorted (lead.bytes ++ chunks.flatten)
  rw [lead.scan_stream] at hsorted
  have hlater := (List.pairwise_append.mp hsorted).2.1
  rw [hsplit] at hmem hlater
  rcases List.mem_append.mp hmem with hbefore | hrest
  · exact absurd (hnone _ hbefore) (by simp)
  rcases List.mem_cons.mp hrest with hthis | hafter
  · rw [show o = first from congrArg Prod.fst hthis]
    exact hcredited
  · have hlt := (List.pairwise_cons.mp (List.pairwise_append.mp hlater).2.1).1 _ hafter
    exact hcredited.trans (Nat.le_of_lt hlt)

end Boundary

end Lms200.Diagnostic
