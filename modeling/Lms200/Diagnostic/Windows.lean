import Lms200.Diagnostic.Guarded
import Lms200.Diagnostic.Pairing

/-!
# What a history shows of the bytes behind a request

The diagnostics receive into one capture, before and after their requests. From the history alone
follow the bytes received, the part received before the latest request, and what the framer found
since. The capture keeps in step with this: it is at rest over the bytes received, and its flags
track the window behind the latest request.
-/

namespace Lms200.Diagnostic.Windows

open Coop Program

variable {σ : Type}

/-- The history of a run which keeps a state of its own. -/
abbrev Said (σ : Type) := History σ Call Call.Answer Exc

def isWrite : Call → Bool
  | .write _ => true
  | _ => false

/-- The requests written, the latest first. -/
def requests (h : Said σ) : List Bytes := h.filterMap fun x => match x.call with
  | .write request => some request
  | _ => none

/-- The bytes received. -/
def received : Said σ → Bytes
  | [] => []
  | ⟨_, .read, .ok data⟩ :: past => received past ++ data
  | _ :: past => received past

/-- The bytes received before the latest request, if there is one. -/
def beforeWrite : Said σ → Option Bytes
  | [] => none
  | ⟨_, .write _, _⟩ :: past => some (received past)
  | _ :: past => beforeWrite past

/-- What was said since the latest request. -/
def sinceWrite (h : Said σ) : Said σ := h.takeWhile fun x => !isWrite x.call

/-- What the framer found since the latest request. -/
def window (h : Said σ) : List (ℕ × Event) :=
  match beforeWrite h with
  | none => []
  | some before => (scan (received h)).drop (scan before).length

/-- The clock was read twice behind an event, so many seconds apart. -/
def Elapsed (seconds : ℚ) (event : Said σ → Prop) (h : Said σ) : Prop :=
  ∃ started now : ℚ, Told .monotonic now (Told .monotonic started event) h ∧ seconds ≤ now - started

/-- The call raised, or wrote less than a request of seven bytes. -/
def failed (x : Exchange σ Call Call.Answer Exc) : Bool :=
  match x with
  | ⟨_, .write _, .ok written⟩ => written ≠ 7
  | ⟨_, _, .ok _⟩ => false
  | ⟨_, _, .error _⟩ => true

/-- Nothing has failed. -/
def Smooth (h : Said σ) : Prop := ∀ x ∈ h, failed x = false

variable {s : σ} {h : Said σ}

/-! ## The history grows -/

/-- Only requests and reads change what was received and when. -/
theorem still_cons {c : Call} (hc : c.still = true) (answer : Except Exc c.Answer) :
    received (⟨s, c, answer⟩ :: h) = received h ∧ beforeWrite (⟨s, c, answer⟩ :: h) = beforeWrite h ∧
      requests (⟨s, c, answer⟩ :: h) = requests h ∧ window (⟨s, c, answer⟩ :: h) = window h := by
  cases c with
  | write request => cases hc
  | read => cases hc
  | _ => exact ⟨rfl, rfl, rfl, rfl⟩

/-- What was received before the latest request was received first. -/
theorem beforeWrite_front {before : Bytes} (hbefore : beforeWrite h = some before) :
    before <+: received h := by
  induction h with
  | nil => cases hbefore
  | cons x past ih =>
    obtain ⟨s, call, answer⟩ := x
    cases call with
    | write request =>
      cases hbefore
      exact List.prefix_refl _
    | read =>
      cases answer with
      | error e => exact ih hbefore
      | ok data => exact (ih hbefore).trans (List.prefix_append _ _)
    | _ => exact ih hbefore

/-- More bytes leave the findings of the earlier ones. -/
theorem scan_front {earlier stream : Bytes} (hfront : earlier <+: stream) : scan earlier <+: scan stream := by
  obtain ⟨later, rfl⟩ := hfront
  have happend := scan_append earlier [later]
  rw [List.flatten_singleton] at happend
  rw [happend]
  exact List.prefix_append _ _

/-- Since the request nothing has been found. -/
theorem window_write (request : Bytes) (answer : Except Exc ℕ) : window (⟨s, .write request, answer⟩ :: h) = [] :=
  List.drop_length

/-- A read adds what the framer finds in its bytes. -/
theorem window_read {before data : Bytes} {c : Capture} (hbefore : beforeWrite h = some before)
    (hrest : c.AtRest (received h)) :
    window (⟨s, .read, .ok data⟩ :: h) = window h ++ (c.framer.feed data).1.events := by
  have happend := scan_append (received h) [data]
  rw [List.flatten_singleton, ← hrest.framer] at happend
  have hevents : (c.framer.feedAll [data]).1.events = (c.framer.feed data).1.events := List.append_nil _
  have hlength := (scan_front (beforeWrite_front hbefore)).length_le
  have hsame : beforeWrite (⟨s, .read, .ok data⟩ :: h) = some before := hbefore
  rw [window, window, hsame, hbefore]
  change (scan (received h ++ data)).drop _ = _
  rw [happend, hevents, List.drop_append_of_le_length hlength]

/-- An answered call which is no request has not failed. -/
theorem Smooth.cons (hh : Smooth h) {c : Call} (hc : c.quiet = true) (a : c.Answer) :
    Smooth (⟨s, c, .ok a⟩ :: h) := by
  intro x hx
  rcases List.mem_cons.mp hx with rfl | hx
  · cases c with
    | write request => cases hc
    | _ => rfl
  · exact hh x hx

/-- Time goes on behind the latest request. -/
theorem sinceWrite_cons {c : Call} (hc : c.quiet = true) (answer : Except Exc c.Answer) :
    sinceWrite (⟨s, c, answer⟩ :: h) = ⟨s, c, answer⟩ :: sinceWrite h := by
  cases c with
  | write request => cases hc
  | _ => rfl

theorem sinceWrite_suffix {c : Call} (hc : c.quiet = true) (answer : Except Exc c.Answer) :
    sinceWrite h <:+ sinceWrite (⟨s, c, answer⟩ :: h) := by
  rw [sinceWrite_cons hc]
  exact List.suffix_cons _ _

theorem still_quiet {c : Call} (hc : c.still = true) : c.quiet = true := by
  cases c with
  | write request => cases hc
  | _ => rfl

/-- Time does not run back. -/
theorem Elapsed.mono {seconds : ℚ} {event : Said σ → Prop} {h' : Said σ} (helapsed : Elapsed seconds event h)
    (hsuffix : h <:+ h') : Elapsed seconds event h' := by
  obtain ⟨started, now, htold, hseconds⟩ := helapsed
  exact ⟨started, now, htold.mono hsuffix, hseconds⟩

/-- What has been sent has a latest request. -/
theorem beforeWrite_of_requests (hsent : 0 < (requests h).length) : beforeWrite h ≠ none := by
  induction h with
  | nil => cases hsent
  | cons x past ih =>
    obtain ⟨s, call, answer⟩ := x
    cases call with
    | write request => exact Option.some_ne_none _
    | _ => exact ih hsent

theorem window_subset {e : ℕ × Event} (hmem : e ∈ window h) : e ∈ scan (received h) := by
  rw [window] at hmem
  split at hmem
  · cases hmem
  · exact List.mem_of_mem_drop hmem

/-! ## The capture keeps in step -/

/-- The capture has what was received, and its telegrams are paired with their bytes. -/
structure InStep (c : Capture) (h : Said σ) : Prop where
  rest : c.AtRest (received h)
  pairs : Capture.Pairs (candidates (received h)) [] c

theorem InStep.fresh : InStep {} ([] : Said σ) where
  rest := ⟨rfl, rfl, rfl⟩
  pairs := candidates_nil ▸ Capture.fresh_pairs

variable {c : Capture}

theorem InStep.cons (hc : InStep c h) {w : Call} (hw : w.still = true) (answer : Except Exc w.Answer) :
    InStep c (⟨s, w, answer⟩ :: h) := by
  obtain ⟨hreceived, -, -, -⟩ := still_cons (s := s) (h := h) hw answer
  refine ⟨?_, ?_⟩
  · rw [hreceived]
    exact hc.rest
  · rw [hreceived]
    exact hc.pairs

/-- A request receives nothing. -/
theorem InStep.write (hc : InStep c h) (request : Bytes) (answer : Except Exc ℕ) :
    InStep c (⟨s, .write request, answer⟩ :: h) :=
  ⟨hc.rest, hc.pairs⟩

/-- A read takes its bytes. -/
theorem InStep.read (hc : InStep c h) (phase : Phase) (data : Bytes) :
    InStep (c.read phase data) (⟨s, .read, .ok data⟩ :: h) :=
  ⟨(hc.rest.read phase data).1, hc.pairs.read hc.rest phase data⟩

/-- A boundary changes neither. -/
theorem InStep.mark (hc : InStep c h) : InStep c.mark h :=
  ⟨⟨hc.rest.raw, hc.rest.framer, hc.rest.valid_candidates⟩,
    ⟨hc.pairs.listed, hc.pairs.queue, hc.pairs.queued, hc.pairs.described, hc.pairs.startup, hc.pairs.status⟩⟩

theorem InStep.nextAttempt (hc : InStep c h) : InStep c.nextAttempt h := by
  have hnone : c.nextAttempt.status = none := rfl
  refine ⟨⟨hc.rest.raw, hc.rest.framer, hc.rest.valid_candidates⟩, hc.pairs.listed, hc.pairs.queue, hc.pairs.queued,
    hc.pairs.described, hc.pairs.startup, fun d hd => ?_⟩
  rw [hnone] at hd
  cases hd

/-- The capture keeps track of the window behind the latest request. -/
def Watches (c : Capture) (h : Said σ) : Prop :=
  ∃ before, beforeWrite h = some before ∧ Capture.Tracks (some before.length) (window h) [] c

theorem Watches.cons (hc : Watches c h) {w : Call} (hw : w.still = true) (answer : Except Exc w.Answer) :
    Watches c (⟨s, w, answer⟩ :: h) := by
  obtain ⟨-, hbefore, -, hwindow⟩ := still_cons (s := s) (h := h) hw answer
  obtain ⟨before, hsome, htracks⟩ := hc
  refine ⟨before, hbefore.trans hsome, ?_⟩
  rw [hwindow]
  exact htracks

/-- A read of the window processes what the framer finds in it. -/
theorem Watches.read (hc : Watches c h) (hrest : c.AtRest (received h)) (data : Bytes) :
    Watches (c.read .post_tx data) (⟨s, .read, .ok data⟩ :: h) := by
  obtain ⟨before, hsome, htracks⟩ := hc
  refine ⟨before, hsome, ?_⟩
  obtain ⟨hread, -⟩ := htracks.readAll hrest [data]
  have hevents : (c.framer.feedAll [data]).1.events = (c.framer.feed data).1.events := List.append_nil _
  rw [hevents, ← window_read (s := s) hsome hrest] at hread
  exact hread

/-- A window opens with a request, when nothing is credited behind its boundary. -/
theorem Watches.write (hrest : c.AtRest (received h)) (hmark : c.tx_boundary = some (received h).length)
    (hquiet : c.Quiet) (request : Bytes) (answer : Except Exc ℕ) : Watches c (⟨s, .write request, answer⟩ :: h) := by
  obtain ⟨hack, hnak, hstatus⟩ := hquiet
  refine ⟨received h, rfl, ?_⟩
  rw [window_write]
  refine ⟨hmark, congrArg _ hrest.valid_candidates, fun h => ?_, fun h => ?_, fun o control hmem => ?_, fun h => ?_⟩
  · rw [hack] at h
    cases h
  · rw [hnak] at h
    cases h
  · cases hmem
  · rw [hstatus] at h
    cases h

/-- Every telegram of the stream is listed. -/
theorem InStep.listed (hc : InStep c h) {o : ℕ} {frame : Frame} (hmem : (o, Event.frame frame) ∈ scan (received h)) :
    ∃ t ∈ c.telegrams, t.crc_valid = true ∧ t.offset_start = o := by
  have hfound : (o, frame.raw) ∈ (scan (received h)).filterMap frameAt := List.mem_filterMap.mpr ⟨_, hmem, rfl⟩
  rw [scan, ← feed_evidence] at hfound
  obtain ⟨found, hin, heq⟩ := List.mem_map.mp hfound
  obtain ⟨hin, hvalid⟩ := List.mem_filter.mp hin
  have hdetail : Detail.ofCandidate found ∈ c.telegrams.map Detail.evidence := by
    rw [hc.pairs.listed]
    exact List.mem_map_of_mem hin
  obtain ⟨t, ht, hevidence⟩ := List.mem_map.mp hdetail
  have hsame := congrArg Detail.crc_valid hevidence
  have hoffset := congrArg Detail.offset_start hevidence
  exact ⟨t, ht, hsame.trans hvalid, hoffset.trans (Prod.mk.inj heq).1⟩

/-- What the framer finds begins among the bytes it has. -/
theorem scan_frame_lt {stream : Bytes} {o : ℕ} {frame : Frame} (hmem : (o, Event.frame frame) ∈ scan stream) :
    o < stream.length := by
  by_contra hge
  have hframe := scan_frame hmem
  rw [List.drop_eq_nil_of_le (not_lt.mp hge)] at hframe
  cases hframe

/-- A listed detail is of a candidate. -/
theorem InStep.candidate (hc : InStep c h) {t : Detail} (ht : t ∈ c.telegrams) :
    ∃ found ∈ candidates (received h), Detail.ofCandidate found = t.evidence := by
  have hdetail : t.evidence ∈ (candidates (received h)).map Detail.ofCandidate := by
    rw [← hc.pairs.listed]
    exact List.mem_map_of_mem ht
  exact List.mem_map.mp hdetail

/-- A valid telegram which is listed was found in the stream. -/
theorem InStep.recognised (hc : InStep c h) {t : Detail} (ht : t ∈ c.telegrams) (hvalid : t.crc_valid = true) :
    (t.offset_start, Event.frame (Frame.ofRaw t.raw)) ∈ scan (received h) := by
  obtain ⟨found, hfound, heq⟩ := hc.candidate ht
  have hoffset : found.offset = t.offset_start := congrArg Detail.offset_start heq
  have hraw : found.raw = t.raw := congrArg Detail.raw heq
  have hsame : found.crc_valid = t.crc_valid := congrArg Detail.crc_valid heq
  have hat : (t.offset_start, t.raw) ∈ (scan (received h)).filterMap frameAt := by
    rw [scan, ← feed_evidence, ← hoffset, ← hraw]
    exact List.mem_map_of_mem (List.mem_filter.mpr ⟨hfound, hsame.trans hvalid⟩)
  obtain ⟨⟨o, event⟩, he, hat⟩ := List.mem_filterMap.mp hat
  cases event with
  | control k => cases hat
  | frame frame =>
    obtain ⟨rfl, hframe⟩ := Prod.mk.inj (Option.some.inj hat)
    have hparsed := telegramAt_ofRaw (scan_frame he)
    rw [hframe] at hparsed
    rw [hparsed]
    exact he

/-- What is listed of it is what the telegram has. -/
theorem InStep.reads (hc : InStep c h) {t : Detail} (ht : t ∈ c.telegrams) (hvalid : t.crc_valid = true) :
    t.address = (Frame.ofRaw t.raw).address ∧ t.command = (Frame.ofRaw t.raw).command ∧
      t.payload_length = (Frame.ofRaw t.raw).payload.length := by
  obtain ⟨found, -, heq⟩ := hc.candidate ht
  have hraw : found.raw = t.raw := congrArg Detail.raw heq
  have haddress : found.raw.getD 1 0 = t.address := congrArg Detail.address heq
  have hcommand : found.raw.getD 4 0 = t.command := congrArg Detail.command heq
  have hlength : fromBytesLittle (slice found.raw 2 4) = t.payload_length := congrArg Detail.payload_length heq
  obtain ⟨hwire, -⟩ := (telegramAt_eq_some_iff _ _).mp (scan_frame (hc.recognised ht hvalid))
  obtain ⟨-, -, hdeclared, hpayload⟩ := encode_prefix_header hwire (List.prefix_refl _)
  obtain ⟨hlegal, -⟩ := (encode_eq_ok_iff _ _ _).mp hwire
  change declaredLength t.raw = _ at hdeclared
  change slice t.raw 4 _ = _ at hpayload
  refine ⟨?_, ?_, ?_⟩
  · rw [← haddress, hraw]
    rfl
  · have hinside : 4 < (Frame.ofRaw t.raw).payload.length + 4 := by omega
    rw [← hcommand, hraw, Frame.command, ← hpayload, slice, List.headD_eq_head?_getD, List.head?_drop,
      List.getElem?_take, if_pos hinside, List.getD_eq_getElem?_getD]
  · rw [← hlength, hraw, ← hdeclared]
    rfl

/-- A valid telegram which is listed as beginning behind the latest request was found in its window. -/
theorem InStep.found {before : Bytes} (hc : InStep c h) (hbefore : beforeWrite h = some before) {t : Detail}
    (ht : t ∈ c.telegrams) (hvalid : t.crc_valid = true) (hbehind : before.length ≤ t.offset_start) :
    (t.offset_start, Event.frame (Frame.ofRaw t.raw)) ∈ window h := by
  have hmem := hc.recognised ht hvalid
  obtain ⟨later, hlater⟩ := scan_front (beforeWrite_front hbefore)
  have hwindow : window h = later := by
    rw [window, hbefore, ← hlater]
    exact List.drop_left
  rw [← hlater] at hmem
  rw [hwindow]
  rcases List.mem_append.mp hmem with hearlier | hlate
  · exact absurd (scan_frame_lt hearlier) (not_lt.mpr hbehind)
  · exact hlate

end Lms200.Diagnostic.Windows
