import Lms200.Diagnostic.RunStatusRepeat
import Lms200.Diagnostic.Windows

/-!
# Requests are repeated into silence

What `run_status_repeat` may transmit, against every environment: only the status request, a bounded
number of times, and another one only after five seconds of listening to a window without an answer.
A telegram answers a window if it begins in it; one which began before is passed over.
-/

namespace Lms200.Diagnostic.StatusRepeat

open Coop Program Windows

/-- The history of a run. -/
abbrev Transcript := Said Run

/-- Since the latest request there was no control, and no telegram which began behind it. -/
def Unanswered (h : Transcript) : Prop :=
  ∀ before, beforeWrite h = some before → ∀ e ∈ window h, e.1 < before.length ∧ ∃ frame, e.2 = .frame frame

/-- Five seconds passed on the clock after the latest request was drained. -/
def Paced (h : Transcript) : Prop := Elapsed 5 (Told .flush () fun _ => True) (sinceWrite h)

/-- What may be written, and when. -/
def mayCall (attempts : ℕ) (_ : Run) (h : Transcript) : Call → Prop
  | .write request =>
    request = STATUS_REQUEST ∧ (requests h).length < attempts ∧ Smooth h ∧
      (beforeWrite h ≠ none → Paced h ∧ Unanswered h)
  | _ => True

/-- The window has an acknowledgement, a status response behind it which began in the window, and no
refusal. -/
def Replied (h : Transcript) : Prop :=
  ∃ before, beforeWrite h = some before ∧ (∀ o, (o, Event.control .NAK) ∉ window h) ∧
    ∃ front o frame back, window h = front ++ (o, .frame frame) :: back ∧ before.length ≤ o ∧ Decodes frame ∧
      ∃ o', (o', Event.control .ACK) ∈ front

variable {attempts : ℕ} {s s' : Run} {h : Transcript}

/-! ## Between the requests -/

theorem Paced.cons (hpaced : Paced h) {c : Call} (hc : c.quiet = true) (answer : Except Exc c.Answer) :
    Paced (⟨s, c, answer⟩ :: h) :=
  Elapsed.mono hpaced (sinceWrite_suffix hc answer)

/-- Nothing has failed; the capture has what was received, and no verdict has been reached. -/
structure Running (s : Run) (h : Transcript) : Prop where
  step : InStep s.capture h
  failing : s.report.success = false
  unharmed : s.report.exception = none
  undecided : s.report.stop_reason = none
  smooth : Smooth h

/-- The next request may be sent: so many have been. -/
structure Ready (sent : ℕ) (s : Run) (h : Transcript) : Prop extends Running s h where
  sent : (requests h).length = sent
  silence : beforeWrite h ≠ none → Paced h ∧ Unanswered h

/-- An attempt has failed without a verdict. -/
def Undecided (s : Run) : Prop :=
  s.report.success = false ∧ s.report.stop_reason = none

theorem Running.undecides (hs : Running s h) : Undecided s := ⟨hs.failing, hs.undecided⟩

theorem Running.cons (hs : Running s h) {c : Call} (hc : c.still = true) (a : c.Answer) :
    Running s (⟨s', c, .ok a⟩ :: h) :=
  ⟨hs.step.cons hc _, hs.failing, hs.unharmed, hs.undecided, hs.smooth.cons (still_quiet hc) a⟩

/-- A read keeps the capture in step with what was received. -/
theorem Running.read (hs : Running s h) (phase : Phase) (data : Bytes) :
    Running { s with capture := s.capture.read phase data } (⟨s, .read, .ok data⟩ :: h) :=
  ⟨hs.step.read phase data, hs.failing, hs.unharmed, hs.undecided, hs.smooth.cons (c := .read) rfl data⟩

theorem Unanswered.cons (hh : Unanswered h) {c : Call} (hc : c.still = true) (answer : Except Exc c.Answer) :
    Unanswered (⟨s, c, answer⟩ :: h) := by
  obtain ⟨-, hbefore, -, hwindow⟩ := still_cons (s := s) (h := h) hc answer
  intro before hsome
  rw [hbefore] at hsome
  rw [hwindow]
  exact hh before hsome

theorem Ready.continues (sent : ℕ) : Continues Call.still (Ready sent) := by
  intro s s' h c a hc hs
  obtain ⟨-, hbefore, hrequests, -⟩ := still_cons (s := s') (h := h) hc (.ok a)
  refine ⟨hs.toRunning.cons hc a, (congrArg List.length hrequests).trans hs.sent, fun hasked => ?_⟩
  rw [hbefore] at hasked
  obtain ⟨hpaced, hsilent⟩ := hs.silence hasked
  exact ⟨hpaced.cons (still_quiet hc) _, hsilent.cons hc _⟩

/-- Nothing has been sent. -/
structure Opening (s : Run) (h : Transcript) : Prop extends Running s h where
  before : beforeWrite h = none
  unsent : requests h = []

theorem Opening.ready (hs : Opening s h) : Ready 0 s h :=
  ⟨hs.toRunning, congrArg List.length hs.unsent, fun hasked => absurd hs.before hasked⟩

theorem Opening.continues : Continues Call.still Opening := by
  intro s s' h c a hc hs
  obtain ⟨-, hbefore, hrequests, -⟩ := still_cons (s := s') (h := h) hc (.ok a)
  exact ⟨hs.toRunning.cons hc a, hbefore.trans hs.before, hrequests.trans hs.unsent⟩

/-- Opening sends nothing. -/
theorem openDevice_holds (hs : Opening s h) :
    openDevice.Holds (mayCall attempts) (fun r s h => match r with
      | .ok _ => Opening s h
      | .error _ => Undecided s) s h := by
  have hundecided : Undecided s := hs.undecides
  refine Opening.continues.bind hs rfl trivial (fun _ => hundecided) fun _ hs => ?_
  refine Opening.continues.bind hs rfl trivial (fun _ => hundecided) fun _ hs => ?_
  refine holds_modify_bind.mpr ?_
  have hmade : Opening { s with device := true } _ := ⟨⟨hs.1.1, hs.1.2, hs.1.3, hs.1.4, hs.1.5⟩, hs.2, hs.3⟩
  refine Opening.continues.bind hmade rfl trivial (fun _ => hundecided) fun _ hs => ?_
  refine holds_modify_bind.mpr ?_
  refine Opening.continues.bind ⟨⟨hs.1.1, hs.1.2, hs.1.3, hs.1.4, hs.1.5⟩, hs.2, hs.3⟩ rfl trivial
    (fun _ => hundecided) fun _ hs => ?_
  exact Opening.continues.request hs rfl trivial (fun _ => hundecided) fun _ hs => hs

/-- Neither does the sample. -/
theorem sample_holds (passes : ℕ) (hs : Opening s h) :
    (sample passes).Holds (mayCall attempts) (fun r s h => match r with
      | .ok _ => Opening s h
      | .error _ => Undecided s) s h := by
  refine Opening.continues.bind hs rfl trivial (fun _ => hs.undecides) fun now hs => ?_
  refine Holds.repeatUntil Opening (fun s h hs => hs.undecides) (fun s h hs => ?_) passes hs
  refine Opening.continues.bind hs rfl trivial (fun _ => hs.undecides) fun later hs => ?_
  refine (holds_ite _ _).mpr ⟨fun _ => ?_, fun _ => hs⟩
  refine Holds.bind (fun _ s h => Opening s h) ?_ fun _ s h hs => hs
  refine holds_request_bind.mpr ⟨trivial, fun _ => hs.undecides, fun data => ?_⟩
  exact ⟨hs.toRunning.read .pre_tx data, hs.before, hs.unsent⟩

/-! ## One attempt -/

/-- The transmit boundary lies behind what was received, and nothing is credited. -/
structure Begun (sent : ℕ) (s : Run) (h : Transcript) : Prop extends Ready sent s h where
  marked : s.capture.tx_boundary = some (received h).length
  quiet : s.capture.Quiet

theorem Begun.continues (sent : ℕ) : Continues Call.still (Begun sent) := by
  intro s s' h c a hc hs
  obtain ⟨hreceived, -, -, -⟩ := still_cons (s := s') (h := h) hc (.ok a)
  refine ⟨Ready.continues sent a hc hs.toReady, ?_, hs.quiet⟩
  rw [hreceived]
  exact hs.marked

theorem begin_holds {sent : ℕ} (number : ℕ) (hs : Ready sent s h) :
    (begin number).Holds (mayCall attempts) (fun r s h => match r with
      | .ok _ => Begun sent s h
      | .error _ => Undecided s) s h := by
  refine holds_modify_bind.mpr ?_
  have hbegun : Begun sent { s with
      capture := s.capture.nextAttempt
      report.attempts := s.report.attempts ++ [{ number, rx_start := s.capture.raw.length }] } h :=
    ⟨⟨⟨hs.step.nextAttempt, hs.failing, hs.unharmed, hs.undecided, hs.smooth⟩, hs.sent, hs.silence⟩,
      congrArg (fun raw : Bytes => some raw.length) hs.step.rest.raw, rfl, rfl, rfl⟩
  exact (Begun.continues sent).request hbegun rfl trivial (fun _ => hs.undecides) fun _ hs => hs

/-- A request has been written whole, and the capture keeps track of its window. -/
structure Asked (sent : ℕ) (s : Run) (h : Transcript) : Prop extends Running s h where
  sent : (requests h).length = sent
  watches : Watches s.capture h

theorem Asked.continues (sent : ℕ) : Continues Call.still (Asked sent) := by
  intro s s' h c a hc hs
  obtain ⟨-, -, hrequests, -⟩ := still_cons (s := s') (h := h) hc (.ok a)
  exact ⟨hs.toRunning.cons hc a, (congrArg List.length hrequests).trans hs.sent, hs.watches.cons hc _⟩

/-- A read of the window processes what the framer finds in it. -/
theorem Asked.read {sent : ℕ} (hs : Asked sent s h) (data : Bytes) :
    Asked sent { s with capture := s.capture.read .post_tx data } (⟨s, .read, .ok data⟩ :: h) :=
  ⟨hs.toRunning.read .post_tx data, hs.sent, hs.watches.read hs.step.rest data⟩

/-- The request goes out whole, behind a silent window if there was one. -/
theorem Begun.asked {sent : ℕ} (hs : Begun sent s h) :
    Asked (sent + 1) s (⟨s, .write STATUS_REQUEST, .ok 7⟩ :: h) := by
  refine ⟨⟨hs.step.write _ _, hs.failing, hs.unharmed, hs.undecided, fun x hx => ?_⟩,
    congrArg (· + 1) hs.sent, .write hs.step.rest hs.marked hs.quiet _ _⟩
  rcases List.mem_cons.mp hx with rfl | hx
  · rfl
  · exact hs.smooth x hx

/-- The entry of the attempt is no verdict. -/
theorem Asked.amend {sent : ℕ} (hs : Asked sent s h) (f : Attempt → Attempt) :
    Asked sent { s with report := s.report.amend f } h :=
  ⟨⟨hs.step, hs.failing, hs.unharmed, hs.undecided, hs.smooth⟩, hs.sent, hs.watches⟩

/-- The output has been drained since the latest request. -/
def Flushed (h : Transcript) : Prop := Told .flush () (fun _ => True) (sinceWrite h)

theorem Asked.continues_flushed (sent : ℕ) : Continues Call.still fun s h => Asked sent s h ∧ Flushed h :=
  fun _ _ _ _ a hc hs => ⟨Asked.continues sent a hc hs.1, hs.2.mono (sinceWrite_suffix (still_quiet hc) _)⟩

/-- The request is written whole and drained, or the repetition ends. -/
theorem transmit_holds {sent : ℕ} (hs : Begun sent s h) (hlt : sent < attempts) :
    transmit.Holds (mayCall attempts) (fun r s h => match r with
      | .ok _ => Asked (sent + 1) s h ∧ Flushed h
      | .error _ => Undecided s) s h := by
  have hmay : mayCall attempts s h (.write STATUS_REQUEST) :=
    ⟨rfl, hs.sent.trans_lt hlt, hs.smooth, hs.silence⟩
  have hundecided : Undecided s := hs.undecides
  refine holds_request_bind.mpr ⟨hmay, fun _ => hundecided, fun written => holds_modify_bind.mpr ?_⟩
  by_cases hwhole : written = 7
  · subst hwhole
    refine (Asked.continues _).bind (hs.asked.amend _) rfl trivial (fun _ => hundecided) fun _ hs => ?_
    refine (holds_bind _ _).mpr (holds_provided.mpr ⟨fun hshort => absurd rfl hshort, fun _ => ?_⟩)
    refine (Asked.continues _).bind hs rfl trivial (fun _ => hundecided) fun _ hs => ?_
    refine holds_request_bind.mpr ⟨trivial, fun _ => hundecided, fun _ => holds_modify_bind.mpr ?_⟩
    refine (Asked.continues_flushed _).bind ⟨(Asked.continues _ (w := .flush) () rfl hs).amend _, Told.head trivial⟩
      rfl trivial (fun _ => hundecided) fun _ hs => ?_
    exact (Asked.continues_flushed _).request hs rfl trivial (fun _ => hundecided) fun _ hs => hs
  · refine holds_request_bind.mpr ⟨trivial, fun _ => hundecided, fun _ => ?_⟩
    exact (holds_bind _ _).mpr (holds_provided.mpr ⟨fun _ => hundecided, fun hequal => absurd (not_not.mp hequal) hwhole⟩)

/-- The clock was read behind the drained request. -/
def Listening (started : ℚ) (h : Transcript) : Prop :=
  Told .monotonic started (fun past => Told .flush () (fun _ => True) past) (sinceWrite h)

theorem Asked.continues_listening (sent : ℕ) (started : ℚ) :
    Continues Call.still fun s h => Asked sent s h ∧ Listening started h :=
  fun _ _ _ _ a hc hs => ⟨Asked.continues sent a hc hs.1, hs.2.mono (sinceWrite_suffix (still_quiet hc) _)⟩

theorem Asked.continues_paced (sent : ℕ) : Continues Call.still fun s h => Asked sent s h ∧ Paced h :=
  fun _ _ _ _ a hc hs => ⟨Asked.continues sent a hc hs.1, hs.2.cons (still_quiet hc) _⟩

/-- The window stays open for five seconds. -/
theorem listen_holds {sent : ℕ} (passes : ℕ) (hs : Asked sent s h) (hflushed : Flushed h) :
    (listen passes).Holds (mayCall attempts) (fun r s h => match r with
      | .ok _ => Asked sent s h ∧ Paced h
      | .error _ => Undecided s) s h := by
  refine holds_request_bind.mpr ⟨trivial, fun _ => hs.undecides, fun started => ?_⟩
  have hlistening : Listening started (⟨s, .monotonic, .ok started⟩ :: h) := Told.head hflushed
  have hasked : Asked sent s (⟨s, .monotonic, .ok started⟩ :: h) := Asked.continues sent (w := .monotonic) started rfl hs
  refine (Asked.continues_listening _ _).bind ⟨hasked, hlistening⟩ rfl trivial (fun _ => hs.undecides) fun _ hs => ?_
  refine Holds.bind (fun _ s h => Asked sent s h ∧ Paced h) ?_ fun _ s h hs => hs
  refine Holds.repeatUntil (fun s h => Asked sent s h ∧ Listening started h) (fun s h hs => hs.1.undecides)
    (fun s h hs => ?_) passes hs
  refine holds_request_bind.mpr ⟨trivial, fun _ => hs.1.undecides, fun now => ?_⟩
  have hs' : Asked sent s (⟨s, .monotonic, .ok now⟩ :: h) ∧ Listening started (⟨s, .monotonic, .ok now⟩ :: h) :=
    Asked.continues_listening sent started (w := .monotonic) now rfl hs
  refine (holds_ite _ _).mpr ⟨fun _ => ?_, fun helapsed => ?_⟩
  · refine Holds.bind (fun _ s h => Asked sent s h ∧ Listening started h) ?_ fun _ s h hs => hs
    refine holds_request_bind.mpr ⟨trivial, fun _ => hs.1.undecides, fun data => ?_⟩
    exact ⟨hs'.1.read data, hs'.2.mono (sinceWrite_suffix (c := .read) rfl _)⟩
  · exact ⟨hs'.1, started, now, Told.head hs.2, not_lt.mp helapsed⟩

/-! ## The verdict on a window -/

/-- A window which does not stop the repetition is unanswered. -/
theorem Asked.unanswered {sent : ℕ} (hs : Asked sent s h) (hack : s.capture.post_ack = false)
    (hnak : s.capture.post_nak = false) (hframe : s.valid_frame = false) : Unanswered h := by
  obtain ⟨before, hsome, htracks⟩ := hs.watches
  intro before' hbefore' e he
  obtain rfl := Option.some.inj (hsome.symm.trans hbefore')
  obtain ⟨o, event⟩ := e
  cases event with
  | control k =>
    obtain ⟨hcredited, hrefused⟩ := htracks.credited o k he
    cases k with
    | ACK => exact absurd (hcredited rfl) (by simp [hack])
    | NAK => exact absurd (hrefused rfl) (by simp [hnak])
  | frame frame =>
    refine ⟨?_, frame, rfl⟩
    by_contra hbehind
    obtain ⟨t, ht, hvalid, hoffset⟩ := hs.step.listed (window_subset he)
    have hany : s.valid_frame = true := by
      rw [Run.valid_frame, htracks.tx_boundary, List.any_eq_true]
      refine ⟨t, ht, ?_⟩
      rw [hvalid, hoffset, Bool.true_and, decide_eq_true_eq]
      exact not_lt.mp hbehind
    rw [hframe] at hany
    cases hany

/-- A status response without a refusal is a reply. -/
theorem Asked.replied {sent : ℕ} (hs : Asked sent s h) (hstatus : s.capture.status.isSome = true)
    (hnak : s.capture.post_nak = false) : Replied h := by
  obtain ⟨before, hsome, htracks⟩ := hs.watches
  refine ⟨before, hsome, fun o hmem => ?_, ?_⟩
  · have hrefused := (htracks.credited o .NAK hmem).2 rfl
    rw [hnak] at hrefused
    cases hrefused
  · obtain ⟨front, o, frame, back, boundary, hboundary, hsplit, hbehind, hdecodes, hack⟩ := htracks.status hstatus
    obtain rfl := Option.some.inj hboundary
    exact ⟨front, o, frame, back, hsplit, hbehind, hdecodes, hack⟩

/-- The repetition has ended without an exception. -/
structure Finished (attempts : ℕ) (s : Run) (h : Transcript) : Prop where
  unharmed : s.report.exception = none
  replied : s.report.success = true → Replied h
  exhausted : s.report.stop_reason = some exhaustedReason →
    (requests h).length = attempts ∧ Paced h ∧ Unanswered h

/-- The window ends the repetition, or the next request may be sent. -/
theorem conclude_holds {sent : ℕ} (started : ℚ) (hs : Asked sent s h) (hpaced : Paced h) :
    (conclude started).Holds (mayCall attempts) (fun r s h => match r with
      | .ok true => Finished attempts s h
      | .ok false => Ready sent s h
      | .error _ => Undecided s) s h := by
  have hundecided : Undecided s := hs.undecides
  refine (Asked.continues_paced _).bind ⟨hs, hpaced⟩ rfl trivial (fun _ => hundecided) fun now hs => ?_
  refine holds_modify_bind.mpr ?_
  refine (Asked.continues_paced _).bind ⟨hs.1.amend _, hs.2⟩ rfl trivial (fun _ => hundecided) fun _ hs => ?_
  obtain ⟨hasked, hpaced⟩ := hs
  refine holds_get_bind.mpr ((holds_ite _ _).mpr ⟨fun _ => ?_, fun hsilent => ?_⟩)
  · refine holds_modify_bind.mpr ⟨hasked.unharmed, fun hsuccess => ?_, fun hreason => ?_⟩
    · obtain ⟨hstatus, hnak⟩ := Bool.and_eq_true_iff.mp hsuccess
      exact hasked.replied hstatus (by simpa using hnak)
    · have hdiffers : observedReason ≠ exhaustedReason := by decide
      exact absurd (Option.some.inj hreason) hdiffers
  · simp only [Bool.or_eq_true, not_or, Bool.not_eq_true] at hsilent
    obtain ⟨⟨⟨hsuccess, hack⟩, hnak⟩, hframe⟩ := hsilent
    refine ⟨⟨hasked.step, hsuccess, hasked.unharmed, hasked.undecided, hasked.smooth⟩, hasked.sent,
      fun _ => ⟨hpaced, hasked.unanswered hack hnak hframe⟩⟩

/-! ## The whole run -/

/-- One attempt. -/
theorem attempt_holds {sent : ℕ} (number passes : ℕ) (hs : Ready sent s h) (hlt : sent < attempts) :
    (attempt number passes).Holds (mayCall attempts) (fun r s h => match r with
      | .ok true => Finished attempts s h
      | .ok false => Ready (sent + 1) s h
      | .error _ => Undecided s) s h := by
  refine (begin_holds number hs).seq (fun _ _ _ hs => hs) fun _ s h hs => ?_
  refine (transmit_holds hs hlt).seq (fun _ _ _ hs => hs) fun _ s h hs => ?_
  refine (listen_holds passes hs.1 hs.2).seq (fun _ _ _ hs => hs) fun started s h hs => ?_
  exact conclude_holds started hs.1 hs.2

/-- The attempts which are left. -/
theorem repeatFrom_holds (passes left : ℕ) {sent : ℕ} (number : ℕ) (hs : Ready sent s h)
    (hleft : sent + left = attempts) (hbounded : 0 < attempts) :
    (repeatFrom passes left number).Holds (mayCall attempts) (fun r s h => match r with
      | .ok _ => Finished attempts s h
      | .error _ => Undecided s) s h := by
  induction left generalizing sent number s h with
  | zero =>
    obtain rfl : sent = attempts := hleft
    have hsilence := hs.silence (beforeWrite_of_requests (hs.sent.symm ▸ hbounded))
    refine (holds_modify _).mpr ⟨hs.unharmed, fun hsuccess => ?_, fun _ => ⟨hs.sent, hsilence⟩⟩
    have hfailing := hs.failing
    rw [hfailing] at hsuccess
    cases hsuccess
  | succ left ih =>
    refine (attempt_holds number passes hs (by omega)).seq (fun _ _ _ hs => hs) fun ended s h hs => ?_
    cases ended with
    | true => exact hs
    | false => exact ih (number + 1) hs (by omega)

theorem body_holds (passes : ℕ) (hs : Opening s h) (hbounded : 0 < attempts) :
    (body attempts passes).Holds (mayCall attempts) (fun r s h => match r with
      | .ok _ => Finished attempts s h
      | .error _ => Undecided s) s h := by
  refine (openDevice_holds hs).seq (fun _ _ _ hs => hs) fun _ s h hs => ?_
  refine (sample_holds passes hs).seq (fun _ _ _ hs => hs) fun _ s h hs => ?_
  exact repeatFrom_holds passes attempts 1 hs.ready (Nat.zero_add _) hbounded

/-- Whatever the repetition led to: its verdicts mean what they should. -/
structure Judged (attempts : ℕ) (s : Run) (h : Transcript) : Prop where
  replied : s.report.success = true → s.report.exception = none ∧ Replied h
  exhausted : s.report.stop_reason = some exhaustedReason →
    (requests h).length = attempts ∧ Paced h ∧ Unanswered h

theorem Finished.judged (hs : Finished attempts s h) : Judged attempts s h :=
  ⟨fun hsuccess => ⟨hs.unharmed, hs.replied hsuccess⟩, hs.exhausted⟩

theorem Judged.survives : Survives Call.still (Judged attempts) := by
  intro s s' h c answer hc hs
  obtain ⟨-, hbefore, hrequests, hwindow⟩ := still_cons (s := s') (h := h) hc answer
  refine ⟨fun hsuccess => ?_, fun hreason => ?_⟩
  · obtain ⟨hunharmed, hreplied⟩ := hs.replied hsuccess
    rw [Replied, hbefore, hwindow]
    exact ⟨hunharmed, hreplied⟩
  · obtain ⟨hsent, hpaced, hsilent⟩ := hs.exhausted hreason
    rw [hrequests]
    exact ⟨hsent, hpaced.cons (still_quiet hc) answer, hsilent.cons hc answer⟩

/-- The handlers reach no verdict. -/
theorem handle_holds {e : Exc} (hs : Undecided s) :
    (handle e).Holds (mayCall attempts) (fun _ s h => Judged attempts s h) s h := by
  obtain ⟨hfailing, hreason⟩ := hs
  have hfails : ∀ {p : Prop}, s.report.success = true → p := fun hsuccess => by
    rw [hfailing] at hsuccess
    cases hsuccess
  have hdiffers : "Error/interruption; repetition stopped" ≠ exhaustedReason := by decide
  have hstopped : Judged attempts { s with report := { s.report with
      exception := some e, stop_reason := some "Error/interruption; repetition stopped" } } h :=
    ⟨fun hsuccess => hfails hsuccess, fun heq => absurd (Option.some.inj heq) hdiffers⟩
  have hraised : Judged attempts s h := ⟨fun hsuccess => hfails hsuccess, fun heq => by
    rw [hreason] at heq
    cases heq⟩
  cases e with
  | os _ | value _ | protocol _ | keyboard_interrupt => exact hstopped
  | _ => exact hraised

theorem closeDevice_holds (hs : Judged attempts s h) :
    closeDevice.Holds (mayCall attempts) (fun _ s h => Judged attempts s h) s h := by
  refine holds_get_bind.mpr (holds_provided.mpr ⟨fun _ => ?_, fun _ => hs⟩)
  refine Holds.bind (fun _ s h => Judged attempts s h) ((holds_tryCatch _ _).mpr ?_) fun _ s h hs => ?_
  · refine Judged.survives.request hs rfl trivial ?_
    rintro (e | _) h hs
    · cases e <;> exact ⟨hs.replied, hs.exhausted⟩
    · exact hs
  · refine Judged.survives.bind hs rfl trivial (fun _ _ hs => hs) fun is_open hs => ?_
    exact ⟨hs.replied, hs.exhausted⟩

/-- The `finally` block revokes a success without a closed port. -/
theorem cleanup_holds (hs : Judged attempts s h) :
    cleanup.Holds (mayCall attempts) (fun r s h => Judged attempts s h ∧
      ∀ u, r = .ok u → s.report.success = true → s.report.port_closed = true) s h := by
  refine holds_modify_bind.mpr ?_
  have hamended : Judged attempts { s with report := s.report.amend fun a =>
      if a.rx_bytes = none then { a with rx_bytes := some (s.capture.raw.length - a.rx_start) } else a } h :=
    ⟨hs.replied, hs.exhausted⟩
  refine (closeDevice_holds hamended).seq (fun _ _ _ hs => ⟨hs, fun u hu => by cases hu⟩) fun _ s h hs => ?_
  refine holds_modify_bind.mpr (Judged.survives.request ?_ rfl trivial fun r h hs => ⟨hs, fun _ _ hsuccess => ?_⟩)
  · exact ⟨fun hsuccess => hs.replied (Bool.and_eq_true_iff.mp hsuccess).1, hs.exhausted⟩
  · exact (Bool.and_eq_true_iff.mp hsuccess).2

/-- A report can be relied on: success comes with a closed port and a reply, and exhausted attempts with
as many silent windows. -/
def Reliable (attempts : ℕ) (s : Run) (h : Transcript) : Prop :=
  (s.report.success = true → s.report.port_closed = true ∧ s.report.exception = none ∧ Replied h) ∧
    (s.report.stop_reason = some exhaustedReason → (requests h).length = attempts ∧ Paced h ∧ Unanswered h)

/-- No more requests are written than allowed. -/
theorem requests_length (hlawful : Lawful (mayCall attempts) h) : (requests h).length ≤ attempts := by
  induction h with
  | nil => exact Nat.zero_le _
  | cons x past ih =>
    have hpast := ih fun y before hsuffix => hlawful y before (hsuffix.trans (List.suffix_cons _ _))
    have hmay := hlawful x past (List.suffix_refl _)
    obtain ⟨s, call, answer⟩ := x
    cases call with
    | write request => exact hmay.2.1
    | _ => exact hpast

/-- A run which the checks at its beginning admit. -/
theorem admitted_holds (passes : ℕ) (hs : Opening s h) (hbounded : 0 < attempts) :
    (Program.andFinally (tryCatch (body attempts passes) handle) cleanup).Holds (mayCall attempts)
      (fun r s h => ∀ u, r = .ok u → Reliable attempts s h) s h := by
  have hcleaned : ∀ {s : Run} {h : Transcript} (outcome : Except Exc Unit), Judged attempts s h →
      cleanup.Holds (mayCall attempts)
        (fun r s h => ∀ u, (r.bind fun _ => outcome) = .ok u → Reliable attempts s h) s h := by
    intro s h outcome hs
    refine (cleanup_holds hs).mono fun r s h hr u hu => ?_
    obtain ⟨hjudged, hclosed⟩ := hr
    cases r with
    | error e => cases hu
    | ok v => exact ⟨fun hsuccess => ⟨hclosed v rfl hsuccess, hjudged.replied hsuccess⟩, hjudged.exhausted⟩
  refine (holds_andFinally _ _).mpr ((holds_tryCatch _ _).mpr ((body_holds passes hs hbounded).mono ?_))
  intro r s h hr
  cases r with
  | error e => exact (handle_holds hr).mono fun outcome s h hs => hcleaned outcome hs
  | ok u => exact hcleaned (.ok u) hr.judged

end Lms200.Diagnostic.StatusRepeat
