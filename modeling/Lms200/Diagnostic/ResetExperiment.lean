import Lms200.Diagnostic.Windows

/-!
# The software reset

`run` of `reset_experiment.py`: one reset request, written once after both confirmations, and the
evidence of the exchange in the capture of the next 65 seconds. The journal inside of the capture,
the timing in the report and the texts are left out.
-/

namespace Lms200.Diagnostic.ResetExperiment

open Coop Program Windows

/-- `02 00 01 00 10 34 12` -/
def RESET_REQUEST : Bytes := [0x02, 0x00, 0x01, 0x00, 0x10, 0x34, 0x12]

/-- At most 60 s for the initialization, and host margin. -/
def CAPTURE_SECONDS : ℚ := 65

/-- The report. What the capture adds to it is in the capture. -/
structure Report where
  write_count : Option ℕ := none
  flush_completed : Bool := false
  port_closed : Option Bool := none
  error : Option Exc := none
  close_error : Option Exc := none
  post_tx_ack : Bool := false
  post_tx_nak : Bool := false
  reset_reply_valid : Bool := false
  startup_reply_valid : Bool := false
  exchange_observed : Bool := false
  deriving DecidableEq, Repr

/-- The variables of a run. -/
structure Run where
  report : Report := {}
  capture : Capture := {}
  device : Bool := false
  deriving DecidableEq, Repr

/-- A part of `run`. -/
abbrev Prog (α : Type) := Program Run Call Call.Answer Exc α

/-- One call. -/
def ask (c : Call) : Prog c.Answer := Program.request c

/-- Change the report. -/
def report (f : Report → Report) : Prog Unit := modify fun r => { r with report := f r.report }

/-- `capture.read` -/
def readDevice (phase : Phase) : Prog Unit := do
  let data ← ask .read
  modify fun r => { r with capture := r.capture.read phase data }

def openDevice : Prog Unit := do
  ask .construct
  modify fun r => { r with device := true }
  ask .open
  ask .initial_state
  ask .emit

/-- Record what is available before the request, and set the transmit boundary behind it. -/
def sample (passes : ℕ) : Prog Unit := do
  let limit := (← ask .monotonic) + 1 / 10
  Program.repeatUntil .cut (do
    if (← ask .monotonic) < limit then
      readDevice .pre_tx
      pure none
    else pure (some ())) passes
  modify fun r => { r with capture := r.capture.mark }

/-- Write the request and drain the output. -/
def transmit : Prog Unit := do
  ask .emit
  let written ← ask (.write RESET_REQUEST)
  report fun r => { r with write_count := some written }
  ask .emit
  Program.provided (written ≠ 7) (throw (.os "Short reset write; do not retry"))
  ask .emit
  ask .flush
  report fun r => { r with flush_completed := true }
  ask .out_waiting
  ask .emit

/-- Listen, and measure the time. -/
def listen (passes : ℕ) : Prog Unit := do
  let started ← ask .monotonic
  Program.repeatUntil .cut (do
    if (← ask .monotonic) - started < CAPTURE_SECONDS then
      readDevice .post_tx
      pure none
    else pure (some ())) passes
  let _ ← ask .monotonic

/-- The body of the `try` block. -/
def body (passes : ℕ) : Prog Unit := do
  openDevice
  sample passes
  transmit
  listen passes

/-- The handler of the `try` block. -/
def handle : Exc → Prog Unit
  | .cut => throw .cut
  | e => do
    report fun r => { r with error := some e }
    ask .emit

/-- Close the port; an interrupt while it closes is not kept. -/
def closeDevice : Prog Unit := do
  let r ← get
  Program.provided (r.device = true) do
    tryCatch (ask .close) fun
      | .cut => throw .cut
      | .keyboard_interrupt => throw .keyboard_interrupt
      | e => report fun r => { r with close_error := some e }
    let is_open ← ask .is_open
    report fun r => { r with port_closed := some !is_open }

/-- The valid telegrams behind the transmit boundary which a broadcast may be answered with. -/
def replies (c : Capture) : List Detail :=
  c.telegrams.filter fun t => match c.tx_boundary with
    | none => false
    | some boundary =>
      boundary ≤ t.offset_start && (t.address == 0x80 || t.address == 0x81) && t.crc_valid

/-- The verdicts on the capture. -/
def conclude (c : Capture) (r : Report) : Report :=
  let reset_reply_valid := (replies c).any fun t => t.command == 0x91 && t.payload_length == 2
  let startup_reply_valid := (replies c).any fun t => t.command == 0x90 && t.identity.isSome
  { r with
    post_tx_ack := c.post_ack
    post_tx_nak := c.post_nak
    reset_reply_valid
    startup_reply_valid
    exchange_observed := c.post_ack && !c.post_nak && reset_reply_valid && startup_reply_valid }

/-- The `finally` block. -/
def cleanup : Prog Unit := do
  closeDevice
  modify fun r => { r with report := conclude r.capture r.report }
  ask .emit

/-- The checks made before the log is opened; `windows` stands for `os.name == "nt"`. -/
def entry (confirmed_reset confirmed_hardware windows : Bool) : Except Exc Unit :=
  if confirmed_reset = false ∨ confirmed_hardware = false then
    .error (.value "Explicit fault-memory-clear consent and current hardware confirmation required")
  else if windows = false then .error (.other "This experiment is native Windows only")
  else if crc16 (RESET_REQUEST.take 5) ≠ fromBytesLittle (RESET_REQUEST.drop 5) then
    .error (.value "Published reset request CRC mismatch")
  else .ok ()

/-- `run` -/
def run (confirmed_reset confirmed_hardware windows : Bool) (passes : ℕ) : Prog Report := do
  Program.ofExcept (entry confirmed_reset confirmed_hardware windows)
  ask .open_log
  ask .emit
  Program.andFinally (tryCatch (body passes) handle) cleanup
  let r ← get
  pure r.report

/-- The exit status of `main` is zero. -/
def Report.exitsZero (r : Report) : Prop := r.exchange_observed = true ∧ r.error = none

/-! ## What a run may do -/

/-- The history of a run. -/
abbrev Transcript := Said Run

/-- The log exists before the port is touched, and the request is written once, into a port which was open
for a tenth of a second. -/
def mayCall (_ : Run) (h : Transcript) : Call → Prop
  | .construct | .open => Told .open_log () (fun _ => True) h
  | .write request =>
    request = RESET_REQUEST ∧ requests h = [] ∧ Smooth h ∧ Elapsed (1 / 10) (Told .open () fun _ => True) h
  | _ => True

/-- A telegram to whoever asked. -/
def Answers (frame : Frame) : Prop := frame.address = 0x80 ∨ frame.address = 0x81

/-- The telegram is the documented startup message. -/
def Starts (frame : Frame) : Prop :=
  ∃ reply, response frame = .ok reply ∧ reply.command = 0x90 ∧ frame.payload.length = 23 ∧
    reply.data.take 7 = Capture.identityStart

/-- The window has an acknowledgement and no refusal, and both the reply to a reset and the startup message
began in it. -/
def Observed (h : Transcript) : Prop :=
  ∃ before, beforeWrite h = some before ∧ (∃ o, (o, Event.control .ACK) ∈ window h) ∧
    (∀ o, (o, Event.control .NAK) ∉ window h) ∧
    (∃ o frame, (o, Event.frame frame) ∈ window h ∧ before.length ≤ o ∧ Answers frame ∧
      frame.command = 0x91 ∧ frame.payload.length = 2) ∧
    ∃ o frame, (o, Event.frame frame) ∈ window h ∧ before.length ≤ o ∧ Answers frame ∧ Starts frame

/-- The request was written whole and drained, and listened to for its time. -/
def Completed (h : Transcript) : Prop :=
  requests h = [RESET_REQUEST] ∧ Elapsed CAPTURE_SECONDS (Told .flush () fun _ => True) (sinceWrite h)

variable {s s' : Run} {c : Capture} {h : Transcript}

/-! ## The evidence -/

/-- The capture is in step, and a credited acknowledgement belongs to a window which it keeps track of. -/
structure Sound (c : Capture) (h : Transcript) : Prop where
  step : InStep c h
  credits : c.post_ack = true → Watches c h

theorem Sound.cons (hs : Sound c h) {w : Call} (hw : w.still = true) (answer : Except Exc w.Answer) :
    Sound c (⟨s, w, answer⟩ :: h) :=
  ⟨hs.step.cons hw answer, fun hack => (hs.credits hack).cons hw answer⟩

theorem Sound.survives : Survives Call.still fun (s : Run) h => Sound s.capture h :=
  fun _ _ _ _ answer hw hs => hs.cons hw answer

/-- A read which fails leaves everything as it was. -/
theorem Sound.unread (hs : Sound c h) (e : Exc) : Sound c (⟨s, .read, .error e⟩ :: h) :=
  ⟨⟨hs.step.rest, hs.step.pairs⟩, hs.credits⟩

/-- A listed reply is a telegram of the window. -/
theorem Sound.reply (hs : Sound c h) (hack : c.post_ack = true) {t : Detail} (ht : t ∈ replies c) :
    ∃ before, beforeWrite h = some before ∧ before.length ≤ t.offset_start ∧ t ∈ c.telegrams ∧
      t.crc_valid = true ∧ Answers (Frame.ofRaw t.raw) ∧
      (t.offset_start, Event.frame (Frame.ofRaw t.raw)) ∈ window h := by
  obtain ⟨before, hbefore, htracks⟩ := hs.credits hack
  obtain ⟨hlisted, hreply⟩ := List.mem_filter.mp ht
  rw [htracks.tx_boundary] at hreply
  simp only [Bool.and_eq_true, Bool.or_eq_true, decide_eq_true_eq, beq_iff_eq] at hreply
  obtain ⟨⟨hbehind, haddress⟩, hvalid⟩ := hreply
  obtain ⟨hsame, -, -⟩ := hs.step.reads hlisted hvalid
  rw [hsame] at haddress
  exact ⟨before, hbefore, hbehind, hlisted, hvalid, haddress, hs.step.found hbefore hlisted hvalid hbehind⟩

/-- An identity is shown for a startup message only. -/
theorem describe_identity {post_ack : Bool} {frame : Frame} {detail : Detail}
    (hnone : detail.identity = none) (hsome : (describe post_ack frame detail).identity.isSome = true) :
    Starts frame := by
  unfold describe at hsome
  cases hreply : response frame with
  | error e => simp [hreply, hnone] at hsome
  | ok reply =>
    simp only [hreply] at hsome
    split at hsome
    · next hcommand =>
      split at hsome
      · simp [hnone] at hsome
      · next hlayout =>
        obtain ⟨hlength, hstart⟩ := not_or.mp hlayout
        exact ⟨reply, hreply, hcommand, not_not.mp hlength, not_not.mp hstart⟩
    · split at hsome
      · split at hsome <;> simp [hnone] at hsome
      · simp [hnone] at hsome

/-- The verdict on the exchange is what the window shows. -/
theorem Sound.observed (hs : Sound c h) {r : Report} (hexchange : (conclude c r).exchange_observed = true) :
    Observed h := by
  simp only [conclude, Bool.and_eq_true, Bool.not_eq_true', List.any_eq_true, beq_iff_eq] at hexchange
  obtain ⟨⟨⟨hack, hnak⟩, reset, hreset, hresetCommand, hresetLength⟩, startup, hstartup, -, hidentity⟩ := hexchange
  obtain ⟨before, hbefore, htracks⟩ := hs.credits hack
  refine ⟨before, hbefore, htracks.post_ack hack, fun o hmem => ?_, ?_, ?_⟩
  · have hrefused := (htracks.credited o .NAK hmem).2 rfl
    rw [hnak] at hrefused
    cases hrefused
  · obtain ⟨before', hbefore', hbehind, hlisted, hvalid, hanswers, hfound⟩ := hs.reply hack hreset
    obtain rfl := Option.some.inj (hbefore.symm.trans hbefore')
    obtain ⟨-, hcommand, hlength⟩ := hs.step.reads hlisted hvalid
    exact ⟨_, _, hfound, hbehind, hanswers, hcommand.symm.trans hresetCommand, hlength.symm.trans hresetLength⟩
  · obtain ⟨before', hbefore', hbehind, hlisted, hvalid, hanswers, hfound⟩ := hs.reply hack hstartup
    obtain rfl := Option.some.inj (hbefore.symm.trans hbefore')
    refine ⟨_, _, hfound, hbehind, hanswers, ?_⟩
    have hdescribed := (hs.step.pairs.described _ hlisted).resolve_left (by
      rw [hs.step.rest.valid_candidates]
      exact List.not_mem_nil)
    rw [Capture.Described, if_pos hvalid] at hdescribed
    obtain ⟨post_ack, hdescribe⟩ := hdescribed
    rw [hdescribe] at hidentity
    exact describe_identity rfl hidentity

/-! ## Before the request -/

/-- Nothing has been sent or credited, and nothing has failed. -/
structure Opening (c : Capture) (h : Transcript) : Prop where
  step : InStep c h
  quiet : c.Quiet
  unsent : requests h = []
  smooth : Smooth h
  logged : Told .open_log () (fun _ => True) h

theorem Opening.sound (hs : Opening c h) : Sound c h := by
  refine ⟨hs.step, fun hack => ?_⟩
  rw [hs.quiet.1] at hack
  cases hack

theorem Opening.cons (hs : Opening c h) {w : Call} (hw : w.still = true) (a : w.Answer) :
    Opening c (⟨s, w, .ok a⟩ :: h) := by
  obtain ⟨-, -, hrequests, -⟩ := still_cons (s := s) (h := h) hw (.ok a)
  exact ⟨hs.step.cons hw _, hs.quiet, hrequests.trans hs.unsent, hs.smooth.cons (still_quiet hw) a,
    hs.logged.mono (List.suffix_cons _ _)⟩

theorem Opening.continues : Continues Call.still fun (s : Run) h => Opening s.capture h :=
  fun _ _ _ _ a hw hs => hs.cons hw a

/-- A read before the request credits nothing. -/
theorem Opening.read (hs : Opening c h) (data : Bytes) :
    Opening (c.read .pre_tx data) (⟨s, .read, .ok data⟩ :: h) where
  step := hs.step.read .pre_tx data
  quiet := (hs.step.rest.read .pre_tx data).2.2 (by decide) hs.quiet
  unsent := hs.unsent
  smooth := hs.smooth.cons (c := .read) rfl data
  logged := hs.logged.mono (List.suffix_cons _ _)

/-- The port has been opened. -/
def Opened (h : Transcript) : Prop := Told .open () (fun _ => True) h

theorem Opening.continues_opened : Continues Call.still fun (s : Run) h => Opening s.capture h ∧ Opened h :=
  fun _ _ _ _ a hw hs => ⟨hs.1.cons hw a, hs.2.mono (List.suffix_cons _ _)⟩

theorem openDevice_holds (hs : Opening s.capture h) :
    openDevice.Holds mayCall (fun r s h => match r with
      | .ok _ => Opening s.capture h ∧ Opened h
      | .error _ => Sound s.capture h) s h := by
  refine Opening.continues.bind hs rfl hs.logged (fun _ => hs.sound.cons rfl _) fun _ hs => ?_
  refine holds_modify_bind.mpr (holds_request_bind.mpr ⟨hs.logged, fun _ => hs.sound.cons rfl _, fun _ => ?_⟩)
  refine Opening.continues_opened.bind ⟨hs.cons rfl _, Told.head trivial⟩ rfl trivial
    (fun _ => (hs.cons rfl _).sound.cons rfl _) fun _ hs => ?_
  exact Opening.continues_opened.request hs rfl trivial (fun _ => hs.1.sound.cons rfl _) fun _ hs => hs

/-- The clock was read behind the opening. -/
def Sampling (started : ℚ) (h : Transcript) : Prop := Told .monotonic started Opened h

/-- The boundary lies behind what was received, a tenth of a second after the port was opened. -/
structure Begun (c : Capture) (h : Transcript) : Prop extends Opening c h where
  marked : c.tx_boundary = some (received h).length
  sampled : Elapsed (1 / 10) Opened h

theorem Begun.continues : Continues Call.still fun (s : Run) h => Begun s.capture h := by
  intro s s' h w a hw hs
  obtain ⟨hreceived, -, -, -⟩ := still_cons (s := s') (h := h) hw (.ok a)
  refine ⟨hs.cons hw a, ?_, hs.sampled.mono (List.suffix_cons _ _)⟩
  rw [hreceived]
  exact hs.marked

/-- The sample takes a tenth of a second, and sets the boundary. -/
theorem sample_holds (passes : ℕ) (hs : Opening s.capture h) (hopened : Opened h) :
    (sample passes).Holds mayCall (fun r s h => match r with
      | .ok _ => Begun s.capture h
      | .error _ => Sound s.capture h) s h := by
  refine Opening.continues.bind hs rfl trivial (fun _ => hs.sound.cons rfl _) fun started hs => ?_
  refine Holds.bind (fun _ s h => Opening s.capture h ∧ Elapsed (1 / 10) Opened h) ?_ fun _ s h hs => ?_
  · have hstarted : Sampling started (⟨s, .monotonic, .ok started⟩ :: h) := Told.head hopened
    refine Holds.repeatUntil (fun s h => Opening s.capture h ∧ Sampling started h)
      (fun s h hs => hs.1.sound) (fun s h hs => ?_) passes ⟨hs, hstarted⟩
    obtain ⟨hs, hstarted⟩ := hs
    refine Opening.continues.bind hs rfl trivial (fun _ => hs.sound.cons rfl _) fun now hnow => ?_
    refine (holds_ite _ _).mpr ⟨fun _ => ?_, fun helapsed => ?_⟩
    · refine Holds.bind (fun _ s h => Opening s.capture h ∧ Sampling started h) ?_ fun _ s h hs => hs
      refine holds_request_bind.mpr ⟨trivial, fun e => hnow.sound.unread e, fun data => ?_⟩
      exact ⟨hnow.read data, (hstarted.mono (List.suffix_cons _ _)).mono (List.suffix_cons _ _)⟩
    · refine ⟨hnow, started, now, Told.head hstarted, ?_⟩
      linarith [not_lt.mp helapsed]
  · obtain ⟨hs, hsampled⟩ := hs
    exact ⟨⟨hs.step.mark, hs.quiet, hs.unsent, hs.smooth, hs.logged⟩,
      congrArg (fun raw : Bytes => some raw.length) hs.step.rest.raw, hsampled⟩

/-! ## Behind the request -/

/-- The request was written whole, and nothing has failed. -/
structure Listening (c : Capture) (h : Transcript) : Prop where
  step : InStep c h
  watches : Watches c h
  smooth : Smooth h
  sent : requests h = [RESET_REQUEST]

theorem Listening.sound (hs : Listening c h) : Sound c h := ⟨hs.step, fun _ => hs.watches⟩

theorem Listening.cons (hs : Listening c h) {w : Call} (hw : w.still = true) (a : w.Answer) :
    Listening c (⟨s, w, .ok a⟩ :: h) := by
  obtain ⟨-, -, hrequests, -⟩ := still_cons (s := s) (h := h) hw (.ok a)
  exact ⟨hs.step.cons hw _, hs.watches.cons hw _, hs.smooth.cons (still_quiet hw) a, hrequests.trans hs.sent⟩

theorem Listening.continues : Continues Call.still fun (s : Run) h => Listening s.capture h :=
  fun _ _ _ _ a hw hs => hs.cons hw a

/-- A read of the window is tracked. -/
theorem Listening.read (hs : Listening c h) (data : Bytes) :
    Listening (c.read .post_tx data) (⟨s, .read, .ok data⟩ :: h) :=
  ⟨hs.step.read .post_tx data, hs.watches.read hs.step.rest data, hs.smooth.cons (c := .read) rfl data, hs.sent⟩

/-- The output has been drained since the request. -/
def Flushed (h : Transcript) : Prop := Told .flush () (fun _ => True) (sinceWrite h)

theorem Listening.continues_flushed :
    Continues Call.still fun (s : Run) h => Listening s.capture h ∧ Flushed h :=
  fun _ _ _ _ a hw hs => ⟨hs.1.cons hw a, hs.2.mono (sinceWrite_suffix (still_quiet hw) _)⟩

/-- A request keeps what is credited, whatever the driver says. -/
theorem Begun.sound_write (hs : Begun c h) (answer : Except Exc ℕ) : Sound c (⟨s, .write RESET_REQUEST, answer⟩ :: h) :=
  ⟨hs.step.write _ _, fun _ => .write hs.step.rest hs.marked hs.quiet _ _⟩

theorem Begun.listening (hs : Begun c h) : Listening c (⟨s, .write RESET_REQUEST, .ok 7⟩ :: h) := by
  refine ⟨hs.step.write _ _, .write hs.step.rest hs.marked hs.quiet _ _, fun x hx => ?_, congrArg _ hs.unsent⟩
  rcases List.mem_cons.mp hx with rfl | hx
  · rfl
  · exact hs.smooth x hx

/-- The request is written whole and drained, or the run fails. -/
theorem transmit_holds (hs : Begun s.capture h) :
    transmit.Holds mayCall (fun r s h => match r with
      | .ok _ => Listening s.capture h ∧ Flushed h
      | .error _ => Sound s.capture h) s h := by
  refine Begun.continues.bind hs rfl trivial (fun _ => hs.sound.cons rfl _) fun _ hs => ?_
  refine holds_request_bind.mpr ⟨⟨rfl, hs.unsent, hs.smooth, hs.sampled⟩, fun e => hs.sound_write _,
    fun written => holds_modify_bind.mpr ?_⟩
  by_cases hwhole : written = 7
  · subst hwhole
    refine Listening.continues.bind hs.listening rfl trivial (fun _ => hs.listening.sound.cons rfl _) fun _ hs => ?_
    refine (holds_bind _ _).mpr (holds_provided.mpr ⟨fun hshort => absurd rfl hshort, fun _ => ?_⟩)
    refine Listening.continues.bind hs rfl trivial (fun _ => hs.sound.cons rfl _) fun _ hs => ?_
    refine holds_request_bind.mpr ⟨trivial, fun _ => hs.sound.cons rfl _, fun _ => holds_modify_bind.mpr ?_⟩
    refine Listening.continues_flushed.bind ⟨hs.cons (w := .flush) rfl (), Told.head trivial⟩ rfl trivial
      (fun _ => (hs.cons (w := .flush) rfl ()).sound.cons rfl _) fun _ hs => ?_
    exact Listening.continues_flushed.request hs rfl trivial (fun _ => hs.1.sound.cons rfl _) fun _ hs => hs
  · have hsound := hs.sound_write (s := s) (.ok written)
    refine holds_request_bind.mpr ⟨trivial, fun _ => hsound.cons rfl _, fun _ => ?_⟩
    refine (holds_bind _ _).mpr (holds_provided.mpr ⟨fun _ => hsound.cons rfl _, fun hequal => ?_⟩)
    exact absurd (not_not.mp hequal) hwhole

/-- The body has come to its end. -/
structure Finished (c : Capture) (h : Transcript) : Prop extends Listening c h where
  listened : Elapsed CAPTURE_SECONDS (Told .flush () fun _ => True) (sinceWrite h)

/-- The clock was read behind the drained request. -/
def Timed (started : ℚ) (h : Transcript) : Prop :=
  Told .monotonic started (Told .flush () fun _ => True) (sinceWrite h)

/-- The capture goes on for its time. -/
theorem listen_holds (passes : ℕ) (hs : Listening s.capture h) (hflushed : Flushed h) :
    (listen passes).Holds mayCall (fun r s h => match r with
      | .ok _ => Finished s.capture h
      | .error _ => Sound s.capture h) s h := by
  refine Listening.continues.bind hs rfl trivial (fun _ => hs.sound.cons rfl _) fun started hs => ?_
  have htimed : Timed started (⟨s, .monotonic, .ok started⟩ :: h) := Told.head hflushed
  refine Holds.bind (fun _ s h => Finished s.capture h) ?_ fun _ s h hs => ?_
  · refine Holds.repeatUntil (fun s h => Listening s.capture h ∧ Timed started h) (fun s h hs => hs.1.sound)
      (fun s h hs => ?_) passes ⟨hs, htimed⟩
    obtain ⟨hs, htimed⟩ := hs
    refine Listening.continues.bind hs rfl trivial (fun _ => hs.sound.cons rfl _) fun now hnow => ?_
    refine (holds_ite _ _).mpr ⟨fun _ => ?_, fun helapsed => ?_⟩
    · refine Holds.bind (fun _ s h => Listening s.capture h ∧ Timed started h) ?_ fun _ s h hs => hs
      refine holds_request_bind.mpr ⟨trivial, fun e => hnow.sound.unread e, fun data => ?_⟩
      exact ⟨hnow.read data, (htimed.mono (sinceWrite_suffix (c := .monotonic) rfl _)).mono
        (sinceWrite_suffix (c := .read) rfl _)⟩
    · exact ⟨hnow, started, now, Told.head htimed, not_lt.mp helapsed⟩
  · refine holds_request_bind.mpr ⟨trivial, fun _ => hs.sound.cons rfl _, fun now => ?_⟩
    exact ⟨hs.cons (w := .monotonic) rfl now, hs.listened.mono (sinceWrite_suffix (c := .monotonic) rfl _)⟩

/-! ## The whole run -/

theorem body_holds (passes : ℕ) (hs : Opening s.capture h) :
    (body passes).Holds mayCall (fun r s h => match r with
      | .ok _ => Finished s.capture h
      | .error _ => Sound s.capture h) s h := by
  refine (openDevice_holds hs).seq (fun _ _ _ hs => hs) fun _ s h hs => ?_
  refine (sample_holds passes hs.1 hs.2).seq (fun _ _ _ hs => hs) fun _ s h hs => ?_
  refine (transmit_holds hs).seq (fun _ _ _ hs => hs) fun _ s h hs => ?_
  exact listen_holds passes hs.1 hs.2

/-- Whatever became of the body: a run without an error has completed it. -/
structure Judged (s : Run) (h : Transcript) : Prop where
  sound : Sound s.capture h
  completed : s.report.error = none → Completed h

theorem Judged.survives : Survives Call.still Judged := by
  intro s s' h w answer hw hs
  refine ⟨hs.sound.cons hw answer, fun hnone => ?_⟩
  obtain ⟨-, -, hrequests, -⟩ := still_cons (s := s') (h := h) hw answer
  obtain ⟨hsent, hlistened⟩ := hs.completed hnone
  exact ⟨hrequests.trans hsent, hlistened.mono (sinceWrite_suffix (still_quiet hw) _)⟩

theorem Finished.judged (hs : Finished s.capture h) : Judged s h :=
  ⟨hs.sound, fun _ => ⟨hs.sent, hs.listened⟩⟩

/-- An exception is recorded, unless it ends the observation. -/
theorem handle_holds {e : Exc} (hs : Sound s.capture h) :
    (handle e).Holds mayCall (fun r s h => match r with
      | .ok _ => Judged s h
      | .error _ => True) s h := by
  have hrecorded : Judged { s with report.error := some e } h := ⟨hs, fun hnone => by cases hnone⟩
  have hemits : (ask .emit).Holds mayCall (fun r s h => match r with
      | .ok _ => Judged s h
      | .error _ => True) { s with report.error := some e } h := by
    refine Judged.survives.request hrecorded rfl trivial fun r h hs => ?_
    cases r with
    | ok _ => exact hs
    | error _ => trivial
  cases e with
  | cut => trivial
  | _ => exact hemits

theorem closeDevice_holds (hs : Judged s h) :
    closeDevice.Holds mayCall (fun r s h => match r with
      | .ok _ => Judged s h
      | .error _ => True) s h := by
  refine holds_get_bind.mpr (holds_provided.mpr ⟨fun _ => ?_, fun _ => hs⟩)
  refine Holds.bind (fun _ s h => Judged s h) ((holds_tryCatch _ _).mpr ?_) fun _ s h hs => ?_
  · refine Judged.survives.request hs rfl trivial fun r h hs => ?_
    cases r with
    | ok _ => exact hs
    | error e =>
      cases e with
      | cut | keyboard_interrupt => trivial
      | _ => exact ⟨hs.sound, hs.completed⟩
  · refine Judged.survives.bind hs rfl trivial (fun _ _ _ => trivial) fun is_open hs => ?_
    exact ⟨hs.sound, hs.completed⟩

/-- A report can be relied on: an observed exchange was in the window, and a zero exit status means that the
capture was completed too. -/
def Reliable (s : Run) (h : Transcript) : Prop :=
  (s.report.exchange_observed = true → Observed h) ∧ (s.report.exitsZero → Observed h ∧ Completed h)

/-- The verdicts survive the last journal line. -/
theorem Judged.reliable (hs : Judged s h) (hconcluded : s.report.exchange_observed = true → Observed h) :
    Reliable s h :=
  ⟨hconcluded, fun hzero => ⟨hconcluded hzero.1, hs.completed hzero.2⟩⟩

theorem cleanup_holds (hs : Judged s h) :
    cleanup.Holds mayCall (fun r s h => match r with
      | .ok _ => Reliable s h
      | .error _ => True) s h := by
  refine (closeDevice_holds hs).seq (fun _ _ _ _ => trivial) fun _ s h hs => holds_modify_bind.mpr ?_
  have hconcluded : Judged { s with report := conclude s.capture s.report } h := ⟨hs.sound, hs.completed⟩
  refine Judged.survives.request hconcluded rfl trivial fun r h hs => ?_
  cases r with
  | ok _ => exact hs.reliable fun hexchange => hs.sound.observed hexchange
  | error _ => trivial

/-- The cleanup does nothing which is not allowed. -/
theorem cleanup_lawful : cleanup.Holds mayCall (fun _ _ _ => True) s h := by
  refine Holds.bind (fun _ _ _ => True) ?_ fun _ _ _ _ => holds_modify_bind.mpr ?_
  swap
  · exact (holds_request _).mpr ⟨trivial, fun _ => trivial⟩
  refine holds_get_bind.mpr (holds_provided.mpr ⟨fun _ => ?_, fun _ => trivial⟩)
  refine Holds.bind (fun _ _ _ => True) ((holds_tryCatch _ _).mpr ⟨trivial, fun answer => ?_⟩) fun _ _ _ _ => ?_
  · cases answer with
    | ok _ => trivial
    | error e => cases e <;> trivial
  · exact holds_request_bind.mpr ⟨trivial, fun _ => trivial, fun _ => trivial⟩

/-- A run which the checks at its beginning admit. -/
theorem admitted_holds (passes : ℕ) (hs : Opening s.capture h) :
    (Program.andFinally (tryCatch (body passes) handle) cleanup).Holds mayCall
      (fun r s h => match r with
        | .ok _ => Reliable s h
        | .error _ => True) s h := by
  have hcleaned : ∀ {s : Run} {h : Transcript} (u : Unit), Judged s h →
      cleanup.Holds mayCall (fun r s h => match (r.bind fun _ => .ok u : Except Exc Unit) with
        | .ok _ => Reliable s h
        | .error _ => True) s h := by
    intro s h u hs
    refine (cleanup_holds hs).mono fun r s h hr => ?_
    cases r with
    | error e => trivial
    | ok v => exact hr
  have hraised : ∀ {s : Run} {h : Transcript} (e : Exc), cleanup.Holds mayCall
      (fun r s h => match (r.bind fun _ => .error e : Except Exc Unit) with
        | .ok _ => Reliable s h
        | .error _ => True) s h := by
    intro s h e
    refine cleanup_lawful.mono fun r s h _ => ?_
    cases r <;> trivial
  refine (holds_andFinally _ _).mpr ((holds_tryCatch _ _).mpr ((body_holds passes hs).mono ?_))
  intro r s h hr
  cases r with
  | ok u => exact hcleaned u hr.judged
  | error e =>
    refine (handle_holds hr).mono fun outcome s h hs => ?_
    cases outcome with
    | ok u => exact hcleaned u hs
    | error e => exact hraised e

/-- No request is written but the first. -/
theorem requests_length (hlawful : Lawful mayCall h) : (requests h).length ≤ 1 := by
  induction h with
  | nil => exact Nat.zero_le _
  | cons x past ih =>
    have hpast := ih fun y before hsuffix => hlawful y before (hsuffix.trans (List.suffix_cons _ _))
    have hmay := hlawful x past (List.suffix_refl _)
    obtain ⟨s, call, answer⟩ := x
    cases call with
    | write request =>
      have hnone : requests past = [] := hmay.2.1
      exact (congrArg (fun requests => (request :: requests).length) hnone).le
    | _ => exact hpast

/-- Every environment: the reset is written at most once, with the log at hand, behind a tenth of a second of
listening to an open port, and not at all without both confirmations; and the report can be relied on. -/
theorem reset_run_guarded (confirmed_reset confirmed_hardware windows : Bool) (passes : ℕ)
    (oracle : Oracle Run Call Call.Answer Exc) :
    let r := (run confirmed_reset confirmed_hardware windows passes).converse oracle {} []
    Lawful mayCall r.2.2 ∧ (requests r.2.2).length ≤ 1 ∧
      (¬ (confirmed_reset = true ∧ confirmed_hardware = true ∧ windows = true) → r.2.2 = []) ∧
      ∀ report, r.1 = .ok report → r.2.1.report = report ∧ Reliable r.2.1 r.2.2 := by
  have hholds : (run confirmed_reset confirmed_hardware windows passes).Holds mayCall (fun r s h =>
      (¬ (confirmed_reset = true ∧ confirmed_hardware = true ∧ windows = true) → h = []) ∧
        ∀ report, r = .ok report → s.report = report ∧ Reliable s h) {} [] := by
    refine (holds_bind _ _).mpr ((holds_ofExcept _).mpr ?_)
    by_cases hadmitted : confirmed_reset = true ∧ confirmed_hardware = true ∧ windows = true
    · have hentry : entry confirmed_reset confirmed_hardware windows = .ok () := by
        obtain ⟨rfl, rfl, rfl⟩ := hadmitted
        decide
      have hraised : ∀ (e : Exc) (s : Run) (h : Transcript),
          (¬ (confirmed_reset = true ∧ confirmed_hardware = true ∧ windows = true) → h = []) ∧
            ∀ report, (Except.error e : Except Exc Report) = .ok report → s.report = report ∧ Reliable s h :=
        fun e s h => ⟨fun hrefused => absurd hadmitted hrefused, fun report hreport => by cases hreport⟩
      rw [hentry]
      refine holds_request_bind.mpr ⟨trivial, fun e => hraised e _ _, fun _ => ?_⟩
      have hopening : Opening {} [⟨({} : Run), .open_log, .ok ()⟩] := by
        refine ⟨InStep.fresh.cons rfl _, ⟨rfl, rfl, rfl⟩, rfl, fun x hx => ?_, Told.head trivial⟩
        rw [List.mem_singleton.mp hx]
        rfl
      refine Opening.continues.bind hopening rfl trivial (fun e => hraised e _ _) fun _ hs => ?_
      refine (admitted_holds passes hs).seq (fun e s h _ => hraised e s h) fun u s h hs => ?_
      exact ⟨fun hrefused => absurd hadmitted hrefused, fun report hreport => ⟨Except.ok.inj hreport, hs⟩⟩
    · cases hentry : entry confirmed_reset confirmed_hardware windows with
      | error e => exact ⟨fun _ => rfl, fun report hreport => by cases hreport⟩
      | ok _ =>
        exfalso
        cases confirmed_reset <;> cases confirmed_hardware <;> cases windows <;> simp [entry] at hentry hadmitted
  obtain ⟨hlawful, hrefused, hreport⟩ := hholds.converse Lawful.nil oracle
  exact ⟨hlawful, requests_length hlawful, hrefused, hreport⟩

end Lms200.Diagnostic.ResetExperiment
