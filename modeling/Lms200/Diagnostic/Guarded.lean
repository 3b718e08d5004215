import Lms200.Diagnostic.RunDiagnostic
import Mathlib.Tactic.Linarith

/-!
# Guarded transmission

What `run_diagnostic` may transmit, and what its verdict means, against every environment: each
write is checked against the history before it, and a successful report against the whole.
-/

namespace Lms200.Diagnostic

open Coop Program

/-- The history of a diagnostic run. -/
abbrev Transcript := History Run Call Call.Answer Exc

/-- The clock reading of an exchange. -/
def reading : Exchange Run Call Call.Answer Exc → Option ℚ
  | ⟨_, .monotonic, .ok now⟩ => some now
  | _ => none

/-- The latest clock reading. -/
def lastReading (h : Transcript) : Option ℚ := h.findSome? reading

/-- The operator's power confirmation was observed in the pass which had read this clock. -/
def PowerAt (h : Transcript) (t : ℚ) : Prop :=
  ∃ s past, ⟨s, .power_confirmed, .ok true⟩ :: past <:+ h ∧ lastReading past = some t

/-- The startup was confirmed to be complete after that power confirmation. -/
def StartupAfter (h : Transcript) (t : ℚ) : Prop :=
  ∃ s past, ⟨s, .startup_complete, .ok true⟩ :: past <:+ h ∧ PowerAt past t

/-- The clock was read after that power confirmation. -/
def ReadAfter (h : Transcript) (t now : ℚ) : Prop :=
  ∃ s past, ⟨s, .monotonic, .ok now⟩ :: past <:+ h ∧ PowerAt past t

/-- Power was confirmed, then the startup was confirmed to be complete, and 65 seconds passed since
the power confirmation was observed. -/
def DirectGate (h : Transcript) : Prop :=
  ∃ t now, StartupAfter h t ∧ ReadAfter h t now ∧ t + 65 ≤ now

/-- Nothing was written. -/
def Unwritten (h : Transcript) : Prop := ∀ x ∈ h, ∀ request, x.call ≠ .write request

/-- What may be written, and when. -/
def mayCall (setup : Setup) (s : Run) (h : Transcript) : Call → Prop
  | .write request =>
    Unwritten h ∧ setup.mode ≠ .listen_startup ∧
      request = (if setup.mode = .loopback then LOOPBACK_PATTERN else STATUS_REQUEST) ∧
      (setup.mode = .direct_test → DirectGate h ∧ s.report.timeout_reason = none)
  | _ => True

/-- The requests written, the latest first. -/
def writes (h : Transcript) : List Bytes := h.filterMap fun x => match x.call with
  | .write request => some request
  | _ => none

/-- The bytes received since the write. -/
def receivedSince : Transcript → Bytes
  | [] => []
  | ⟨_, .write _, _⟩ :: _ => []
  | ⟨_, .read, .ok data⟩ :: past => receivedSince past ++ data
  | _ :: past => receivedSince past

/-- What success means in each mode. -/
def Verified (setup : Setup) (s : Run) (h : Transcript) : Prop :=
  (setup.mode = .loopback → receivedSince h = LOOPBACK_PATTERN) ∧
  (setup.mode = .status ∨ setup.mode = .direct_test →
    s.report.write_return = some 7 ∧ s.report.flush_completed = some true ∧
      s.capture.status ≠ none) ∧
  (setup.mode = .direct_test → s.capture.post_nak = false)

variable {setup : Setup} {s s' : Run} {h : Transcript} {t : ℚ}

/-! ## The history grows -/

theorem PowerAt.mono {h' : Transcript} (hpower : PowerAt h t) (hsuffix : h <:+ h') : PowerAt h' t := by
  obtain ⟨s, past, hpast, hreading⟩ := hpower
  exact ⟨s, past, hpast.trans hsuffix, hreading⟩

theorem StartupAfter.mono {h' : Transcript} (hstartup : StartupAfter h t) (hsuffix : h <:+ h') :
    StartupAfter h' t := by
  obtain ⟨s, past, hpast, hpower⟩ := hstartup
  exact ⟨s, past, hpast.trans hsuffix, hpower⟩

theorem ReadAfter.mono {h' : Transcript} {now : ℚ} (hread : ReadAfter h t now) (hsuffix : h <:+ h') :
    ReadAfter h' t now := by
  obtain ⟨s, past, hpast, hpower⟩ := hread
  exact ⟨s, past, hpast.trans hsuffix, hpower⟩

theorem DirectGate.mono {h' : Transcript} (hgate : DirectGate h) (hsuffix : h <:+ h') :
    DirectGate h' := by
  obtain ⟨t, now, hstartup, hread, helapsed⟩ := hgate
  exact ⟨t, now, hstartup.mono hsuffix, hread.mono hsuffix, helapsed⟩

/-- Everything but a write. -/
def Call.quiet : Call → Bool
  | .write _ => false
  | _ => true

/-- Everything but a write and a read. -/
def Call.still : Call → Bool
  | .write _ | .read => false
  | _ => true

theorem Unwritten.cons (hh : Unwritten h) {c : Call} (hc : c.quiet = true)
    (answer : Except Exc c.Answer) : Unwritten (⟨s, c, answer⟩ :: h) := by
  intro x hx request
  rcases List.mem_cons.mp hx with rfl | hx
  · rintro rfl
    cases hc
  · exact hh x hx request

/-- Only reads and writes change what was received since the write. -/
theorem receivedSince_cons {c : Call} (hc : c.still = true) (answer : Except Exc c.Answer) :
    receivedSince (⟨s, c, answer⟩ :: h) = receivedSince h := by
  cases c with
  | write request | read => cases hc
  | _ => rfl

/-! ## Before the transmission -/

/-- Nothing was written, no success and no exception recorded. -/
structure Silent (s : Run) (h : Transcript) : Prop where
  unwritten : Unwritten h
  failing : s.report.success = false
  unharmed : s.report.exception = none

/-- The passive capture goes on: the deadline stands for a power confirmation in the history, and a
recorded startup confirmation for a later one. -/
structure Waiting (s : Run) (h : Transcript) : Prop extends Silent s h where
  undecided : s.report.timeout_reason = none
  unpowered : s.startup_deadline = none → s.report.startup_complete_confirmed = false
  powered : ∀ deadline, s.startup_deadline = some deadline → ∃ t, deadline = t + 65 ∧ PowerAt h t ∧
    (s.report.startup_complete_confirmed = true → StartupAfter h t)

/-- In the pass which has read this clock: the deadline is 65 seconds from it, or was set before. -/
def Timed (s : Run) (h : Transcript) (now : ℚ) : Prop :=
  ∀ deadline, s.startup_deadline = some deadline →
    deadline = now + 65 ∨ ∃ t, deadline = t + 65 ∧ ReadAfter h t now

/-- The passive capture has ended. Only the startup capture can have succeeded. -/
structure Passed (setup : Setup) (s : Run) (h : Transcript) : Prop where
  unwritten : Unwritten h
  unharmed : s.report.exception = none
  failing : setup.mode ≠ .listen_startup → s.report.success = false
  gate : setup.mode = .direct_test → s.report.startup_complete_confirmed = true →
    s.report.timeout_reason = none → DirectGate h

theorem Silent.survives : Survives Call.quiet Silent := fun _ _ _ _ answer hc hs =>
  ⟨hs.unwritten.cons hc answer, hs.failing, hs.unharmed⟩

theorem Waiting.survives : Survives Call.quiet Waiting := by
  intro s s' h c answer hc hs
  refine ⟨Silent.survives answer hc hs.toSilent, hs.undecided, hs.unpowered, ?_⟩
  intro deadline hdeadline
  obtain ⟨t, ht, hpower, hstartup⟩ := hs.powered deadline hdeadline
  have hsuffix := List.suffix_cons (⟨s', c, answer⟩ : Exchange Run Call Call.Answer Exc) h
  exact ⟨t, ht, hpower.mono hsuffix, fun hconfirmed => (hstartup hconfirmed).mono hsuffix⟩

theorem Passed.survives : Survives Call.quiet (Passed setup) := fun _ _ _ _ answer hc hs =>
  ⟨hs.unwritten.cons hc answer, hs.unharmed, hs.failing, fun hmode hconfirmed hreason =>
    (hs.gate hmode hconfirmed hreason).mono (List.suffix_cons _ _)⟩

theorem Timed.cons {now : ℚ} (hs : Timed s h now) (x : Exchange Run Call Call.Answer Exc) :
    Timed s (x :: h) now := by
  intro deadline hdeadline
  rcases hs deadline hdeadline with hnow | ⟨t, ht, hread⟩
  · exact .inl hnow
  · exact .inr ⟨t, ht, hread.mono (List.suffix_cons _ _)⟩

theorem Waiting.timed_survives (now : ℚ) :
    Survives Call.quiet fun s h => Waiting s h ∧ Timed s h now :=
  fun _ _ _ _ answer hc hs => ⟨Waiting.survives answer hc hs.1, hs.2.cons _⟩

/-- Opening transmits nothing. -/
theorem openDevice_holds (hs : Waiting s h) :
    openDevice.Holds (mayCall setup) (fun _ s h => Waiting s h) s h := by
  refine Waiting.survives.bind hs rfl trivial (fun _ _ hs => hs) fun _ hs => ?_
  refine Waiting.survives.bind hs rfl trivial (fun _ _ hs => hs) fun _ hs => ?_
  refine holds_modify_bind.mpr ?_
  have hs : Waiting { s with device := true } _ := ⟨⟨hs.1.1, hs.1.2, hs.1.3⟩, hs.2, hs.3, hs.4⟩
  refine Waiting.survives.bind hs rfl trivial (fun _ _ hs => hs) fun _ hs => ?_
  refine holds_modify_bind.mpr ?_
  refine Waiting.survives.bind ⟨⟨hs.1.1, hs.1.2, hs.1.3⟩, hs.2, hs.3, hs.4⟩ rfl trivial
    (fun _ _ hs => hs) fun _ hs => ?_
  refine Waiting.survives.bind hs rfl trivial (fun _ _ hs => hs) fun _ hs => ?_
  refine Waiting.survives.bind hs rfl trivial (fun _ _ hs => hs) fun _ hs => ?_
  exact ⟨⟨hs.1.1, hs.1.2, hs.1.3⟩, hs.2, hs.3, hs.4⟩

/-- The operator's power confirmation is observed at the clock of the pass. -/
theorem confirmPower_holds {now : ℚ} (hs : Waiting s h) (hnow : lastReading h = some now)
    (htimed : Timed s h now) :
    (confirmPower setup now).Holds (mayCall setup)
      (fun _ s h => Waiting s h ∧ Timed s h now) s h := by
  refine holds_get_bind.mpr ((holds_ite _ _).mpr ⟨fun hasks => ?_, fun _ => ⟨hs, htimed⟩⟩)
  obtain ⟨hnone, -⟩ := hasks
  have htimed' : ∀ h, Timed s h now := fun _ deadline hdeadline => by
    rw [hnone] at hdeadline
    cases hdeadline
  refine Waiting.survives.bind hs rfl trivial (fun _ h hs => ⟨hs, htimed' h⟩) fun confirmed hs => ?_
  cases confirmed with
  | false => exact ⟨hs, htimed' _⟩
  | true =>
    refine (holds_ite _ _).mpr ⟨fun _ => ?_, fun hfalse => absurd rfl hfalse⟩
    refine holds_modify_bind.mpr ?_
    refine (Waiting.timed_survives now).request ⟨?_, ?_⟩ rfl trivial
      (fun _ _ hs => hs)
    · refine ⟨⟨hs.1.1, hs.1.2, hs.1.3⟩, hs.2, nofun, ?_⟩
      rintro deadline hdeadline
      refine ⟨now, (Option.some.inj hdeadline).symm, ⟨s, h, List.suffix_refl _, hnow⟩, fun hconfirmed => ?_⟩
      exact absurd hconfirmed (by simp [hs.unpowered hnone])
    · rintro deadline hdeadline
      exact .inl (Option.some.inj hdeadline).symm

/-- The startup confirmation is asked for after the power confirmation. -/
theorem confirmStartup_holds {now : ℚ} (hs : Waiting s h) (htimed : Timed s h now) :
    (confirmStartup setup).Holds (mayCall setup)
      (fun _ s h => Waiting s h ∧ Timed s h now) s h := by
  have hkeeps := Waiting.timed_survives now
  refine holds_get_bind.mpr ((holds_ite _ _).mpr ⟨fun hpowered => ?_, fun _ => ⟨hs, htimed⟩⟩)
  refine (holds_ite _ _).mpr ⟨fun _ => ?_, fun _ => ⟨hs, htimed⟩⟩
  refine hkeeps.bind ⟨hs, htimed⟩ rfl trivial (fun _ _ hs => hs) fun confirmed hs' => ?_
  cases confirmed with
  | false => exact hs'
  | true =>
    refine (holds_ite _ _).mpr ⟨fun _ => ?_, fun hfalse => absurd rfl hfalse⟩
    refine holds_modify_bind.mpr (hkeeps.request ⟨⟨⟨hs'.1.1.1, hs'.1.1.2, hs'.1.1.3⟩, hs'.1.2, ?_, ?_⟩, hs'.2⟩
      rfl trivial (fun _ _ hs => hs))
    · exact fun hnone => absurd hnone hpowered.2
    · intro deadline hdeadline
      obtain ⟨t, ht, hpower, -⟩ := hs.powered deadline hdeadline
      exact ⟨t, ht, hpower.mono (List.suffix_cons _ _), fun _ => ⟨s, h, List.suffix_refl _, hpower⟩⟩

/-- Where the passive capture ends without a timeout, the direct test's gate is open. -/
theorem passiveEnd_gate {ready now : ℚ} {reason : Option String} (hs : Waiting s h)
    (htimed : Timed s h now) (hend : passiveEnd setup ready now s = some reason) :
    setup.mode = .direct_test → s.report.startup_complete_confirmed = true → reason = none →
      DirectGate h := by
  rintro hmode hconfirmed rfl
  rw [passiveEnd, hmode] at hend
  cases hdeadline : s.startup_deadline with
  | none =>
    rw [hdeadline] at hend
    simp at hend
  | some deadline =>
    rw [hdeadline] at hend
    dsimp only at hend
    split at hend
    · next hopen =>
      obtain ⟨t, rfl, -, hstartup⟩ := hs.powered deadline hdeadline
      rcases htimed _ hdeadline with hnow | ⟨t', ht', hread⟩
      · linarith [hopen.1]
      · obtain rfl : t' = t := by linarith
        exact ⟨t', now, hstartup hconfirmed, hread, hopen.1⟩
    · split at hend <;> simp at hend

/-- What one pass of the passive capture leads to. -/
theorem passivePass_holds {ready : ℚ} (hs : Waiting s h) :
    (passivePass setup ready).Holds (mayCall setup) (fun r s h => match r with
      | .ok none => Waiting s h
      | .ok (some _) => Passed setup s h
      | .error _ => Silent s h) s h := by
  have hread : ∀ now, Timed s (⟨s, .monotonic, .ok now⟩ :: h) now := by
    intro now deadline hdeadline
    obtain ⟨t, ht, hpower, -⟩ := hs.powered deadline hdeadline
    exact .inr ⟨t, ht, s, h, List.suffix_refl _, hpower⟩
  refine Waiting.survives.bind hs rfl trivial (fun _ _ hs => hs.1) fun now hs => ?_
  refine (confirmPower_holds hs rfl (hread now)).seq (fun _ _ _ hs => hs.1.1) fun _ s h hs => ?_
  refine (confirmStartup_holds hs.1 hs.2).seq (fun _ _ _ hs => hs.1.1) fun _ s h hs => ?_
  obtain ⟨hs, htimed⟩ := hs
  refine holds_get_bind.mpr ?_
  cases hend : passiveEnd setup ready now s with
  | some reason =>
    have hgate := passiveEnd_gate hs htimed hend
    refine (holds_bind _ _).mpr (holds_provided.mpr ⟨fun hreason => ?_, fun hnone => ?_⟩)
    · exact ⟨hs.1.1, hs.1.3, fun _ => hs.1.2, fun _ _ hundecided => absurd hundecided hreason⟩
    · exact ⟨hs.1.1, hs.1.3, fun _ => hs.1.2, fun hmode hconfirmed _ =>
        hgate hmode hconfirmed (not_not.mp hnone)⟩
  | none =>
    refine Holds.bind (fun _ s h => Waiting s h) ?_ fun _ s h hs => ?_
    · refine Waiting.survives.bind hs rfl trivial (fun _ _ hs => hs.1) fun data hs => ?_
      exact ⟨⟨hs.1.1, hs.1.2, hs.1.3⟩, hs.2, hs.3, hs.4⟩
    · refine holds_get_bind.mpr ((holds_ite _ _).mpr ⟨fun hstarted => ?_, fun _ => hs⟩)
      refine holds_modify_bind.mpr ⟨hs.1.1, hs.1.3, fun hmode => absurd hstarted.1 hmode, ?_⟩
      exact fun hmode => absurd (hmode.symm.trans hstarted.1) nofun

/-- The passive capture transmits nothing and leaves the gate of the direct test. -/
theorem passive_holds (passes : ℕ) (hs : Waiting s h) :
    (passive setup passes).Holds (mayCall setup) (fun r s h => match r with
      | .ok _ => Passed setup s h
      | .error _ => Silent s h) s h := by
  refine Waiting.survives.bind hs rfl trivial (fun _ _ hs => hs.1) fun _ hs => ?_
  refine Holds.bind (fun _ s h => Waiting s h) ?_ fun _ s h hs => ?_
  · refine holds_provided.mpr ⟨fun _ => Waiting.survives.request hs rfl trivial ?_, fun _ => hs⟩
    rintro (e | _) h hs
    · exact hs.1
    · exact hs
  refine holds_get_bind.mpr (Holds.bind (fun _ s h => Passed setup s h) ?_ fun _ s h hs => ?_)
  · refine Holds.repeatUntil Waiting (fun s h hs => hs.1) (fun s h hs => ?_) passes hs
    refine (passivePass_holds hs).mono fun r s h hr => ?_
    match r, hr with
    | .ok none, hr => exact hr
    | .ok (some _), hr => exact hr
    | .error _, hr => exact hr
  · refine (holds_ite _ _).mpr ⟨fun hmode => ?_, fun _ => hs⟩
    have hsilent : ∀ {s h}, Passed setup s h → Silent s h := fun hs =>
      ⟨hs.unwritten, hs.failing (by rw [hmode]; nofun), hs.unharmed⟩
    refine Passed.survives.bind hs rfl trivial (fun _ _ hs => hsilent hs) fun _ hs => ?_
    refine Passed.survives.request hs rfl trivial ?_
    rintro (e | _) h hs
    · exact hsilent hs
    · exact hs

/-! ## The transmission -/

/-- The transmission is allowed. -/
structure Cleared (setup : Setup) (s : Run) (h : Transcript) : Prop extends Silent s h where
  active : setup.mode ≠ .listen_startup
  gate : setup.mode = .direct_test → DirectGate h ∧ s.report.timeout_reason = none

theorem Cleared.survives : Survives Call.quiet (Cleared setup) := fun _ _ _ _ answer hc hs =>
  ⟨Silent.survives answer hc hs.toSilent, hs.active, fun hmode =>
    ⟨(hs.gate hmode).1.mono (List.suffix_cons _ _), (hs.gate hmode).2⟩⟩

/-- The sample transmits nothing and sets the transmit boundary behind what was received. -/
theorem sample_holds (passes : ℕ) (hs : Cleared setup s h) :
    (sample setup passes).Holds (mayCall setup) (fun r s h => match r with
      | .ok _ => Cleared setup s h ∧ s.capture.tx_boundary = some s.capture.raw.length
      | .error _ => Silent s h) s h := by
  refine Cleared.survives.bind hs rfl trivial (fun _ _ hs => hs.1) fun now hs => ?_
  refine Holds.bind (fun _ s h => Cleared setup s h) ?_ fun _ s h hs => ?_
  · refine Holds.repeatUntil (Cleared setup) (fun s h hs => hs.1) (fun s h hs => ?_) passes hs
    refine Cleared.survives.bind hs rfl trivial (fun _ _ hs => hs.1) fun later hs => ?_
    refine (holds_ite _ _).mpr ⟨fun _ => ?_, fun _ => hs⟩
    refine Holds.bind (fun _ s h => Cleared setup s h) ?_ fun _ s h hs => hs
    refine Cleared.survives.bind hs rfl trivial (fun _ _ hs => hs.1) fun data hs => ?_
    exact ⟨⟨hs.1.1, hs.1.2, hs.1.3⟩, hs.2, hs.3⟩
  · exact ⟨⟨⟨hs.1.1, hs.1.2, hs.1.3⟩, hs.2, hs.3⟩, rfl⟩

/-- The request was written; no verdict yet, and in a loopback what lies behind the transmit boundary
is what was received since. -/
structure Written (setup : Setup) (written : ℕ) (s : Run) (h : Transcript) : Prop where
  failing : s.report.success = false
  unharmed : s.report.exception = none
  written : s.report.write_return = some written
  echoed : setup.mode = .loopback → ∃ boundary, s.capture.tx_boundary = some boundary ∧
    boundary ≤ s.capture.raw.length ∧ s.capture.raw.drop boundary = receivedSince h

/-- It was written whole, and the output drained. -/
structure Listening (setup : Setup) (s : Run) (h : Transcript) : Prop
    extends Written setup setup.request.length s h where
  flushed : s.report.flush_completed = some true

theorem Written.survives (setup : Setup) (written : ℕ) : Survives Call.still (Written setup written) := by
  intro s s' h c answer hc hs
  refine ⟨hs.failing, hs.unharmed, hs.written, fun hmode => ?_⟩
  rw [receivedSince_cons hc]
  exact hs.echoed hmode

theorem Listening.survives : Survives Call.still (Listening setup) := fun _ _ _ _ answer hc hs =>
  ⟨Written.survives _ _ answer hc hs.toWritten, hs.flushed⟩

/-- The request is written at most once, after the gate, and whole where the output is drained. -/
theorem transmit_holds (hs : Cleared setup s h)
    (hmark : s.capture.tx_boundary = some s.capture.raw.length) :
    (transmit setup).Holds (mayCall setup) (fun r s h => match r with
      | .ok _ => Listening setup s h
      | .error _ => s.report.success = false) s h := by
  refine holds_modify_bind.mpr ?_
  have hs : Cleared setup { s with report.tx_attempted := setup.request } h :=
    ⟨⟨hs.1.1, hs.1.2, hs.1.3⟩, hs.2, hs.3⟩
  refine Cleared.survives.bind hs rfl trivial (fun _ _ hs => hs.1.2) fun _ hs => ?_
  refine holds_modify_bind.mpr (holds_request_bind.mpr ⟨?_, fun e => hs.failing, fun written => ?_⟩)
  · exact ⟨hs.unwritten, hs.active, rfl, hs.gate⟩
  refine holds_modify_bind.mpr ?_
  refine (Written.survives setup written).bind
    ⟨hs.1.2, hs.1.3, rfl, fun _ => ⟨_, hmark, le_rfl, List.drop_length⟩⟩ rfl trivial
    (fun _ _ hs => hs.1) fun _ hs => ?_
  refine (holds_bind _ _).mpr (holds_provided.mpr ⟨fun _ => hs.1, fun hwhole => ?_⟩)
  obtain rfl : written = setup.request.length := not_not.mp hwhole
  refine holds_modify_bind.mpr ?_
  refine (Written.survives setup setup.request.length).bind ⟨hs.1, hs.2, hs.3, hs.4⟩ rfl trivial
    (fun _ _ hs => hs.1) fun _ hs => ?_
  refine (Written.survives _ _).bind hs rfl trivial (fun _ _ hs => hs.1) fun _ hs => ?_
  refine holds_modify_bind.mpr ?_
  refine Listening.survives.bind ⟨⟨hs.1, hs.2, hs.3, hs.4⟩, rfl⟩ rfl trivial (fun _ _ hs => hs.1.1) fun _ hs => ?_
  refine Listening.survives.request hs rfl trivial ?_
  rintro (e | _) h hs
  · exact hs.1.1
  · exact hs

/-- A read of the listening window. -/
theorem readDevice_listening (hs : Listening setup s h) :
    (readDevice .post_tx (setup.mode ≠ .loopback)).Holds (mayCall setup) (fun r s h => match r with
      | .ok _ => Listening setup s h
      | .error _ => s.report.success = false) s h := by
  refine holds_request_bind.mpr ⟨trivial, fun _ => hs.failing, fun data => ?_⟩
  refine (holds_modify _).mpr ⟨⟨hs.failing, hs.unharmed, hs.written, fun hmode => ?_⟩, hs.flushed⟩
  obtain ⟨boundary, hboundary, hlength, hreceived⟩ := hs.echoed hmode
  have hraw : readCapture .post_tx (setup.mode ≠ .loopback) data s.capture =
      { s.capture with raw := s.capture.raw ++ data } := by
    rw [readCapture, if_neg (by simp [hmode])]
  simp only [hraw]
  refine ⟨boundary, hboundary, ?_, ?_⟩
  · rw [List.length_append]
    exact Nat.le_add_right_of_le hlength
  · rw [List.drop_append_of_le_length hlength, hreceived]
    rfl

/-- The attempt has ended without an exception; success means what it should. -/
structure Finished (setup : Setup) (s : Run) (h : Transcript) : Prop where
  unharmed : s.report.exception = none
  verified : s.report.success = true → Verified setup s h

/-- A whole status request has seven bytes. -/
theorem status_request_length (hmode : setup.mode ≠ .loopback) : setup.request.length = 7 := by
  rw [Setup.request, if_neg hmode]
  rfl

/-- A verdict which ends the window. -/
theorem windowVerdict_finished (hs : Listening setup s h) {verdict : Report → Report}
    (hverdict : windowVerdict setup s = some verdict) :
    Finished setup { s with report := verdict s.report } h := by
  have hfails : ∀ reason, Finished setup
      { s with report := { s.report with timeout_reason := some reason } } h := fun reason =>
    ⟨hs.unharmed, fun hsuccess => absurd hsuccess (by simp [hs.failing])⟩
  unfold windowVerdict at hverdict
  split at hverdict
  · obtain rfl := Option.some.inj hverdict
    exact hfails _
  split at hverdict
  · next hstatus =>
    obtain ⟨hmode, hcaptured⟩ := hstatus
    obtain rfl := Option.some.inj hverdict
    have hlength := status_request_length (by rw [hmode]; nofun : setup.mode ≠ .loopback)
    refine ⟨hs.unharmed, fun _ => ⟨fun hloopback => ?_, fun _ => ⟨?_, hs.flushed, hcaptured⟩, fun hdirect => ?_⟩⟩
    · exact absurd (hmode.symm.trans hloopback) nofun
    · exact hlength ▸ hs.written
    · exact absurd (hmode.symm.trans hdirect) nofun
  split at hverdict
  · obtain rfl := Option.some.inj hverdict
    exact hfails _
  · cases hverdict

/-- The verdict of a window which has run out changes no evidence. -/
theorem conclude_evidence : (conclude setup s).exception = s.report.exception ∧
    (conclude setup s).write_return = s.report.write_return ∧
    (conclude setup s).flush_completed = s.report.flush_completed := by
  simp only [conclude]
  split_ifs <;> exact ⟨rfl, rfl, rfl⟩

/-- It is a success for a captured status without a refusal, or for an exact echo. -/
theorem conclude_success (hfailing : s.report.success = false) (h : (conclude setup s).success = true) :
    (setup.mode = .direct_test ∧ s.capture.status ≠ none ∧ s.capture.post_nak = false) ∨
      (setup.mode = .loopback ∧ s.echo = setup.request) := by
  cases hmode : setup.mode with
  | listen_startup => simp [conclude, hmode, hfailing] at h
  | status => simp [conclude, hmode, hfailing] at h
  | direct_test =>
    refine .inl ⟨rfl, ?_⟩
    cases hstatus : s.capture.status <;> cases hnak : s.capture.post_nak <;>
      simp [conclude, hmode, hstatus, hnak] at h ⊢
  | loopback =>
    refine .inr ⟨rfl, ?_⟩
    by_contra hdiffers
    simp [conclude, hmode, hdiffers] at h

/-- The verdict of a window which has run out. -/
theorem conclude_finished (hs : Listening setup s h) :
    Finished setup { s with report := conclude setup s } h := by
  obtain ⟨hexception, hwritten, hflushed⟩ := @conclude_evidence setup s
  refine ⟨hexception.trans hs.unharmed, fun hsuccess => ?_⟩
  rcases conclude_success hs.failing hsuccess with ⟨hmode, hstatus, hnak⟩ | ⟨hmode, hecho⟩
  · have hlength := status_request_length (by rw [hmode]; nofun : setup.mode ≠ .loopback)
    refine ⟨fun hloopback => absurd (hmode.symm.trans hloopback) nofun, fun _ => ⟨?_, ?_, hstatus⟩, fun _ => hnak⟩
    · exact hwritten.trans (hlength ▸ hs.written)
    · exact hflushed.trans hs.flushed
  · obtain ⟨boundary, hboundary, -, hreceived⟩ := hs.echoed hmode
    have hsince : receivedSince h = s.echo := by
      rw [← hreceived, Run.echo, hboundary]
      rfl
    refine ⟨fun _ => ?_, fun hother => ?_, fun hdirect => absurd (hmode.symm.trans hdirect) nofun⟩
    · rw [hsince, hecho, Setup.request, if_pos hmode]
    · rcases hother with hother | hother <;> exact absurd (hmode.symm.trans hother) nofun

/-- The listening window ends with a verdict. -/
theorem listen_holds (passes : ℕ) (hs : Listening setup s h) :
    (listen setup passes).Holds (mayCall setup) (fun r s h => match r with
      | .ok _ => Finished setup s h
      | .error _ => s.report.success = false) s h := by
  refine Listening.survives.bind hs rfl trivial (fun _ _ hs => hs.1.1) fun now hs => ?_
  refine holds_modify_bind.mpr ?_
  refine Listening.survives.bind ⟨⟨hs.1.1, hs.1.2, hs.1.3, hs.1.4⟩, hs.2⟩ rfl trivial
    (fun _ _ hs => hs.1.1) fun _ hs => ?_
  refine Holds.bind (fun ended s h => if ended = true then Finished setup s h else Listening setup s h)
    ?_ fun ended s h hs => ?_
  · refine Holds.repeatUntil (Listening setup) (fun s h hs => hs.1.1) (fun s h hs => ?_) passes hs
    refine Listening.survives.bind hs rfl trivial (fun _ _ hs => hs.1.1) fun later hs => ?_
    refine (holds_ite _ _).mpr ⟨fun _ => ?_, fun _ => hs⟩
    refine (readDevice_listening hs).seq (fun _ _ _ hs => hs) fun _ s h hs => ?_
    refine holds_get_bind.mpr ?_
    cases hverdict : windowVerdict setup s with
    | none => exact hs
    | some verdict => exact windowVerdict_finished hs hverdict
  · cases ended with
    | true => exact (holds_ite _ _).mpr ⟨nofun, fun _ => hs⟩
    | false => exact (holds_ite _ _).mpr ⟨fun _ => conclude_finished hs, fun hended => absurd rfl hended⟩

/-! ## The whole run -/

theorem Finished.survives : Survives Call.still (Finished setup) := by
  intro s s' h c answer hc hs
  refine ⟨hs.unharmed, fun hsuccess => ?_⟩
  obtain ⟨hloopback, hrest⟩ := hs.verified hsuccess
  exact ⟨fun hmode => (receivedSince_cons hc answer).trans (hloopback hmode), hrest⟩

/-- The body of the `try` block. -/
theorem attempt_holds (passes : ℕ) (hs : Waiting s h) :
    (attempt setup passes).Holds (mayCall setup) (fun r s h => match r with
      | .ok _ => Finished setup s h
      | .error _ => s.report.success = false) s h := by
  refine (openDevice_holds hs).seq (fun _ _ _ hs => hs.1.2) fun _ s h hs => ?_
  refine Holds.bind (fun _ s h => Passed setup s h) (holds_provided.mpr ⟨fun _ => ?_, fun hidle => ?_⟩)
    fun _ s h hs => ?_
  · refine (passive_holds passes hs).mono ?_
    rintro (e | _) s h hs
    · exact hs.2
    · exact hs
  · exact ⟨hs.1.1, hs.1.3, fun _ => hs.1.2, fun hdirect => absurd (.inr hdirect) hidle⟩
  refine holds_get_bind.mpr ((holds_ite _ _).mpr ⟨fun hactive => ?_, fun hidle => ?_⟩)
  · have hmode : setup.mode ≠ .listen_startup := by
      rintro hlisten
      simp [hlisten] at hactive
    have hcleared : Cleared setup s h := by
      refine ⟨⟨hs.unwritten, hs.failing hmode, hs.unharmed⟩, hmode, fun hdirect => ?_⟩
      obtain ⟨-, hconfirmed, hundecided⟩ := (hactive.resolve_left (by simp [hdirect])).resolve_left (by simp [hdirect])
      exact ⟨hs.gate hdirect hconfirmed hundecided, hundecided⟩
    refine (sample_holds passes hcleared).seq (fun _ _ _ hs => hs.2) fun _ s h hs => ?_
    refine (transmit_holds hs.1 hs.2).seq (fun _ _ _ hs => hs) fun _ s h hs => ?_
    exact listen_holds passes hs
  · -- Without a transmission only the startup capture succeeds, which promises nothing more.
    refine ⟨hs.unharmed, fun hsuccess => ?_⟩
    by_cases hmode : setup.mode = .listen_startup
    · simp [Verified, hmode]
    · exact absurd hsuccess (by simp [hs.failing hmode])

/-- The handlers keep an attempt which failed a failure. -/
theorem handle_holds {e : Exc} (hs : s.report.success = false) :
    (handle e).Holds (mayCall setup) (fun _ s _ => s.report.success = false) s h := by
  cases e <;> exact hs

/-- Whatever the attempt led to: success means what it should. -/
def Judged (setup : Setup) (s : Run) (h : Transcript) : Prop :=
  s.report.success = true → s.report.exception = none ∧ Verified setup s h

theorem Judged.survives : Survives Call.still (Judged setup) := by
  intro s s' h c answer hc hs hsuccess
  obtain ⟨hunharmed, hloopback, hrest⟩ := hs hsuccess
  exact ⟨hunharmed, fun hmode => (receivedSince_cons hc answer).trans (hloopback hmode), hrest⟩

/-- Closing keeps the judgement. -/
theorem closeDevice_holds (hs : Judged setup s h) :
    closeDevice.Holds (mayCall setup) (fun _ s h => Judged setup s h) s h := by
  refine holds_get_bind.mpr ((holds_ite _ _).mpr ⟨fun _ => ?_, fun _ => hs⟩)
  refine Holds.bind (fun _ s h => Judged setup s h) ((holds_tryCatch _ _).mpr ?_) fun _ s h hs => ?_
  · refine Judged.survives.request hs rfl trivial ?_
    rintro (e | _) h hs
    · cases e <;> exact hs
    · exact hs
  · refine Judged.survives.bind hs rfl trivial (fun _ _ hs => hs) fun is_open hs => ?_
    exact hs

/-- Measuring the time keeps the judgement. -/
theorem measure_holds (hs : Judged setup s h) :
    measure.Holds (mayCall setup) (fun _ s h => Judged setup s h) s h := by
  refine holds_get_bind.mpr ?_
  cases s.receive_start with
  | none => exact hs
  | some receive_start =>
    exact Judged.survives.bind hs rfl trivial (fun _ _ hs => hs) fun now hs => hs

/-- The `finally` block revokes a success without a closed port. -/
theorem cleanup_holds (hs : Judged setup s h) :
    (cleanup setup).Holds (mayCall setup) (fun r s h => Judged setup s h ∧
      ∀ u, r = .ok u → s.report.success = true → s.report.port_closed = true) s h := by
  refine (measure_holds hs).seq (fun _ _ _ hs => ⟨hs, nofun⟩) fun _ s h hs => ?_
  refine holds_modify_bind.mpr ?_
  refine (closeDevice_holds ?_).seq (fun _ _ _ hs => ⟨hs, nofun⟩) fun _ s h hs => ?_
  · intro hsuccess
    obtain ⟨hunharmed, hloopback, hreply, hnak⟩ := hs hsuccess
    refine ⟨hunharmed, hloopback, fun hmode => ?_, hnak⟩
    obtain ⟨hwritten, hflushed, hstatus⟩ := hreply hmode
    exact ⟨hwritten, by simp [hflushed], hstatus⟩
  · refine holds_modify_bind.mpr (Judged.survives.request ?_ rfl trivial fun r h hs => ⟨hs, fun _ _ hsuccess => ?_⟩)
    · exact fun hsuccess => hs (Bool.and_eq_true_iff.mp hsuccess).1
    · exact (Bool.and_eq_true_iff.mp hsuccess).2

/-- A report of success comes with a closed port, no exception, and what the mode asks for. -/
def Reliable (setup : Setup) (s : Run) (h : Transcript) : Prop :=
  s.report.success = true →
    s.report.port_closed = true ∧ s.report.exception = none ∧ Verified setup s h

/-- A report which is returned can be relied on. -/
def Returned {α : Type} (setup : Setup) : Except Exc α → Run → Transcript → Prop
  | .ok _, s, h => Reliable setup s h
  | .error _, _, _ => True

/-- What the cleanup leaves of an outcome. -/
theorem cleanup_returned {α : Type} (outcome : Except Exc α) {r : Except Exc Unit}
    (hjudged : Judged setup s h)
    (hclosed : ∀ u, r = .ok u → s.report.success = true → s.report.port_closed = true) :
    Returned setup (r.bind fun _ => outcome) s h := by
  cases r with
  | error e => trivial
  | ok u =>
    cases outcome with
    | error e => trivial
    | ok a => exact fun hsuccess => ⟨hclosed u rfl hsuccess, hjudged hsuccess⟩

/-- The attempt with its handlers and its cleanup. -/
theorem attempt_cleanup_holds (passes : ℕ) (hs : Waiting s h) :
    (Program.andFinally (tryCatch (attempt setup passes) handle) (cleanup setup)).Holds (mayCall setup)
      (Returned setup) s h := by
  refine (holds_andFinally _ _).mpr ((holds_tryCatch _ _).mpr ((attempt_holds passes hs).mono ?_))
  rintro (e | u) s h hs
  · refine (handle_holds hs).mono fun outcome s h hs => ?_
    refine (cleanup_holds fun hsuccess => ?_).mono fun r s h hr => cleanup_returned outcome hr.1 hr.2
    rw [hs] at hsuccess
    cases hsuccess
  · refine (cleanup_holds fun hsuccess => ?_).mono fun r s h hr => cleanup_returned (.ok u) hr.1 hr.2
    exact ⟨hs.unharmed, hs.verified hsuccess⟩

/-- Nothing was written where there are no writes. -/
theorem Unwritten.writes_eq (hh : Unwritten h) : writes h = [] := by
  refine List.filterMap_eq_nil_iff.mpr fun x hx => ?_
  have hne := hh x hx
  cases hcall : x.call with
  | write request => exact absurd hcall (hne request)
  | _ => rfl

/-- A write is only allowed as the first one. -/
theorem writes_length (h : Transcript) (hlawful : Lawful (mayCall setup) h) : (writes h).length ≤ 1 := by
  induction h with
  | nil => exact Nat.zero_le 1
  | cons x past ih =>
    have hpast := ih fun y before hsuffix => hlawful y before (hsuffix.trans (List.suffix_cons _ _))
    have hmay := hlawful x past (List.suffix_refl _)
    obtain ⟨s, call, answer⟩ := x
    cases call with
    | write request =>
      have hnone : writes past = [] := hmay.1.writes_eq
      simp only [writes, List.filterMap_cons] at hnone ⊢
      simp [hnone]
    | _ => exact hpast

/-- Nothing has been said yet. -/
theorem fresh_waiting : Waiting {} [] where
  unwritten := fun _ hx => absurd hx List.not_mem_nil
  failing := rfl
  unharmed := rfl
  undecided := rfl
  unpowered := fun _ => rfl
  powered := fun _ hdeadline => absurd hdeadline (Option.some_ne_none _).symm

/-- Every mode, every environment: at most one request is written, and only where its gate allows it;
and a report of success comes with a closed port, no exception, and what the mode asks for. -/
theorem run_diagnostic_guarded (setup : Setup) (passes : ℕ) (oracle : Oracle Run Call Call.Answer Exc) :
    let r := (run_diagnostic setup passes).converse oracle {} []
    (writes r.2.2).length ≤ 1 ∧ Lawful (mayCall setup) r.2.2 ∧
      ∀ report, r.1 = .ok report → r.2.1.report = report ∧ Reliable setup r.2.1 r.2.2 := by
  have hholds : (run_diagnostic setup passes).Holds (mayCall setup) (fun r s h =>
      ∀ report, r = .ok report → s.report = report ∧ Reliable setup s h) {} [] := by
    refine (holds_bind _ _).mpr ((holds_ofExcept _).mpr ?_)
    cases entry setup with
    | error e => exact fun report hreport => by cases hreport
    | ok _ =>
      refine Waiting.survives.bind fresh_waiting rfl trivial (fun e h _ report hreport => by cases hreport)
        fun _ hs => ?_
      refine (attempt_cleanup_holds passes hs).seq (fun e s h _ report hreport => by cases hreport)
        fun u s h hs => ?_
      exact fun report hreport => ⟨Except.ok.inj hreport, hs⟩
  obtain ⟨hlawful, hreport⟩ := hholds.converse Lawful.nil oracle
  exact ⟨writes_length _ hlawful, hlawful, hreport⟩

end Lms200.Diagnostic
