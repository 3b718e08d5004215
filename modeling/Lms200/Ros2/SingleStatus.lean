import Lms200.Ros2.Experiment
import Mathlib.Tactic.Linarith

/-!
# At most one authorised status request

The experiment against every environment: whatever the relay sends and whenever, whichever marker
files appear and in whichever order, the port gets at most the one status request. It is made of
the node's bytes, all of them taken after the authorisation, and any other byte of the node ends
the run with an error.
-/

namespace Lms200.Ros2.Experiment

open Coop Program Diagnostic

/-- The history of an experiment. -/
abbrev Record := History Run Call Call.Answer Exc

/-! ## What the history says -/

/-- The bytes of the node in an event. -/
def RelayEvent.bytes (event : RelayEvent) : Bytes :=
  match event.name, event.hex with
  | .ok name, .ok data => if name = "node_tx" then data else []
  | _, _ => []

/-- The event which an exchange has taken. -/
def taken : Exchange Run Call Call.Answer Exc → Option RelayEvent
  | ⟨_, .next_event, .ok event⟩ => event
  | _ => none

/-- The bytes of the node which an exchange has taken. -/
def arrived (x : Exchange Run Call Call.Answer Exc) : Bytes := (taken x).elim [] RelayEvent.bytes

/-- All bytes of the node so far, in their order. -/
def nodeBytes : Record → Bytes
  | [] => []
  | x :: past => nodeBytes past ++ arrived x

/-- The bytes of an event may pass: the trigger was there when it was collected, it was taken after
the authorisation, and all bytes so far begin a status request. -/
def Allowed (x : Exchange Run Call Call.Answer Exc) (past : Record) : Prop :=
  (∀ event ∈ taken x, event.controller_status_trigger_seen = true) ∧
    x.state.status_authorized = true ∧ nodeBytes past ++ arrived x <+: STATUS_REQUEST

/-- All bytes of the node so far could pass. -/
def Accepted (h : Record) : Prop := ∀ x past, x :: past <:+ h → arrived x ≠ [] → Allowed x past

/-- Both listeners are ready: the port was opened, the relay reported itself ready, and then the
node's marker was there. -/
def Ready (h : Record) : Prop :=
  Told (.exists .ros2_ready) true (fun past =>
    Told .open () (fun _ => True) past ∧
      ∃ event, event.name = .ok "relay_ready" ∧ Told .next_event (some event) (fun _ => True) past) h

/-- The clock reading of an exchange. -/
def reading : Exchange Run Call Call.Answer Exc → Option ℚ
  | ⟨_, .monotonic, .ok now⟩ => some now
  | _ => none

/-- The latest clock reading. -/
def lastReading (h : Record) : Option ℚ := h.findSome? reading

/-- The power confirmation was observed with both listeners ready, in the pass which had read this
clock. -/
def PowerAt (h : Record) (t : ℚ) : Prop :=
  Told (.exists .power_on_confirmed) true (fun past => Ready past ∧ lastReading past = some t) h

/-- The startup was confirmed to be complete after that power confirmation. -/
def StartupAfter (h : Record) (t : ℚ) : Prop :=
  Told (.exists .startup_complete_confirmed) true (PowerAt · t) h

/-- The clock was read after that power confirmation. -/
def ReadAfter (h : Record) (t now : ℚ) : Prop := Told .monotonic now (PowerAt · t) h

/-- A transmission is authorised: both listeners are ready, and where the operator switches the
scanner on, its power and then its startup were confirmed and 65 seconds passed since the power
confirmation. -/
def Authorised (already_powered_on : Bool) (h : Record) : Prop :=
  Ready h ∧ (already_powered_on = false →
    ∃ t now, StartupAfter h t ∧ ReadAfter h t now ∧ t + 65 ≤ now)

/-- Nothing was written. -/
def Unwritten (h : Record) : Prop := ∀ x ∈ h, ∀ packet, x.call ≠ .write packet

/-- The packets written, the latest first. -/
def writes (h : Record) : List Bytes := h.filterMap fun x => match x.call with
  | .write packet => some packet
  | _ => none

/-- The calls which end a run. -/
def Call.closing : Call → Bool
  | .emit | .close | .is_open | .touch .cancel_trigger _ | .wait | .terminate | .join | .close_pipes
  | .write_result => true
  | _ => false

/-- What the experiment may call, and when: it is authorised whenever it says so, it only ends after
bytes which may not pass, and it writes once, exactly a status request, which is all bytes of the
node so far. -/
def mayCall (already_powered_on : Bool) (s : Run) (h : Record) (c : Call) : Prop :=
  (s.status_authorized = true → Authorised already_powered_on h) ∧
    (¬ Accepted h → c.closing = true) ∧
    match c with
    | .write packet => Unwritten h ∧ nodeBytes h = packet ∧ packet = STATUS_REQUEST
    | _ => True

/-- A call was answered with the end of the observation. -/
def WasCut (h : Record) : Prop := ∃ x ∈ h, x.answer = .error .cut

variable {already_powered_on : Bool} {s s' : Run} {h : Record} {t now : ℚ}

theorem Ready.mono {h' : Record} (hready : Ready h) (hsuffix : h <:+ h') : Ready h' :=
  Told.mono hready hsuffix

theorem PowerAt.mono {h' : Record} (hpower : PowerAt h t) (hsuffix : h <:+ h') : PowerAt h' t :=
  Told.mono hpower hsuffix

theorem PowerAt.ready (hpower : PowerAt h t) : Ready h := by
  obtain ⟨s, past, hpast, hready, -⟩ := hpower
  exact hready.mono ((List.suffix_cons _ _).trans hpast)

theorem StartupAfter.power (hstartup : StartupAfter h t) : PowerAt h t :=
  Told.before hstartup fun _ => PowerAt.mono

theorem Authorised.mono {h' : Record} (hauthorised : Authorised already_powered_on h)
    (hsuffix : h <:+ h') : Authorised already_powered_on h' := by
  refine ⟨hauthorised.1.mono hsuffix, fun hpassive => ?_⟩
  obtain ⟨t, now, hstartup, hread, helapsed⟩ := hauthorised.2 hpassive
  exact ⟨t, now, Told.mono hstartup hsuffix, Told.mono hread hsuffix, helapsed⟩

/-- One more exchange, whose bytes could pass. -/
theorem Accepted.cons (hh : Accepted h) {x : Exchange Run Call Call.Answer Exc}
    (hx : arrived x ≠ [] → Allowed x h) : Accepted (x :: h) := by
  intro y past hsuffix hbytes
  rcases List.suffix_cons_iff.mp hsuffix with heq | hearlier
  · obtain ⟨rfl, rfl⟩ := List.cons.inj heq
    exact hx hbytes
  · exact hh y past hearlier hbytes

theorem WasCut.cons (hcut : WasCut h) (x : Exchange Run Call Call.Answer Exc) : WasCut (x :: h) := by
  obtain ⟨y, hy, hanswer⟩ := hcut
  exact ⟨y, List.mem_cons_of_mem _ hy, hanswer⟩

theorem Unwritten.cons (hh : Unwritten h) {x : Exchange Run Call Call.Answer Exc}
    (hx : ∀ packet, x.call ≠ .write packet) : Unwritten (x :: h) := by
  intro y hy
  rcases List.mem_cons.mp hy with rfl | hy
  · exact hx
  · exact hh y hy

/-! ## Kinds of calls -/

/-- Everything but a write. -/
def Call.quiet : Call → Bool
  | .write _ => false
  | _ => true

/-- Everything but a write and taking an event. -/
def Call.still : Call → Bool
  | .write _ | .next_event => false
  | _ => true

/-- Everything but a write, taking an event and reading the clock. -/
def Call.timeless : Call → Bool
  | .write _ | .next_event | .monotonic => false
  | _ => true

theorem Call.ne_write {c : Call} (hc : c.quiet = true) (packet : Bytes) : c ≠ .write packet := by
  rintro rfl
  cases hc

theorem Call.quiet_of_still {c : Call} (hc : c.still = true) : c.quiet = true := by
  cases c <;> first | rfl | cases hc

theorem Call.still_of_timeless {c : Call} (hc : c.timeless = true) : c.still = true := by
  cases c <;> first | rfl | cases hc

theorem Call.still_of_closing {c : Call} (hc : c.closing = true) : c.still = true := by
  cases c <;> first | rfl | cases hc

/-- Only taking an event brings bytes. -/
theorem arrived_still {c : Call} (hc : c.still = true) (answer : Except Exc c.Answer) :
    arrived ⟨s, c, answer⟩ = [] := by
  cases c with
  | write packet | next_event => cases hc
  | _ => rfl

theorem lastReading_timeless {c : Call} (hc : c.timeless = true) (answer : Except Exc c.Answer) :
    lastReading (⟨s, c, answer⟩ :: h) = lastReading h := by
  cases c with
  | write packet | next_event | monotonic => cases hc
  | _ => rfl

/-! ## What the loop keeps -/

/-- What the variables stand for in the history, whatever the node sent. -/
structure Known (already_powered_on : Bool) (s : Run) (h : Record) : Prop where
  relay : s.relay_ready = true →
    ∃ event, event.name = .ok "relay_ready" ∧ Told .next_event (some event) (fun _ => True) h
  ready : s.ready = true → Ready h
  power : ∀ t, s.power_on = some t → PowerAt h t
  authorised : s.status_authorized = true → Authorised already_powered_on h
  unsent : s.gate.sent = false → Unwritten h
  failing : s.report.success = false

/-- The gate has all bytes of the node, and they could pass. -/
structure Guarded (already_powered_on : Bool) (s : Run) (h : Record) : Prop
    extends Known already_powered_on s h where
  gate : s.gate.buffer = nodeBytes h
  accepted : Accepted h

/-- The port is open. -/
structure Polling (already_powered_on : Bool) (s : Run) (h : Record) : Prop
    extends Guarded already_powered_on s h where
  opened : Told .open () (fun _ => True) h

/-- In the pass which has read this clock, before it reads it again. -/
structure Confirming (already_powered_on : Bool) (now : ℚ) (s : Run) (h : Record) : Prop
    extends Polling already_powered_on s h where
  read : lastReading h = some now
  timed : ∀ t, s.power_on = some t → t = now ∨ ReadAfter h t now

/-- The operator confirmed that the startup is complete. -/
structure Completing (already_powered_on : Bool) (now power_on : ℚ) (s : Run) (h : Record) : Prop
    extends Confirming already_powered_on now s h where
  powered : s.power_on = some power_on
  startup : StartupAfter h power_on

/-- The gate has released the request. -/
structure Granted (already_powered_on : Bool) (s : Run) (h : Record) : Prop
    extends Polling already_powered_on s h where
  sent : s.gate.sent = true
  unwritten : Unwritten h
  whole : nodeBytes h = STATUS_REQUEST

/-- An event with these bytes was taken, and the gate has not seen them yet. -/
structure Pending (already_powered_on : Bool) (data : Bytes) (seen : Bool) (s : Run) (h : Record) : Prop
    extends Known already_powered_on s h where
  gate : s.gate.buffer ++ data = nodeBytes h
  passing : (data ≠ [] → (s.status_authorized && seen) = true ∧ s.gate.buffer ++ data <+: STATUS_REQUEST) →
    Accepted h
  opened : Told .open () (fun _ => True) h

/-- The attempt was left with an exception, and no success recorded. The observation may only end
where all bytes could pass, or in a call. -/
structure Aborted (already_powered_on : Bool) (e : Exc) (s : Run) (h : Record) : Prop where
  failing : s.report.success = false
  authorised : s.status_authorized = true → Authorised already_powered_on h
  observed : e = .cut → Accepted h ∨ WasCut h

/-- What a part of the attempt leads to. -/
def Leads {α : Type} (already_powered_on : Bool) (good : Run → Record → Prop) :
    Except Exc α → Run → Record → Prop
  | .ok _, s, h => good s h
  | .error e, s, h => Aborted already_powered_on e s h

/-- Every call but a write keeps what is known; a write where the gate has sent. -/
theorem Known.cons (hs : Known already_powered_on s h) {x : Exchange Run Call Call.Answer Exc}
    (hx : s.gate.sent = false → ∀ packet, x.call ≠ .write packet) :
    Known already_powered_on s (x :: h) := by
  have hsuffix := List.suffix_cons x h
  refine ⟨fun hrelay => ?_, fun hready => (hs.ready hready).mono hsuffix, fun t ht => (hs.power t ht).mono hsuffix,
    fun hauthorised => (hs.authorised hauthorised).mono hsuffix,
    fun hunsent => (hs.unsent hunsent).cons (hx hunsent), hs.failing⟩
  obtain ⟨event, hname, htold⟩ := hs.relay hrelay
  exact ⟨event, hname, htold.mono hsuffix⟩

theorem Guarded.survives : Survives Call.still (Guarded already_powered_on) := by
  intro s s' h c answer hc hs
  have harrived := arrived_still (s := s') hc answer
  refine ⟨hs.toKnown.cons fun _ => Call.ne_write (Call.quiet_of_still hc), ?_,
    hs.accepted.cons fun hbytes => absurd harrived hbytes⟩
  rw [nodeBytes, harrived, List.append_nil, hs.gate]

theorem Polling.survives : Survives Call.still (Polling already_powered_on) := fun _ _ _ _ answer hc hs =>
  ⟨Guarded.survives answer hc hs.toGuarded, hs.opened.mono (List.suffix_cons _ _)⟩

theorem Confirming.survives : Survives Call.timeless (Confirming already_powered_on now) := by
  intro s s' h c answer hc hs
  refine ⟨Polling.survives answer (Call.still_of_timeless hc) hs.toPolling,
    (lastReading_timeless hc answer).trans hs.read, fun t ht => ?_⟩
  exact (hs.timed t ht).imp_right fun hread => Told.mono hread (List.suffix_cons _ _)

theorem Completing.survives : Survives Call.timeless (Completing already_powered_on now t) :=
  fun _ _ _ _ answer hc hs => ⟨Confirming.survives answer hc hs.toConfirming, hs.powered,
    Told.mono hs.startup (List.suffix_cons _ _)⟩

theorem nodeBytes_still {c : Call} (hc : c.still = true) (answer : Except Exc c.Answer) :
    nodeBytes (⟨s, c, answer⟩ :: h) = nodeBytes h := by
  rw [nodeBytes, arrived_still hc, List.append_nil]

theorem Granted.survives : Survives Call.still (Granted already_powered_on) :=
  fun _ _ _ _ answer hc hs => ⟨Polling.survives answer hc hs.toPolling, hs.sent,
    hs.unwritten.cons (Call.ne_write (Call.quiet_of_still hc)), (nodeBytes_still hc answer).trans hs.whole⟩

/-- The loop goes on from the one write. -/
theorem Granted.write (hs : Granted already_powered_on s h) (packet : Bytes)
    (answer : Except Exc (Call.write packet).Answer) :
    Polling already_powered_on s (⟨s, .write packet, answer⟩ :: h) := by
  refine ⟨⟨hs.toKnown.cons fun hunsent => ?_, ?_, hs.accepted.cons fun hbytes => absurd rfl hbytes⟩,
    hs.opened.mono (List.suffix_cons _ _)⟩
  · rw [hs.sent] at hunsent
    cases hunsent
  · exact hs.gate.trans (List.append_nil _).symm

/-- Where all bytes could pass, any call but a write may be made. -/
theorem Guarded.may (hs : Guarded already_powered_on s h) {c : Call} (hc : c.quiet = true) :
    mayCall already_powered_on s h c := by
  refine ⟨hs.authorised, fun hrefused => absurd hs.accepted hrefused, ?_⟩
  cases c with
  | write packet => cases hc
  | _ => trivial

/-- Any exception may leave the loop where all bytes could pass. -/
theorem Guarded.aborted (hs : Guarded already_powered_on s h) (e : Exc) :
    Aborted already_powered_on e s h :=
  ⟨hs.failing, hs.authorised, fun _ => .inl hs.accepted⟩

/-- A part of the attempt which goes on from where another leads. -/
theorem Leads.seq {α β : Type} {p : Prog α} {f : α → Prog β} {good : Run → Record → Prop}
    {next : Run → Record → Prop}
    (hp : p.Holds (mayCall already_powered_on) (Leads already_powered_on good) s h)
    (hf : ∀ a s h, good s h → (f a).Holds (mayCall already_powered_on) (Leads already_powered_on next) s h) :
    (p >>= f).Holds (mayCall already_powered_on) (Leads already_powered_on next) s h :=
  hp.seq (fun _ _ _ hs => hs) hf

/-- It goes on from an assertion of its own. -/
theorem Leads.bind {α β : Type} {p : Prog α} {f : α → Prog β} {next : Run → Record → Prop}
    (good : Run → Record → Prop)
    (hp : p.Holds (mayCall already_powered_on) (Leads already_powered_on good) s h)
    (hf : ∀ a s h, good s h → (f a).Holds (mayCall already_powered_on) (Leads already_powered_on next) s h) :
    (p >>= f).Holds (mayCall already_powered_on) (Leads already_powered_on next) s h :=
  Leads.seq hp hf

/-- A call keeps what the loop keeps, and may leave it with any exception. -/
theorem Leads.call {kind : Call → Bool} {invariant : Run → Record → Prop}
    (hinv : Survives kind invariant)
    (hguarded : ∀ {s h}, invariant s h → Guarded already_powered_on s h) {β : Type} {c : Call}
    {f : c.Answer → Prog β} {next : Run → Record → Prop} (hs : invariant s h) (hkind : kind c = true)
    (hc : c.quiet = true)
    (hok : ∀ a, invariant s (⟨s, c, .ok a⟩ :: h) →
      (f a).Holds (mayCall already_powered_on) (Leads already_powered_on next) s (⟨s, c, .ok a⟩ :: h)) :
    (ask c >>= f).Holds (mayCall already_powered_on) (Leads already_powered_on next) s h :=
  hinv.bind hs hkind ((hguarded hs).may hc) (fun e _ hs => (hguarded hs).aborted e) hok

/-- So does a last call. -/
theorem Leads.lastCall {kind : Call → Bool} {invariant : Run → Record → Prop}
    (hinv : Survives kind invariant)
    (hguarded : ∀ {s h}, invariant s h → Guarded already_powered_on s h) {c : Call}
    (hs : invariant s h) (hkind : kind c = true) (hc : c.quiet = true) :
    (ask c).Holds (mayCall already_powered_on) (Leads already_powered_on invariant) s h := by
  refine hinv.request hs hkind ((hguarded hs).may hc) ?_
  rintro (e | _) h hs
  · exact (hguarded hs).aborted e
  · exact hs

section Calls

variable {β : Type} {c : Call} {f : c.Answer → Prog β} {next : Run → Record → Prop}

theorem Guarded.bind (hs : Guarded already_powered_on s h) (hc : c.still = true)
    (hok : ∀ a, Guarded already_powered_on s (⟨s, c, .ok a⟩ :: h) →
      (f a).Holds (mayCall already_powered_on) (Leads already_powered_on next) s (⟨s, c, .ok a⟩ :: h)) :
    (ask c >>= f).Holds (mayCall already_powered_on) (Leads already_powered_on next) s h :=
  Leads.call Guarded.survives id hs hc (Call.quiet_of_still hc) hok

theorem Polling.bind (hs : Polling already_powered_on s h) (hc : c.still = true)
    (hok : ∀ a, Polling already_powered_on s (⟨s, c, .ok a⟩ :: h) →
      (f a).Holds (mayCall already_powered_on) (Leads already_powered_on next) s (⟨s, c, .ok a⟩ :: h)) :
    (ask c >>= f).Holds (mayCall already_powered_on) (Leads already_powered_on next) s h :=
  Leads.call Polling.survives Polling.toGuarded hs hc (Call.quiet_of_still hc) hok

theorem Polling.last (hs : Polling already_powered_on s h) (hc : c.still = true) :
    (ask c).Holds (mayCall already_powered_on)
      (Leads already_powered_on (Polling already_powered_on)) s h :=
  Leads.lastCall Polling.survives Polling.toGuarded hs hc (Call.quiet_of_still hc)

theorem Confirming.bind (hs : Confirming already_powered_on now s h) (hc : c.timeless = true)
    (hok : ∀ a, Confirming already_powered_on now s (⟨s, c, .ok a⟩ :: h) →
      (f a).Holds (mayCall already_powered_on) (Leads already_powered_on next) s (⟨s, c, .ok a⟩ :: h)) :
    (ask c >>= f).Holds (mayCall already_powered_on) (Leads already_powered_on next) s h :=
  Leads.call Confirming.survives (fun hs => hs.toGuarded) hs hc
    (Call.quiet_of_still (Call.still_of_timeless hc)) hok

theorem Confirming.last (hs : Confirming already_powered_on now s h) (hc : c.timeless = true) :
    (ask c).Holds (mayCall already_powered_on)
      (Leads already_powered_on (Confirming already_powered_on now)) s h :=
  Leads.lastCall Confirming.survives (fun hs => hs.toGuarded) hs hc
    (Call.quiet_of_still (Call.still_of_timeless hc))

end Calls

/-! ## The parts of a pass -/

/-- Opening the port leads into the loop. -/
theorem openPort_holds (hs : Guarded already_powered_on s h) :
    openPort.Holds (mayCall already_powered_on)
      (Leads already_powered_on (Polling already_powered_on)) s h := by
  refine hs.bind rfl fun _ hs => hs.bind rfl fun _ hs => ?_
  refine holds_modify_bind.mpr (Guarded.bind { hs with } rfl fun _ hs => ?_)
  refine holds_modify_bind.mpr (Guarded.bind { hs with } rfl fun _ hs => ?_)
  refine holds_modify_bind.mpr (Guarded.bind { hs with } rfl fun _ hs => ?_)
  refine holds_modify_bind.mpr (Polling.bind ⟨{ hs with }, Told.head trivial⟩ rfl fun _ hs => ?_)
  exact hs.last rfl

/-- The listeners are ready once the relay has said so and the marker is there. -/
theorem checkReady_holds (hs : Confirming already_powered_on now s h) :
    checkReady.Holds (mayCall already_powered_on)
      (Leads already_powered_on (Confirming already_powered_on now)) s h := by
  refine holds_get_bind.mpr (holds_provided.mpr ⟨fun hasks => ?_, fun _ => hs⟩)
  have hready : Ready (⟨s, .exists .ros2_ready, .ok true⟩ :: h) :=
    Told.head ⟨hs.opened, hs.relay hasks.2⟩
  refine hs.bind rfl fun found hs => holds_provided.mpr ⟨fun hfound => ?_, fun _ => hs⟩
  subst hfound
  refine holds_modify_bind.mpr ?_
  refine Confirming.bind { hs with ready := fun _ => hready } rfl fun _ hs => ?_
  exact hs.last rfl

/-- The power confirmation is observed at the clock of the pass. -/
theorem checkPower_holds (hs : Confirming already_powered_on now s h) :
    (checkPower now).Holds (mayCall already_powered_on)
      (Leads already_powered_on (Confirming already_powered_on now)) s h := by
  refine holds_get_bind.mpr (holds_provided.mpr ⟨fun hasks => ?_, fun _ => hs⟩)
  have hpower : PowerAt (⟨s, .exists .power_on_confirmed, .ok true⟩ :: h) now :=
    Told.head ⟨hs.ready hasks.1, hs.read⟩
  refine hs.bind rfl fun found hs => holds_provided.mpr ⟨fun hfound => ?_, fun _ => hs⟩
  subst hfound
  refine holds_modify_bind.mpr (Confirming.last { hs with power := ?_, timed := ?_ } rfl)
  · rintro t ht
    obtain rfl := Option.some.inj ht
    exact hpower
  · rintro t ht
    exact .inl (Option.some.inj ht).symm

/-- It is authorised once the startup was confirmed and 65 seconds have passed. -/
theorem checkStartup_holds (hs : Confirming already_powered_on now s h) :
    (checkStartup now).Holds (mayCall already_powered_on)
      (Leads already_powered_on (Confirming already_powered_on now)) s h := by
  refine holds_get_bind.mpr ?_
  cases hpower_on : s.power_on with
  | none => exact hs
  | some power_on =>
    have hstartup : StartupAfter (⟨s, .exists .startup_complete_confirmed, .ok true⟩ :: h) power_on :=
      Told.head (hs.power power_on hpower_on)
    refine hs.bind rfl fun found hs => holds_provided.mpr ⟨fun hfound => ?_, fun _ => hs⟩
    subst hfound
    have hs : Completing already_powered_on now power_on s _ := ⟨hs, hpower_on, hstartup⟩
    refine holds_get_bind.mpr (Leads.bind (Completing already_powered_on now power_on) ?_ ?_)
    · refine holds_provided.mpr ⟨fun _ => holds_modify_bind.mpr ?_, fun _ => hs⟩
      exact Leads.lastCall Completing.survives (fun hs => hs.toGuarded) { hs with } rfl rfl
    rintro - s h hs
    refine holds_get_bind.mpr (holds_provided.mpr ⟨fun hopen => ?_, fun _ => hs.toConfirming⟩)
    have hread : ReadAfter h power_on now := by
      refine (hs.timed power_on hs.powered).resolve_left fun heq => ?_
      linarith [hopen.2]
    have hauthorised : Authorised already_powered_on h :=
      ⟨hs.startup.power.ready, fun _ => ⟨power_on, now, hs.startup, hread, by linarith [hopen.2]⟩⟩
    refine holds_modify_bind.mpr ?_
    refine Confirming.bind { hs with authorised := fun _ => hauthorised } rfl fun _ hs => ?_
    exact hs.last rfl

/-- The operator's part of a pass. -/
theorem confirmations_holds {started : ℚ} (hs : Confirming already_powered_on now s h) :
    (confirmations already_powered_on started now).Holds (mayCall already_powered_on)
      (Leads already_powered_on (Polling already_powered_on)) s h := by
  refine Leads.seq (checkReady_holds hs) fun _ s h hs => ?_
  refine Leads.bind (Confirming already_powered_on now) ?_ fun _ s h hs => ?_
  · refine holds_provided.mpr ⟨fun _ => ?_, fun _ => hs⟩
    exact Leads.seq (checkPower_holds hs) fun _ s h hs => checkStartup_holds hs
  refine holds_get_bind.mpr ?_
  cases confirmationTimeout already_powered_on started now s with
  | some e => exact hs.aborted e
  | none => exact hs.toPolling

/-- Forwarding what was received. -/
theorem forwardSerial_holds (hs : Polling already_powered_on s h) :
    forwardSerial.Holds (mayCall already_powered_on)
      (Leads already_powered_on (Polling already_powered_on)) s h := by
  refine holds_get_bind.mpr (hs.bind rfl fun data hs => ?_)
  refine holds_modify_bind.mpr (Leads.bind (Polling already_powered_on) ?_ fun _ s h hs => ?_)
  · refine holds_provided.mpr ⟨fun _ => ?_, fun _ => { hs with }⟩
    refine Polling.bind { hs with } rfl fun exited hs => ?_
    exact holds_provided.mpr ⟨fun _ => hs.last rfl, fun _ => hs⟩
  · refine hs.bind rfl fun exited hs => ?_
    exact holds_provided.mpr ⟨fun _ => hs.last rfl, fun _ => hs⟩

/-! ## The gate -/

/-- The gate releases exactly the status request, and only what is authorised. -/
theorem accept_cases (gate : SingleStatusGate) (data : Bytes) (authorized : Bool) :
    (data = [] ∧ gate.accept data authorized = (.ok none, gate)) ∨
    (data ≠ [] ∧ ∃ text gate', gate.accept data authorized = (.error (.value text), gate')) ∨
    (authorized = true ∧ gate.sent = false ∧ gate.buffer ++ data <+: STATUS_REQUEST ∧
      gate.accept data authorized = (.ok none, { gate with buffer := gate.buffer ++ data })) ∨
    (authorized = true ∧ gate.buffer ++ data = STATUS_REQUEST ∧ gate.sent = false ∧
      gate.accept data authorized = (.ok (some STATUS_REQUEST), ⟨STATUS_REQUEST, true⟩)) := by
  unfold SingleStatusGate.accept
  split_ifs with hdata hclosed
  · exact .inl ⟨hdata, rfl⟩
  · exact .inr (.inl ⟨hdata, _, _, rfl⟩)
  obtain ⟨hauthorized, hunsent⟩ : authorized = true ∧ gate.sent = false := by simpa using hclosed
  dsimp only
  split_ifs with hprefix hlength
  · exact .inr (.inr (.inl ⟨hauthorized, hunsent, hprefix, rfl⟩))
  · have hwhole := hprefix.eq_of_length (not_not.mp hlength)
    exact .inr (.inr (.inr ⟨hauthorized, hwhole, hunsent, by rw [hwhole]⟩))
  · exact .inr (.inl ⟨hdata, _, _, rfl⟩)

/-- The request is written once. -/
theorem transmit_holds (hs : Granted already_powered_on s h) :
    (transmit STATUS_REQUEST).Holds (mayCall already_powered_on)
      (Leads already_powered_on (Polling already_powered_on)) s h := by
  refine holds_modify_bind.mpr (Leads.call Granted.survives (fun hs => hs.toGuarded) { hs with } rfl rfl
    fun _ hs => ?_)
  refine holds_request_bind.mpr ⟨⟨hs.authorised, fun hrefused => absurd hs.accepted hrefused, hs.unwritten,
    hs.whole, rfl⟩, fun e => (hs.write _ _).aborted e, fun count => ?_⟩
  have hs := hs.write STATUS_REQUEST (.ok count)
  refine holds_modify_bind.mpr (Polling.bind { hs with } rfl fun _ hs => ?_)
  refine Leads.bind (Polling already_powered_on) ?_ fun _ s h hs => ?_
  · exact holds_provided.mpr ⟨fun _ => hs.aborted _, fun _ => hs⟩
  refine hs.bind rfl fun _ hs => ?_
  refine holds_modify_bind.mpr (Polling.bind { hs with } rfl fun drained hs => ?_)
  refine holds_modify_bind.mpr (Polling.bind { hs with } rfl fun _ hs => ?_)
  exact hs.last rfl

/-- The bytes of an event pass the gate, or end the run. -/
theorem passGate_holds {event : RelayEvent} {data : Bytes} (hdata : event.hex = .ok data)
    (hs : Pending already_powered_on data event.controller_status_trigger_seen s h) :
    (passGate event).Holds (mayCall already_powered_on)
      (Leads already_powered_on (Polling already_powered_on)) s h := by
  rw [passGate, hdata]
  refine holds_get_bind.mpr (holds_modify_bind.mpr ?_)
  rcases accept_cases s.gate data (s.status_authorized && event.controller_status_trigger_seen) with
    ⟨hempty, haccept⟩ | ⟨-, text, gate', haccept⟩ | ⟨hauthorized, hunsent, hprefix, haccept⟩ |
      ⟨hauthorized, hwhole, hunsent, haccept⟩
  · rw [haccept]
    refine { hs with gate := ?_, accepted := hs.passing fun hbytes => absurd hempty hbytes }
    rw [← hs.gate, hempty, List.append_nil]
  · rw [haccept]
    exact ⟨hs.failing, hs.authorised, nofun⟩
  · rw [haccept]
    exact { hs with gate := hs.gate, accepted := hs.passing fun _ => ⟨hauthorized, hprefix⟩ }
  · rw [haccept]
    have hbytes : STATUS_REQUEST = nodeBytes h := hwhole.symm.trans hs.gate
    refine transmit_holds { hs with
      gate := hbytes
      accepted := hs.passing fun _ => ⟨hauthorized, hwhole ▸ List.prefix_refl _⟩
      unsent := nofun
      sent := rfl
      unwritten := hs.unsent hunsent
      whole := hbytes.symm }

/-- Taking an event without bytes of the node. -/
theorem Polling.take (hs : Polling already_powered_on s h) {answer : Except Exc (Option RelayEvent)}
    (hbytes : arrived ⟨s', .next_event, answer⟩ = []) :
    Polling already_powered_on s (⟨s', .next_event, answer⟩ :: h) := by
  refine ⟨⟨hs.toKnown.cons fun _ _ => nofun, ?_, hs.accepted.cons fun hne => absurd hbytes hne⟩,
    hs.opened.mono (List.suffix_cons _ _)⟩
  rw [nodeBytes, hbytes, List.append_nil, hs.gate]

/-- Taking an event with bytes of the node. -/
theorem Polling.takeBytes (hs : Polling already_powered_on s h) {event : RelayEvent} {data : Bytes}
    (hname : event.name = .ok "node_tx") (hhex : event.hex = .ok data) :
    Pending already_powered_on data event.controller_status_trigger_seen s
      (⟨s, .next_event, .ok (some event)⟩ :: h) := by
  have hbytes : arrived ⟨s, .next_event, .ok (some event)⟩ = data := by
    simp [arrived, taken, RelayEvent.bytes, hname, hhex]
  refine ⟨hs.toKnown.cons fun _ _ => nofun, ?_, fun hpass => hs.accepted.cons fun hne => ?_,
    hs.opened.mono (List.suffix_cons _ _)⟩
  · rw [nodeBytes, hbytes, hs.gate]
  · rw [hbytes] at hne
    obtain ⟨hauthorized, hprefix⟩ := hpass hne
    obtain ⟨hstate, hseen⟩ := Bool.and_eq_true_iff.mp hauthorized
    refine ⟨fun e he => ?_, hstate, by rwa [hbytes, ← hs.gate]⟩
    obtain rfl := Option.some.inj he
    exact hseen

/-- Bytes which the gate has not seen wait for it during a call. -/
theorem Pending.survives (data : Bytes) (seen : Bool) :
    Survives Call.still (Pending already_powered_on data seen) := fun _ _ _ _ answer hc hs =>
  ⟨hs.toKnown.cons fun _ => Call.ne_write (Call.quiet_of_still hc), hs.gate.trans (nodeBytes_still hc answer).symm,
    fun hpass => (hs.passing hpass).cons fun hbytes => absurd (arrived_still hc answer) hbytes,
    hs.opened.mono (List.suffix_cons _ _)⟩

/-- One relay event. -/
theorem handleEvent_holds (hs : Polling already_powered_on s h) (event : RelayEvent) :
    (handleEvent event).Holds (mayCall already_powered_on)
      (Leads already_powered_on (Polling already_powered_on)) s
      (⟨s, .next_event, .ok (some event)⟩ :: h) := by
  refine (holds_bind _ _).mpr ((holds_ofExcept _).mpr ?_)
  by_cases hnode : ∃ data, event.name = .ok "node_tx" ∧ event.hex = .ok data
  · obtain ⟨data, hname, hhex⟩ := hnode
    rw [hname]
    have hpending := hs.takeBytes hname hhex
    refine holds_request_bind.mpr ⟨⟨hpending.authorised, fun _ => rfl, trivial⟩, fun e => ?_, fun _ => ?_⟩
    · -- A journal which fails here leaves the run before the gate.
      have hafter : Pending _ data _ s (⟨s, .emit, .error e⟩ :: _) := Pending.survives data _ _ rfl hpending
      exact ⟨hafter.failing, hafter.authorised, fun hcut => .inr ⟨_, List.mem_cons_self, hcut ▸ rfl⟩⟩
    · exact passGate_holds hhex (Pending.survives data _ _ rfl hpending)
  have hbytes : arrived ⟨s, .next_event, .ok (some event)⟩ = [] := by
    show event.bytes = []
    unfold RelayEvent.bytes
    split
    · next name data hname hhex =>
      refine if_neg fun hnode_tx => ?_
      exact hnode ⟨data, hnode_tx ▸ hname, hhex⟩
    · rfl
  have hs := hs.take hbytes
  cases hname : event.name with
  | error e => exact hs.aborted e
  | ok name =>
    refine hs.bind rfl fun _ hs => ?_
    refine (holds_ite _ _).mpr ⟨fun hready => ?_, fun _ => (holds_ite _ _).mpr ⟨fun _ => ?_, fun _ => ?_⟩⟩
    · refine { hs with relay := fun _ => ⟨event, ?_, ?_⟩ }
      · rw [hname, hready]
      · exact (Told.head trivial).mono (List.suffix_cons _ _)
    · refine (holds_bind _ _).mpr ((holds_ofExcept _).mpr ?_)
      cases event.returncode with
      | error e => exact hs.aborted e
      | ok returncode => exact { hs with }
    refine (holds_ite _ _).mpr ⟨fun _ => hs.aborted _, fun _ => (holds_ite _ _).mpr ⟨fun hnode_tx => ?_, fun _ => hs⟩⟩
    refine (holds_bind _ _).mpr ((holds_ofExcept _).mpr ?_)
    cases hhex : event.hex with
    | error e => exact hs.aborted e
    | ok data => exact absurd ⟨data, hnode_tx ▸ hname, hhex⟩ hnode

/-- The events which are there. -/
theorem drainEvents_holds (passes : ℕ) (hs : Polling already_powered_on s h) :
    (drainEvents passes).Holds (mayCall already_powered_on)
      (Leads already_powered_on (Polling already_powered_on)) s h := by
  refine Holds.repeatUntil (Polling already_powered_on) (fun s h hs => hs.aborted _) (fun s h hs => ?_) passes hs
  refine holds_request_bind.mpr ⟨hs.may rfl, fun e => (hs.take rfl).aborted e, fun next => ?_⟩
  cases next with
  | none => exact hs.take rfl
  | some event => exact (handleEvent_holds hs event).seq (fun _ _ _ hs => hs) fun _ s h hs => hs

/-- A scanner which was on is authorised once both listeners are ready. -/
theorem authorizePoweredOn_holds (hs : Polling already_powered_on s h) :
    (authorizePoweredOn already_powered_on).Holds (mayCall already_powered_on)
      (Leads already_powered_on (Polling already_powered_on)) s h := by
  refine holds_get_bind.mpr (holds_provided.mpr ⟨fun hopen => ?_, fun _ => hs⟩)
  have hauthorised : Authorised already_powered_on h :=
    ⟨hs.ready hopen.2.1, fun hpassive => absurd (hopen.1.symm.trans hpassive) nofun⟩
  refine holds_modify_bind.mpr (Polling.bind { hs with } rfl fun _ hs => ?_)
  refine holds_modify_bind.mpr (Polling.last { hs with authorised := fun _ => ?_ } rfl)
  exact hauthorised.mono (List.suffix_cons _ _)

/-- The end of a pass. -/
theorem finished_holds (hs : Polling already_powered_on s h) :
    (finished now).Holds (mayCall already_powered_on)
      (Leads already_powered_on (Polling already_powered_on)) s h := by
  refine Leads.bind (Polling already_powered_on) ?_ fun gone s h hs => ?_
  · refine holds_get_bind.mpr ((holds_ite _ _).mpr ⟨fun _ => hs, fun _ => ?_⟩)
    exact hs.bind rfl fun _ hs => hs
  refine holds_get_bind.mpr ?_
  cases s.drained with
  | none => exact (holds_ite _ _).mpr ⟨fun _ => hs.aborted _, fun _ => hs⟩
  | some drained => exact (holds_ite _ _).mpr ⟨fun _ => hs, fun _ => hs⟩

/-- One pass of the polling loop. -/
theorem pollingPass_holds {started : ℚ} (passes : ℕ) (hs : Polling already_powered_on s h) :
    (pollingPass already_powered_on started passes).Holds (mayCall already_powered_on)
      (Leads already_powered_on (Polling already_powered_on)) s h := by
  refine hs.bind rfl fun _ hs => (holds_ite _ _).mpr ⟨fun _ => ?_, fun _ => hs.aborted _⟩
  have hread : ∀ now t, s.power_on = some t → ReadAfter (⟨s, .monotonic, .ok now⟩ :: _) t now :=
    fun now t ht => Told.head (hs.power t ht)
  refine hs.bind rfl fun now hs => ?_
  have hs : Confirming already_powered_on now s _ := ⟨hs, rfl, fun t ht => .inr (hread now t ht)⟩
  refine hs.bind rfl fun cancelled hs => ?_
  refine Leads.bind (Confirming already_powered_on now) ?_ fun _ s h hs => ?_
  · exact holds_provided.mpr ⟨fun _ => hs.aborted _, fun _ => hs⟩
  refine Leads.seq (confirmations_holds hs) fun _ s h hs => ?_
  refine Leads.seq (forwardSerial_holds hs) fun _ s h hs => ?_
  refine Leads.seq (drainEvents_holds passes hs) fun _ s h hs => ?_
  refine Leads.seq (authorizePoweredOn_holds hs) fun _ s h hs => ?_
  exact finished_holds hs

/-! ## The whole run -/

/-- After the attempt: bytes which may not pass have set the error, unless the observation ended in
a call. -/
structure Settled (already_powered_on : Bool) (s : Run) (h : Record) : Prop where
  authorised : s.status_authorized = true → Authorised already_powered_on h
  settled : Accepted h ∨ WasCut h ∨ s.report.error ≠ none ∧ s.report.success = false

theorem Settled.survives : Survives Call.still (Settled already_powered_on) := by
  intro s s' h c answer hc hs
  refine ⟨fun hauthorised => (hs.authorised hauthorised).mono (List.suffix_cons _ _), ?_⟩
  rcases hs.settled with haccepted | hcut | hfailed
  · exact .inl (haccepted.cons fun hbytes => absurd (arrived_still hc answer) hbytes)
  · exact .inr (.inl (hcut.cons _))
  · exact .inr (.inr hfailed)

/-- The calls which end a run may always be made. -/
theorem Settled.may (hs : Settled already_powered_on s h) {c : Call} (hc : c.closing = true) :
    mayCall already_powered_on s h c := by
  refine ⟨hs.authorised, fun _ => hc, ?_⟩
  cases c with
  | write packet => cases hc
  | _ => trivial

/-- A closing call. -/
theorem Settled.bind {β : Type} {c : Call} {f : c.Answer → Prog β}
    (hs : Settled already_powered_on s h) (hc : c.closing = true)
    (hok : ∀ a, Settled already_powered_on s (⟨s, c, .ok a⟩ :: h) →
      (f a).Holds (mayCall already_powered_on) (fun _ => Settled already_powered_on) s
        (⟨s, c, .ok a⟩ :: h)) :
    (ask c >>= f).Holds (mayCall already_powered_on) (fun _ => Settled already_powered_on) s h :=
  Settled.survives.bind hs (Call.still_of_closing hc) (hs.may hc) (fun _ _ hs => hs) hok

/-- A part of the cleanup which goes on from another. -/
theorem Settled.seq {α β : Type} {p : Prog α} {f : α → Prog β}
    (hp : p.Holds (mayCall already_powered_on) (fun _ => Settled already_powered_on) s h)
    (hf : ∀ a s h, Settled already_powered_on s h →
      (f a).Holds (mayCall already_powered_on) (fun _ => Settled already_powered_on) s h) :
    (p >>= f).Holds (mayCall already_powered_on) (fun _ => Settled already_powered_on) s h :=
  hp.seq (fun _ _ _ hs => hs) hf

/-- A last closing call. -/
theorem Settled.last {c : Call} (hs : Settled already_powered_on s h) (hc : c.closing = true) :
    (ask c).Holds (mayCall already_powered_on) (fun _ => Settled already_powered_on) s h :=
  Settled.survives.request hs (Call.still_of_closing hc) (hs.may hc) fun _ _ hs => hs

/-- The body of the `try` block. -/
theorem attempt_holds {started : ℚ} (passes : ℕ) (hs : Guarded already_powered_on s h) :
    (attempt already_powered_on started passes).Holds (mayCall already_powered_on)
      (Leads already_powered_on (Settled already_powered_on)) s h := by
  refine Leads.seq (openPort_holds hs) fun _ s h hs => ?_
  refine Leads.bind (Polling already_powered_on) ?_ fun _ s h hs => ?_
  · refine Holds.repeatUntil (Polling already_powered_on) (fun s h hs => hs.aborted _) (fun s h hs => ?_) passes hs
    refine (pollingPass_holds passes hs).mono fun r s h hr => ?_
    match r, hr with
    | .ok none, hr => exact hr
    | .ok (some _), hr => exact hr
    | .error _, hr => exact hr
  refine Leads.bind (Polling already_powered_on) (holds_get_bind.mpr ?_) fun _ s h hs => ?_
  · cases s.drained with
    | none => exact hs
    | some drained => exact hs.bind rfl fun now hs => { hs with }
  exact ⟨hs.authorised, .inl hs.accepted⟩

/-- The handler records the exception of an attempt which failed. -/
theorem handle_holds {e : Exc} (hs : Aborted already_powered_on e s h) :
    (handle e).Holds (mayCall already_powered_on) (fun _ => Settled already_powered_on) s h := by
  have hrecorded : (do report fun r => { r with error := some e }; ask .emit : Prog Unit).Holds
      (mayCall already_powered_on) (fun _ => Settled already_powered_on) s h := by
    have hs : Settled already_powered_on { s with report.error := some e } h :=
      ⟨hs.authorised, .inr (.inr ⟨Option.some_ne_none _, hs.failing⟩)⟩
    exact holds_modify_bind.mpr (Settled.survives.request hs rfl (hs.may rfl) fun _ _ hs => hs)
  cases e with
  | cut => exact ⟨hs.authorised, (hs.observed rfl).imp_right .inl⟩
  | _ => exact hrecorded

/-- Closing the port. -/
theorem closePort_holds (hs : Settled already_powered_on s h) :
    closePort.Holds (mayCall already_powered_on) (fun _ => Settled already_powered_on) s h := by
  refine holds_get_bind.mpr (holds_provided.mpr ⟨fun _ => ?_, fun _ => hs⟩)
  refine Settled.seq ((holds_tryCatch _ _).mpr ?_) fun _ s h hs => ?_
  · refine Settled.survives.request hs rfl (hs.may rfl) ?_
    rintro (e | _) h hs
    · cases e <;> exact ⟨hs.authorised, hs.settled⟩
    · exact hs
  · exact hs.bind rfl fun _ hs => ⟨hs.authorised, hs.settled⟩

/-- Stopping the relay. -/
theorem stopRelay_holds (hs : Settled already_powered_on s h) :
    stopRelay.Holds (mayCall already_powered_on) (fun _ => Settled already_powered_on) s h := by
  refine holds_get_bind.mpr (holds_provided.mpr ⟨fun _ => ?_, fun _ => hs⟩)
  refine Settled.seq ((holds_tryCatch _ _).mpr ?_) fun _ s h hs => ?_
  · refine Settled.survives.request hs rfl (hs.may rfl) ?_
    rintro (e | _) h hs
    · cases e with
      | timeout_expired =>
        refine hs.bind rfl fun _ hs => (holds_tryCatch _ _).mpr ?_
        refine Settled.survives.request hs rfl (hs.may rfl) ?_
        rintro (e | _) h hs
        · cases e <;> exact ⟨hs.authorised, hs.settled⟩
        · exact hs
      | _ => exact hs
    · exact hs
  refine holds_get_bind.mpr (Settled.seq ?_ fun _ s h hs => hs.last rfl)
  exact holds_provided.mpr ⟨fun _ => hs.last rfl, fun _ => hs⟩

/-- The `finally` block keeps what the attempt led to. -/
theorem cleanup_holds (hs : Settled already_powered_on s h) :
    cleanup.Holds (mayCall already_powered_on) (fun _ => Settled already_powered_on) s h := by
  refine Settled.seq (closePort_holds hs) fun _ s h hs => ?_
  refine hs.bind rfl fun _ hs => ?_
  refine Settled.seq (stopRelay_holds hs) fun _ s h hs => ?_
  refine holds_modify_bind.mpr (Settled.bind ⟨hs.authorised, ?_⟩ rfl fun _ hs => ?_)
  · refine hs.settled.imp_right (Or.imp_right fun hfailed => ⟨hfailed.1, ?_⟩)
    simp [conclude, hfailed.2]
  · exact hs.last rfl

/-- Nothing was written where there are no writes. -/
theorem Unwritten.writes_eq (hh : Unwritten h) : writes h = [] := by
  refine List.filterMap_eq_nil_iff.mpr fun x hx => ?_
  have hne := hh x hx
  cases hcall : x.call with
  | write packet => exact absurd hcall (hne packet)
  | _ => rfl

/-- A write is only allowed as the first one. -/
theorem writes_length (hlawful : Lawful (mayCall already_powered_on) h) : (writes h).length ≤ 1 := by
  induction h with
  | nil => exact Nat.zero_le 1
  | cons x past ih =>
    have hpast := ih fun y before hsuffix => hlawful y before (hsuffix.trans (List.suffix_cons _ _))
    have hmay := hlawful x past (List.suffix_refl _)
    obtain ⟨s, call, answer⟩ := x
    cases call with
    | write packet =>
      have hnone : writes past = [] := hmay.2.2.1.writes_eq
      simp only [writes, List.filterMap_cons] at hnone ⊢
      simp [hnone]
    | _ => exact hpast

/-- The attempt with its handler and its cleanup. -/
theorem attempt_cleanup_holds {started : ℚ} (passes : ℕ) (hs : Guarded already_powered_on s h) :
    (Program.andFinally (tryCatch (attempt already_powered_on started passes) handle) cleanup).Holds
      (mayCall already_powered_on) (fun _ => Settled already_powered_on) s h := by
  refine (holds_andFinally _ _).mpr ((holds_tryCatch _ _).mpr ((attempt_holds passes hs).mono ?_))
  rintro (e | _) s h hs
  · exact (handle_holds hs).mono fun _ s h hs => cleanup_holds hs
  · exact cleanup_holds hs

end Lms200.Ros2.Experiment
