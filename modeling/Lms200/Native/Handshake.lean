import Lms200.Native.Responses
import Mathlib.Data.List.Induction
import Mathlib.Data.List.TakeWhile

/-!
# Command handshakes

`tools/lms200_native/sequence.cpp`: the handshake of one command over the decoder's events.
The flags are sticky, and a later reply may overwrite or veto an earlier one.

A command is successful exactly when an acknowledgement is seen, nothing refuses it, and all
its replies after the first acknowledgement pass its check, with at least one of them.
-/

namespace Lms200.Native

/-- The commands of the native sequence. -/
inductive Command where
  | Status
  | Variant
  | Start
  | Stop
  deriving DecidableEq, Repr

/-- The first payload byte of a command's reply. -/
def Command.expected : Command → UInt8
  | .Status => 0xB1
  | .Variant => 0xBB
  | .Start | .Stop => 0xA0

/-- The status check: a supported layout, no error, and the host's own rate. -/
def statusCheck (status : StatusInfo) : Validation :=
  let check : Validation :=
    { ok := status.supported && severity status.status_byte < 3 && status.device_error == 0
      reason := status.reason }
  let check := if status.supported && status.device_error != 0 then
    { check with reason := "B1 device error flag is set" } else check
  if status.supported && status.baud != 9600 then
    ⟨false, "B1 baud code differs from the fixed 9600 host setting"⟩ else check

/-- The check a command makes on its reply. -/
def Command.check (command : Command) (frame : Frame) : Validation :=
  match command with
  | .Status => statusCheck (decode_status frame)
  | .Variant => validate_bb frame
  | .Start | .Stop => validate_a0 frame

/-- What has been seen since the receive boundary of a command. -/
structure Handshake where
  command : Command
  first_offset : ℕ
  ack : Bool := false
  nak : Bool := false
  reply : Bool := false
  rejected : Bool := false
  frame : Frame := {}
  status : StatusInfo := {}
  reason : String := ""
  deriving DecidableEq, Repr

namespace Handshake

/-- Keep the decoded status when a status was requested. -/
def fill (h : Handshake) (frame : Frame) : Handshake :=
  if h.command = .Status then { h with status := decode_status frame } else h

/-- Take one decoder event into account. -/
def observe (h : Handshake) (event : Event) : Handshake :=
  if event.offset < h.first_offset ∨ event.reason ≠ "" then h
  else if event.kind = .Ack then { h with ack := true }
  else if event.kind = .Nak then { h with nak := true, reason := "Standalone NAK observed" }
  else if event.kind ≠ .Frame then h
  else if event.frame.command = 0x92 ∧
      (event.frame.address = 0x80 ∨ event.frame.address = 0x81) then
    { h with rejected := true, reason := "CRC-valid framed command rejection 92" }
  else if event.frame.command ≠ h.command.expected then h
  else if h.ack = false then
    { h with reason := "Matching frame arrived before ACK; not used for handshake" }
  else
    let h := h.fill event.frame
    let check := h.command.check event.frame
    if check.ok = false then { h with rejected := true, reason := check.reason }
    else { h with frame := event.frame, reply := true, reason := check.reason }

/-- Acknowledged and answered, neither refused nor rejected. -/
def successful (h : Handshake) : Bool := h.ack && h.reply && !h.nak && !h.rejected

/-- Take events into account in order. -/
def observeAll (h : Handshake) (events : List Event) : Handshake := events.foldl observe h

end Handshake

/-- The event lies at or after the receive boundary and was not found by resynchronization. -/
def Event.eligible (event : Event) (first_offset : ℕ) : Prop :=
  first_offset ≤ event.offset ∧ event.reason = ""

instance (event : Event) (first_offset : ℕ) : Decidable (event.eligible first_offset) :=
  inferInstanceAs (Decidable (_ ∧ _))

/-- A framed refusal from the scanner. -/
def Event.refusal (event : Event) : Prop :=
  event.kind = .Frame ∧ event.frame.command = 0x92 ∧
    (event.frame.address = 0x80 ∨ event.frame.address = 0x81)

instance (event : Event) : Decidable event.refusal := inferInstanceAs (Decidable (_ ∧ _))

/-- An eligible acknowledgement. -/
def Event.acknowledges (event : Event) (first_offset : ℕ) : Bool :=
  event.eligible first_offset ∧ event.kind = .Ack

/-- An eligible frame with the command's reply code. -/
def Event.replies (event : Event) (command : Command) (first_offset : ℕ) : Bool :=
  event.eligible first_offset ∧ event.kind = .Frame ∧ event.frame.command = command.expected

/-- What comes after the first eligible acknowledgement. -/
def afterAck (first_offset : ℕ) (events : List Event) : List Event :=
  (events.dropWhile fun event => !event.acknowledges first_offset).tail

/-- A command's replies after the first eligible acknowledgement. -/
def repliesAfterAck (command : Command) (first_offset : ℕ) (events : List Event) : List Frame :=
  ((afterAck first_offset events).filter fun event => event.replies command first_offset).map
    Event.frame

/-- The reply satisfies what its command asks of it. -/
def Command.accepts (command : Command) (frame : Frame) : Prop :=
  match command with
  | .Status => (decode_status frame).supported = true ∧
      severity (decode_status frame).status_byte < 3 ∧ (decode_status frame).device_error = 0 ∧
      (decode_status frame).baud = 9600
  | .Variant => (validate_bb frame).ok = true
  | .Start | .Stop => (validate_a0 frame).ok = true

/-- A command's check passes exactly on the replies it accepts. -/
theorem Command.check_ok_iff (command : Command) (frame : Frame) :
    (command.check frame).ok = true ↔ command.accepts frame := by
  cases command with
  | Status =>
    simp only [Command.check, Command.accepts, statusCheck]
    cases (decode_status frame).supported
    · simp
    · by_cases hbaud : (decode_status frame).baud = 9600 <;>
        by_cases herror : (decode_status frame).device_error = 0 <;> simp [hbaud, herror]
  | Variant => rfl
  | Start => rfl
  | Stop => rfl

/-- An accepted reply is a valid response with the command's reply code and a good severity. -/
theorem Command.accepts_valid {command : Command} {frame : Frame} (h : command.accepts frame) :
    (validate_response frame).ok = true ∧ frame.command = command.expected ∧
      severity frame.status < 3 := by
  cases command with
  | Status =>
    obtain ⟨hsupported, hseverity, -, -⟩ := h
    obtain ⟨hvalid, hcommand, -, -⟩ := decode_status_supported hsupported
    rw [decode_status_status_byte] at hseverity
    exact ⟨hvalid, hcommand, hseverity⟩
  | Variant =>
    obtain ⟨hhealthy, hcommand, -⟩ := (validate_bb_ok_iff frame).mp h
    obtain ⟨hvalid, hseverity⟩ := validate_response_of_healthy hhealthy
    exact ⟨hvalid, hcommand, hseverity⟩
  | Start | Stop =>
    obtain ⟨hhealthy, hcommand, -⟩ := (validate_a0_ok_iff frame).mp h
    obtain ⟨hvalid, hseverity⟩ := validate_response_of_healthy hhealthy
    exact ⟨hvalid, hcommand, hseverity⟩

/-- The first acknowledgement of a list opens the replies which follow it. -/
theorem afterAck_append_singleton (first_offset : ℕ) (events : List Event) (event : Event) :
    afterAck first_offset (events ++ [event]) =
      if ∃ e ∈ events, e.acknowledges first_offset = true then
        afterAck first_offset events ++ [event] else [] := by
  induction events with
  | nil => cases h : event.acknowledges first_offset <;> simp [afterAck, List.dropWhile, h]
  | cons first rest ih =>
    cases h : first.acknowledges first_offset with
    | true => simp [afterAck, List.dropWhile, h]
    | false =>
      have hskip : ∀ events, afterAck first_offset (first :: events) =
          afterAck first_offset events := fun events => by simp [afterAck, List.dropWhile, h]
      rw [List.cons_append, hskip, hskip, ih]
      simp [h]

/-- One more event adds a reply exactly after an acknowledgement. -/
theorem repliesAfterAck_append_singleton (command : Command) (first_offset : ℕ)
    (events : List Event) (event : Event) :
    repliesAfterAck command first_offset (events ++ [event]) =
      if (∃ e ∈ events, e.acknowledges first_offset = true) ∧
          event.replies command first_offset = true then
        repliesAfterAck command first_offset events ++ [event.frame]
      else repliesAfterAck command first_offset events := by
  by_cases hack : ∃ e ∈ events, e.acknowledges first_offset = true
  · have hsplit := afterAck_append_singleton first_offset events event
    rw [if_pos hack] at hsplit
    cases hreply : event.replies command first_offset <;>
      simp [repliesAfterAck, hsplit, hack, hreply]
  · have hall : ∀ e ∈ events, (!e.acknowledges first_offset) = true := fun e he => by
      simpa using fun h => hack ⟨e, he, h⟩
    have hnone : afterAck first_offset events = [] := by
      rw [afterAck, List.dropWhile_eq_nil_iff.mpr hall, List.tail_nil]
    have hsplit := afterAck_append_singleton first_offset events event
    rw [if_neg hack] at hsplit
    rw [if_neg fun h => hack h.1, repliesAfterAck, repliesAfterAck, hsplit, hnone]

namespace Handshake

/-- What the flags and the kept reply say about the events seen so far. -/
structure Observed (command : Command) (first_offset : ℕ) (events : List Event) (h : Handshake) :
    Prop where
  command_eq : h.command = command
  first_offset_eq : h.first_offset = first_offset
  ack : h.ack = true ↔ ∃ e ∈ events, e.acknowledges first_offset = true
  nak : h.nak = true ↔ ∃ e ∈ events, e.eligible first_offset ∧ e.kind = .Nak
  rejected : h.rejected = true ↔ (∃ e ∈ events, e.eligible first_offset ∧ e.refusal) ∨
    ∃ f ∈ repliesAfterAck command first_offset events, ¬ command.accepts f
  reply : h.reply = true ↔ ∃ f ∈ repliesAfterAck command first_offset events, command.accepts f
  last : ∀ f, (repliesAfterAck command first_offset events).getLast? = some f →
    command.accepts f → h.frame = f ∧ (command = .Status → h.status = decode_status f)

/-- A fresh handshake has seen nothing. -/
theorem observed_nil (command : Command) (first_offset : ℕ) :
    Observed command first_offset [] { command, first_offset } := by
  constructor <;> simp [repliesAfterAck, afterAck]

/-- The new event's contribution to a flag which some earlier event may already have set. -/
theorem exists_append_singleton {α : Type*} (p : α → Prop) (events : List α) (event : α) :
    (∃ e ∈ events ++ [event], p e) ↔ (∃ e ∈ events, p e) ∨ p event := by
  simp [or_and_right, exists_or]

/-- Filling the status changes no other field. -/
theorem fill_eq (h : Handshake) (frame : Frame) :
    h.fill frame = { h with status := (h.fill frame).status } := by
  unfold fill
  by_cases hstatus : h.command = .Status <;> simp [hstatus]

variable {command : Command} {first_offset : ℕ} {events : List Event} {h : Handshake}

/-- An event which is no reply after an acknowledgement at most raises flags. -/
theorem Observed.raise {event : Event} {h' : Handshake}
    (hobs : Observed command first_offset events h)
    (hreply : event.replies command first_offset = true → h.ack = false)
    (hsame : h'.command = h.command ∧ h'.first_offset = h.first_offset ∧ h'.reply = h.reply ∧
      h'.frame = h.frame ∧ h'.status = h.status)
    (hack : h'.ack = true ↔ h.ack = true ∨ event.acknowledges first_offset = true)
    (hnak : h'.nak = true ↔ h.nak = true ∨ event.eligible first_offset ∧ event.kind = .Nak)
    (hrejected : h'.rejected = true ↔
      h.rejected = true ∨ event.eligible first_offset ∧ event.refusal) :
    Observed command first_offset (events ++ [event]) h' := by
  have hreplies := repliesAfterAck_append_singleton command first_offset events event
  rw [if_neg fun hthis => absurd (hobs.ack.mpr hthis.1)
    (by rw [hreply hthis.2]; exact Bool.false_ne_true)] at hreplies
  obtain ⟨hcommand, hoffset, hkeep, hframe, hstatus⟩ := hsame
  refine ⟨hcommand.trans hobs.command_eq, hoffset.trans hobs.first_offset_eq, ?_, ?_, ?_, ?_, ?_⟩
  · rw [hack, hobs.ack, exists_append_singleton]
  · rw [hnak, hobs.nak, exists_append_singleton]
  · rw [hrejected, hobs.rejected, exists_append_singleton, hreplies, or_right_comm]
  · rw [hreplies, ← hobs.reply, hkeep]
  · rw [hreplies, hframe, hstatus]
    exact hobs.last

/-- A reply after an acknowledgement is kept or vetoes, according to its check. -/
theorem Observed.answer {event : Event} {h' : Handshake}
    (hobs : Observed command first_offset events h) (hacked : h.ack = true)
    (hevent : event.replies command first_offset = true) (hrefusal : ¬ event.refusal)
    (hsame : h'.command = h.command ∧ h'.first_offset = h.first_offset ∧ h'.ack = h.ack ∧
      h'.nak = h.nak)
    (hreply : h'.reply = true ↔ h.reply = true ∨ command.accepts event.frame)
    (hrejected : h'.rejected = true ↔ h.rejected = true ∨ ¬ command.accepts event.frame)
    (hlast : command.accepts event.frame → h'.frame = event.frame ∧
      (command = .Status → h'.status = decode_status event.frame)) :
    Observed command first_offset (events ++ [event]) h' := by
  have hreplies := repliesAfterAck_append_singleton command first_offset events event
  rw [if_pos ⟨hobs.ack.mp hacked, hevent⟩] at hreplies
  have hkind : event.kind = .Frame := by
    simp only [Event.replies, decide_eq_true_eq] at hevent
    exact hevent.2.1
  obtain ⟨hcommand, hoffset, hack, hnak⟩ := hsame
  refine ⟨hcommand.trans hobs.command_eq, hoffset.trans hobs.first_offset_eq, ?_, ?_, ?_, ?_, ?_⟩
  · rw [hack, hobs.ack, exists_append_singleton]
    simp [Event.acknowledges, hkind]
  · rw [hnak, hobs.nak, exists_append_singleton]
    simp [hkind]
  · rw [hrejected, hobs.rejected, exists_append_singleton, hreplies, exists_append_singleton,
      or_iff_left (b := event.eligible first_offset ∧ event.refusal) fun hthis => hrefusal hthis.2, or_assoc]
  · rw [hreply, hobs.reply, hreplies, exists_append_singleton]
  · intro f hf haccepts
    rw [hreplies, List.getLast?_concat, Option.some.injEq] at hf
    subst hf
    exact hlast haccepts

/-- Observing an event keeps the description of what has been seen. -/
theorem Observed.observe (hobs : Observed command first_offset events h) (event : Event) :
    Observed command first_offset (events ++ [event]) (h.observe event) := by
  obtain rfl := hobs.command_eq
  obtain rfl := hobs.first_offset_eq
  have hexpected : h.command.expected ≠ 0x92 := by cases h.command <;> decide
  unfold Handshake.observe
  by_cases hskip : event.offset < h.first_offset ∨ event.reason ≠ ""
  · have hnot : ¬ event.eligible h.first_offset := fun he =>
      hskip.elim (not_lt.mpr he.1) fun hreason => hreason he.2
    rw [if_pos hskip]
    exact hobs.raise (by simp [Event.replies, hnot]) ⟨rfl, rfl, rfl, rfl, rfl⟩ (by simp [Event.acknowledges, hnot])
      (by simp [hnot]) (by simp [hnot])
  have heligible : event.eligible h.first_offset := by
    simpa [Event.eligible, not_or] using hskip
  rw [if_neg hskip]
  cases hkind : event.kind with
  | Ack =>
    rw [if_pos rfl]
    exact hobs.raise (by simp [Event.replies, hkind]) ⟨rfl, rfl, rfl, rfl, rfl⟩
      (by simp [Event.acknowledges, hkind, heligible]) (by simp [hkind])
      (by simp [Event.refusal, hkind])
  | Nak =>
    rw [if_neg (by decide), if_pos rfl]
    exact hobs.raise (by simp [Event.replies, hkind]) ⟨rfl, rfl, rfl, rfl, rfl⟩ (by simp [Event.acknowledges, hkind])
      (by simp [hkind, heligible]) (by simp [Event.refusal, hkind])
  | Rejected =>
    rw [if_neg (by decide), if_neg (by decide), if_pos (by decide)]
    exact hobs.raise (by simp [Event.replies, hkind]) ⟨rfl, rfl, rfl, rfl, rfl⟩ (by simp [Event.acknowledges, hkind])
      (by simp [hkind]) (by simp [Event.refusal, hkind])
  | Frame =>
    rw [if_neg (by decide), if_neg (by decide), if_neg (by decide)]
    by_cases hrefusal : event.frame.command = 0x92 ∧
        (event.frame.address = 0x80 ∨ event.frame.address = 0x81)
    · rw [if_pos hrefusal]
      exact hobs.raise (by simp [Event.replies, hrefusal.1, hexpected.symm]) ⟨rfl, rfl, rfl, rfl, rfl⟩
        (by simp [Event.acknowledges, hkind]) (by simp [hkind])
        (by simp [Event.refusal, hkind, heligible, hrefusal])
    rw [if_neg hrefusal]
    have hnotRefusal : ¬ event.refusal := fun hthis => hrefusal hthis.2
    by_cases hother : ¬ event.frame.command = h.command.expected
    · rw [if_pos hother]
      exact hobs.raise (by simp [Event.replies, hother]) ⟨rfl, rfl, rfl, rfl, rfl⟩
        (by simp [Event.acknowledges, hkind]) (by simp [hkind]) (by simp [hnotRefusal])
    rw [if_neg hother]
    by_cases hack : h.ack = false
    · rw [if_pos hack]
      exact hobs.raise (fun _ => hack) ⟨rfl, rfl, rfl, rfl, rfl⟩ (by simp [Event.acknowledges, hkind])
        (by simp [hkind]) (by simp [hnotRefusal])
    rw [if_neg hack]
    have hevent : event.replies h.command h.first_offset = true := by
      simp [Event.replies, heligible, hkind, not_not.mp hother]
    have hchecked := h.command.check_ok_iff event.frame
    have hacked : h.ack = true := Bool.eq_true_of_not_eq_false hack
    have hfill : h.command = .Status → (h.fill event.frame).status = decode_status event.frame :=
      fun hstatus => by rw [fill, if_pos hstatus]
    dsimp only
    rw [fill_eq]
    generalize (h.fill event.frame).status = filled at hfill
    by_cases hok : (h.command.check event.frame).ok = false
    · have hrejects : ¬ h.command.accepts event.frame := fun haccepts =>
        absurd (hchecked.mpr haccepts) (by rw [hok]; exact Bool.false_ne_true)
      rw [if_pos hok]
      exact hobs.answer hacked hevent hnotRefusal ⟨rfl, rfl, rfl, rfl⟩ (by simp [hrejects])
        (by simp [hrejects]) fun haccepts => absurd haccepts hrejects
    · have haccepts := hchecked.mp (Bool.eq_true_of_not_eq_false hok)
      rw [if_neg hok]
      exact hobs.answer hacked hevent hnotRefusal ⟨rfl, rfl, rfl, rfl⟩ (by simp [haccepts])
        (by simp [haccepts]) fun _ => ⟨rfl, hfill⟩

/-- Whatever is observed, the flags and the kept reply describe it. -/
theorem observed (command : Command) (first_offset : ℕ) (events : List Event) :
    Observed command first_offset events (observeAll { command, first_offset } events) := by
  induction events using List.reverseRecOn with
  | nil => exact observed_nil command first_offset
  | append_singleton events event ih =>
    rw [observeAll, List.foldl_append, List.foldl_cons, List.foldl_nil]
    exact ih.observe event

/-- A successful handshake keeps its last reply, which passed the command's check. -/
theorem Observed.kept (hobs : Observed command first_offset events h)
    (hsuccess : h.successful = true) :
    ∃ f, (repliesAfterAck command first_offset events).getLast? = some f ∧ command.accepts f ∧
      h.frame = f ∧ (command = .Status → h.status = decode_status f) := by
  simp only [successful, Bool.and_eq_true, Bool.not_eq_true', ← Bool.not_eq_true] at hsuccess
  obtain ⟨⟨⟨-, hreply⟩, -⟩, hrejected⟩ := hsuccess
  obtain ⟨g, hg, -⟩ := hobs.reply.mp hreply
  have hne := List.ne_nil_of_mem hg
  have haccepts := fun f hf => not_not.mp fun hnot =>
    hrejected (hobs.rejected.mpr (.inr ⟨f, hf, hnot⟩))
  have hlast := List.getLast?_eq_some_getLast hne
  have hthis := haccepts _ (List.getLast_mem hne)
  exact ⟨_, hlast, hthis, hobs.last _ hlast hthis⟩

/-- What a successful handshake kept is a valid response to its own command. -/
theorem successful_valid (command : Command) (first_offset : ℕ) (events : List Event)
    (hsuccess : (observeAll { command, first_offset } events).successful = true) :
    let kept := (observeAll { command, first_offset } events).frame
    (validate_response kept).ok = true ∧ kept.command = command.expected ∧
      severity kept.status < 3 := by
  obtain ⟨f, -, haccepts, hframe, -⟩ := (observed command first_offset events).kept hsuccess
  intro kept
  rw [show kept = f from hframe]
  exact Command.accepts_valid haccepts

/-- A handshake succeeds exactly when it is acknowledged, nothing refuses it, and it has replies
after the first acknowledgement which all pass; it then keeps the last of them. -/
theorem successful_iff (command : Command) (first_offset : ℕ) (events : List Event) :
    let final := observeAll { command, first_offset } events
    let replies := repliesAfterAck command first_offset events
    (final.successful = true ↔
      (∃ e ∈ events, e.eligible first_offset ∧ e.kind = .Ack) ∧
      (¬ ∃ e ∈ events, e.eligible first_offset ∧ e.kind = .Nak) ∧
      (¬ ∃ e ∈ events, e.eligible first_offset ∧ e.refusal) ∧
      replies ≠ [] ∧ ∀ f ∈ replies, command.accepts f) ∧
    (final.successful = true → ∃ f, replies.getLast? = some f ∧ final.frame = f ∧
      (command = .Status → final.status = decode_status f)) := by
  intro final replies
  have hobs := observed command first_offset events
  have hacks : (∃ e ∈ events, e.acknowledges first_offset = true) ↔
      ∃ e ∈ events, e.eligible first_offset ∧ e.kind = .Ack := by
    simp [Event.acknowledges]
  have hdecision : final.successful = true ↔
      (∃ e ∈ events, e.eligible first_offset ∧ e.kind = .Ack) ∧
      (¬ ∃ e ∈ events, e.eligible first_offset ∧ e.kind = .Nak) ∧
      (¬ ∃ e ∈ events, e.eligible first_offset ∧ e.refusal) ∧
      replies ≠ [] ∧ ∀ f ∈ replies, command.accepts f := by
    rw [← hacks, ← hobs.ack, ← hobs.nak]
    have hrejected := not_congr hobs.rejected
    rw [not_or] at hrejected
    have hall : (¬ ∃ f ∈ replies, ¬ command.accepts f) ↔ ∀ f ∈ replies, command.accepts f := by
      push Not
      rfl
    rw [hall] at hrejected
    have hreply : final.reply = true ∧ (∀ f ∈ replies, command.accepts f) ↔
        replies ≠ [] ∧ ∀ f ∈ replies, command.accepts f := by
      refine and_congr_left fun hall => hobs.reply.trans ⟨?_, fun hne => ?_⟩
      · rintro ⟨f, hf, -⟩
        exact List.ne_nil_of_mem hf
      · exact ⟨_, List.head_mem hne, hall _ (List.head_mem hne)⟩
    rw [← hreply]
    simp only [successful, Bool.and_eq_true, Bool.not_eq_true', ← Bool.not_eq_true]
    tauto
  refine ⟨hdecision, fun hsuccess => ?_⟩
  obtain ⟨f, hlast, -, hkept⟩ := hobs.kept hsuccess
  exact ⟨f, hlast, hkept⟩

end Handshake

end Lms200.Native
