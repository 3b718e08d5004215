import Lms200.Native.Sequence

/-!
# Safety of the native sequence

Over every implementation of the interface, what has been sent has the form of one status
dialogue, an optional variant, an optional start and its stop. Each command is sent only where
the calls before it permit it, and the stop is sent exactly when a start may have been written.

The proof follows the program: one assertion while the sequence is under way, one after which
only the stop is missing, and one at the end.
-/

namespace Lms200.Native

open Coop

/-- The command a call sends, with its cleanup flag. -/
def Turn.sent : Turn → Option (Command × Bool)
  | .exchanged command cleanup _ => some (command, cleanup)
  | _ => none

/-- The commands sent, in order. -/
def sentCommands (calls : List Turn) : List (Command × Bool) := calls.filterMap Turn.sent

/-- Some status exchange succeeded and reported monitoring on request. -/
def ModeConfirmed (calls : List Turn) : Prop :=
  ∃ cleanup e, Turn.exchanged .Status cleanup (.ok e) ∈ calls ∧ e.success = true ∧
    e.status.operating_mode = 0x25

/-- Some variant exchange succeeded. -/
def VariantConfirmed (calls : List Turn) : Prop :=
  ∃ cleanup e, Turn.exchanged .Variant cleanup (.ok e) ∈ calls ∧ e.success = true

/-- Some start exchange threw or reported a write attempt. -/
def StartWritten (calls : List Turn) : Prop :=
  ∃ cleanup answer, Turn.exchanged .Start cleanup answer ∈ calls ∧
    ∀ e, answer = .ok e → e.write_attempted = true

/-- What the calls so far must show before a command of the sequence proper. -/
def Permitted (set_variant : Bool) (before : List Turn) : Command → Prop
  | .Status => ∀ cleanup answer, Turn.exchanged .Status cleanup answer ∈ before →
      ∃ e, answer = .ok e ∧ e.success = false ∧ e.may_retry = true
  | .Variant => set_variant = true ∧ ModeConfirmed before
  | .Start => ModeConfirmed before ∧ (set_variant = true → VariantConfirmed before)
  | .Stop => False

/-- The last call found no interrupt, and none was found before. -/
def Cleared (before : List Turn) : Prop :=
  Turn.interrupted true ∉ before ∧ ∃ earlier, before = earlier ++ [.interrupted false]

/-- Every command of the sequence proper is sent where it is permitted. -/
def Lawful (set_variant : Bool) (calls : List Turn) : Prop :=
  ∀ before command answer after, calls = before ++ .exchanged command false answer :: after →
    Permitted set_variant before command ∧ Cleared before

/-- The commands of a sequence which got this far. -/
def shape (statuses : ℕ) (variant start stop : Bool) : List (Command × Bool) :=
  List.replicate statuses (.Status, false) ++ (if variant then [(.Variant, false)] else []) ++
    (if start then [(.Start, false)] else []) ++ (if stop then [(.Stop, true)] else [])

/-- One more call keeps the rule when it is no command or a permitted one. -/
theorem Lawful.append {set_variant : Bool} {calls : List Turn} (h : Lawful set_variant calls)
    (turn : Turn) (hturn : ∀ command answer, turn = .exchanged command false answer →
      Permitted set_variant calls command ∧ Cleared calls) :
    Lawful set_variant (calls ++ [turn]) := by
  intro before command answer after hsplit
  rcases List.append_eq_append_iff.mp hsplit with ⟨tail, hbefore, hrest⟩ | ⟨tail, hcalls, hrest⟩
  · -- The new call is at or before the split.
    cases tail with
    | nil =>
      rw [List.append_nil] at hbefore
      rw [List.nil_append, List.cons.injEq] at hrest
      rw [hbefore]
      exact hturn command answer hrest.1
    | cons first tail => simp at hrest
  · cases tail with
    | nil =>
      rw [List.append_nil] at hcalls
      rw [List.nil_append, List.cons.injEq] at hrest
      rw [← hcalls]
      exact hturn command answer hrest.1.symm
    | cons first tail =>
      rw [List.cons_append, List.cons.injEq] at hrest
      rw [← hrest.1] at hcalls
      exact h before command answer tail hcalls

/-- A command which was not sent was not exchanged. -/
theorem not_mem_of_not_sent {calls : List Turn} {command : Command} {cleanup : Bool}
    {answer : Except String Exchange} (h : (command, cleanup) ∉ sentCommands calls) :
    Turn.exchanged command cleanup answer ∉ calls := fun hmem =>
  h (List.mem_filterMap.mpr ⟨_, hmem, rfl⟩)

@[simp] theorem sentCommands_append (calls calls' : List Turn) :
    sentCommands (calls ++ calls') = sentCommands calls ++ sentCommands calls' := List.filterMap_append

/-- A call which sends nothing adds no command. -/
theorem sentCommands_silent {turn : Turn} (h : turn.sent = none) : sentCommands [turn] = [] :=
  List.filterMap_cons_none h

section Rules

/-- Every answer an implementation may give to a call, recorded. -/
def sessionWaits : Waits Session Call Call.Answer Exit ((call : Call) → call.Answer) where
  enter _ _ s := (none, s)
  resume _ call answers s := some (some (.ok (answers call)), s.record (call.turn (answers call)))

/-- The sequence has its session for itself. -/
def alone : Contract Session := ⟨fun _ _ => False, fun _ _ => True⟩

/-- A program of the sequence meets its postcondition, whatever is answered. -/
def Ensures {α : Type} (p : Run α) (post : Except Exit α → Session → Prop) (s : Session) : Prop :=
  Program.Safe sessionWaits 0 alone p post s

variable {α β : Type} {post : Except Exit β → Session → Prop} {s : Session}

theorem Ensures.request_bind {call : Call} {next : call.Answer → Run β}
    (h : ∀ answer, Ensures (next answer) post (s.record (call.turn answer))) :
    Ensures (Program.request call >>= next) post s := by
  refine ⟨trivial, (· = s), rfl, fun _ _ _ hnone => hnone.elim, ?_, ?_⟩
  · intro choice t t' ht hresume
    simp [sessionWaits] at hresume
  · rintro choice t answer t' rfl hresume
    simp only [sessionWaits, Option.some.injEq, Prod.mk.injEq] at hresume
    obtain ⟨rfl, rfl⟩ := hresume
    exact ⟨trivial, h _⟩

theorem Ensures.interrupted_bind {next : Bool → Run β}
    (h : ∀ answer, Ensures (next answer) post (s.record (.interrupted answer))) :
    Ensures (Run.interrupted >>= next) post s := Ensures.request_bind h

theorem Ensures.exchange_bind {command : Command} {cleanup : Bool} {next : Exchange → Run β}
    (hok : ∀ e, Ensures (next e) post (s.record (.exchanged command cleanup (.ok e))))
    (hthrown : ∀ what, post (.error (.thrown what))
      (s.record (.exchanged command cleanup (.error what)))) :
    Ensures (Run.exchange command cleanup >>= next) post s := by
  refine Program.Safe.bind (Ensures.request_bind fun answer => ?_)
  cases answer with
  | ok e => exact hok e
  | error what => exact hthrown what

theorem Ensures.capture_bind {next : Bool → Run β}
    (hok : ∀ complete, Ensures (next complete) post (s.record (.captured (.ok complete))))
    (hthrown : ∀ what, post (.error (.thrown what)) (s.record (.captured (.error what)))) :
    Ensures (Run.capture >>= next) post s := by
  refine Program.Safe.bind (Ensures.request_bind fun answer => ?_)
  cases answer with
  | ok complete => exact hok complete
  | error what => exact hthrown what

theorem Ensures.note_bind {text : String} {next : Unit → Run β}
    (hok : Ensures (next ()) post (s.record (.noted text (.ok ()))))
    (hthrown : ∀ what, post (.error (.thrown what)) (s.record (.noted text (.error what)))) :
    Ensures (Run.note text >>= next) post s := by
  refine Program.Safe.bind (Ensures.request_bind fun answer => ?_)
  cases answer with
  | ok u => exact hok
  | error what => exact hthrown what

theorem Ensures.update_bind {f : SequenceResult → SequenceResult} {next : Unit → Run β}
    (h : Ensures (next ()) post (s.amend f)) :
    Ensures (Run.update f >>= next) post s := ⟨trivial, h⟩

theorem Ensures.update {f : SequenceResult → SequenceResult}
    {post : Except Exit Unit → Session → Prop} (h : post (.ok ()) (s.amend f)) :
    Ensures (Run.update f) post s := ⟨trivial, h⟩

theorem Ensures.finish {reason : String}
    (h : post (.error .returned) (s.amend fun result => { result with reason })) :
    Ensures (Run.finish reason) post s := ⟨trivial, h⟩

theorem Ensures.bind {p : Run α} {f : α → Run β} {mid : Except Exit α → Session → Prop}
    (h : Ensures p mid s) (hok : ∀ a t, mid (.ok a) t → Ensures (f a) post t)
    (herror : ∀ e t, mid (.error e) t → post (.error e) t) : Ensures (p >>= f) post s := by
  refine Program.Safe.bind (h.mono fun outcome t ht => ?_)
  cases outcome with
  | ok a => exact hok a t ht
  | error e => exact herror e t ht

end Rules

/-- The sequence is under way: no start yet, no interrupt found, nothing claimed. -/
structure Underway (set_variant : Bool) (statuses : ℕ) (variant : Bool) (s : Session) : Prop where
  lawful : Lawful set_variant s.calls
  calm : Turn.interrupted true ∉ s.calls
  sent : sentCommands s.calls = shape statuses variant false false
  statuses_le : statuses ≤ 3
  wanted : variant = true → set_variant = true
  requested : s.result.variant_requested = set_variant
  start_attempted : s.result.start_attempted = false
  stop_attempted : s.result.stop_attempted = false
  stop_confirmed : s.result.stop_confirmed = false
  sequence_complete : s.result.sequence_complete = false

/-- Nothing but the stop may still be sent. -/
structure Unstopped (set_variant : Bool) (s : Session) : Prop where
  lawful : Lawful set_variant s.calls
  sent : ∃ statuses variant start, statuses ≤ 3 ∧ (variant = true → set_variant = true) ∧
    sentCommands s.calls = shape statuses variant start false
  requested : s.result.variant_requested = set_variant
  written : s.result.start_attempted = true ↔ StartWritten s.calls
  stop_attempted : s.result.stop_attempted = false
  stop_confirmed : s.result.stop_confirmed = false
  sequence_complete : s.result.sequence_complete = false

/-- Nothing more is sent, and what was started has been told to stop. -/
structure Ended (set_variant : Bool) (s : Session) : Prop where
  lawful : Lawful set_variant s.calls
  sent : ∃ statuses variant start stop, statuses ≤ 3 ∧ (variant = true → set_variant = true) ∧
    (stop = true → start = true) ∧ (stop = true ↔ StartWritten s.calls) ∧
    sentCommands s.calls = shape statuses variant start stop
  requested : s.result.variant_requested = set_variant
  stop_confirmed : s.result.stop_confirmed = true → s.result.start_confirmed = true

/-- A written start has been sent. -/
theorem StartWritten.mem_sent {calls : List Turn} (h : StartWritten calls) :
    ∃ cleanup, (Command.Start, cleanup) ∈ sentCommands calls := by
  obtain ⟨cleanup, answer, hmem, -⟩ := h
  exact ⟨cleanup, List.mem_filterMap.mpr ⟨_, hmem, rfl⟩⟩

/-- A start is among the commands sent exactly when the form has it. -/
theorem start_mem_shape {statuses : ℕ} {variant start stop cleanup : Bool}
    (h : (Command.Start, cleanup) ∈ shape statuses variant start stop) : start = true := by
  cases start
  · cases variant <;> cases stop <;> simp [shape] at h
  · rfl

variable {set_variant variant : Bool} {statuses : ℕ} {s : Session}

theorem Underway.unstopped (h : Underway set_variant statuses variant s) :
    Unstopped set_variant s where
  lawful := h.lawful
  sent := ⟨statuses, variant, false, h.statuses_le, h.wanted, h.sent⟩
  requested := h.requested
  written := by
    refine iff_of_false (by rw [h.start_attempted]; exact Bool.false_ne_true) fun hwritten => ?_
    obtain ⟨cleanup, hmem⟩ := hwritten.mem_sent
    rw [h.sent] at hmem
    exact absurd (start_mem_shape hmem) Bool.false_ne_true
  stop_attempted := h.stop_attempted
  stop_confirmed := h.stop_confirmed
  sequence_complete := h.sequence_complete

/-- A call which sends nothing leaves only the stop missing. -/
theorem Unstopped.record (h : Unstopped set_variant s) (turn : Turn) (hturn : turn.sent = none) :
    Unstopped set_variant (s.record turn) := by
  have hkeep : sentCommands (s.calls ++ [turn]) = sentCommands s.calls := by
    rw [sentCommands_append, sentCommands_silent hturn, List.append_nil]
  obtain ⟨statuses, variant, start, hle, hwanted, hsent⟩ := h.sent
  refine ⟨h.lawful.append turn ?_, ⟨statuses, variant, start, hle, hwanted, hkeep.trans hsent⟩,
    h.requested, h.written.trans ?_, h.stop_attempted, h.stop_confirmed, h.sequence_complete⟩
  · rintro command answer rfl
    exact absurd hturn (by simp [Turn.sent])
  · refine exists₂_congr fun cleanup answer => and_congr_left fun _ => ?_
    rw [Session.record, List.mem_append, List.mem_singleton]
    refine (or_iff_left ?_).symm
    rintro rfl
    exact absurd hturn (by simp [Turn.sent])

/-- A call which sends nothing and finds no interrupt keeps the sequence under way. -/
theorem Underway.record (h : Underway set_variant statuses variant s) (turn : Turn)
    (hturn : turn.sent = none) (hcalm : turn ≠ .interrupted true) :
    Underway set_variant statuses variant (s.record turn) where
  lawful := (h.unstopped.record turn hturn).lawful
  calm := by
    rw [Session.record, List.mem_append, List.mem_singleton]
    exact not_or.mpr ⟨h.calm, hcalm.symm⟩
  sent := by
    rw [Session.record, sentCommands_append, h.sent, sentCommands_silent hturn, List.append_nil]
  statuses_le := h.statuses_le
  wanted := h.wanted
  requested := h.requested
  start_attempted := h.start_attempted
  stop_attempted := h.stop_attempted
  stop_confirmed := h.stop_confirmed
  sequence_complete := h.sequence_complete

/-- After a check which found no interrupt, a command may be sent. -/
theorem Underway.cleared (h : Underway set_variant statuses variant s) :
    Cleared (s.record (.interrupted false)).calls :=
  ⟨(h.record (.interrupted false) rfl (by simp)).calm, s.calls, rfl⟩

/-- A permitted command which is not the start keeps the sequence under way. -/
theorem Underway.exchanged (h : Underway set_variant statuses variant s) {command : Command}
    (answer : Except String Exchange) {statuses' : ℕ} {variant' : Bool}
    (hpermitted : Permitted set_variant s.calls command) (hcleared : Cleared s.calls)
    (hsent : shape statuses variant false false ++ [(command, false)] =
      shape statuses' variant' false false)
    (hle : statuses' ≤ 3) (hwanted : variant' = true → set_variant = true) :
    Underway set_variant statuses' variant' (s.record (.exchanged command false answer)) where
  lawful := h.lawful.append _ (by
    rintro command' answer' hsame
    cases hsame
    exact ⟨hpermitted, hcleared⟩)
  calm := by
    rw [Session.record, List.mem_append, List.mem_singleton]
    exact not_or.mpr ⟨h.calm, by simp⟩
  sent := by
    rw [Session.record, sentCommands_append, h.sent]
    exact hsent
  statuses_le := hle
  wanted := hwanted
  requested := h.requested
  start_attempted := h.start_attempted
  stop_attempted := h.stop_attempted
  stop_confirmed := h.stop_confirmed
  sequence_complete := h.sequence_complete

/-- The change leaves what the result says about the start and the end. -/
def Neutral (f : SequenceResult → SequenceResult) : Prop :=
  ∀ r, (f r).variant_requested = r.variant_requested ∧
    (f r).start_attempted = r.start_attempted ∧ (f r).stop_attempted = r.stop_attempted ∧
    (f r).stop_confirmed = r.stop_confirmed ∧ (f r).sequence_complete = r.sequence_complete

/-- Changing what the result says about the dialogue changes nothing about what was sent. -/
theorem Underway.amend (h : Underway set_variant statuses variant s)
    {f : SequenceResult → SequenceResult} (hsame : Neutral f) :
    Underway set_variant statuses variant (s.amend f) where
  lawful := h.lawful
  calm := h.calm
  sent := h.sent
  statuses_le := h.statuses_le
  wanted := h.wanted
  requested := (hsame s.result).1.trans h.requested
  start_attempted := (hsame s.result).2.1.trans h.start_attempted
  stop_attempted := (hsame s.result).2.2.1.trans h.stop_attempted
  stop_confirmed := (hsame s.result).2.2.2.1.trans h.stop_confirmed
  sequence_complete := (hsame s.result).2.2.2.2.trans h.sequence_complete

/-- What the stop leaves of the result for the end of the sequence. -/
def SameOutcome (r r' : SequenceResult) : Prop :=
  r'.status_confirmed = r.status_confirmed ∧ r'.start_confirmed = r.start_confirmed ∧
    r'.capture_complete = r.capture_complete ∧ r'.variant_confirmed = r.variant_confirmed ∧
    r'.sequence_complete = r.sequence_complete

theorem stopped_same (response : Exchange) (r : SequenceResult) :
    SameOutcome r (Run.stopped response r) ∧
      (Run.stopped response r).variant_requested = r.variant_requested ∧
      ((Run.stopped response r).stop_confirmed = true →
        (Run.stopped response r).start_confirmed = true) := by
  have hboth : (response.success && r.start_confirmed) = true → r.start_confirmed = true :=
    fun h => (Bool.and_eq_true_iff.mp h).2
  unfold Run.stopped SameOutcome
  dsimp only
  split_ifs <;> exact ⟨⟨rfl, rfl, rfl, rfl, rfl⟩, rfl, hboth⟩

/-- Recording a stop after a written start ends the sequence. -/
theorem Unstopped.stopped (h : Unstopped set_variant s) (hwritten : s.result.start_attempted = true)
    (answer : Except String Exchange) {result : SequenceResult}
    (hrequested : result.variant_requested = s.result.variant_requested)
    (hconfirmed : result.stop_confirmed = true → result.start_confirmed = true) :
    Ended set_variant ⟨result, s.calls ++ [.exchanged .Stop true answer]⟩ := by
  obtain ⟨statuses, variant, start, hle, hwanted, hsent⟩ := h.sent
  have hstart : start = true := by
    obtain ⟨cleanup, hmem⟩ := (h.written.mp hwritten).mem_sent
    rw [hsent] at hmem
    exact start_mem_shape hmem
  have hstill : StartWritten (s.calls ++ [.exchanged .Stop true answer]) := by
    obtain ⟨cleanup, answer', hmem, hall⟩ := h.written.mp hwritten
    exact ⟨cleanup, answer', List.mem_append_left _ hmem, hall⟩
  refine ⟨h.lawful.append _ (by simp), ⟨statuses, variant, start, true, hle, hwanted,
    fun _ => hstart, iff_of_true rfl hstill, ?_⟩, hrequested.trans h.requested, hconfirmed⟩
  rw [sentCommands_append, hsent]
  simp [shape, sentCommands, Turn.sent]

/-- Without a written start there is nothing to stop. -/
theorem Unstopped.ended (h : Unstopped set_variant s) (hwritten : s.result.start_attempted = false) :
    Ended set_variant s := by
  obtain ⟨statuses, variant, start, hle, hwanted, hsent⟩ := h.sent
  refine ⟨h.lawful, ⟨statuses, variant, start, false, hle, hwanted, by simp,
    iff_of_false (by simp) ?_, hsent⟩, h.requested, by simp [h.stop_confirmed]⟩
  rw [← h.written, hwritten]
  exact Bool.false_ne_true

/-- The stop ends the sequence, whatever becomes of it. -/
theorem stop_ensures (h : Unstopped set_variant s) :
    Ensures Run.stop (fun outcome t => outcome = .ok () ∧ Ended set_variant t ∧
      SameOutcome s.result t.result) s := by
  unfold Run.stop
  show Ensures (if (!s.result.start_attempted || s.result.stop_attempted) = true then _ else _) _ s
  cases hattempted : s.result.start_attempted with
  | false => exact ⟨rfl, h.ended hattempted, rfl, rfl, rfl, rfl, rfl⟩
  | true =>
    rw [h.stop_attempted]
    refine Ensures.update_bind (Program.Safe.tryCatch (Ensures.exchange_bind ?_ ?_))
    · intro response
      obtain ⟨hsame, hrequested, hconfirmed⟩ :=
        stopped_same response { s.result with stop_attempted := true }
      exact Ensures.update ⟨rfl, h.stopped hattempted _ hrequested hconfirmed, hsame⟩
    · intro what
      have hconfirmed : s.result.stop_confirmed = true → s.result.start_confirmed = true :=
        fun hstop => absurd hstop (by rw [h.stop_confirmed]; exact Bool.false_ne_true)
      exact Ensures.update ⟨rfl, h.stopped hattempted _ rfl hconfirmed, rfl, rfl, rfl, rfl, rfl⟩

/-- A finished sequence claims to be complete only with everything confirmed. -/
def CompleteSound (r : SequenceResult) : Prop :=
  r.sequence_complete = true → r.status_confirmed = true ∧ r.start_confirmed = true ∧
    r.capture_complete = true ∧ r.stop_confirmed = true ∧
    (r.variant_requested = true → r.variant_confirmed = true)

/-- How the body leaves the session: ended, or with only the stop missing after an exception. -/
def Left (set_variant : Bool) : Except Exit Unit → Session → Prop
  | .error (.thrown _), t => Unstopped set_variant t
  | _, t => Ended set_variant t ∧ CompleteSound t.result

/-- A return before the start ends the sequence. -/
theorem Unstopped.left (h : Unstopped set_variant s) (hstart : s.result.start_attempted = false)
    (outcome : Except Exit Unit) : Left set_variant outcome s := by
  have hended : Ended set_variant s ∧ CompleteSound s.result :=
    ⟨h.ended hstart, fun hcomplete => absurd hcomplete (by simp [h.sequence_complete])⟩
  rcases outcome with (_ | _) | _
  · exact h
  · exact hended
  · exact hended

/-- A call which sends nothing brings no new exchange. -/
theorem exchanged_mem_record {turn : Turn} (hturn : turn.sent = none) {command : Command}
    {cleanup : Bool} {answer : Except String Exchange} :
    Turn.exchanged command cleanup answer ∈ (s.record turn).calls ↔
      Turn.exchanged command cleanup answer ∈ s.calls := by
  rw [Session.record, List.mem_append, List.mem_singleton]
  refine or_iff_left ?_
  rintro rfl
  exact absurd hturn (by simp [Turn.sent])

/-- Permission does not depend on calls which send nothing. -/
theorem Permitted.record {command : Command} (h : Permitted set_variant s.calls command)
    (turn : Turn) (hturn : turn.sent = none) :
    Permitted set_variant (s.record turn).calls command := by
  cases command with
  | Stop => exact h
  | _ => simpa only [Permitted, ModeConfirmed, VariantConfirmed, exchanged_mem_record hturn] using h

/-- The status dialogue confirmed the mode the result keeps. -/
structure Confirmed (set_variant : Bool) (s : Session) : Prop where
  underway : ∃ statuses, Underway set_variant statuses false s
  status_confirmed : s.result.status_confirmed = true
  original : ∃ e, Turn.exchanged .Status false (.ok e) ∈ s.calls ∧ e.success = true ∧
    s.result.original = e.status

/-- A neutral change leaves only the stop missing. -/
theorem Unstopped.amend (h : Unstopped set_variant s) {f : SequenceResult → SequenceResult}
    (hsame : Neutral f) : Unstopped set_variant (s.amend f) where
  lawful := h.lawful
  sent := h.sent
  requested := (hsame s.result).1.trans h.requested
  written := (iff_of_eq (congrArg (· = true) (hsame s.result).2.1)).trans h.written
  stop_attempted := (hsame s.result).2.2.1.trans h.stop_attempted
  stop_confirmed := (hsame s.result).2.2.2.1.trans h.stop_confirmed
  sequence_complete := (hsame s.result).2.2.2.2.trans h.sequence_complete

/-- A result which claims nothing about a start is left as ended. -/
theorem Unstopped.left_amend (h : Unstopped set_variant s)
    (hstart : s.result.start_attempted = false) {f : SequenceResult → SequenceResult}
    (hsame : Neutral f) (outcome : Except Exit Unit) : Left set_variant outcome (s.amend f) :=
  (h.amend hsame).left ((hsame s.result).2.1.trans hstart) outcome

/-- Giving a reason claims nothing. -/
theorem neutral_reason (reason : String) : Neutral fun r => { r with reason } :=
  fun _ => ⟨rfl, rfl, rfl, rfl, rfl⟩

/-- The dialogue confirmed the mode, or the sequence is left. -/
def ConfirmedOrLeft (set_variant : Bool) : Except Exit Unit → Session → Prop
  | .ok (), t => Confirmed set_variant t
  | .error exit, t => Left set_variant (.error exit) t

/-- The status dialogue confirms, or leaves before the start. -/
theorem statusAttempts_ensures (remaining : ℕ) (hsome : 0 < remaining)
    (h : Underway set_variant statuses false s) (hbudget : statuses + remaining ≤ 3)
    (hretry : Permitted set_variant s.calls .Status) :
    Ensures (Run.statusAttempts remaining) (ConfirmedOrLeft set_variant) s := by
  induction remaining generalizing statuses s with
  | zero => exact absurd hsome (lt_irrefl 0)
  | succ remaining ih =>
    rw [Run.statusAttempts]
    refine Ensures.interrupted_bind fun interrupt => ?_
    cases interrupt with
    | true =>
      exact Ensures.finish ((h.unstopped.record (.interrupted true) rfl).left_amend
        h.start_attempted (neutral_reason _) (.error .returned))
    | false =>
      have hclear := h.record (.interrupted false) rfl (by simp)
      have hsent : shape statuses false false false ++ [(Command.Status, false)] =
          shape (statuses + 1) false false false := by simp [shape, List.replicate_succ']
      have hnext := fun answer => hclear.exchanged answer (hretry.record _ rfl) h.cleared
        hsent (by omega) (by simp)
      refine Ensures.exchange_bind (fun response => ?_) fun what =>
        (hnext (.error what)).unstopped.left h.start_attempted (.error (.thrown what))
      have hthis := hnext (.ok response)
      cases hsuccess : response.success with
      | true =>
        rw [if_pos rfl]
        refine Ensures.update ⟨⟨statuses + 1, hthis.amend fun r => ⟨rfl, rfl, rfl, rfl, rfl⟩⟩, rfl,
          response, ?_, hsuccess, rfl⟩
        exact List.mem_append_right _ (List.mem_singleton_self _)
      | false =>
        rw [if_neg Bool.false_ne_true]
        refine Ensures.update_bind ?_
        have hreason := hthis.amend (neutral_reason response.reason)
        cases hagain : (!response.may_retry || remaining == 0) with
        | true =>
          rw [if_pos rfl]
          exact hreason.unstopped.left hreason.start_attempted (.error .returned)
        | false =>
          rw [if_neg Bool.false_ne_true]
          obtain ⟨hmay, hleft⟩ := Bool.or_eq_false_iff.mp hagain
          refine Ensures.interrupted_bind fun interrupt' => ?_
          cases interrupt' with
          | true =>
            rw [if_pos rfl]
            exact (hreason.unstopped.record (.interrupted true) rfl).left
              hreason.start_attempted (.error .returned)
          | false =>
            rw [if_neg Bool.false_ne_true]
            have hstill := hreason.record (.interrupted false) rfl (by simp)
            refine Ensures.note_bind ?_ fun what => (hstill.unstopped.record
              (.noted _ (.error what)) rfl).left h.start_attempted (.error (.thrown what))
            refine ih ?_ (hstill.record _ rfl (by simp)) (by omega)
              (Permitted.record (Permitted.record ?_ _ rfl) _ rfl)
            · simp only [beq_eq_false_iff_ne] at hleft
              omega
            · intro cleanup answer hmem
              rcases List.mem_append.mp hmem with hold | hnew
              · exact (hretry.record (.interrupted false) rfl) cleanup answer hold
              · cases List.mem_singleton.mp hnew
                exact ⟨response, rfl, hsuccess, by simpa using hmay⟩

/-- Everything before the start is confirmed. -/
structure Ready (set_variant : Bool) (s : Session) : Prop where
  underway : ∃ statuses variant, Underway set_variant statuses variant s
  status_confirmed : s.result.status_confirmed = true
  mode : ModeConfirmed s.calls
  variant : set_variant = true → VariantConfirmed s.calls ∧ s.result.variant_confirmed = true

/-- Everything is confirmed, or the sequence is left. -/
def ReadyOrLeft (set_variant : Bool) : Except Exit Unit → Session → Prop
  | .ok (), t => Ready set_variant t
  | .error exit, t => Left set_variant (.error exit) t

/-- The variant command confirms, or leaves before the start. -/
theorem setVariant_ensures (h : Confirmed set_variant s) (hmode : ModeConfirmed s.calls)
    (hrequested : set_variant = true) :
    Ensures Run.setVariant (ReadyOrLeft set_variant) s := by
  obtain ⟨statuses, hunderway⟩ := h.underway
  have hstage := hunderway.amend (f := fun r => { r with stage := "set_100deg_1deg" })
    fun _ => ⟨rfl, rfl, rfl, rfl, rfl⟩
  refine Ensures.update_bind (Ensures.interrupted_bind fun interrupt => ?_)
  cases interrupt with
  | true =>
    exact Ensures.finish ((hstage.unstopped.record (.interrupted true) rfl).left_amend
      hstage.start_attempted (neutral_reason _) (.error .returned))
  | false =>
    have hclear := hstage.record (.interrupted false) rfl (by simp)
    have hpermitted : Permitted set_variant s.calls .Variant := ⟨hrequested, hmode⟩
    have hnext := fun answer => hclear.exchanged answer (hpermitted.record _ rfl) hstage.cleared
      (show _ = shape statuses true false false by simp [shape]) hunderway.statuses_le
      fun _ => hrequested
    refine Ensures.exchange_bind (fun response => ?_) fun what =>
      (hnext (.error what)).unstopped.left hstage.start_attempted (.error (.thrown what))
    have hthis := hnext (.ok response)
    cases hsuccess : response.success with
    | false =>
      rw [if_neg Bool.false_ne_true]
      exact Ensures.finish (hthis.unstopped.left_amend hthis.start_attempted (neutral_reason _)
        (.error .returned))
    | true =>
      rw [if_pos rfl]
      obtain ⟨cleanup, e, hmem, hgood⟩ := hmode
      refine Ensures.update ⟨⟨statuses, true, hthis.amend fun _ => ⟨rfl, rfl, rfl, rfl, rfl⟩⟩,
        h.status_confirmed, ⟨cleanup, e, ?_, hgood⟩, fun _ => ⟨⟨false, response, ?_, hsuccess⟩, rfl⟩⟩
      · exact List.mem_append_left _ (List.mem_append_left _ hmem)
      · exact List.mem_append_right _ (List.mem_singleton_self _)

/-- After a confirmed start, the capture is followed by the stop or by an exception. -/
theorem captureAndStop_ensures (h : Unstopped set_variant s)
    (hstatus : s.result.status_confirmed = true)
    (hvariant : set_variant = true → s.result.variant_confirmed = true) :
    Ensures Run.captureAndStop (Left set_variant) s := by
  have hstarted := h.amend (f := fun r => { r with start_confirmed := true, stage := "capture" })
    fun _ => ⟨rfl, rfl, rfl, rfl, rfl⟩
  refine Ensures.update_bind (Ensures.capture_bind (fun complete => ?_) fun what =>
    hstarted.record (.captured (.error what)) rfl)
  -- The capture's own outcome is recorded before the stop.
  refine Ensures.update_bind (Ensures.bind (stop_ensures
    ((hstarted.record (.captured (.ok complete)) rfl).amend fun _ => ⟨rfl, rfl, rfl, rfl, rfl⟩))
    ?_ ?_)
  · rintro - t ⟨-, hended, hstatus', hstart', -, hvariant', -⟩
    have hclaim : t.result.stop_confirmed = true → t.result.status_confirmed = true ∧
        t.result.start_confirmed = true ∧
        (t.result.variant_requested = true → t.result.variant_confirmed = true) := fun _ =>
      ⟨hstatus'.trans hstatus, hstart', fun hrequested =>
        hvariant'.trans (hvariant (hended.requested.symm.trans hrequested))⟩
    refine Ensures.update_bind ?_
    show Ensures (if _ then _ else _) _ _
    split
    · next hcomplete =>
      obtain ⟨hcapture, hstop⟩ := Bool.and_eq_true_iff.mp hcomplete
      obtain ⟨h1, h2, h3⟩ := hclaim hstop
      exact Ensures.update ⟨⟨hended.lawful, hended.sent, hended.requested, hended.stop_confirmed⟩,
        fun _ => ⟨h1, h2, hcapture, hstop, h3⟩⟩
    · next hcomplete =>
      exact ⟨⟨hended.lawful, hended.sent, hended.requested, hended.stop_confirmed⟩,
        fun hthis => absurd hthis hcomplete⟩
  · rintro e t ⟨hok, -⟩
    exact absurd hok (by simp)

/-- A permitted start leaves only the stop missing, whatever its exchange reports. -/
theorem Underway.started (h : Underway set_variant statuses variant s)
    (hpermitted : Permitted set_variant s.calls .Start) (hcleared : Cleared s.calls)
    (answer : Except String Exchange) (attempted : Bool)
    (hattempted : attempted = true ↔ ∀ e, answer = .ok e → e.write_attempted = true) :
    Unstopped set_variant ((s.record (.exchanged .Start false answer)).amend fun r =>
      { r with start_attempted := attempted }) where
  lawful := h.lawful.append _ (by
    rintro command answer' hsame
    cases hsame
    exact ⟨hpermitted, hcleared⟩)
  sent := by
    refine ⟨statuses, variant, true, h.statuses_le, h.wanted, ?_⟩
    show sentCommands (s.calls ++ [_]) = _
    rw [sentCommands_append, h.sent]
    simp [shape, sentCommands, Turn.sent]
  requested := h.requested
  written := by
    refine hattempted.trans ⟨fun hall => ⟨false, answer, ?_, hall⟩, ?_⟩
    · exact List.mem_append_right _ (List.mem_singleton_self _)
    · rintro ⟨cleanup, answer', hmem, hall⟩
      rcases List.mem_append.mp hmem with hold | hnew
      · have hstart : (Command.Start, cleanup) ∈ sentCommands s.calls :=
          List.mem_filterMap.mpr ⟨_, hold, rfl⟩
        rw [h.sent] at hstart
        exact absurd (start_mem_shape hstart) Bool.false_ne_true
      · cases List.mem_singleton.mp hnew
        exact hall
  stop_attempted := h.stop_attempted
  stop_confirmed := h.stop_confirmed
  sequence_complete := h.sequence_complete

/-- The start is followed by the capture, by the stop, or by an exception. -/
theorem startAndCapture_ensures (h : Ready set_variant s) :
    Ensures Run.startAndCapture (Left set_variant) s := by
  obtain ⟨statuses, variant, hunderway⟩ := h.underway
  have hstage := hunderway.amend (f := fun r => { r with stage := "start_continuous" })
    fun _ => ⟨rfl, rfl, rfl, rfl, rfl⟩
  refine Ensures.update_bind (Ensures.interrupted_bind fun interrupt => ?_)
  cases interrupt with
  | true =>
    exact Ensures.finish ((hstage.unstopped.record (.interrupted true) rfl).left_amend
      hstage.start_attempted (neutral_reason _) (.error .returned))
  | false =>
    have hclear := hstage.record (.interrupted false) rfl (by simp)
    have hpermitted : Permitted set_variant s.calls .Start := ⟨h.mode, fun hv => (h.variant hv).1⟩
    have hnext := hclear.started (hpermitted.record _ rfl) hstage.cleared
    refine Ensures.update_bind (Ensures.exchange_bind (fun response => ?_) fun what =>
      hnext (.error what) true (by simp))
    have hthis := hnext (.ok response) response.write_attempted (by simp)
    refine Ensures.update_bind ?_
    cases response.success with
    | true => exact captureAndStop_ensures hthis h.status_confirmed fun hv => (h.variant hv).2
    | false =>
      rw [if_neg Bool.false_ne_true]
      refine Ensures.update_bind (Ensures.bind (stop_ensures (hthis.amend (neutral_reason _))) ?_ ?_)
      · rintro - t ⟨-, hended, hsame⟩
        have hincomplete := hsame.2.2.2.2.trans hunderway.sequence_complete
        exact ⟨hended, fun hcomplete => absurd hcomplete (by simp [hincomplete])⟩
      · rintro e t ⟨hok, -⟩
        exact absurd hok (by simp)

/-- The body leaves the session ended, or with only the stop missing. -/
theorem body_ensures (h : Underway set_variant 0 false s) (hcalls : s.calls = []) :
    Ensures (Run.body set_variant) (Left set_variant) s := by
  have hretry : Permitted set_variant s.calls .Status := by simp [Permitted, hcalls]
  refine Ensures.bind (statusAttempts_ensures 3 (by omega) h (by omega) hretry) ?_ fun e t ht => ht
  intro u t ht
  show Ensures (if t.result.original.operating_mode ≠ 0x25 then _ else _) _ t
  obtain ⟨statuses, hunderway⟩ := ht.underway
  obtain ⟨e, hmem, hsuccess, horiginal⟩ := ht.original
  by_cases hmode : t.result.original.operating_mode ≠ 0x25
  · rw [if_pos hmode]
    exact Ensures.finish (hunderway.unstopped.left_amend hunderway.start_attempted
      (neutral_reason _) (.error .returned))
  · rw [if_neg hmode]
    have hconfirmed : ModeConfirmed t.calls :=
      ⟨false, e, hmem, hsuccess, by rw [← horiginal]; exact not_not.mp hmode⟩
    cases set_variant with
    | true =>
      exact Ensures.bind (setVariant_ensures ht hconfirmed rfl)
        (fun _ _ hready => startAndCapture_ensures hready) fun _ _ hleft => hleft
    | false =>
      exact startAndCapture_ensures ⟨⟨statuses, false, hunderway⟩, ht.status_confirmed, hconfirmed,
        fun hv => absurd hv Bool.false_ne_true⟩

/-- The whole sequence ends, whatever its calls answer or throw. -/
theorem run_sequence_ensures (set_variant : Bool) :
    Ensures (Run.run_sequence set_variant)
      (fun _ t => Ended set_variant t ∧ CompleteSound t.result) {} := by
  have hfresh : Underway set_variant 0 false
      (Session.amend {} fun r => { r with variant_requested := set_variant }) :=
    { lawful := fun before command answer after hsplit => by simp [Session.amend] at hsplit
      calm := by simp [Session.amend]
      sent := rfl
      statuses_le := by omega
      wanted := by simp
      requested := rfl
      start_attempted := rfl
      stop_attempted := rfl
      stop_confirmed := rfl
      sequence_complete := rfl }
  refine Ensures.update_bind (Program.Safe.tryCatch ((body_ensures hfresh rfl).mono ?_))
  rintro ((what | _) | u) t ht
  · refine Ensures.update_bind ((stop_ensures (ht.amend (neutral_reason _))).mono ?_)
    rintro outcome t' ⟨rfl, hended, hsame⟩
    have hincomplete := hsame.2.2.2.2.trans ht.sequence_complete
    exact ⟨hended, fun hcomplete => absurd hcomplete (by simp [hincomplete])⟩
  · exact ht
  · exact ht

/-- Over every implementation, the sequence sends commands only in order and where the calls
before permit them, stops exactly what may have been started, and claims no more than it
confirmed. -/
theorem run_sequence_safe {τ : Type} (io : SequenceIO τ) (t : τ) (set_variant : Bool) :
    let session := run_sequence io t set_variant
    (∃ statuses variant start stop, statuses ≤ 3 ∧ (variant = true → set_variant = true) ∧
      (stop = true → start = true) ∧ (stop = true ↔ StartWritten session.calls) ∧
      sentCommands session.calls = shape statuses variant start stop) ∧
    Lawful set_variant session.calls ∧
    session.result.variant_requested = set_variant ∧
    (session.result.sequence_complete = true → session.result.status_confirmed = true ∧
      session.result.start_confirmed = true ∧ session.result.capture_complete = true ∧
      session.result.stop_confirmed = true ∧ (session.result.variant_requested = true →
        session.result.variant_confirmed = true)) ∧
    (session.result.stop_confirmed = true → session.result.start_confirmed = true) := by
  have hrun := Program.Safe.run io.perform (fun _ _ => rfl) (fun call s =>
    ⟨fun call' => (io.answer call' s.2).1, rfl⟩) ({}, t) (run_sequence_ensures set_variant)
  exact ⟨hrun.1.sent, hrun.1.lawful, hrun.1.requested, hrun.2, hrun.1.stop_confirmed⟩

end Lms200.Native
