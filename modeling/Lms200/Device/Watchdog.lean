import Lms200.Device.Clock
import Lms200.Device.Streaming

/-!
# The measurement timeout

A measurement timeout is measured from the last scan which has been accepted since the transport
was opened, or from the entry into the stream if there is none. A scan which was accepted before
the stream was entered counts, so the timeout may come too soon after the entry. Where the stream
is entered over no scan, or at the moment of the last one, it does not.
-/

namespace Lms200

open Coop

/-- The calls of a device. -/
inductive Job where
  | probe
  | configure
  | start
  | close
  | reconnect
  deriving DecidableEq, Repr

/-- The coroutine of a call. -/
def Job.action : Job → Action Unit
  | .probe => Action.connect
  | .configure => Action.initializeDevice false
  | .start => Action.initializeDevice true
  | .close => Action.close
  | .reconnect => Action.reconnect

/-- Any call may be made at any time. -/
def calls : Spawn Device Request Request.Answer Error Job := fun _ job d => some (job.action, d)

/-- A device which nobody has called yet. -/
def untouched (settings : Settings) (transport : Transport) : DevicePool :=
  ⟨{ settings, transport }, fun _ => .done (.ok ())⟩

namespace Device

/-- A step enters the stream. -/
def Enters (d d' : Device) : Prop := .STREAMING ∈ d'.history.drop d.history.length

/-- A step accepts a scan. -/
def Accepts (d d' : Device) : Prop := d.counters.received_scans < d'.counters.received_scans

/-- A read of the transport ends in a measurement timeout. -/
def TimesOut (d : Device) (result : ReadResult) : Prop :=
  d.counters.timeouts < (d.read result).counters.timeouts

/-- The stream is entered over no scan, or at the moment of the last one. -/
def EntersAfresh (d d' : Device) : Prop := Enters d d' → ∀ last ∈ d.times.getLast?, last = d.now

instance (d d' : Device) : Decidable (Enters d d') :=
  inferInstanceAs (Decidable (.STREAMING ∈ d'.history.drop d.history.length))

instance (d : Device) (result : ReadResult) : Decidable (TimesOut d result) :=
  inferInstanceAs (Decidable (d.counters.timeouts < (d.read result).counters.timeouts))

instance : DecidableRel EntersAfresh := fun d d' =>
  inferInstanceAs (Decidable (Enters d d' → ∀ last ∈ d.times.getLast?, last = d.now))

end Device

section Calls

/-- What a call of the device comes to in its last turn. -/
def Settles {α : Type} (p : Action α) : Prop :=
  ∀ task start d, Clock.Calm start.clock d.clock →
    p.Turns Device.waits task (fun d d' => Clock.Turned d.clock d'.clock)
      (fun outcome d d' => Clock.Calm d.clock d'.clock ∨
        outcome.toOption.isSome ∧ Clock.Entered d.clock d'.clock) start d

variable {α β : Type}

theorem Calms.settles {p : Action α} (h : Calms p) : Settles p := fun task start d hd =>
  (h task start d hd).mono fun _ _ _ ht => .inl ht

theorem Settles.seq {p : Action α} {f : α → Action β} (hp : Calms p) (hf : ∀ a, Settles (f a)) :
    Settles (p >>= f) := fun task start d hd =>
  (hp task start d hd).seq (fun a t t' ht => hf a task t t' ht) fun _ _ _ ht => .inl ht

theorem Settles.get_bind {next : Device → Action α} (h : ∀ d, Settles (next d)) :
    Settles ((MonadState.get : Action Device) >>= next) := fun task start d hd => h d task start d hd

/-- A wait at which its task is suspended begins a new turn. -/
theorem await_calm {w : Request} (hsuspends : ∀ task d, (Device.enter task w d).1 = none) {task : ℕ}
    {start d : Device} (h : Clock.Turned start.clock d.clock) :
    (Action.await w).Turns Device.waits task (fun d d' => Clock.Turned d.clock d'.clock)
      (fun _ d d' => Clock.Calm d.clock d'.clock) start d := by
  have hresume {choice answer t t'} (hturn : Device.resume task w choice t = some (answer, t')) :
      Clock.Calm t.clock t'.clock := (Clock.Calm.refl _).same (Device.resume_clock hturn)
  refine Program.Turns.request (fun answer hanswer => ?_) (fun _ => ?_)
    ⟨fun _ _ _ hturn => .inl (hresume hturn), fun _ _ _ _ hturn => hresume hturn⟩
  · have hnone : (Device.enter task w d).1 = some answer := hanswer
    rw [hsuspends] at hnone
    cases hnone
  · change Clock.Turned start.clock (Device.enter task w d).2.clock
    rwa [Device.enter_clock]

theorem turned_startupWait {task : ℕ} {start d : Device} (h : Clock.Turned start.clock d.clock) :
    Action.startupWait.Turns Device.waits task (fun d d' => Clock.Turned d.clock d'.clock)
      (fun outcome d d' => Clock.Calm d.clock d'.clock ∨ outcome = .ok () ∧ Clock.Turned d.clock d'.clock)
      start d := by
  refine Program.Turns.get_bind ?_
  dsimp only
  split
  · exact (await_calm (fun _ _ => rfl) h).mono fun _ _ _ ht => .inl ht
  · exact .inr ⟨rfl, h⟩

/-- The scans are forgotten in a turn of its own, which ends before the transport is open. -/
theorem calms_connect : Calms Action.connect := by
  have hopened : Calms ((modify fun d => { d.log (.opened d.transport.baud) with opened := true } : Action Unit)
      >>= fun _ => Action.attach) :=
    Calms.bind (Calms.change fun _ => rfl) fun _ => Calms.attach
  refine Calms.get_bind fun _ => Calms.ite (Calms.pure _) fun task start d h => ?_
  refine Program.Turns.modify_bind (Program.Turns.modify_bind ?_)
  refine Program.Turns.seq (turned_startupWait ?_) (fun _ t t' ht => ?_) fun _ _ _ ht =>
    ht.resolve_right (by simp)
  · exact .inr (.inl ⟨h.now, by simp [Device.clock, Device.transition], h.moves.transition (by decide), rfl,
      h.received_scans⟩)
  · refine (await_calm (fun _ _ => rfl) (ht.elim .inl (·.2))).seq (fun _ t t' ht => ?_) fun _ _ _ ht => ht
    exact hopened task t t' ht

/-- Entering the stream is the last thing which happens in its turn. -/
theorem settles_startStream : Settles Action.startStream := by
  refine Settles.seq (Calms.transition (by decide)) fun _ => Settles.seq (Calms.lift _) fun _ =>
    Settles.seq (Calms.command _) fun _ task start d h => ?_
  exact .inr ⟨rfl, h.now, h.times, h.now, h.received_scans⟩

theorem settles_prepare (start_stream : Bool) : Settles (Action.prepare start_stream) := by
  refine Settles.seq Calms.vet fun _ => Settles.seq (Calms.lift _) fun _ => Settles.seq (Calms.command _) fun _ =>
    Settles.get_bind fun _ => Settles.seq (Calms.asserted _) fun info => Settles.get_bind fun _ =>
      Settles.seq (Calms.asserted _) fun configuration => Settles.get_bind fun _ =>
        Settles.seq (Calms.configure _) fun _ => Settles.seq (Calms.verify _) fun _ =>
          Settles.seq (Calms.lift _) fun _ => Settles.seq (Calms.command _) fun _ => ?_
  split
  · exact settles_startStream
  · exact (Calms.transition (by decide)).settles

theorem settles_establish (start_stream : Bool) : Settles (Action.establish start_stream) := by
  refine Settles.seq calms_connect fun _ => Settles.get_bind fun _ => ?_
  split
  · exact fun task start d h => .inr ⟨rfl, h.now, h.times, h.now, h.received_scans⟩
  · exact settles_prepare start_stream

/-- After a failure the stream is not entered. -/
theorem settles_initializeLocked (start_stream : Bool) : Settles (Action.initializeLocked start_stream) := by
  refine Settles.get_bind fun _ => ?_
  split
  · exact (Calms.pure _).settles
  · intro task start d h
    refine (settles_establish start_stream task start d h).attempt_seq fun outcome t t' ht => ?_
    match outcome with
    | .ok () => exact ht
    | .error e =>
      have hcalm : Clock.Calm t.clock t'.clock := ht.resolve_right fun h => absurd h.1 (by simp [Except.toOption])
      exact (Calms.bind Calms.closeUnlocked fun _ => Calms.bind (Calms.transition (by decide)) fun _ =>
        Calms.throw e).settles task t t' hcalm

theorem settles_initializeDevice (start_stream : Bool) : Settles (Action.initializeDevice start_stream) := by
  refine Settles.get_bind fun _ => Settles.seq (Calms.lift _) fun _ => Settles.seq (Calms.await _) fun _ => ?_
  intro task start d h
  exact (settles_initializeLocked start_stream task start d h).finally_modify fun _ _ _ ht => ht

theorem settles_action (job : Job) : Settles job.action := by
  have hclose : Calms Action.close := Calms.exclusively Calms.closeUnlocked
  cases job with
  | probe => exact calms_connect.settles
  | configure => exact settles_initializeDevice false
  | start => exact settles_initializeDevice true
  | close => exact hclose.settles
  | reconnect =>
    exact Settles.seq (Calms.transition (by decide)) fun _ => Settles.seq hclose fun _ => settles_initializeDevice true

end Calls

section Reader

namespace Device

/-- What a reader does with what it receives: it may accept scans, fault and keep statistics. -/
structure Receives (d d' : Device) : Prop where
  now : d'.now = d.now
  state : d'.state = .STREAMING → d.state = .STREAMING
  moves : Clock.Moves d.clock d'.clock
  stream_since : d'.stream_since = d.stream_since
  timeouts : d'.counters.timeouts = d.counters.timeouts
  settings : d'.settings = d.settings
  scans : (d'.times = d.times ∧ d'.counters.received_scans = d.counters.received_scans) ∨
    (d'.times.getLast? = some d.now ∧ d.Accepts d')

namespace Receives

variable {d d' d'' : Device}

theorem refl (d : Device) : Receives d d :=
  ⟨rfl, id, ⟨[], by simp⟩, rfl, rfl, rfl, .inl ⟨rfl, rfl⟩⟩

theorem trans (h : Receives d d') (h' : Receives d' d'') : Receives d d'' := by
  obtain ⟨more, hhistory, hmore⟩ := h.moves
  obtain ⟨more', hhistory', hmore'⟩ := h'.moves
  refine ⟨h'.now.trans h.now, h.state ∘ h'.state, ⟨more ++ more', ?_, by simp [hmore, hmore']⟩,
    h'.stream_since.trans h.stream_since, h'.timeouts.trans h.timeouts,
    h'.settings.trans h.settings, ?_⟩
  · rw [hhistory', hhistory, List.append_assoc]
  · rcases h'.scans with ⟨htimes', hreceived'⟩ | ⟨htimes', haccepts'⟩
    · rcases h.scans with ⟨htimes, hreceived⟩ | ⟨htimes, haccepts⟩
      · exact .inl ⟨htimes'.trans htimes, hreceived'.trans hreceived⟩
      · exact .inr ⟨htimes' ▸ htimes, by unfold Accepts; rwa [hreceived']⟩
    · refine .inr ⟨h.now ▸ htimes', ?_⟩
      rcases h.scans with ⟨-, hreceived⟩ | ⟨-, haccepts⟩
      · unfold Accepts at haccepts' ⊢
        rwa [hreceived] at haccepts'
      · exact Nat.lt_trans haccepts haccepts'

/-- A fault leaves the stream. -/
theorem fault (d : Device) (error : String) : Receives d (d.fault error) :=
  ⟨rfl, nofun, ⟨[.FAULTED], rfl, by simp⟩, rfl, rfl, rfl, .inl ⟨rfl, rfl⟩⟩

theorem queue (d : Device) (x : Incoming) : Receives d (d.queue x) := by
  unfold Device.queue
  dsimp only
  split <;> exact ⟨rfl, id, ⟨[], (List.append_nil _).symm, List.not_mem_nil⟩, rfl, rfl, rfl, .inl ⟨rfl, rfl⟩⟩

/-- A kept scan is the last one. -/
theorem keep (d : Device) (scan : Scan) : Receives d (d.keep scan) := by
  have haccepts : d.Accepts (d.keep scan) := Nat.lt_succ_self d.counters.received_scans
  have htimes : (d.keep scan).times = (d.times ++ [d.now]).drop (d.times.length + 1 - 150) := by
    simp only [Device.keep]
  have hlast : (d.keep scan).times.getLast? = some d.now := by
    rw [htimes, List.getLast?_drop, if_neg (by rw [List.length_append, List.length_singleton]; omega)]
    exact List.getLast?_concat
  exact ⟨rfl, id, ⟨[], (List.append_nil _).symm, List.not_mem_nil⟩, rfl, rfl, rfl, .inr ⟨hlast, haccepts⟩⟩

theorem measure (d : Device) (reply : Response) : Receives d (d.measure reply) := by
  unfold Device.measure
  split
  · split
    · exact keep d _
    · exact (queue d _).trans (fault _ _)
    · exact ⟨rfl, id, ⟨[], (List.append_nil _).symm, List.not_mem_nil⟩, rfl, rfl, rfl, .inl ⟨rfl, rfl⟩⟩
  · exact refl d

/-- Every event. -/
theorem handle (d : Device) (event : Event) : Receives d (d.handle event) := by
  cases event with
  | control c => exact queue d _
  | frame f =>
    unfold Device.handle
    dsimp only
    split
    · exact queue d _
    · exact ⟨rfl, id, ⟨[], (List.append_nil _).symm, List.not_mem_nil⟩, rfl, rfl, rfl, .inl ⟨rfl, rfl⟩⟩
    · split
      · exact measure d _
      · split
        · split
          · exact fault d _
          · exact refl d
        · exact queue d _

theorem handleAll (d : Device) (fed : Emitted × Framer) (reader : Option Reader) :
    Receives d { d.handleAll fed with reader } := by
  have hfold : ∀ (events : List Event) (start : Device), Receives start (events.foldl Device.handle start) := by
    intro events
    induction events with
    | nil => exact refl
    | cons event rest ih => exact fun start => (handle start event).trans (ih _)
  have hevents := hfold (fed.1.events.map Prod.snd) { d with framer := fed.2 }
  exact ⟨hevents.now, hevents.state, hevents.moves, hevents.stream_since, hevents.timeouts,
    hevents.settings, hevents.scans⟩

end Receives

/-- A pass of the reader receives something, and then looks at the watchdog. -/
theorem readData_receives (d : Device) (last_bytes : ℚ) (bytes : Bytes) :
    ∃ x, Receives d x ∧ d.readData last_bytes bytes = x.watchdog := by
  unfold readData
  split
  · exact ⟨_, .handleAll d _ _, rfl⟩
  · split
    · exact ⟨_, .handleAll d _ _, rfl⟩
    · exact ⟨d, .refl d, rfl⟩

end Device

namespace Device

variable {d d' : Device}

/-- The end of the transport. -/
theorem Receives.readEof (d : Device) : Receives d d.readEof := by
  have hends (d' : Device) (e : Error) (h : Receives d d') : Receives d (d'.readerEnds e) := by
    have hqueued := h.trans (Receives.queue d' (.error e))
    exact ⟨hqueued.now, hqueued.state, hqueued.moves, hqueued.stream_since, hqueued.timeouts,
      hqueued.settings, hqueued.scans⟩
  unfold Device.readEof
  refine hends _ _ ?_
  split
  · split
    · exact ⟨rfl, nofun, ⟨[.CONNECTED], rfl, by simp⟩, rfl, rfl, rfl, .inl ⟨rfl, rfl⟩⟩
    · exact ⟨rfl, nofun, ⟨[.FAULTED], rfl, by simp⟩, rfl, rfl, rfl, .inl ⟨rfl, rfl⟩⟩
  · exact Receives.fault d _

/-- A read which fails otherwise. -/
theorem Receives.readFailure (d : Device) : Receives d d.readFailure := by
  have hqueued := (Receives.fault d "Transport read failed; inspect host connection").trans
    (Receives.queue _ (.error (.os "Transport read failed; inspect host connection")))
  exact ⟨hqueued.now, hqueued.state, hqueued.moves, hqueued.stream_since, hqueued.timeouts,
    hqueued.settings, hqueued.scans⟩

/-- A read receives something, and may then look at the watchdog. -/
theorem read_receives (d : Device) (result : ReadResult) :
    ∃ x, Receives d x ∧ (d.read result = x ∨ d.read result = x.watchdog) := by
  unfold read
  split
  · obtain ⟨x, hx, heq⟩ := d.readData_receives _ _
    exact ⟨x, hx, .inr heq⟩
  · exact ⟨_, .readEof d, .inl rfl⟩
  · exact ⟨_, .readFailure d, .inl rfl⟩
  · exact ⟨d, .refl d, .inl rfl⟩

/-- A measurement timeout takes the device from the stream to the fault state, for want of a scan. -/
theorem TimesOut.watchdog {result : ReadResult} (h : d.TimesOut result) :
    ∃ x, Receives d x ∧ x.state = .STREAMING ∧
      x.settings.stream_timeout < x.now - x.times.getLast?.getD x.stream_since ∧
      d.read result = x.watchdog ∧ (d.read result).state = .FAULTED ∧
      (d.read result).error = some "Measurement timeout; reconnect required" := by
  obtain ⟨x, hx, heq⟩ := d.read_receives result
  have hmore : x.counters.timeouts < (d.read result).counters.timeouts := hx.timeouts ▸ h
  rcases heq with heq | heq
  · rw [heq] at hmore
    exact absurd hmore (Nat.lt_irrefl _)
  · by_cases hexpired : x.state = .STREAMING ∧
        x.settings.stream_timeout < x.now - x.times.getLast?.getD x.stream_since
    · rw [heq, Device.watchdog, if_pos hexpired]
      exact ⟨x, hx, hexpired.1, hexpired.2, (if_pos hexpired).symm, rfl, rfl⟩
    · rw [heq, Device.watchdog, if_neg hexpired] at hmore
      exact absurd hmore (Nat.lt_irrefl _)

end Device

end Reader

section Reference

/-- A time which the watchdog will not go behind. -/
structure Clock.After (v : ℚ) (c : Clock) : Prop where
  le : v ≤ c.now
  reference : (∃ last ∈ c.times.getLast?, v ≤ last) ∨
    (c.times = [] ∧ (c.state = .STREAMING → v ≤ c.stream_since))

namespace Clock.After

variable {v : ℚ} {c c' : Clock}

/-- What has been waited for is less than the time since. -/
theorem lt_of_lt (h : After v c) (hstate : c.state = .STREAMING) {timeout : ℚ}
    (hlong : timeout < c.now - c.times.getLast?.getD c.stream_since) : timeout < c.now - v := by
  rcases h.reference with ⟨last, hlast, hle⟩ | ⟨hnil, hle⟩
  · rw [Option.mem_def.mp hlast, Option.getD_some] at hlong
    exact hlong.trans_le (sub_le_sub_left hle _)
  · rw [hnil, List.getLast?_nil, Option.getD_none] at hlong
    exact hlong.trans_le (sub_le_sub_left (hle hstate) _)

/-- No turn of a task lets the watchdog go behind it. -/
theorem turned (h : After v c) (hturn : Turned c c') : After v c' := by
  rcases hturn with hcalm | hcleared | hentered
  · refine ⟨hcalm.now ▸ h.le, h.reference.imp ?_ ?_⟩
    · rw [hcalm.times]
      exact id
    · rw [hcalm.times, hcalm.stream_since]
      exact fun ⟨hnil, hle⟩ => ⟨hnil, hle ∘ hcalm.state⟩
  · exact ⟨hcleared.now ▸ h.le, .inr ⟨hcleared.times, fun hstate => absurd hstate hcleared.state⟩⟩
  · refine ⟨hentered.now ▸ h.le, h.reference.imp ?_ ?_⟩
    · rw [hentered.times]
      exact id
    · rw [hentered.times, hentered.stream_since]
      exact fun ⟨hnil, _⟩ => ⟨hnil, fun _ => h.le⟩

/-- Nor does anything which is received. -/
theorem receives {d x : Device} (h : After v d.clock) (hx : d.Receives x) : After v x.clock := by
  refine ⟨h.le.trans_eq hx.now.symm, ?_⟩
  rcases hx.scans with ⟨htimes, -⟩ | ⟨hlast, -⟩
  · refine h.reference.imp (fun ⟨last, hlast, hle⟩ => ⟨last, ?_, hle⟩) fun ⟨hnil, hle⟩ =>
      ⟨htimes.trans hnil, fun hstate => ?_⟩
    · exact (congrArg List.getLast? htimes).trans hlast
    · exact (hle (hx.state hstate)).trans_eq hx.stream_since.symm
  · exact .inl ⟨d.now, hlast, h.le⟩

/-- What the environment does. -/
theorem reacts {d d' : Device} (h : After v d.clock) (hreacts : Reacts anything d d') : After v d'.clock := by
  obtain ⟨input, -, rfl⟩ := hreacts
  cases input with
  | tick elapsed =>
    exact ⟨h.le.trans (le_add_of_nonneg_right elapsed.2), h.reference⟩
  | begin =>
    simp only [Device.react]
    split <;> exact h
  | read result =>
    obtain ⟨x, hx, heq⟩ := d.read_receives result
    have hafter := h.receives hx
    change After v (d.read result).clock
    rcases heq with heq | heq
    · rwa [heq]
    · rw [heq]
      unfold Device.watchdog
      split
      · exact ⟨hafter.le, hafter.reference.imp_right fun ⟨hnil, _⟩ => ⟨hnil, nofun⟩⟩
      · exact hafter

end Clock.After

/-- The history which a step adds. -/
theorem Clock.Moves.not_enters {d d' : Device} (h : Clock.Moves d.clock d'.clock) : ¬ d.Enters d' := by
  obtain ⟨more, hhistory, hmore⟩ := h
  have hhistory : d'.history = d.history ++ more := hhistory
  rwa [Device.Enters, hhistory, List.drop_left]

/-- A scan which is accepted is the last one. -/
theorem Device.Receives.after {d x : Device} (h : d.Receives x) (haccepts : d.Accepts x) :
    Clock.After x.now x.clock := by
  rcases h.scans with ⟨-, hreceived⟩ | ⟨hlast, -⟩
  · exact absurd haccepts (by simp [Device.Accepts, hreceived])
  · exact ⟨le_refl _, .inl ⟨d.now, hlast, h.now.le⟩⟩

/-- What a step of the environment comes to, of what the marks of a run are about. -/
theorem Reacts.marks {d d' : Device} (h : Reacts anything d d') :
    ¬ d.Enters d' ∧ (d.Accepts d' → Clock.After d'.now d'.clock) := by
  obtain ⟨input, -, rfl⟩ := h
  have hsame {d' : Device} (hhistory : d'.history = d.history)
      (hreceived : d'.counters.received_scans = d.counters.received_scans) :
      ¬ d.Enters d' ∧ (d.Accepts d' → Clock.After d'.now d'.clock) :=
    ⟨Clock.Moves.not_enters ⟨[], hhistory.trans (List.append_nil _).symm, List.not_mem_nil⟩,
      fun haccepts => absurd haccepts (by simp [Device.Accepts, hreceived])⟩
  cases input with
  | tick elapsed => exact hsame rfl rfl
  | begin =>
    simp only [Device.react]
    split
    · exact hsame rfl rfl
    · exact hsame rfl rfl
  | read result =>
    obtain ⟨x, hx, heq⟩ := d.read_receives result
    change ¬ d.Enters (d.read result) ∧ 
      (d.Accepts (d.read result) → Clock.After (d.read result).now (d.read result).clock)
    rcases heq with heq | heq
    · rw [heq]
      exact ⟨hx.moves.not_enters, hx.after⟩
    · rw [heq]
      unfold Device.watchdog
      split
      · refine ⟨?_, fun haccepts => ?_⟩
        · obtain ⟨more, hhistory, hmore⟩ := hx.moves
          refine Clock.Moves.not_enters ⟨more ++ [.FAULTED], ?_, by simp [hmore]⟩
          have hhistory : x.history = d.history ++ more := hhistory
          simp [Device.clock, Device.fault, Device.transition, hhistory]
        · have hafter := hx.after haccepts
          refine ⟨hafter.le, hafter.reference.imp_right fun hnil => ⟨hnil.1, fun hstreaming => ?_⟩⟩
          cases hstreaming
      · exact ⟨hx.moves.not_enters, hx.after⟩

/-- The watchdog goes behind no scan, nor behind an entry into the stream which was made afresh. -/
theorem Clock.After.marked {d d' : Device} (h : Reacts anything d d' ∨ Clock.Turned d.clock d'.clock)
    (hmark : d.Accepts d' ∨ d.Enters d' ∧ d.EntersAfresh d') : Clock.After d'.now d'.clock := by
  rcases h with hreacts | hcalm | hcleared | hentered
  · exact hmark.elim hreacts.marks.2 fun henters => absurd henters.1 hreacts.marks.1
  · rcases hmark with haccepts | henters
    · exact absurd haccepts (hcalm.received_scans.le.not_gt)
    · exact absurd henters.1 hcalm.moves.not_enters
  · rcases hmark with haccepts | henters
    · exact absurd haccepts (hcleared.received_scans.le.not_gt)
    · exact absurd henters.1 hcleared.moves.not_enters
  · rcases hmark with haccepts | henters
    · exact absurd haccepts (hentered.received_scans.le.not_gt)
    · have htimes : d'.times = d.times := hentered.times
      have hnow : d'.now = d.now := hentered.now
      refine ⟨le_refl _, ?_⟩
      cases hlast : d.times.getLast? with
      | none => exact .inr ⟨htimes.trans (List.getLast?_eq_none_iff.mp hlast), fun _ =>
          hnow.trans_le hentered.stream_since.ge⟩
      | some last =>
        have heq : last = d.now := henters.2 henters.1 last hlast
        exact .inl ⟨last, (congrArg List.getLast? htimes).trans hlast, (hnow.trans heq.symm).le⟩

end Reference

section Timeouts

variable {settings : Settings} {transport : Transport} {early later pool : DevicePool} {result : ReadResult}

/-- A call keeps to the turns of a coroutine. -/
theorem calls_turned (d : Device) (task : ℕ) (job : Job) (p : Action Unit) (d' : Device)
    (h : calls task job d = some (p, d')) :
    p.Turns Device.waits task (fun d d' => Clock.Turned d.clock d'.clock)
      (fun _ d d' => Clock.Turned d.clock d'.clock) d d' := by
  cases h
  exact (settles_action job task d d (.refl _)).mono fun _ _ _ ht => ht.imp_right fun h => .inr h.2

/-- Where every entry into the stream is made over no scan or at the moment of the last one, a measurement
timeout comes when, for more than the timeout, the stream has not been entered and no scan accepted. -/
theorem measurement_timeout_not_spurious
    (hbefore : Pool.ReachesBy Device.waits (Reacts anything) calls Device.EntersAfresh
      (untouched settings transport) early)
    (hstep : Pool.Step Device.waits (Reacts anything) calls early later)
    (hafresh : early.shared.EntersAfresh later.shared)
    (hafter : Pool.ReachesBy Device.waits (Reacts anything) calls Device.EntersAfresh later pool)
    (htimeout : pool.shared.TimesOut result) :
    (early.shared.Enters later.shared ∨ early.shared.Accepts later.shared →
        pool.shared.settings.stream_timeout < pool.shared.now - later.shared.now) ∧
      (0 ≤ pool.shared.settings.stream_timeout → ¬ pool.shared.Accepts (pool.shared.read result)) := by
  obtain ⟨x, hx, hstate, hlong, hread, -⟩ := htimeout.watchdog
  refine ⟨fun hmark => ?_, fun hpositive haccepts => ?_⟩
  · have hstages := (hbefore.turned calls_turned (fun _ => trivial) (P := fun _ => True) (fun _ _ _ h => h)
      trivial).2
    obtain ⟨hturn, hstages⟩ := Pool.Step.turned calls_turned hstages hstep
    have hmarked := Clock.After.marked hturn (hmark.symm.imp_right fun henters => ⟨henters, hafresh⟩)
    have hpool := (hafter.turned calls_turned hstages (P := fun d => Clock.After later.shared.now d.clock)
      (fun d d' h hd => h.elim hd.reacts hd.turned) hmarked).1
    have hlong' := (hpool.receives hx).lt_of_lt hstate hlong
    rwa [← hx.settings, ← hx.now]
  · have haccepts : pool.shared.Accepts x := by
      rw [hread] at haccepts
      unfold Device.watchdog at haccepts
      split at haccepts <;> exact haccepts
    have hlong' := (hx.after haccepts).lt_of_lt hstate hlong
    change x.settings.stream_timeout < x.now - x.now at hlong'
    rw [sub_self, hx.settings] at hlong'
    exact hlong'.not_ge hpositive

/-- After an entry over an older scan an idle read may end in a measurement timeout too soon. -/
theorem stale_entry_times_out {d : Device} {last last_bytes : ℚ} (hstate : d.state = .STREAMING)
    (hlast : d.times.getLast? = some last) (hstale : last < d.now) (hreader : d.reader = some (.running last_bytes))
    (hidle : d.framer.buffer = []) (hpositive : 0 ≤ d.settings.stream_timeout) :
    ∃ elapsed, (d.react (.tick elapsed)).TimesOut (.data []) ∧
      ¬ d.settings.stream_timeout < (d.react (.tick elapsed)).now - d.now := by
  refine ⟨⟨d.settings.stream_timeout, hpositive⟩, ?_, ?_⟩
  · let later : Device := { d with now := d.now + d.settings.stream_timeout }
    have hexpired : later.state = .STREAMING ∧
        later.settings.stream_timeout < later.now - later.times.getLast?.getD later.stream_since := by
      refine ⟨hstate, ?_⟩
      change d.settings.stream_timeout < d.now + d.settings.stream_timeout - d.times.getLast?.getD d.stream_since
      rw [hlast, Option.getD_some, lt_sub_iff_add_lt, add_comm]
      exact add_lt_add_left hstale _
    have hread : later.read (.data []) = later.watchdog := by
      simp [Device.read, later, hreader, Device.readData, hidle]
    change later.counters.timeouts < (later.read (.data [])).counters.timeouts
    rw [hread, Device.watchdog, if_pos hexpired]
    exact Nat.lt_succ_self _
  · change ¬ d.settings.stream_timeout < d.now + d.settings.stream_timeout - d.now
    simp

end Timeouts

/-- What the scanner answers to one command, and the turn of the call which hears it. -/
def answered (content : Bytes) : List (Move Input Job Choice) :=
  [.outside (.read (.data (reply content))), .turn 0 .done]

/-- The same with a pause between the acknowledgement and the reply. -/
def answeredLate (elapsed : ℚ≥0) (content : Bytes) : List (Move Input Job Choice) :=
  [.outside (.read (.data [0x06])), .turn 0 .done, .outside (.tick elapsed),
    .outside (.read (.data ((reply content).drop 1))), .turn 0 .done]

/-- A start up to the configuration which is read from the scanner. -/
def connectScript : List (Move Input Job Choice) :=
  [.start 0 .start, .turn 0 .done, .outside .begin, .turn 0 .done] ++
    [0xB1 :: defaultStatus, 0xBA :: Action.modelSemicolon, 0xF4 :: defaultConfiguration].flatMap answered

/-- What the scanner answers up to the start command. -/
def preparation : List Bytes := [[0xA0, 0], 0xF4 :: defaultConfiguration, 0xB1 :: defaultStatus, [0xA0, 0]]

/-- A scan of a scanner which measures already. -/
def earlyScan : Bytes := (reply (0xB0 :: 0xB5 :: 0x40 :: List.replicate 364 0)).drop 1

/-- The stream is entered over no scan, and nothing comes for five seconds. -/
theorem measurement_timeout_not_spurious_silent : ∃ early later pool : DevicePool,
    early.shared.Enters later.shared ∧ pool.shared.TimesOut (.data []) ∧
      pool.shared.settings.stream_timeout < pool.shared.now - later.shared.now ∧
      ¬ pool.shared.Accepts (pool.shared.read (.data [])) := by
  have hoverview : ((Pool.playBy Device.waits calls reactAnyhow (fun d d' => decide (d.EntersAfresh d'))
      (connectScript ++ preparation.flatMap answered ++ [.outside (.read (.data (reply [0xA0, 0])))])
      (untouched {} {})).bind fun early =>
        (early.move Device.waits calls reactAnyhow (.turn 0 .done)).bind fun later =>
          (Pool.playBy Device.waits calls reactAnyhow (fun d d' => decide (d.EntersAfresh d'))
            [.outside (.tick 5)] later).map fun pool => decide (early.shared.Enters later.shared ∧
              early.shared.EntersAfresh later.shared ∧ pool.shared.TimesOut (.data []) ∧
              0 ≤ pool.shared.settings.stream_timeout)) = some true := by decide +kernel
  obtain ⟨early, hbefore, hoverview⟩ := Option.bind_eq_some_iff.mp hoverview
  obtain ⟨later, hmove, hoverview⟩ := Option.bind_eq_some_iff.mp hoverview
  obtain ⟨pool, hafter, hfacts⟩ := Option.map_eq_some_iff.mp hoverview
  obtain ⟨henters, hafresh, htimeout, hpositive⟩ := of_decide_eq_true hfacts
  have hreact (input : Input) (d d' : Device) (h : reactAnyhow input d = some d') : Reacts anything d d' :=
    ⟨input, reactAnyhow_anything input d d' h⟩
  have hspurious := measurement_timeout_not_spurious (.of_play hreact hbefore) (.of_move hreact hmove) hafresh
    (.of_play hreact hafter) htimeout
  exact ⟨early, later, pool, henters, htimeout, hspurious.1 (.inl henters), hspurious.2 hpositive⟩

/-- A scanner which measures already is stopped, and takes two seconds for each of four commands: the
first read after the entry into the stream ends in a measurement timeout. -/
theorem measurement_timeout_spurious : ∃ early later : DevicePool,
    Pool.Reaches Device.waits (Reacts anything) calls (untouched {} {}) early ∧
      Pool.Step Device.waits (Reacts anything) calls early later ∧ early.shared.Enters later.shared ∧
      later.shared.TimesOut (.data []) ∧
      ¬ later.shared.settings.stream_timeout < later.shared.now - later.shared.now := by
  have hoverview : ((Pool.play Device.waits calls reactAnyhow
      (connectScript ++ [.outside (.read (.data earlyScan))] ++ preparation.flatMap (answeredLate 2) ++
        [.outside (.read (.data (reply [0xA0, 0])))])
      (untouched {} {})).bind fun early =>
        (early.move Device.waits calls reactAnyhow (.turn 0 .done)).map fun later =>
          decide (early.shared.Enters later.shared ∧ later.shared.TimesOut (.data []) ∧
            ¬ later.shared.settings.stream_timeout < later.shared.now - later.shared.now)) = some true := by
    decide +kernel
  obtain ⟨early, hbefore, hoverview⟩ := Option.bind_eq_some_iff.mp hoverview
  obtain ⟨later, hmove, hfacts⟩ := Option.map_eq_some_iff.mp hoverview
  have hreact (input : Input) (d d' : Device) (h : reactAnyhow input d = some d') : Reacts anything d d' :=
    ⟨input, reactAnyhow_anything input d d' h⟩
  exact ⟨early, later, .of_play hreact hbefore, .of_move hreact hmove, of_decide_eq_true hfacts⟩

end Lms200
