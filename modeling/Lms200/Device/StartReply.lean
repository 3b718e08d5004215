import Lms200.Device.Call
import Lms200.Device.ReplyQueue

/-!
# The reply to the start command

Between the moment the reader queues the reply to the start command and the moment the command
takes it, the reader may fault, and the call enters the stream over the fault. It is the only way
in which a stream comes to be without a reader which serves it: as long as no fault falls into
that moment, a device in the stream has a running reader and no fault since the reply.
-/

namespace Lms200

open Coop

/-- The command which starts the stream. -/
def startCommand : Command := modeCommand .CONTINUOUS [0x24]

namespace Device

/-- The reader task is running. -/
def ReaderAlive (d : Device) : Prop := d.reader ≠ none ∧ d.reader ≠ some .ended

/-- A device in the stream has a running reader, and no fault of the reader followed the reply
which was accepted last. -/
def Served (d : Device) : Prop :=
  d.state = .STREAMING →
    d.ReaderAlive ∧ ∃ number, d.accepted = some number ∧ ∀ f ∈ d.faults, f ≤ number

/-- What holds of a device which never replays. -/
structure Sound (d : Device) : Prop where
  served : d.Served
  replay : d.transport.replay = none
  faults_le : ∀ f ∈ d.faults, f ≤ d.queued

/-- The start command waits, and from its first event on the queue holds the reply. -/
def StartAnswered (d : Device) : Prop :=
  ∃ p, d.pending = some p ∧ p.command = startCommand ∧
    ∃ number, replyIn startCommand p.ack d.events = some number

/-- The start command waits, and once the queue has lost some events it holds the reply. -/
def StartAnswerable (d : Device) : Prop :=
  ∃ k, StartAnswered { d with events := d.events.drop k }

/-- No measurement makes the reader fault while the reply to the start command is queued. -/
def Unhurt : Device → List Event → Prop
  | _, [] => True
  | d, event :: rest =>
    (∀ m, d.complaint event = some m → ¬ (d.queue (.error (.device m))).StartAnswerable) ∧
      Unhurt (d.handle event) rest

/-- What the framer makes of a read. -/
def fed (d : Device) (bytes : Bytes) : Emitted × Framer :=
  if bytes ≠ [] then d.framer.feed bytes else d.framer.expire

/-- The reader does not fault while the reply to the start command is queued. -/
def Unraced (d : Device) : Input → Prop
  | .tick _ | .begin => True
  | .read (.data bytes) =>
    Unhurt { d with framer := (d.fed bytes).2 } ((d.fed bytes).1.events.map Prod.snd)
  | .read .eof => ¬ (d.queue (.error (.eof "Transport ended"))).StartAnswered
  | .read .failure =>
    ¬ (d.queue (.error (.os "Transport read failed; inspect host connection"))).StartAnswered

end Device

/-- An assertion which the reader keeps, as long as it does not fault at the wrong moment. -/
structure Tame (Q : Device → Prop) : Prop where
  replay : ∀ d, Q d → d.transport.replay = none
  alike : ∀ d d', Q d → Device.Alike d d' → Q d'
  resumed : ∀ d now, Q d → d.ReaderAlive → Q { d with reader := some (.running now) }
  queue : ∀ d x, Q d → d.ReaderAlive → Q (d.queue x)
  complained : ∀ d m, Q d → d.ReaderAlive →
    ¬ (d.queue (.error (.device m))).StartAnswerable → Q ((d.queue (.error (.device m))).fault m)
  stopped : ∀ d m, Q d → d.state = .STREAMING → Q (d.fault m)
  ended : ∀ d m e, Q d → d.ReaderAlive → ¬ (d.queue (.error e)).StartAnswered →
    Q ((d.fault m).readerEnds e)

section Reader

variable {Q : Device → Prop} {d : Device}

/-- The reader task goes on while it handles events. -/
theorem Device.ReaderAlive.handle (h : d.ReaderAlive) (event : Event) :
    (d.handle event).ReaderAlive := by
  have hreader : (d.handle event).reader = d.reader := by
    generalize hafter : d.handle event = d'
    have hhandled := d.handled event
    rw [hafter] at hhandled
    cases hhandled with
    | queued x => exact (d.queue_fields x).2.1
    | complained m _ => exact (d.queue_fields (.error (.device m))).2.1
    | stopped m _ => rfl
    | noted d' ha => exact ha.reader
  unfold Device.ReaderAlive
  rw [hreader]
  exact h

theorem Tame.handle (hQ : Tame Q) (h : Q d) (halive : d.ReaderAlive) {event : Event}
    (hunhurt : ∀ m, d.complaint event = some m →
      ¬ (d.queue (.error (.device m))).StartAnswerable) : Q (d.handle event) := by
  generalize hafter : d.handle event = d'
  have hhandled := d.handled event
  rw [hafter] at hhandled
  cases hhandled with
  | queued x => exact hQ.queue d x h halive
  | complained m hm => exact hQ.complained d m h halive (hunhurt m hm)
  | stopped m hm => exact hQ.stopped d m h hm
  | noted d' ha => exact hQ.alike d d' h ha

theorem Tame.handleAll (hQ : Tame Q) (h : Q d) (halive : d.ReaderAlive) {fed : Emitted × Framer}
    (hunhurt : Device.Unhurt { d with framer := fed.2 } (fed.1.events.map Prod.snd)) :
    Q (d.handleAll fed) ∧ (d.handleAll fed).ReaderAlive := by
  have hfold : ∀ (events : List Event) (d : Device), Q d → d.ReaderAlive → d.Unhurt events →
      Q (events.foldl Device.handle d) ∧ (events.foldl Device.handle d).ReaderAlive := by
    intro events
    induction events with
    | nil => exact fun d h halive _ => ⟨h, halive⟩
    | cons event rest ih =>
      exact fun d h halive hunhurt => ih _ (hQ.handle h halive hunhurt.1) (halive.handle event) hunhurt.2
  exact hfold _ _ (hQ.alike d _ h ⟨rfl, rfl, rfl, rfl, rfl, rfl, rfl, rfl⟩) halive hunhurt

theorem Tame.watchdog (hQ : Tame Q) (h : Q d) : Q d.watchdog := by
  unfold Device.watchdog
  split
  · next hlate =>
    exact hQ.stopped _ _ (hQ.alike d _ h ⟨rfl, rfl, rfl, rfl, rfl, rfl, rfl, rfl⟩) hlate.1
  · exact h

/-- What time and the reader do keeps the assertion. -/
theorem Tame.react (hQ : Tame Q) (h : Q d) {input : Input} (hraced : d.Unraced input) :
    Q (d.react input) := by
  cases input with
  | tick elapsed => exact hQ.alike d _ h ⟨rfl, rfl, rfl, rfl, rfl, rfl, rfl, rfl⟩
  | begin =>
    unfold Device.react
    dsimp only
    split
    · next hcreated => exact hQ.resumed d _ h (by simp [Device.ReaderAlive, hcreated])
    · exact h
  | read result =>
    unfold Device.react Device.read
    dsimp only
    split
    · next last_bytes bytes hrunning =>
      have halive : d.ReaderAlive := by simp [Device.ReaderAlive, hrunning]
      unfold Device.Unraced Device.fed at hraced
      dsimp only at hraced
      unfold Device.readData
      split
      · next hbytes =>
        rw [if_pos hbytes] at hraced
        obtain ⟨hafter, hstill⟩ := hQ.handleAll h halive hraced
        exact hQ.watchdog (hQ.resumed _ _ hafter hstill)
      · next hbytes =>
        rw [if_neg hbytes] at hraced
        split
        · obtain ⟨hafter, hstill⟩ := hQ.handleAll h halive hraced
          exact hQ.watchdog (hQ.resumed _ _ hafter hstill)
        · exact hQ.watchdog h
    · next _ hrunning =>
      have halive : d.ReaderAlive := by simp [Device.ReaderAlive, hrunning]
      unfold Device.readEof
      rw [hQ.replay d h]
      exact hQ.ended d _ _ h halive hraced
    · next _ hrunning =>
      have halive : d.ReaderAlive := by simp [Device.ReaderAlive, hrunning]
      exact hQ.ended d _ _ h halive hraced
    · exact h

end Reader

/-- The device replays nothing and is not in the stream. -/
structure Device.Calm (d : Device) : Prop where
  state : d.state ≠ .STREAMING
  replay : d.transport.replay = none

/-- The start command waits as `p` says: a fault of the reader came before every reply which the
queue may still hold, and nothing is held once the reader has ended. -/
structure Device.Starting (p : Pending) (d : Device) : Prop extends d.Calm where
  pending : d.pending = some p
  command : p.command = startCommand
  alive : d.ReaderAlive → ∀ k number, replyIn startCommand p.ack (d.events.drop k) = some number →
    ∀ f ∈ d.faults, f ≤ number
  ended : ¬ d.ReaderAlive → replyIn startCommand p.ack d.events = none

section Assertions

variable {d : Device}

theorem fault_state (d : Device) (m : String) : (d.fault m).state = .FAULTED := rfl

theorem readerEnds_fault_state (d : Device) (m : String) (e : Error) :
    ((d.fault m).readerEnds e).state = .FAULTED := ((d.fault m).queue_fields (.error e)).1

/-- A fault is counted with what had been queued. -/
theorem fault_faults_le (h : ∀ f ∈ d.faults, f ≤ d.queued) (m : String) :
    ∀ f ∈ (d.fault m).faults, f ≤ d.queued := by
  intro f hf
  simp only [Device.fault, List.mem_append, List.mem_singleton] at hf
  rcases hf with hf | rfl
  · exact h f hf
  · exact le_rfl

theorem queue_faults_le (h : ∀ f ∈ d.faults, f ≤ d.queued) (x : Incoming) :
    ∀ f ∈ (d.queue x).faults, f ≤ (d.queue x).queued := by
  obtain ⟨-, -, hfaults, hqueued, -⟩ := d.queue_fields x
  rw [hfaults, hqueued]
  exact fun f hf => (h f hf).trans (Nat.le_succ _)

/-- Outside the stream nobody has to serve it. -/
theorem Device.Sound.of_state (hstate : d.state ≠ .STREAMING) (hreplay : d.transport.replay = none)
    (hfaults : ∀ f ∈ d.faults, f ≤ d.queued) : d.Sound :=
  ⟨fun h => absurd h hstate, hreplay, hfaults⟩

theorem tame_sound : Tame Device.Sound where
  replay d h := h.replay
  alike d d' h ha :=
    ⟨by rw [Device.Served, Device.ReaderAlive, ha.state, ha.reader, ha.accepted, ha.faults]; exact h.served,
      by rw [ha.session]; exact h.replay, by rw [ha.faults, ha.queued]; exact h.faults_le⟩
  resumed d now h _ := ⟨fun hs => ⟨by simp [Device.ReaderAlive], (h.served hs).2⟩, h.replay, h.faults_le⟩
  queue d x h _ := by
    obtain ⟨hstate, hreader, hfaults, -, haccepted, -⟩ := d.queue_fields x
    refine ⟨?_, by rw [Device.queue_session]; exact h.replay, queue_faults_le h.faults_le x⟩
    rw [Device.Served, Device.ReaderAlive, hstate, hreader, haccepted, hfaults]
    exact h.served
  complained d m h _ _ :=
    ⟨fun hs => absurd hs (by rw [fault_state]; decide),
      by rw [Device.fault_session, Device.queue_session]; exact h.replay,
      fault_faults_le (queue_faults_le h.faults_le _) m⟩
  stopped d m h _ :=
    ⟨fun hs => absurd hs (by rw [fault_state]; decide), h.replay, fault_faults_le h.faults_le m⟩
  ended d m e h _ _ :=
    ⟨fun hs => absurd hs (by rw [readerEnds_fault_state]; decide),
      by rw [Device.readerEnds_session]; exact h.replay,
      queue_faults_le (d := d.fault m) (fault_faults_le h.faults_le m) (.error e)⟩

theorem tame_calm : Tame Device.Calm where
  replay d h := h.replay
  alike d d' h ha := ⟨ha.state ▸ h.state, by rw [ha.session]; exact h.replay⟩
  resumed d now h _ := ⟨h.state, h.replay⟩
  queue d x h _ := ⟨(d.queue_fields x).1 ▸ h.state, by rw [Device.queue_session]; exact h.replay⟩
  complained d m h _ _ := ⟨by rw [fault_state]; decide,
    by rw [Device.fault_session, Device.queue_session]; exact h.replay⟩
  stopped d m h _ := ⟨by rw [fault_state]; decide, h.replay⟩
  ended d m e h _ _ := ⟨by rw [readerEnds_fault_state]; decide,
    by rw [Device.readerEnds_session]; exact h.replay⟩

/-- One more event leaves every fault before every reply which may be taken. -/
theorem Device.Starting.queue {p : Pending} (h : d.Starting p) (halive : d.ReaderAlive)
    (hfaults : ∀ f ∈ d.faults, f ≤ d.queued) (x : Incoming) : (d.queue x).Starting p := by
  obtain ⟨hstate, hreader, hsame, -, -, hpending⟩ := d.queue_fields x
  obtain ⟨j, hevents⟩ := d.queue_events x
  refine ⟨(tame_calm.queue d x h.toCalm halive), hpending.trans h.pending, h.command, ?_, ?_⟩
  · intro _ k number hreply f hf
    rw [hsame] at hf
    rw [hevents, List.drop_append] at hreply
    rcases Nat.lt_or_ge (d.events.drop j).length k with hlong | hshort
    · have hnil : (d.events.drop j).drop k = [] := List.drop_eq_nil_of_le hlong.le
      have hone : [(d.queued, x)].drop (k - (d.events.drop j).length) = [] :=
        List.drop_eq_nil_of_le (Nat.le_sub_of_add_le (by rw [List.length_singleton]; omega))
      rw [hnil, hone] at hreply
      cases hreply
    · rw [Nat.sub_eq_zero_of_le hshort, List.drop_zero] at hreply
      rcases replyIn_append hreply with hold | rfl
      · rw [List.drop_drop] at hold
        exact h.alive halive _ _ hold f hf
      · exact hfaults f hf
  · intro hended
    unfold Device.ReaderAlive at hended
    rw [hreader] at hended
    exact absurd halive hended

/-- Queueing does not depend on the faults. -/
theorem queue_fault_events (d : Device) (m : String) (x : Incoming) :
    ((d.fault m).queue x).events = (d.queue x).events := by
  unfold Device.queue Device.fault Device.transition
  dsimp only
  split <;> rfl

theorem tame_starting (p : Pending) : Tame fun d => d.Sound ∧ d.Starting p where
  replay d h := h.1.replay
  alike d d' := by
    rintro ⟨hsound, h⟩ ha
    refine ⟨tame_sound.alike d d' hsound ha, tame_calm.alike d d' h.toCalm ha,
      ha.pending.trans h.pending, h.command, ?_, ?_⟩
    · rw [Device.ReaderAlive, ha.reader, ha.events, ha.faults]
      exact h.alive
    · rw [Device.ReaderAlive, ha.reader, ha.events]
      exact h.ended
  resumed d now := by
    rintro ⟨hsound, h⟩ halive
    exact ⟨tame_sound.resumed d now hsound halive, tame_calm.resumed d now h.toCalm halive, h.pending,
      h.command, fun _ => h.alive halive, fun hended => absurd (by simp [Device.ReaderAlive]) hended⟩
  queue d x := by
    rintro ⟨hsound, h⟩ halive
    exact ⟨tame_sound.queue d x hsound halive, h.queue halive hsound.faults_le x⟩
  complained d m := by
    rintro ⟨hsound, h⟩ halive hunanswerable
    have hqueued := h.queue halive hsound.faults_le (.error (.device m))
    have hstill : (d.queue (.error (.device m))).ReaderAlive := by
      unfold Device.ReaderAlive
      rw [(d.queue_fields (.error (.device m))).2.1]
      exact halive
    refine ⟨tame_sound.complained d m hsound halive hunanswerable,
      tame_calm.complained d m h.toCalm halive hunanswerable, hqueued.pending, h.command, ?_, ?_⟩
    · intro _ k number hreply
      exact absurd ⟨k, p, hqueued.pending, h.command, number, hreply⟩ hunanswerable
    · exact fun hended => absurd hstill hended
  stopped d m := by
    rintro ⟨-, h⟩ hstreaming
    exact absurd hstreaming h.state
  ended d m e := by
    rintro ⟨hsound, h⟩ halive hunanswered
    have hpending : ((d.fault m).queue (.error e)).pending = some p :=
      ((d.fault m).queue_fields (.error e)).2.2.2.2.2.trans h.pending
    refine ⟨tame_sound.ended d m e hsound halive hunanswered,
      tame_calm.ended d m e h.toCalm halive hunanswered, hpending, h.command,
      fun hrunning => absurd rfl hrunning.2, fun _ => ?_⟩
    change replyIn startCommand p.ack ((d.fault m).queue (.error e)).events = none
    rw [queue_fault_events]
    cases hreply : replyIn startCommand p.ack (d.queue (.error e)).events with
    | none => rfl
    | some number =>
      have hqueued := (d.queue_fields (.error e)).2.2.2.2.2.trans h.pending
      exact absurd ⟨p, hqueued, h.command, number, hreply⟩ hunanswered

end Assertions

end Lms200
