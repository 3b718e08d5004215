import Lms200.Device.Interference

/-!
# What the reader does

Every event makes the reader queue something, fault, or keep statistics, and it never enters the
stream. What a step of the reader keeps is read off these cases.
-/

namespace Lms200

namespace Device

/-- The message with which a measurement reports a fault of the scanner. -/
def complaint (d : Device) : Event → Option String
  | .control _ => none
  | .frame f =>
    match response f d.settings.address with
    | .error _ => none
    | .ok reply =>
      if reply.command = 0xB0 then
        match d.configuration, d.info with
        | some configuration, some info =>
          match d.scanOf info configuration reply with
          | .error (.device m) => some m
          | _ => none
        | _, _ => none
      else none

/-- Two devices which differ in statistics at most. -/
structure Alike (d d' : Device) : Prop where
  session : d'.toSession = d.toSession
  state : d'.state = d.state
  reader : d'.reader = d.reader
  faults : d'.faults = d.faults
  queued : d'.queued = d.queued
  accepted : d'.accepted = d.accepted
  events : d'.events = d.events
  pending : d'.pending = d.pending

/-- What handling one event comes to. -/
inductive Handled (d : Device) (event : Event) : Device → Prop
  | queued (x : Incoming) : Handled d event (d.queue x)
  | complained (m : String) : d.complaint event = some m →
      Handled d event ((d.queue (.error (.device m))).fault m)
  | stopped (m : String) : d.state = .STREAMING → Handled d event (d.fault m)
  | noted (d' : Device) : Alike d d' → Handled d event d'

theorem measure_handled (d : Device) {f : Frame} {reply : Response}
    (hreply : response f d.settings.address = .ok reply) (hcommand : reply.command = 0xB0) :
    Handled d (.frame f) (d.measure reply) := by
  have hnoted : ∀ d', Alike d d' → Handled d (.frame f) d' := .noted
  unfold measure
  split
  · next configuration info hconfiguration hinfo =>
    split
    · exact hnoted _ ⟨rfl, rfl, rfl, rfl, rfl, rfl, rfl, rfl⟩
    · next m hscan =>
      refine .complained m ?_
      simp [complaint, hreply, hcommand, hconfiguration, hinfo, hscan]
    · exact hnoted _ ⟨rfl, rfl, rfl, rfl, rfl, rfl, rfl, rfl⟩
  · exact hnoted _ ⟨rfl, rfl, rfl, rfl, rfl, rfl, rfl, rfl⟩

/-- Every event is handled in one of these ways. -/
theorem handled (d : Device) (event : Event) : Handled d event (d.handle event) := by
  cases event with
  | control c => exact .queued _
  | frame f =>
    unfold handle
    dsimp only
    split
    · exact .queued _
    · exact .noted _ ⟨rfl, rfl, rfl, rfl, rfl, rfl, rfl, rfl⟩
    · next reply hreply =>
      split
      · next hcommand => exact d.measure_handled hreply hcommand
      · split
        · split
          · next hstreaming => exact .stopped _ hstreaming
          · exact .noted _ ⟨rfl, rfl, rfl, rfl, rfl, rfl, rfl, rfl⟩
        · exact .queued _

/-- A full queue loses its oldest event. -/
theorem queue_events (d : Device) (x : Incoming) :
    ∃ j, (d.queue x).events = d.events.drop j ++ [(d.queued, x)] := by
  unfold queue
  dsimp only
  split
  · exact ⟨1, rfl⟩
  · exact ⟨0, rfl⟩

/-- Besides the queue, queueing changes the number of events ever queued. -/
theorem queue_fields (d : Device) (x : Incoming) :
    (d.queue x).state = d.state ∧ (d.queue x).reader = d.reader ∧ (d.queue x).faults = d.faults ∧
      (d.queue x).queued = d.queued + 1 ∧ (d.queue x).accepted = d.accepted ∧
      (d.queue x).pending = d.pending := by
  unfold queue
  dsimp only
  split <;> exact ⟨rfl, rfl, rfl, rfl, rfl, rfl⟩

/-- Handling an event does not end the reader. -/
theorem handle_reader (d : Device) (event : Event) : (d.handle event).reader = d.reader := by
  have h := d.handled event
  generalize d.handle event = d' at h
  cases h with
  | queued x => exact (d.queue_fields x).2.1
  | complained m _ => exact (d.queue_fields (.error (.device m))).2.1
  | stopped m _ => rfl
  | noted _ h => exact h.reader

theorem handleAll_reader (d : Device) (fed : Emitted × Framer) : (d.handleAll fed).reader = d.reader := by
  have hfold : ∀ (events : List Event) (start : Device),
      (events.foldl handle start).reader = start.reader := by
    intro events
    induction events with
    | nil => exact fun _ => rfl
    | cons event rest ih => exact fun start => (ih _).trans (start.handle_reader event)
  exact hfold _ _

theorem watchdog_reader (d : Device) : d.watchdog.reader = d.reader := by
  unfold watchdog
  split <;> rfl

end Device

end Lms200
