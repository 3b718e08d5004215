import Lms200.Device.Rules
import Lms200.Device.Reader

/-!
# The reply which a queue holds

Whether the waiting loop of a command takes a reply, and which one, is settled by the queued
events and by the acknowledgement heard so far. Only the deadlines may still prevent it.
-/

namespace Lms200

/-- The number of the reply which the loop would take from the events, its deadlines aside. -/
def replyIn (cmd : Command) : Bool → List (ℕ × Incoming) → Option ℕ
  | _, [] => none
  | _, (_, .error _) :: _ => none
  | _, (_, .control .NAK) :: _ => none
  | _, (_, .control .ACK) :: rest => replyIn cmd true rest
  | ack, (number, .reply r) :: rest =>
    if r.command = cmd.response_id ∧ ack then
      if confirm r cmd.payload = .ok () then some number else none
    else replyIn cmd ack rest

/-- One more event at the end holds the reply only by itself. -/
theorem replyIn_append {cmd : Command} {ack : Bool} {events : List (ℕ × Incoming)}
    {event : ℕ × Incoming} {number : ℕ} (h : replyIn cmd ack (events ++ [event]) = some number) :
    replyIn cmd ack events = some number ∨ number = event.1 := by
  induction events generalizing ack with
  | nil =>
    right
    obtain ⟨n, incoming⟩ := event
    cases incoming with
    | error e => cases h
    | control c => cases c <;> cases h
    | reply r =>
      simp only [List.nil_append, replyIn] at h
      split at h
      · split at h
        · cases h
          rfl
        · cases h
      · cases h
  | cons first rest ih =>
    obtain ⟨n, incoming⟩ := first
    cases incoming with
    | error e => cases h
    | control c =>
      cases c with
      | NAK => cases h
      | ACK => exact ih h
    | reply r =>
      simp only [List.cons_append, replyIn] at h ⊢
      split at h
      · next hmatch =>
        rw [if_pos hmatch]
        exact .inl h
      · next hmatch =>
        rw [if_neg hmatch]
        exact ih h

/-- How the loop over some events may end: it takes the reply which they hold, it raises or
hears a NAK, or it empties the queue and goes on waiting. -/
def Heard.Within (cmd : Command) (p : Pending) (events : List (ℕ × Incoming)) :
    Option (Except Error Heard) × Device → Prop
  | (some (.ok (.reply _)), d') => ∃ number, d'.accepted = some number ∧
      replyIn cmd p.ack events = some number
  | (some _, _) => True
  | (none, d') => d'.events = [] ∧ ∃ p', d'.pending = some p' ∧ p'.command = p.command

/-- The first event may be heard without ending the loop. -/
theorem Heard.Within.cons {cmd : Command} {p p' : Pending} {event : ℕ × Incoming}
    {rest : List (ℕ × Incoming)} {result : Option (Except Error Heard) × Device}
    (h : Heard.Within cmd p' rest result)
    (hreply : replyIn cmd p.ack (event :: rest) = replyIn cmd p'.ack rest)
    (hcommand : p'.command = p.command) : Heard.Within cmd p (event :: rest) result := by
  obtain ⟨answer, d'⟩ := result
  match answer with
  | some (.ok (.reply r)) =>
    obtain ⟨number, haccepted, hnumber⟩ := h
    exact ⟨number, haccepted, hreply.trans hnumber⟩
  | some (.ok .nak) => trivial
  | some (.error e) => trivial
  | none =>
    obtain ⟨hevents, q, hq, hqcommand⟩ := h
    exact ⟨hevents, q, hq, hqcommand.trans hcommand⟩

namespace Pending

/-- What one event leaves of the search for the reply. -/
theorem hear_replyIn (cmd : Command) (p : Pending) (d : Device) (event : ℕ × Incoming)
    (rest : List (ℕ × Incoming)) :
    match hear cmd p d event with
    | (.inl p', _) => replyIn cmd p.ack (event :: rest) = replyIn cmd p'.ack rest ∧
        p'.command = p.command
    | (.inr (.ok (.reply _)), d') => replyIn cmd p.ack (event :: rest) = d'.accepted
    | (.inr _, _) => True := by
  obtain ⟨number, incoming⟩ := event
  cases incoming with
  | error e => trivial
  | control c =>
    cases c with
    | NAK => trivial
    | ACK =>
      cases hack : p.ack with
      | false => simp [hear, hack, replyIn]
      | true => simp [hear, hack, replyIn]
  | reply r =>
    by_cases hmatch : r.command = cmd.response_id ∧ p.ack
    · cases hconfirm : confirm r cmd.payload with
      | error e => simp [hear, if_pos hmatch, hconfirm]
      | ok u =>
        simp only [hear, if_pos hmatch, hconfirm, replyIn]
        rfl
    · simp [hear, if_neg hmatch, replyIn]

/-- The loop takes the reply which its events hold, or empties the queue and goes on waiting. -/
theorem listen_within (cmd : Command) (p : Pending) (events : List (ℕ × Incoming)) (d : Device) :
    Heard.Within cmd p events (listen cmd p events d) := by
  induction events generalizing p d with
  | nil =>
    unfold listen
    split
    · trivial
    · exact ⟨rfl, p, rfl, rfl⟩
  | cons event rest ih =>
    unfold listen
    split
    · trivial
    · have hevent := hear_replyIn cmd p d event rest
      have hfrom := hear_from cmd p d event rest
      generalize hear cmd p d event = step at hevent hfrom
      obtain ⟨p' | e | r | _, d'⟩ := step
      · exact (ih p' d').cons hevent.1 hevent.2
      · trivial
      · obtain ⟨-, -, number, hquiet⟩ := hfrom
        have haccepted : d'.accepted = some number := hquiet.accepted
        exact ⟨number, haccepted, hevent.trans haccepted⟩
      · trivial

/-- So does the loop which an event has woken. -/
theorem wake_within (cmd : Command) (p : Pending) (event : ℕ × Incoming)
    (rest : List (ℕ × Incoming)) (d : Device) :
    Heard.Within cmd p (event :: rest) (wake cmd p event rest d) := by
  have hevent := hear_replyIn cmd p d event rest
  have hfrom := hear_from cmd p d event rest
  unfold wake
  generalize hear cmd p d event = step at hevent hfrom
  obtain ⟨p' | e | r | _, d'⟩ := step
  · exact (listen_within cmd p' rest d').cons hevent.1 hevent.2
  · trivial
  · obtain ⟨-, -, number, hquiet⟩ := hfrom
    have haccepted : d'.accepted = some number := hquiet.accepted
    exact ⟨number, haccepted, hevent.trans haccepted⟩
  · trivial

end Pending

end Lms200
