import Lms200.Coop.Run
import Lms200.Device.Tasks

/-!
# A command and its events

A call of `command` against events which arrive at any times. What arrives together is queued
together when its time comes; a wait for a reply ends with the event which decides it, or at its
deadline. Timers are punctual: an event which comes at or after a deadline finds the wait ended.

The world keeps a record of every attempt: its telegram, the time since which it listens, and
the events it has taken from the queue, each with the time at which it was taken.
-/

namespace Lms200

open Coop

/-- One attempt of a command. -/
structure Round where
  telegram : Bytes
  since : ℚ
  taken : List (ℚ × Incoming) := []
  deriving DecidableEq, Repr

/-- What is still to come, and the attempts so far, latest first. -/
structure World where
  arrivals : List (ℚ × List Incoming)
  writes : List (ℚ≥0 × Except Error Unit)
  rounds : List Round := []

namespace World

/-- Queue what has arrived up to a time. -/
def arrive (time : ℚ) : List (ℚ × List Incoming) → Device → List (ℚ × List Incoming) × Device
  | [], d => ([], d)
  | (arrival, burst) :: rest, d =>
    if arrival ≤ time then arrive time rest (burst.foldl Device.queue d)
    else ((arrival, burst) :: rest, d)

/-- Time passes up to a moment. -/
def pass (time : ℚ) (s : Device × World) : Device × World :=
  let arrived := arrive time s.2.arrivals s.1
  ({ arrived.2 with now := max s.1.now time }, { s.2 with arrivals := arrived.1 })

/-- The events which a turn of the waiting loop has taken. -/
def takenBy (before after : Device) : List (ℚ × Incoming) :=
  (before.events.take (before.events.length - after.events.length)).map fun event => (before.now, event.2)

/-- The attempt has taken events. -/
def take (w : World) (events : List (ℚ × Incoming)) : World :=
  match w.rounds with
  | [] => w
  | round :: earlier => { w with rounds := { round with taken := round.taken ++ events } :: earlier }

/-- The attempt listens from now on. -/
def listen (w : World) (now : ℚ) : World :=
  match w.rounds with
  | [] => w
  | round :: earlier => { w with rounds := { round with since := now } :: earlier }

/-- The timer of a waiting loop fires. -/
def fire (s : Device × World) : Except Error Heard × Device × World :=
  let deadline := (s.1.pending.map Pending.deadline).getD s.1.now
  let d := { s.1 with now := max s.1.now deadline }
  match d.stopListening with
  | some (some answer, d) => (answer, d, s.2)
  | _ => (.error (.value "not listening"), s)

/-- The waiting loop on an empty queue: what arrives before the deadline wakes it. -/
def await (cmd : Command) :
    List (ℚ × List Incoming) → Device × World → Except Error Heard × Device × World
  | [], s => fire (s.1, { s.2 with arrivals := [] })
  | (arrival, burst) :: rest, s =>
    if ∃ p ∈ s.1.pending, max s.1.now arrival < p.deadline then
      let d := burst.foldl Device.queue { s.1 with now := max s.1.now arrival }
      match d.goOnListening cmd with
      | some (some answer, d') => (answer, d', { s.2.take (takenBy d d') with arrivals := rest })
      | some (none, d') => await cmd rest (d', s.2.take (takenBy d d'))
      | none => await cmd rest (d, s.2)
    else fire (s.1, { s.2 with arrivals := (arrival, burst) :: rest })

/-- How a wait of a call is answered. -/
def answer : (w : Request) → Device × World → Except Error w.Answer × Device × World
  | .commandLock, s => (.ok (), { s.1 with command_lock := some 0 }, s.2)
  | .sleep wake, s => (.ok (), pass wake s)
  | .write telegram, (d, w) =>
    let write := w.writes.headD (0, .ok ())
    (write.2, pass (d.now + write.1)
      (d, { w with writes := w.writes.tail, rounds := ⟨telegram, d.now, []⟩ :: w.rounds }))
  | .reply cmd, (d, w) =>
    let w := w.listen d.now
    match d.startListening cmd with
    | (some outcome, d') => (outcome, d', w.take (takenBy d d'))
    | (none, d') => await cmd w.arrivals (d', w.take (takenBy d d'))
  | .operationLock, s => (.ok (), s)
  | .openTransport, s => (.ok (), s)
  | .setBaud _, s => (.ok (), s)
  | .joinReader, s => (.ok (), s)
  | .closeTransport, s => (.ok (), s)

/-- A call of `command`: its outcome and its attempts, latest first. -/
def call (cmd : Command) (d : Device) (arrivals : List (ℚ × List Incoming))
    (writes : List (ℚ≥0 × Except Error Unit)) : Except Error Response × List Round :=
  let result := (Action.command cmd).run answer (d, { arrivals, writes })
  (result.1, result.2.2.rounds)

end World

end Lms200
