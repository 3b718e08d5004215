import Lms200.Coop.Logic
import Lms200.Native.Handshake

/-!
# The native sequence

`tools/lms200_native/sequence.cpp`: status, optional variant, start, capture and stop over an
abstract `SequenceIO`. Everything but `interrupted` may throw; the result survives exceptions
and early returns, so it is the state of a program which leaves its body by raising.

Every call is recorded with its answer, in order.
-/

namespace Lms200.Native

open Coop

/-- What one command exchange reports. -/
structure Exchange where
  success : Bool := false
  write_attempted : Bool := false
  may_retry : Bool := false
  status : StatusInfo := {}
  reason : String := ""

/-- What the sequence reports. -/
structure SequenceResult where
  stage : String := "status"
  reason : String := ""
  original : StatusInfo := {}
  status_confirmed : Bool := false
  variant_requested : Bool := false
  variant_confirmed : Bool := false
  start_attempted : Bool := false
  start_confirmed : Bool := false
  capture_complete : Bool := false
  stop_attempted : Bool := false
  stop_response_valid : Bool := false
  stop_confirmed : Bool := false
  stop_ambiguous : Bool := false
  sequence_complete : Bool := false

/-- The calls of the interface. -/
inductive Call where
  | exchange (command : Command) (cleanup : Bool)
  | capture
  | interrupted
  | note (text : String)

/-- What a call returns, or the text of what it throws. -/
abbrev Call.Answer : Call → Type
  | .exchange _ _ => Except String Exchange
  | .capture => Except String Bool
  | .interrupted => Bool
  | .note _ => Except String Unit

/-- An implementation of the interface over its own state. -/
structure SequenceIO (τ : Type) where
  exchange : Command → Bool → τ → Except String Exchange × τ
  capture : τ → Except String Bool × τ
  interrupted : τ → Bool × τ
  note : String → τ → Except String Unit × τ

/-- The answer of an implementation to a call. -/
def SequenceIO.answer {τ : Type} (io : SequenceIO τ) : (call : Call) → τ → call.Answer × τ
  | .exchange command cleanup => io.exchange command cleanup
  | .capture => io.capture
  | .interrupted => io.interrupted
  | .note text => io.note text

/-- A call together with its answer. -/
inductive Turn where
  | exchanged (command : Command) (cleanup : Bool) (answer : Except String Exchange)
  | captured (answer : Except String Bool)
  | interrupted (answer : Bool)
  | noted (text : String) (answer : Except String Unit)

/-- The record of an answered call. -/
def Call.turn : (call : Call) → call.Answer → Turn
  | .exchange command cleanup, answer => .exchanged command cleanup answer
  | .capture, answer => .captured answer
  | .interrupted, answer => .interrupted answer
  | .note text, answer => .noted text answer

/-- The result so far and the calls made. -/
structure Session where
  result : SequenceResult := {}
  calls : List Turn := []

/-- Record an answered call. -/
def Session.record (s : Session) (turn : Turn) : Session := { s with calls := s.calls ++ [turn] }

/-- Change the result. -/
def Session.amend (s : Session) (f : SequenceResult → SequenceResult) : Session :=
  { s with result := f s.result }

/-- How the body of the sequence is left early. -/
inductive Exit where
  | thrown (what : String)
  | returned

/-- Programs over a session. -/
abbrev Run := Program Session Call Call.Answer Exit

namespace Run

/-- Change the result. -/
def update (f : SequenceResult → SequenceResult) : Run Unit := modify (Session.amend · f)

/-- An answer or the exception it stands for. -/
def ofAnswer {α : Type} : Except String α → Run α
  | .ok a => pure a
  | .error what => throw (.thrown what)

/-- `io.exchange` -/
def exchange (command : Command) (cleanup : Bool := false) : Run Exchange := do
  ofAnswer (← Program.request (Call.exchange command cleanup))

/-- `io.capture` -/
def capture : Run Bool := do ofAnswer (← Program.request Call.capture)

/-- `io.interrupted` -/
def interrupted : Run Bool := Program.request Call.interrupted

/-- `io.note` -/
def note (text : String) : Run Unit := do ofAnswer (← Program.request (Call.note text))

/-- Give the reason and return. -/
def finish {α : Type} (reason : String) : Run α := do
  update fun result => { result with reason }
  throw .returned

/-- What the stop makes of its response. -/
def stopped (response : Exchange) (result : SequenceResult) : SequenceResult :=
  let result := { result with
    stop_response_valid := response.success
    stop_confirmed := response.success && result.start_confirmed
    stop_ambiguous := !result.start_confirmed }
  let result := if response.success then result else
    { result with reason := result.reason ++ "; stop: " ++ response.reason }
  if result.stop_ambiguous then { result with
    reason := result.reason ++ "; cleanup A0 cannot disambiguate a delayed start reply" }
  else result

/-- Stop once, if a start may have been written. -/
def stop : Run Unit := do
  let s ← get
  if !s.result.start_attempted || s.result.stop_attempted then pure ()
  else
    update fun result => { result with stop_attempted := true }
    try
      let response ← exchange .Stop true
      update (stopped response)
    catch
      | .thrown what => update fun result =>
        { result with reason := result.reason ++ "; stop exception: " ++ what }
      | .returned => throw .returned

/-- The status attempts which remain. -/
def statusAttempts : ℕ → Run Unit
  | 0 => pure ()
  | remaining + 1 => do
    if ← interrupted then finish "Interrupted before status write"
    else
      let response ← exchange .Status
      if response.success then
        update fun result => { result with status_confirmed := true, original := response.status }
      else
        update fun result => { result with reason := response.reason }
        if !response.may_retry || remaining == 0 then throw .returned
        else if ← interrupted then throw .returned
        else
          note "Status retry after a complete five-second silent receive window"
          statusAttempts remaining

/-- The variant command, once its stage is entered. -/
def setVariant : Run Unit := do
  update fun result => { result with stage := "set_100deg_1deg" }
  if ← interrupted then finish "Interrupted before variant write"
  else
    let response ← exchange .Variant
    if response.success then update fun result => { result with variant_confirmed := true }
    else finish response.reason

/-- The capture after a confirmed start, and the stop. -/
def captureAndStop : Run Unit := do
  update fun result => { result with start_confirmed := true, stage := "capture" }
  let complete ← capture
  update fun result => { result with
    capture_complete := complete
    reason := if complete then "Ten-second capture completed"
      else "Capture interrupted or receive worker failed"
    stage := if complete then "stop_continuous" else "capture" }
  stop
  update fun result => { result with
    sequence_complete := result.capture_complete && result.stop_confirmed }
  if (← get).result.sequence_complete then
    update fun result => { result with
      stage := "complete"
      reason := "Status, requested settings, start, capture and stop confirmed" }

/-- The start command, the capture and the stop. -/
def startAndCapture : Run Unit := do
  update fun result => { result with stage := "start_continuous" }
  if ← interrupted then finish "Interrupted before start write"
  else
    update fun result => { result with start_attempted := true }
    let started ← exchange .Start
    update fun result => { result with start_attempted := started.write_attempted }
    if started.success then captureAndStop
    else
      update fun result => { result with reason := started.reason }
      stop
      throw .returned

/-- The body of the outer `try`. -/
def body (set_variant : Bool) : Run Unit := do
  statusAttempts 3
  if (← get).result.original.operating_mode ≠ 0x25 then
    finish ("Initial B1 mode is not monitoring on request (25); " ++
      "sequence aborted before settings/start")
  else
    if set_variant then setVariant
    startAndCapture

/-- The whole sequence. -/
def run_sequence (set_variant : Bool) : Run Unit := do
  update fun result => { result with variant_requested := set_variant }
  try body set_variant
  catch
    | .thrown what => do
      update fun result => { result with reason := "Exception: " ++ what }
      stop
    | .returned => pure ()

end Run

/-- An implementation answers a call and the call is recorded. -/
def SequenceIO.perform {τ : Type} (io : SequenceIO τ) (call : Call) (s : Session × τ) :
    Except Exit call.Answer × Session × τ :=
  let (answer, t) := io.answer call s.2
  (.ok answer, s.1.record (call.turn answer), t)

/-- The session after the sequence has run over an implementation. -/
def run_sequence {τ : Type} (io : SequenceIO τ) (t : τ) (set_variant : Bool) : Session :=
  ((Run.run_sequence set_variant).run io.perform ({}, t)).2.1

end Lms200.Native
