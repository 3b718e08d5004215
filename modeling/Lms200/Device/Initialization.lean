import Lms200.Device.Call
import Lms200.Device.InitTrace

/-!
# Initialization keeps to its plan

Whatever the scanner and the transport do during one call of `initialize`, the log of the wire
stays within the plan, and the stop is added exactly when the call fails over a changed scanner.
-/

namespace Lms200

open Coop Traffic

variable {d : Device} {start_stream : Bool}

/-- The call has nothing open, and nothing has happened on the wire yet. -/
structure Device.Closed (d : Device) : Prop where
  opened : d.opened = false
  changed : d.changed = false
  replay : d.transport.replay = none
  state : d.state ≠ .STREAMING
  operation_lock : d.operation_lock = none
  wire : d.wire = []

/-- What the log looks like at the end of the call. -/
def Concluded (d : Device) (start_stream : Bool) (outcome : Except Error Unit)
    (wire : List Wire) : Prop :=
  match outcome with
  | .ok () => Completed d start_stream wire
  | .error _ => Abandoned d start_stream wire

/-- A close after a failure concludes the call. -/
theorem Fresh.concluded {S : Session} (h : Fresh d S)
    (hwritable : d.settings.require_write = .ok ()) :
    Traces (Traced d start_stream)
      (do match ← (Action.establish start_stream).attempt with
          | .ok () => pure ()
          | .error e =>
            Action.closeUnlocked
            Action.transition .FAULTED
            throw e)
      (fun outcome T => Concluded d start_stream outcome T.wire) S := by
  refine Traces.attempt_bind (h.establish hwritable) ?_
  rintro (e | _) T hT
  · refine Traces.bind (Stranded.closeUnlocked hT hwritable) ?_ fun _ _ hclosed => hclosed
    exact fun _ T hclosed => Traces.transition_bind (Traces.throw hclosed)
  · exact Traces.pure hT

/-- The call keeps to the plan and concludes it. -/
theorem Device.Closed.meets (h : d.Closed) :
    Meets 0 (solo (Traced d start_stream)) (Action.initializeDevice start_stream)
      (fun outcome d' => Concluded d start_stream outcome d'.wire) d := by
  have hfresh : Fresh d { d.toSession with operation_lock := some 0 } :=
    ⟨rfl, rfl, h.replay, h.opened, h.changed, h.wire⟩
  refine Meets.get_bind (Meets.lift_bind (fun _ hwritable => ?_) fun e _ => ?_)
  · refine Meets.bind (Meets.operationLock_free h.operation_lock (.inl rfl)) ?_
      fun e d' h => nomatch h.1
    rintro _ _ ⟨-, rfl⟩
    refine Meets.finally_modify (Meets.get_bind ?_) fun outcome d' hconcluded =>
      ⟨.inl rfl, hconcluded⟩
    rw [if_neg h.state]
    exact hfresh.concluded hwritable _ rfl
  · have hstranded : Stranded d start_stream _ := hfresh.stranded
    have hnil : d.wire = [] := h.wire
    refine (show Abandoned d start_stream d.wire from ⟨hstranded.traced, ?_⟩)
    rw [hnil]
    exact iff_of_false (by simp [sinceClose, payloads])
      fun ⟨_, hmem, _⟩ => absurd hmem List.not_mem_nil

/-- Each kind of mutating telegram is attempted once at most. -/
theorem Traced.countP_le_one {wire : List Wire} (h : Traced d start_stream wire) (kind : Mutation) :
    (payloads wire).countP (Mutation.of · = some kind) ≤ 1 := by
  obtain ⟨⟨p, -, hbegins, -⟩, hsince⟩ := h
  have hbefore := (hbegins.countP_le (Mutation.of · = some kind)).trans (p.allowance_le_one kind)
  have hclose : (payloads (sinceClose wire)).countP (Mutation.of · = some kind) = 0 := by
    rcases hsince with hnil | ⟨hstop, -⟩
    · rw [hnil]
      rfl
    · rw [hstop]
      simp [stopPayload, Mutation.of]
  rw [payloads_split, List.countP_append, hclose]
  exact hbefore

/-- In every pool which a call of `initialize` on a closed device reaches, its writes begin the
plan and each kind of change is attempted once at most; when the call has ended, the plan is
complete or the stop was added exactly if something had been changed. -/
theorem initialize_trace (d : Device) (start_stream : Bool) (hclosed : d.Closed) {pool : DevicePool}
    (hrun : d.CallReaches anything (Action.initializeDevice start_stream) pool) :
    Traced d start_stream pool.shared.wire ∧
      (∀ kind, (payloads pool.shared.wire).countP (Mutation.of · = some kind) ≤ 1) ∧
      ∀ outcome, pool.stage 0 = .done outcome →
        Concluded d start_stream outcome pool.shared.wire := by
  have hsession : ∀ (d : Device) input, (d.react input).toSession = d.toSession :=
    Device.react_session
  let inv (d' : Device) : Prop := Traced d start_stream d'.wire
  have hnow : inv d := by
    rw [show inv d ↔ Traced d start_stream [] from by rw [← hclosed.wire]]
    exact traced_nil
  obtain ⟨htraced, hstage⟩ := hrun.safe hclosed.meets hnow
    (fun d' d'' h htraced => h.elim (fun heq => show Traced _ _ d''.wire from heq ▸ htraced) id)
    (fun d' input _ (htraced : Traced _ _ d'.wire) =>
      show Traced _ _ (d'.react input).toSession.wire by rwa [hsession])
    (fun d' input _ _ => hsession d' input)
    (fun outcome d' d'' h (hd : d''.toSession = d'.toSession) =>
      show Concluded _ _ outcome d''.toSession.wire by rwa [hd])
  refine ⟨htraced, htraced.countP_le_one, fun outcome hdone => ?_⟩
  rw [hdone] at hstage
  exact hstage

/-- The first request is answered by the end of the transport. -/
def disconnectedScript : List (Move Input Unit Choice) :=
  [.turn 0 .done, .outside .begin, .turn 0 .done, .turn 0 .done, .outside (.read .eof),
    .turn 0 .done, .turn 0 .done, .turn 0 .done]

theorem initialize_trace_disconnected : ∃ pool,
    Device.played reactAnyhow { settings := {} } (Action.initializeDevice true)
        disconnectedScript = some pool ∧
      Traced { settings := {} } true pool.shared.wire ∧
      Concluded { settings := {} } true (.error (.eof "Transport ended")) pool.shared.wire := by
  have hoverview : (Device.played reactAnyhow { settings := {} }
      (Action.initializeDevice true) disconnectedScript).map (fun pool => (pool.stage 0).outcome) =
        some (some (.error (.eof "Transport ended"))) := by decide +kernel
  obtain ⟨pool, hplayed, houtcome⟩ := Option.map_eq_some_iff.mp hoverview
  obtain ⟨htraced, -, hconcluded⟩ := initialize_trace { settings := {} } true
    ⟨rfl, rfl, rfl, by decide, rfl, rfl⟩ (.of_played reactAnyhow_anything hplayed)
  exact ⟨pool, hplayed, htraced, hconcluded _ (Stage.outcome_eq_some.mp houtcome)⟩

end Lms200
