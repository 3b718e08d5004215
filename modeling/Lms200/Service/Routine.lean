import Lms200.Service.Effects

/-!
# What every coroutine of the service keeps

Of the steps of the coroutines only the end of a recording touches the recordings. An invariant which
the other steps keep, and which `stop_recording` keeps, is therefore kept by every coroutine.
-/

namespace Lms200.Service

open Coop Program

/-- Two services with the same recordings. -/
structure SameRecordings (s s' : Service) : Prop where
  recordings : s'.recordings = s.recordings
  recorder : s'.recorder = s.recorder
  record_task : s'.record_task = s.record_task
  record_queue : s'.record_queue = s.record_queue
  count : s'.count = s.count

theorem SameRecordings.of_fields {s s' : Service} (hsame : (s'.recordings, s'.recorder, s'.record_task,
      s'.record_queue, s'.count) = (s.recordings, s.recorder, s.record_task, s.record_queue, s.count)) :
    SameRecordings s s' := by
  simp only [Prod.mk.injEq] at hsame
  obtain ⟨hrecordings, hrecorder, hrecord_task, hrecord_queue, hcount⟩ := hsame
  exact ⟨hrecordings, hrecorder, hrecord_task, hrecord_queue, hcount⟩

/-- Two services with the same recordings and the same counter of their losses. -/
structure SameBooks (s s' : Service) : Prop extends SameRecordings s s' where
  record_drops : s'.record_drops = s.record_drops

theorem SameBooks.of_fields {s s' : Service} (hsame : (s'.recordings, s'.recorder, s'.record_task,
      s'.record_queue, s'.count, s'.record_drops) =
        (s.recordings, s.recorder, s.record_task, s.record_queue, s.count, s.record_drops)) :
    SameBooks s s' := by
  simp only [Prod.mk.injEq] at hsame
  obtain ⟨hrecordings, hrecorder, hrecord_task, hrecord_queue, hcount, hdrops⟩ := hsame
  exact ⟨⟨hrecordings, hrecorder, hrecord_task, hrecord_queue, hcount⟩, hdrops⟩

/-- Only the waits for a slot and for a worker touch a recording. -/
theorem Effect.sameBooks {task : ℕ} {w : Wait} {s s' : Service}
    {answer : Option (Except Failure Unit)} (h : Effect task w s answer s')
    (hput : ∀ r, w ≠ .put r) (hworker : ∀ r, w ≠ .worker r) : SameBooks s s' := by
  cases h with
  | queued => exact absurd rfl (hput _)
  | put => exact absurd rfl (hput _)
  | unqueued => exact absurd rfl (hput _)
  | passed => exact absurd rfl (hworker _)
  | _ => exact .of_fields rfl

/-- A start of a coroutine touches no recording. -/
theorem spawn_sameBooks {s s' : Service} {task : ℕ} {job : Job} {p : Task Unit}
    (h : spawn task job s = some (p, s')) : SameBooks s s' := by
  unfold spawn at h
  split at h
  all_goals first | split at h <;> cases h | cases h
  all_goals exact .of_fields rfl

/-- An invariant which the steps of the coroutines keep under their contracts. -/
structure Routine (contract : ℕ → Contract Service) (inv : Service → Prop) : Prop where
  change : ∀ task s s', SameBooks s s' → inv s → (contract task).guarantee s s' ∧ inv s'
  await : ∀ task w s, (∀ r, w ≠ .put r) → (∀ r, w ≠ .worker r) → inv s →
    (Task.await w).Safe waits task (contract task) (fun _ s' => inv s') s
  stop_recording : ∀ task s, inv s →
    (Task.stop_recording task).Safe waits task (contract task) (fun _ s' => inv s') s

namespace Routine

variable {contract : ℕ → Contract Service} {inv : Service → Prop} {task : ℕ} {α β : Type}
  {p : Program Service Wait Wait.Answer Failure α}

/-- A coroutine keeps the invariant wherever it starts. -/
def Keeps (contract : ℕ → Contract Service) (inv : Service → Prop) (task : ℕ)
    (p : Program Service Wait Wait.Answer Failure α) : Prop :=
  ∀ s : Service, inv s → p.Safe waits task (contract task) (fun _ s' => inv s') s

theorem bind {f : α → Program Service Wait Wait.Answer Failure β} (h : Keeps contract inv task p)
    (hf : ∀ a, Keeps contract inv task (f a)) : Keeps contract inv task (p >>= f) := fun s hs =>
  Safe.seq (h s hs) (fun a s' hs' => hf a s' hs') fun _ _ hs' => hs'

theorem attempt_bind {f : Except Failure α → Program Service Wait Wait.Answer Failure β}
    (h : Keeps contract inv task p) (hf : ∀ outcome, Keeps contract inv task (f outcome)) :
    Keeps contract inv task (p.attempt >>= f) := fun s hs =>
  Safe.attempt_seq (h s hs) fun outcome s' hs' => hf outcome s' hs'

theorem get_bind {f : Service → Program Service Wait Wait.Answer Failure α}
    (hf : ∀ s, Keeps contract inv task (f s)) : Keeps contract inv task (MonadState.get >>= f) := fun s hs =>
  Safe.get_bind (hf s s hs)

theorem pure (a : α) :
    Keeps contract inv task (Pure.pure a : Program Service Wait Wait.Answer Failure α) := fun _ hs => hs

theorem throw (e : Failure) :
    Keeps contract inv task (MonadExcept.throw e : Program Service Wait Wait.Answer Failure α) := fun _ hs => hs

variable (h : Routine contract inv)

include h

theorem modifies {f : Service → Service} (hf : ∀ s, SameBooks s (f s)) :
    Keeps contract inv task (modify f) := fun s hs => h.change task s (f s) (hf s) hs

theorem finally_modifies {f : Service → Service} (hp : Keeps contract inv task p)
    (hf : ∀ s, SameBooks s (f s)) : Keeps contract inv task (p.andFinally (modify f)) := fun s hs =>
  Safe.andFinally ((hp s hs).mono fun _ s' hs' => h.change task s' (f s') (hf s') hs')

theorem awaits {w : Wait} (hput : ∀ r, w ≠ .put r) (hworker : ∀ r, w ≠ .worker r) :
    Keeps contract inv task (Task.await w) := fun s hs => h.await task w s hput hworker hs

theorem stops : Keeps contract inv task (Task.stop_recording task) := fun s hs => h.stop_recording task s hs

theorem exclusively {body : Task Unit} (hbody : Keeps contract inv task body) :
    Keeps contract inv task (Task.exclusively body) :=
  bind (h.awaits (by simp) (by simp)) fun _ => h.finally_modifies hbody fun _ => .of_fields rfl

theorem close {note : Service → Service} (hnote : ∀ s, SameBooks s (note s)) :
    Keeps contract inv task (Task.close note) := by
  apply h.exclusively
  apply get_bind
  intro s
  split
  · exact bind (h.modifies hnote) fun _ => h.awaits (by simp) (by simp)
  · exact pure ()

theorem initializeDevice : Keeps contract inv task Task.initializeDevice := by
  apply get_bind
  intro s
  split
  · exact throw _
  · apply h.exclusively
    apply get_bind
    intro s
    split
    · exact pure ()
    · exact h.awaits (by simp) (by simp)

theorem operation (name : Operation) : Keeps contract inv operationTask (Task.operation name) := by
  have hclose : Keeps contract inv operationTask (Task.close id) := h.close fun _ => .of_fields rfl
  have hperform : Keeps contract inv operationTask (Task.perform name) := by
    cases name with
    | start => exact h.initializeDevice
    | reconnect =>
      exact bind h.stops fun _ => bind (h.modifies fun _ => .of_fields rfl) fun _ =>
        bind hclose fun _ => h.initializeDevice
    | stop => exact bind hclose fun _ => h.stops
    | probe =>
      apply get_bind
      intro s
      split
      · exact pure ()
      · exact h.awaits (by simp) (by simp)
  refine attempt_bind (bind (h.awaits (by simp) (by simp)) fun _ => attempt_bind hperform fun outcome => ?_)
    fun _ => h.modifies fun _ => .of_fields rfl
  match outcome with
  | .ok () =>
    apply h.modifies
    intro s
    unfold Task.recover
    split <;> exact .of_fields rfl
  | .error .cancelled => exact throw _
  | .error .recording => exact bind hclose fun _ => h.modifies fun _ => .of_fields rfl
  | .error .operation => exact bind hclose fun _ => h.modifies fun _ => .of_fields rfl

theorem iteration : Keeps contract inv watcherTask Task.iteration := by
  refine attempt_bind (bind (h.awaits (by simp) (by simp)) fun _ => get_bind fun s => ?_) fun outcome => ?_
  · split
    · refine h.finally_modifies ?_ fun _ => .of_fields rfl
      exact bind (h.modifies fun _ => .of_fields rfl) fun _ => bind h.stops fun _ =>
        bind (h.close fun _ => .of_fields rfl) fun _ => h.modifies fun _ => .of_fields rfl
    · exact pure ()
  · match outcome with
    | .ok () => exact pure ()
    | .error e => exact h.modifies fun _ => .of_fields rfl

theorem suppressed {w : Wait} (hput : ∀ r, w ≠ .put r) (hworker : ∀ r, w ≠ .worker r) :
    Keeps contract inv task (Task.suppressed w) := by
  apply attempt_bind (h.awaits hput hworker)
  intro outcome
  match outcome with
  | .ok () => exact pure ()
  | .error .cancelled => exact pure ()
  | .error .recording => exact throw _
  | .error .operation => exact throw _

theorem shutdown : Keeps contract inv shutdownTask Task.shutdown := by
  have hrest : Keeps contract inv shutdownTask (do
      if (← get).busy then
        Task.cancel operationTask
        Task.suppressed .operation
      modify fun s : Service => { s with reached := true }
      Task.close id
      Task.stop_recording shutdownTask) := by
    have hend : Keeps contract inv shutdownTask (do
        modify fun s : Service => { s with reached := true }
        Task.close id
        Task.stop_recording shutdownTask) :=
      bind (h.modifies fun _ => .of_fields rfl) fun _ => bind (h.close fun _ => .of_fields rfl) fun _ => h.stops
    apply get_bind
    intro s
    split
    · exact bind (h.modifies fun _ => .of_fields rfl) fun _ => bind (h.suppressed (by simp) (by simp)) fun _ => hend
    · exact hend
  apply get_bind
  intro s
  split
  · exact hrest
  · exact bind (h.modifies fun _ => .of_fields rfl) fun _ => bind (h.suppressed (by simp) (by simp)) fun _ => hrest
  · exact bind (h.suppressed (by simp) (by simp)) fun _ => hrest

/-- Every coroutine which is started keeps the invariant. -/
theorem spawned {s s' : Service} {job : Job} {p : Task Unit} (hspawn : spawn task job s = some (p, s'))
    (hs : inv s) : p.Safe waits task (contract task) (fun _ s' => inv s') s' := by
  have hs' : inv s' := (h.change task s s' (spawn_sameBooks hspawn) hs).2
  unfold spawn at hspawn
  split at hspawn
  all_goals first | split at hspawn <;> cases hspawn | cases hspawn
  · exact h.iteration _ hs'
  · exact h.operation _ _ hs'
  · exact h.shutdown _ hs'
  · exact h.stops _ hs'

end Routine

end Lms200.Service
