import Lms200.Service.Tasks

/-!
# What the waits of the service do

Every turn of a wait has one of few effects. Most of them leave the recordings alone, and most of
them leave the device alone; what a claim about one of the two has to look at is the rest.
-/

namespace Lms200.Service

open Coop

/-- The effects of the turns of a wait: what the task gets, if it goes on, and the state it
leaves. -/
inductive Effect (task : ℕ) : Wait → Service → Option (Except Failure Unit) → Service → Prop
  | blocked {w s} : Effect task w s none s
  | queued {r s} : (s.recordings r).full = true → Effect task (.put r) s none
      (s.update r { s.recordings r with putters := (s.recordings r).putters ++ [task] })
  | lined {s} : ¬ (s.operation_lock = none ∧ s.waiters = []) →
      Effect task .operationLock s none { s with waiters := s.waiters ++ [task] }
  | passed {r s} : (s.recordings r).worker.done = false → Effect task (.worker r) s none
      ((s.cancelled task).update r { s.recordings r with cancelling := true })
  | went {w s} : w = .scheduled ∨ w = .nap ∨ w = .connect → Effect task w s (some (.ok ())) s
  | raised {s} : Effect task .connect s (some (.error .operation)) s
  | put {r s} : (s.recordings r).full = false → Effect task (.put r) s (some (.ok ())) (s.putNone task r)
  | joined {r s outcome} : (s.recordings r).worker = .ended outcome →
      Effect task (.worker r) s (some outcome) s
  | locked {s} : s.operation_lock = none → s.waiters = [] ∨ s.waiters.head? = some task →
      Effect task .operationLock s (some (.ok ()))
        { s.come task with operation_lock := some task, waiters := s.waiters.tail }
  | established {s} : Effect task .establish s (some (.ok ())) { s with state := .STREAMING, opened := true }
  | failed {s} : Effect task .establish s (some (.error .operation)) { s.fault with opened := false }
  | closed {s} : Effect task .closeUnlocked s (some (.ok ()))
      { s with state := .DISCONNECTED, opened := false }
  | watched {s outcome} : s.watcher = .ended outcome → Effect task .watcher s (some outcome) s
  | operated {s outcome} : s.busy = false → s.operation = outcome →
      Effect task .operation s (some outcome) s
  | unqueued {r s} : Effect task (.put r) s (some (.error .cancelled)) ((s.cancelled task).update r
      { s.recordings r with putters := (s.recordings r).putters.filter (· ≠ task) })
  | unlined {s} : Effect task .operationLock s (some (.error .cancelled))
      { (s.cancelled task).come task with waiters := s.waiters.filter (· ≠ task) }
  | unestablished {s} : Effect task .establish s (some (.error .cancelled))
      { (s.cancelled task).fault with opened := false }
  | cancelled {w s} : (∀ r, w ≠ .put r) → w ≠ .operationLock → w ≠ .establish →
      Effect task w s (some (.error .cancelled)) (s.cancelled task)

/-- A turn of a cancelled task has one of the effects. -/
theorem Effect.of_resumeCancelled {task : ℕ} {w : Wait} {s s' : Service}
    {answer : Option (Except Failure Unit)} (h : resumeCancelled task w s = (answer, s')) :
    Effect task w s answer s' := by
  unfold resumeCancelled at h
  cases w with
  | worker r =>
    simp only at h
    split at h
    · cases h
      exact .cancelled (by simp) (by simp) (by simp)
    · next hdone =>
      cases h
      exact .passed (by simpa using hdone)
  | put r => cases h; exact .unqueued
  | operationLock => cases h; exact .unlined
  | establish => cases h; exact .unestablished
  | _ => cases h; exact .cancelled (by simp) (by simp) (by simp)

/-- Every turn of a wait has one of the effects. -/
theorem Effect.of_turns {task : ℕ} {w : Wait} {s s' : Service} {answer : Option (Except Failure Unit)}
    (h : Service.waits.Turns task w s answer s') : Effect task w s answer s' := by
  rcases h with h | ⟨choice, h⟩
  · simp only [waits, enter] at h
    cases w with
    | put r =>
      simp only at h
      split at h
      · next hfull => cases h; exact .queued hfull
      · next hfull => cases h; exact .put (by simpa using hfull)
    | worker r =>
      simp only at h
      split at h
      · next hended => cases h; exact .joined hended
      · cases h; exact .blocked
    | operationLock =>
      simp only at h
      split at h
      · next hfree =>
        cases h
        have heffect : Effect task .operationLock s _ _ := .locked hfree.1 (.inl hfree.2)
        rw [hfree.2, List.tail_nil] at heffect
        obtain ⟨-, hwaiters⟩ := hfree
        have hsame : { s.come task with operation_lock := some task, waiters := [] } =
            { s.come task with operation_lock := some task } := by rw [← hwaiters]; rfl
        rwa [hsame] at heffect
      · next hbusy => cases h; exact .lined hbusy
    | watcher =>
      simp only at h
      split at h
      · next hended => cases h; exact .watched hended
      · cases h; exact .blocked
    | _ => cases h; exact .blocked
  · simp only [waits, resume] at h
    cases choice with
    | cancels =>
      simp only at h
      split at h
      · exact .of_resumeCancelled (Option.some.inj h)
      · cases h
    | raises =>
      cases w with
      | connect => cases h; exact .raised
      | establish => cases h; exact .failed
      | _ => cases h
    | goes =>
      cases w with
      | scheduled => cases h; exact .went (by simp)
      | nap => cases h; exact .went (by simp)
      | put r =>
        simp only at h
        split at h
        · cases h
        · next hfull => cases h; exact .put (by simpa using hfull)
      | worker r =>
        simp only at h
        split at h
        · next hended => cases h; exact .joined hended
        · cases h
      | operationLock =>
        simp only at h
        split at h
        · next hfree => cases h; exact .locked hfree.1 (.inr hfree.2)
        · cases h
      | connect =>
        simp only at h
        split at h
        · cases h; exact .went (by simp)
        · cases h
      | establish => cases h; exact .established
      | closeUnlocked => cases h; exact .closed
      | watcher =>
        simp only at h
        split at h
        · next hended => cases h; exact .watched hended
        · cases h
      | operation =>
        simp only at h
        split at h
        · cases h
        · next hidle => cases h; exact .operated (by simpa using hidle) rfl

end Lms200.Service
