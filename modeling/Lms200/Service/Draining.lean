import Lms200.Service.Routine

/-!
# Stopping a recording and its worker

A call of `stop_recording` which finds the queue full waits for a slot which only the worker can
free. The recording then belongs to that call alone: nothing else is put into its queue, and
nothing cancels its worker. So the worker leaves its loop while the call waits only by a failing
write, and the call is stuck if the queue is full at that time.
-/

namespace Lms200.Service

open Coop Program

/-- No write fails while a call waits for a slot of the full queue of its recording. -/
def drainsInput : Input → Service → Bool
  | .worker r .writeFails, s => (s.recordings r).putters = [] ∨ (s.recordings r).full = false
  | _, _ => true

/-- What is attached, who holds what is not, and what a call which waits for a slot can rely on. -/
structure Orderly (s : Service) : Prop where
  recorder : ∀ r, s.recorder = some r → s.record_task = some r ∧ (s.recordings r).worker.looping = true
  attached : ∀ r, s.record_task = some r →
    r < s.count ∧ (s.recordings r).holder = none ∧ s.record_queue = some r
  held : ∀ r, (s.recordings r).holder ≠ none → r < s.count
  unheld : ∀ r, (s.recordings r).holder = none → (s.recordings r).putters = [] ∧
    none ∉ (s.recordings r).queue ∧ (s.recordings r).cancelling = false
  putting : ∀ r, ∀ task ∈ (s.recordings r).putters, (s.recordings r).holder = some task ∧
    none ∉ (s.recordings r).queue ∧ (s.recordings r).cancelling = false ∧
    ((s.recordings r).worker.looping = true ∨ (s.recordings r).full = false)

/-- What a task holds stays its own, and whether it waits for a slot is its own affair. -/
def Leaves (task : ℕ) (s s' : Service) : Prop :=
  ∀ r, (s.recordings r).holder = some task → (s'.recordings r).holder = some task ∧
    (task ∈ (s'.recordings r).putters ↔ task ∈ (s.recordings r).putters)

/-- Every task keeps the order, and its hands off what the others hold. -/
def draining (task : ℕ) : Contract Service where
  rely s s' := s.Orderly → s'.Orderly ∧ Leaves task s s'
  guarantee s s' := s.Orderly → s'.Orderly ∧ ∀ other, other ≠ task → Leaves other s s'

/-- A coroutine of a task which keeps to the contract. -/
abbrev Drains (task : ℕ) {α : Type} (p : Program Service Wait Wait.Answer Failure α)
    (post : Except Failure α → Service → Prop) (s : Service) : Prop :=
  p.Safe waits task (draining task) post s

namespace Orderly

variable {s s' : Service} {task : ℕ}

theorem same (hs : s.Orderly) (h : SameRecordings s s') : s'.Orderly := by
  obtain ⟨hrecordings, hrecorder, hrecord_task, hrecord_queue, hcount⟩ := h
  constructor
  all_goals simp only [hrecordings, hrecorder, hrecord_task, hrecord_queue, hcount]
  exacts [hs.recorder, hs.attached, hs.held, hs.unheld, hs.putting]

/-- A change of one recording which keeps its holder: what is left to check is what holds of it. -/
theorem update {r : ℕ} (hs : s.Orderly) (recording : Recording)
    (hholder : recording.holder = (s.recordings r).holder)
    (hlooping : s.recorder = some r → recording.worker.looping = true)
    (hunheld : recording.holder = none → recording.putters = [] ∧ none ∉ recording.queue ∧
      recording.cancelling = false)
    (hputting : ∀ task ∈ recording.putters, recording.holder = some task ∧ none ∉ recording.queue ∧
      recording.cancelling = false ∧ (recording.worker.looping = true ∨ recording.full = false)) :
    (s.update r recording).Orderly := by
  constructor
  all_goals
    intro q
    by_cases hq : q = r
    · subst hq
      simp only [Service.update, Function.update_self]
      first
        | exact fun h => ⟨(hs.recorder q h).1, hlooping h⟩
        | exact fun h => by
            rw [hholder]
            exact hs.attached q h
        | exact fun h => hs.held q (hholder ▸ h)
        | exact hunheld
        | exact hputting
    · simp only [Service.update, Function.update_of_ne hq]
      first
        | exact hs.recorder q
        | exact hs.attached q
        | exact hs.held q
        | exact hs.unheld q
        | exact hs.putting q

end Orderly

section Leaving

variable {s s' : Service} {task r : ℕ} {recording : Recording}

theorem SameRecordings.leaves (h : SameRecordings s s') (task : ℕ) : Leaves task s s' := fun r hr => by
  rw [h.recordings]
  exact ⟨hr, Iff.rfl⟩

/-- Services with the same recordings are in the same order. -/
theorem SameRecordings.guarantee (h : SameRecordings s s') : (draining task).guarantee s s' :=
  fun hs => ⟨hs.same h, fun other _ => h.leaves other⟩

theorem leaves_update (h : (s.recordings r).holder = some task → recording.holder = some task ∧
    (task ∈ recording.putters ↔ task ∈ (s.recordings r).putters)) :
    Leaves task s (s.update r recording) := by
  intro q hq
  by_cases hqr : q = r
  · subst hqr
    simpa [Service.update] using h hq
  · simpa [Service.update, Function.update_of_ne hqr] using hq

/-- The holder of a recording may change it. -/
theorem Orderly.update_held (hs : s.Orderly) (recording : Recording) (hheld : (s.recordings r).holder = some task)
    (hholder : recording.holder = some task)
    (hputting : ∀ other ∈ recording.putters, other = task ∧ none ∉ recording.queue ∧
      recording.cancelling = false ∧ (recording.worker.looping = true ∨ recording.full = false)) :
    (s.update r recording).Orderly ∧ ∀ other, other ≠ task → Leaves other s (s.update r recording) := by
  refine ⟨hs.update _ (hholder.trans hheld.symm) (fun hr => ?_) (fun h => ?_) fun other hother => ?_,
    fun other hne => leaves_update fun h => ?_⟩
  · have hnone := (hs.attached r (hs.recorder r hr).1).2.1
    simp [hheld] at hnone
  · simp [hholder] at h
  · obtain ⟨rfl, hrest⟩ := hputting other hother
    exact ⟨hholder, hrest⟩
  · exact absurd (Option.some.inj (h.symm.trans hheld)) hne

/-- Only the holder of a recording waits for a slot of its queue. -/
theorem Orderly.putter_eq (hs : s.Orderly) (hheld : (s.recordings r).holder = some task) {other : ℕ}
    (h : other ∈ (s.recordings r).putters) : other = task :=
  Option.some.inj ((hs.putting r other h).1.symm.trans hheld)

/-- Detaching a recording gives it to the task, with an idle queue and a worker at work. -/
theorem detach_drains (task : ℕ) (hs : s.Orderly) : (Task.detach task s).Orderly ∧
    ∀ other, other ≠ task → Leaves other s (Task.detach task s) := by
  unfold Task.detach
  split
  · next hnone =>
    have hrecorder : ∀ r, s.recorder ≠ some r := fun r hr => by simp [(hs.recorder r hr).1] at hnone
    exact ⟨⟨by simp, hs.attached, hs.held, hs.unheld, hs.putting⟩, fun _ _ _ hr => ⟨hr, Iff.rfl⟩⟩
  · next r hr =>
    obtain ⟨hcount, hholder, -⟩ := hs.attached r hr
    obtain ⟨hputters, -, -⟩ := hs.unheld r hholder
    refine ⟨⟨by simp, by simp, fun q hq => ?_, fun q hq => ?_, fun q other hother => ?_⟩,
      fun other _ q hq => ?_⟩
    all_goals
      by_cases hqr : q = r
      · subst hqr
        simp only [Service.update, Function.update_self] at *
        first
          | exact hcount
          | simp at hq
          | simp [hputters] at hother
          | simp [hholder] at hq
      · simp only [Service.update, Function.update_of_ne hqr] at *
        first
          | exact hs.held q hq
          | exact hs.unheld q hq
          | exact hs.putting q other hother
          | exact ⟨hq, trivial⟩

end Leaving

section Rules

variable {s : Service} {task : ℕ}

/-- The waits which touch no recording. -/
theorem await_drains {w : Wait} (hput : ∀ r, w ≠ .put r) (hworker : ∀ r, w ≠ .worker r) (hs : s.Orderly) :
    Drains task (Task.await w) (fun _ s' => s'.Orderly) s := by
  refine Safe.request (Reached.of_turns Orderly (fun t t' ht hrely => (hrely ht).1)
    (fun t answer t' ht hturn => ?_) hs)
  have hsame := ((Effect.of_turns hturn).sameBooks hput hworker).toSameRecordings
  exact ⟨hsame.guarantee, fun _ => ht.same hsame, fun _ _ => ht.same hsame⟩

/-- A call which holds a recording and has put the sentinel waits for the worker. -/
theorem join_drains {r : ℕ} (hs : s.Orderly) (hheld : (s.recordings r).holder = some task)
    (hdone : task ∉ (s.recordings r).putters) :
    Drains task (Task.await (.worker r)) (fun _ s' => s'.Orderly) s := by
  refine Safe.request (Reached.of_turns (fun s => s.Orderly ∧ (s.recordings r).holder = some task ∧
    task ∉ (s.recordings r).putters) ?_ ?_ ⟨hs, hheld, hdone⟩)
  · rintro t t' ⟨ht, hheld, hdone⟩ hrely
    obtain ⟨ht', hleaves⟩ := hrely ht
    obtain ⟨hheld', hputters⟩ := hleaves r hheld
    exact ⟨ht', hheld', fun hmem => hdone (hputters.mp hmem)⟩
  · rintro t answer t' ⟨ht, hheld, hdone⟩ hturn
    cases Effect.of_turns hturn with
    | blocked => exact ⟨fun h => ⟨h, fun _ _ _ hr => ⟨hr, Iff.rfl⟩⟩, fun _ => ⟨ht, hheld, hdone⟩, by simp⟩
    | went hw => simp at hw
    | joined => exact ⟨fun h => ⟨h, fun _ _ _ hr => ⟨hr, Iff.rfl⟩⟩, by simp, fun _ _ => ht⟩
    | cancelled =>
      have hsame : SameRecordings t (t.cancelled task) := .of_fields rfl
      exact ⟨hsame.guarantee, by simp, fun _ _ => ht.same hsame⟩
    | passed =>
      -- Nobody waits for a slot any more, so the worker may be cancelled.
      have hsame : SameRecordings t (t.cancelled task) := .of_fields rfl
      have hnobody : ∀ other, other ∉ (t.recordings r).putters := fun other hmem =>
        hdone (ht.putter_eq hheld hmem ▸ hmem)
      obtain ⟨ht', hleaves⟩ := (ht.same hsame).update_held
        { t.recordings r with cancelling := true } hheld hheld
        (fun other hmem => absurd hmem (hnobody other))
      refine ⟨fun _ => ⟨ht', fun other hne => hleaves other hne⟩, fun _ => ⟨ht', ?_, ?_⟩, by simp⟩
      · simpa [Service.update] using hheld
      · simpa [Service.update] using hdone

/-- What a call may rely on while it waits for a slot. -/
structure Putting (task r : ℕ) (s : Service) : Prop where
  orderly : s.Orderly
  held : (s.recordings r).holder = some task
  mem : task ∈ (s.recordings r).putters

/-- The sentinel goes into the queue. -/
theorem putNone_drains {r : ℕ} (hs : s.Orderly) (hheld : (s.recordings r).holder = some task) :
    ((s.putNone task r).Orderly ∧ ∀ other, other ≠ task → Leaves other s (s.putNone task r)) ∧
      ((s.putNone task r).recordings r).holder = some task ∧
      task ∉ ((s.putNone task r).recordings r).putters := by
  refine ⟨hs.update_held _ hheld hheld fun other hmem => ?_, by simpa [putNone, Service.update] using hheld,
    by simp [putNone, Service.update]⟩
  obtain ⟨hmem, hne⟩ := List.mem_filter.mp hmem
  exact absurd (hs.putter_eq hheld hmem) (by simpa using hne)

/-- The call waits for a slot of a queue whose worker is at work, or which is not full. -/
theorem queue_drains {r : ℕ} (hs : s.Orderly) (hheld : (s.recordings r).holder = some task)
    (hqueue : none ∉ (s.recordings r).queue) (hcancelling : (s.recordings r).cancelling = false)
    (hworker : (s.recordings r).worker.looping = true ∨ (s.recordings r).full = false) :
    (draining task).guarantee s (s.update r { s.recordings r with
        putters := (s.recordings r).putters ++ [task] }) ∧
      Putting task r (s.update r { s.recordings r with putters := (s.recordings r).putters ++ [task] }) := by
  obtain ⟨horderly, hleaves⟩ := hs.update_held { s.recordings r with
      putters := (s.recordings r).putters ++ [task] } hheld hheld fun other hmem => by
    refine ⟨?_, hqueue, hcancelling, hworker⟩
    rcases List.mem_append.mp hmem with hmem | hmem
    · exact hs.putter_eq hheld hmem
    · exact List.mem_singleton.mp hmem
  exact ⟨fun _ => ⟨horderly, hleaves⟩, horderly, by simpa [Service.update] using hheld,
    by simp [Service.update]⟩

/-- While it waits, nobody but the worker takes a turn in the recording. -/
theorem suspended_drains {r : ℕ} {next : Except Failure Unit → Service → Prop} (hs : Putting task r s)
    (hput : ∀ t : Service, t.Orderly → (t.recordings r).holder = some task →
      next (.ok ()) (t.putNone task r))
    (hcancelled : ∀ t : Service, t.Orderly → next (.error .cancelled) t) :
    Suspended waits task (draining task) (.put r) next s := by
  have hturn : ∀ t answer t', Putting task r t → Service.waits.Turns task (.put r) t answer t' →
      (draining task).guarantee t t' ∧ (answer = none → Putting task r t') ∧
        ∀ a, answer = some a → next a t' := by
    rintro t answer t' ⟨ht, hheld, hmem⟩ hturn
    obtain ⟨-, hqueue, hcancelling, hworker⟩ := ht.putting r task hmem
    cases Effect.of_turns hturn with
    | blocked => exact ⟨fun h => ⟨h, fun _ _ _ hr => ⟨hr, Iff.rfl⟩⟩, fun _ => ⟨ht, hheld, hmem⟩, by simp⟩
    | queued =>
      obtain ⟨hguarantee, hputting⟩ := queue_drains ht hheld hqueue hcancelling hworker
      exact ⟨hguarantee, fun _ => hputting, by simp⟩
    | went hw => simp at hw
    | put =>
      refine ⟨fun _ => (putNone_drains ht hheld).1, by simp, fun a ha => ?_⟩
      cases ha
      exact hput t ht hheld
    | unqueued =>
      have hsame : SameRecordings t (t.cancelled task) := .of_fields rfl
      obtain ⟨ht', hleaves⟩ := (ht.same hsame).update_held
        { t.recordings r with putters := (t.recordings r).putters.filter (· ≠ task) }
        hheld hheld fun other hother => by
          obtain ⟨hother, hne⟩ := List.mem_filter.mp hother
          exact absurd (ht.putter_eq hheld hother) (by simpa using hne)
      refine ⟨fun _ => ⟨ht', fun other hne => hleaves other hne⟩, by simp, fun a ha => ?_⟩
      cases ha
      exact hcancelled _ ht'
    | cancelled hne => exact absurd rfl (hne r)
  refine ⟨Putting task r, hs, ?_, fun choice t t' ht h => ?_, fun choice t answer t' ht h => ?_⟩
  · rintro t t' ⟨ht, hheld, hmem⟩ hrely
    obtain ⟨ht', hleaves⟩ := hrely ht
    obtain ⟨hheld', hputters⟩ := hleaves r hheld
    exact ⟨ht', hheld', hputters.mpr hmem⟩
  · obtain ⟨hguarantee, hstay, -⟩ := hturn t none t' ht (.inr ⟨choice, h⟩)
    exact ⟨hguarantee, hstay rfl⟩
  · obtain ⟨hguarantee, -, hnext⟩ := hturn t (some answer) t' ht (.inr ⟨choice, h⟩)
    exact ⟨hguarantee, hnext answer rfl⟩

/-- A call which has detached a recording puts the sentinel, at once or when the worker has freed a
slot, and waits for the worker. -/
theorem put_drains {r : ℕ} (hs : s.Orderly) (hheld : (s.recordings r).holder = some task)
    (hlooping : (s.recordings r).worker.looping = true) (hqueue : none ∉ (s.recordings r).queue)
    (hcancelling : (s.recordings r).cancelling = false) :
    Drains task (do Task.await (.put r); Task.await (.worker r)) (fun _ s' => s'.Orderly) s := by
  let mid (outcome : Except Failure Unit) (s' : Service) : Prop := s'.Orderly ∧ (outcome = .ok () →
    (s'.recordings r).holder = some task ∧ task ∉ (s'.recordings r).putters)
  have hput (t : Service) (ht : t.Orderly) (hheld : (t.recordings r).holder = some task) :
      mid (.ok ()) (t.putNone task r) := by
    obtain ⟨hkept, hdone⟩ := putNone_drains ht hheld
    exact ⟨hkept.1, fun _ => hdone⟩
  refine Safe.seq (Q := mid) (Safe.request ?_) (fun _ s' hmid => ?_) fun _ _ hmid => hmid.1
  · have henter : Service.waits.enter task (.put r) s = if (s.recordings r).full = true then
        (none, s.update r { s.recordings r with putters := (s.recordings r).putters ++ [task] })
        else (some (.ok ()), s.putNone task r) := rfl
    split at henter
    · obtain ⟨hguarantee, hputting⟩ := queue_drains hs hheld hqueue hcancelling (.inl hlooping)
      exact Reached.intro henter hguarantee (by simp) fun _ =>
        suspended_drains hputting hput fun t ht => ⟨ht, by simp⟩
    · refine Reached.intro henter (fun _ => (putNone_drains hs hheld).1) (fun a ha => ?_) (by simp)
      cases ha
      exact hput s hs hheld
  · obtain ⟨hs', hdone⟩ := hmid
    obtain ⟨hheld', hdone'⟩ := hdone rfl
    exact join_drains hs' hheld' hdone'

/-- `stop_recording` keeps the order. -/
theorem stop_recording_drains (hs : s.Orderly) :
    Drains task (Task.stop_recording task) (fun _ s' => s'.Orderly) s := by
  unfold Task.stop_recording
  refine Safe.get_bind (Safe.modify_bind (fun _ => detach_drains task hs) ?_)
  have hdetached := (detach_drains task hs).1
  cases hr : s.record_task with
  | none => exact hdetached
  | some r =>
    obtain ⟨-, hholder, hrecord⟩ := hs.attached r hr
    obtain ⟨hputters, hqueue, hcancelling⟩ := hs.unheld r hholder
    have hrecording : (Task.detach task s).recordings r = { s.recordings r with holder := some task } := by
      simp [Task.detach, hr, Service.update]
    dsimp only
    split
    · next hrecorder =>
      simp only [Bool.and_eq_true, Option.isSome_iff_exists] at hrecorder
      obtain ⟨⟨r', hr'⟩, -⟩ := hrecorder
      obtain ⟨htask, hlooping⟩ := hs.recorder r' hr'
      obtain rfl : r' = r := Option.some.inj (htask.symm.trans hr)
      rw [hrecord, Option.getD_some]
      refine put_drains hdetached ?_ ?_ ?_ ?_ <;> rw [hrecording]
      exacts [hlooping, hqueue, hcancelling]
    · refine join_drains hdetached ?_ ?_ <;> rw [hrecording]
      simp [hputters]

end Rules

/-- The coroutines keep the order. -/
theorem draining_routine : Routine draining Orderly where
  change _ _ _ hsame hs := ⟨hsame.toSameRecordings.guarantee, hs.same hsame.toSameRecordings⟩
  await _ _ _ hput hworker hs := await_drains hput hworker hs
  stop_recording _ _ hs := stop_recording_drains hs

section Environment

variable {s s' : Service} {r : ℕ}

/-- A recording which its call and its worker leave as they found it, the worker apart. -/
structure Worked (s : Service) (r : ℕ) (recording : Recording) : Prop where
  holder : recording.holder = (s.recordings r).holder
  putters : recording.putters = (s.recordings r).putters
  queue : none ∈ recording.queue → none ∈ (s.recordings r).queue
  cancelling : recording.cancelling = true → (s.recordings r).cancelling = true
  recorder : s.recorder = some r → recording.worker.looping = true
  putting : (s.recordings r).putters ≠ [] → recording.worker.looping = true ∨ recording.full = false

/-- Such a turn of a worker keeps the order. -/
theorem Worked.orderly {recording : Recording} (h : Worked s r recording) (hs : s.Orderly) :
    (s.update r recording).Orderly ∧ ∀ task, Leaves task s (s.update r recording) := by
  have hcancelling (hfalse : (s.recordings r).cancelling = false) : recording.cancelling = false := by
    cases hc : recording.cancelling with
    | false => rfl
    | true => simp [h.cancelling hc] at hfalse
  refine ⟨hs.update _ h.holder h.recorder (fun hnone => ?_) fun task hmem => ?_,
    fun task => leaves_update fun hheld => ⟨h.holder.trans hheld, by rw [h.putters]⟩⟩
  · obtain ⟨hputters, hqueue, hc⟩ := hs.unheld r (h.holder ▸ hnone)
    exact ⟨h.putters.trans hputters, fun hmem => hqueue (h.queue hmem), hcancelling hc⟩
  · rw [h.putters] at hmem
    obtain ⟨hheld, hqueue, hc, -⟩ := hs.putting r task hmem
    exact ⟨h.holder.trans hheld, fun hnone => hqueue (h.queue hnone), hcancelling hc,
      h.putting (List.ne_nil_of_mem hmem)⟩

/-- While its recorder is attached, or a call waits for a slot, the sentinel is not in the queue and
the worker is not cancelled. -/
theorem Orderly.undisturbed (hs : s.Orderly) (h : s.recorder = some r ∨ (s.recordings r).putters ≠ []) :
    none ∉ (s.recordings r).queue ∧ (s.recordings r).cancelling = false := by
  rcases h with h | h
  · exact (hs.unheld r (hs.attached r (hs.recorder r h).1).2.1).2
  · obtain ⟨task, hmem⟩ := List.exists_mem_of_ne_nil _ h
    obtain ⟨-, hqueue, hcancelling, -⟩ := hs.putting r task hmem
    exact ⟨hqueue, hcancelling⟩

/-- A worker which takes its next item. -/
theorem worked_fetch (hs : s.Orderly) : Worked s r (s.recordings r).fetch := by
  have hfetch : s.recorder = some r ∨ (s.recordings r).putters ≠ [] →
      (s.recordings r).fetch.worker.looping = true := by
    intro h
    have hqueue := (hs.undisturbed h).1
    unfold Recording.fetch
    split
    · rfl
    · next hnone => simp [hnone] at hqueue
    · rfl
  refine ⟨?_, ?_, ?_, ?_, fun h => hfetch (.inl h), fun h => .inl (hfetch (.inr h))⟩
  all_goals
    unfold Recording.fetch
    split <;> simp_all

/-- A worker which has left its loop goes on, or is cancelled. -/
theorem worked_leaving {w : Worker} (closed : Bool) {cancelling : Bool} (hs : s.Orderly)
    (hcancelling : cancelling = true → (s.recordings r).cancelling = true)
    (hleft : (s.recordings r).worker.looping = false ∨ (s.recordings r).cancelling = true) :
    Worked s r { s.recordings r with worker := w, closed, cancelling } := by
  refine ⟨rfl, rfl, id, hcancelling, fun h => ?_, fun h => .inr ?_⟩
  · rcases hleft with hleft | hleft
    · simp [(hs.recorder r h).2] at hleft
    · simp [(hs.undisturbed (.inl h)).2] at hleft
  · rcases hleft with hleft | hleft
    · obtain ⟨task, hmem⟩ := List.exists_mem_of_ne_nil _ h
      obtain ⟨-, -, -, hworker⟩ := hs.putting r task hmem
      exact hworker.resolve_left (by simp [hleft])
    · simp [(hs.undisturbed (.inr h)).2] at hleft

theorem work_drains {turn : WorkerTurn} (h : s.work r turn = some s')
    (hallowed : drainsInput (.worker r turn) s = true) (hs : s.Orderly) :
    s'.Orderly ∧ ∀ task, Leaves task s s' := by
  unfold work at h
  dsimp only at h
  split at h
  swap
  · cases h
  split at h
  · cases h
    exact (worked_fetch hs).orderly hs
  · split at h
    · cases h
    · cases h
      exact (worked_fetch hs).orderly hs
  · cases h
    exact (worked_fetch hs).orderly hs
  · next hwriting =>
    cases h
    -- Nobody waits for a slot, or the queue is not full.
    have hslot : (s.recordings r).putters = [] ∨ (s.recordings r).full = false := by
      simpa [drainsInput] using hallowed
    let detached : Service :=
      { s with recorder := if s.recorder = some r then none else s.recorder }
    have hdetached : detached.Orderly := by
      refine ⟨fun q hq => ?_, hs.attached, hs.held, hs.unheld, hs.putting⟩
      simp only [detached] at hq
      split at hq
      · cases hq
      · exact hs.recorder q hq
    have hworked : Worked detached r { s.recordings r with worker := .closing (.ok ()) } := by
      refine ⟨rfl, rfl, id, id, fun h => ?_, fun h => .inr (hslot.resolve_left h)⟩
      simp only [detached] at h
      split at h
      · cases h
      · next hne => exact absurd h hne
    obtain ⟨horderly, hleaves⟩ := hworked.orderly hdetached
    exact ⟨horderly.same (.of_fields rfl), hleaves⟩
  · next hclosing =>
    cases h
    exact (worked_leaving true hs id (.inl (by simp [hclosing, Worker.looping]))).orderly hs
  · next hclosing =>
    cases h
    exact (worked_leaving (s.recordings r).closed hs id
      (.inl (by simp [hclosing, Worker.looping]))).orderly hs
  · split at h
    · next hcancelling =>
      have hworked (w : Worker) : Worked s r { s.recordings r with worker := w, cancelling := false } :=
        worked_leaving (s.recordings r).closed hs (by simp) (.inr hcancelling)
      split at h <;> cases h <;> exact (hworked _).orderly hs
    · cases h
  · cases h

/-- What happens outside the coroutines keeps the order, where it is allowed. -/
theorem outside_drains (h : Outside drainsInput s s') (hs : s.Orderly) :
    s'.Orderly ∧ ∀ task, Leaves task s s' := by
  obtain ⟨input, h⟩ := h
  unfold reactIf at h
  split at h
  swap
  · cases h
  next hallowed =>
  have hsame {s' : Service} (h : SameRecordings s s') : s'.Orderly ∧ ∀ task, Leaves task s s' :=
    ⟨hs.same h, h.leaves⟩
  cases input with
  | launch =>
    simp only [react] at h
    split at h <;> cases h
    exact hsame (.of_fields rfl)
  | moves state =>
    simp only [react, moves] at h
    split at h
    · cases h
    split at h <;> cases h <;> exact hsame (.of_fields rfl)
  | opens =>
    simp only [react] at h
    split at h <;> cases h
    exact hsame (.of_fields rfl)
  | publish scan =>
    simp only [react, Option.some.injEq] at h
    subst h
    unfold publish
    split
    · next r q hr hq =>
      obtain ⟨htask, hlooping⟩ := hs.recorder r hr
      obtain ⟨-, hholder, hrecord⟩ := hs.attached r htask
      obtain rfl : r = q := Option.some.inj (hrecord.symm.trans hq)
      obtain ⟨hputters, hqueue, hcancelling⟩ := hs.unheld r hholder
      split
      · exact hsame (.of_fields rfl)
      split
      · exact hsame (.of_fields rfl)
      · exact (show Worked s r { s.recordings r with queue := (s.recordings r).queue ++ [some scan] } from
          ⟨rfl, rfl, by simp, id, fun _ => hlooping, fun hne => absurd hputters hne⟩).orderly hs
    · exact hsame (.of_fields rfl)
  | record =>
    simp only [react, start_recording] at h
    split at h
    · cases h
    split at h
    · cases h
      exact hsame (.of_fields rfl)
    · next hrecorder =>
      cases h
      have hunheld : (s.recordings s.count).holder = none :=
        by_contra fun hheld => Nat.lt_irrefl _ (hs.held s.count hheld)
      have hnone : s.recorder ≠ some s.count := fun h => by simp [h] at hrecorder
      have hnew := hs.update (r := s.count) {} hunheld.symm (fun h => absurd h hnone)
        (by simp) (by simp)
      refine ⟨⟨?_, ?_, fun q hq => Nat.lt_succ_of_lt (hnew.held q hq), hnew.unheld, hnew.putting⟩,
        fun task => leaves_update fun hheld => by simp [hunheld] at hheld⟩
      · rintro q ⟨⟩
        exact ⟨rfl, by simp [Service.update, Worker.looping]⟩
      · rintro q ⟨⟩
        exact ⟨Nat.lt_succ_self _, by simp [Service.update], rfl⟩
  | consent enable_writes consent =>
    simp only [react, Service.consent] at h
    split at h
    · cases h
    split at h <;> cases h
    exact hsame (.of_fields rfl)
  | worker r turn => exact work_drains h hallowed hs

end Environment

/-- The contracts of the tasks fit together. -/
def drainingDiscipline : Discipline waits (Outside drainsInput) spawn where
  inv := Orderly
  contract := draining
  ended _ _ _ := True
  guarantee_inv _ _ _ h hs := (h hs).1
  guarantee_rely _ other _ _ hne hs h := fun _ => ⟨(h hs).1, (h hs).2 other hne⟩
  env_inv _ _ h hs := (outside_drains h hs).1
  env_rely task _ _ hs h := fun _ => ⟨(outside_drains h hs).1, (outside_drains h hs).2 task⟩
  ended_rely _ _ _ _ _ _ := trivial
  spawn_inv _ _ _ _ _ h hs := hs.same (spawn_sameBooks h).toSameRecordings
  spawn_rely _ _ _ _ _ other _ hs h := fun _ =>
    ⟨hs.same (spawn_sameBooks h).toSameRecordings, (spawn_sameBooks h).toSameRecordings.leaves other⟩
  spawn_safe _ _ _ _ _ _ hs _ h := (draining_routine.spawned h hs).mono fun _ _ _ => trivial

/-- A call which is suspended in `queue.put(None)` is listed in the queue. -/
def Listed (task : ℕ) : Wait → Service → Prop
  | .put r, s => task ∈ (s.recordings r).putters
  | _, _ => True

theorem listed_enter (task : ℕ) (w : Wait) (s s' : Service)
    (h : Service.waits.enter task w s = (none, s')) : Listed task w s' := by
  cases w with
  | put r =>
    simp only [waits, enter] at h
    split at h <;> cases h
    simp [Listed, Service.update]
  | _ => trivial

theorem listed_stay (task : ℕ) (w : Wait) (choice : Turn) (s s' : Service) (hs : Listed task w s)
    (h : Service.waits.resume task w choice s = some (none, s')) : Listed task w s' := by
  cases w with
  | put r =>
    cases Effect.of_turns (.inr ⟨choice, h⟩) with
    | blocked => exact hs
    | queued => simp [Listed, Service.update]
  | _ => trivial

/-- Where no write fails while a call waits for a slot of the full queue of its recording, a call which
is suspended in `queue.put(None)` on a full queue has a worker which has not left its loop. -/
theorem stop_recording_not_stuck {settings : Settings} {pool : ServicePool}
    (h : Pool.Reaches waits (Outside drainsInput) spawn (idle settings) pool) {task r : ℕ}
    {next : Except Failure Unit → Task Unit} (hstage : pool.stage task = .waiting (.put r) next)
    (hfull : (pool.shared.recordings r).full = true) :
    (pool.shared.recordings r).worker.looping = true := by
  have hidle : drainingDiscipline.Ok (idle settings) := by
    refine ⟨⟨by simp [idle], by simp [idle], by simp [idle], by simp [idle], by simp [idle]⟩,
      fun _ => trivial⟩
  have hentered : Discipline.Entered Listed (idle settings) := fun task w next hstage => by
    simp [idle] at hstage
  have hlisted := Discipline.Entered.run listed_enter listed_stay (fun task w s s' hs hrely hmem => by
    cases w with
    | put r => exact ((hrely hs).2 r (hs.putting r task hmem).1).2.mpr hmem
    | _ => trivial) hidle hentered h task (.put r) next hstage
  obtain ⟨-, -, -, hworker⟩ := (hidle.run h).1.putting r task hlisted
  exact hworker.resolve_right (by simp [hfull])

/-- The queue of a recording fills up during a write, and a request to end it waits for a slot. -/
def waitingScript : Script :=
  recordingScript ++ [.outside (.publish someScan), .outside (.worker 0 .gets)] ++
    List.replicate maxsize (.outside (.publish someScan)) ++ [.start 3 .stop]

/-- The worker writes while the request waits. -/
theorem stop_recording_not_stuck_writing : ∃ (pool : ServicePool) (next : Except Failure Unit → Task Unit),
    pool.stage 3 = .waiting (.put 0) next ∧ (pool.shared.recordings 0).full = true ∧
      (pool.shared.recordings 0).worker.looping = true := by
  have hoverview : (Pool.play waits spawn (reactIf drainsInput) waitingScript (idle { })).map
      (fun pool : ServicePool => ((pool.stage 3).wait, (pool.shared.recordings 0).full)) =
      some (some (.put 0), true) := by decide +kernel
  obtain ⟨pool, hplayed, hfields⟩ := Option.map_eq_some_iff.mp hoverview
  obtain ⟨hwait, hfull⟩ := Prod.mk.inj hfields
  obtain ⟨next, hstage⟩ := Stage.wait_eq_some.mp hwait
  exact ⟨pool, next, hstage, hfull, stop_recording_not_stuck (reaches_of_played hplayed) hstage hfull⟩

/-- The write fails while the request waits: the worker leaves its loop, and nothing frees a slot. -/
theorem write_failure_strands_stop : ∃ (pool : ServicePool) (next : Except Failure Unit → Task Unit),
    Pool.Reaches waits (Outside anyInput) spawn (idle { }) pool ∧ pool.stage 3 = .waiting (.put 0) next ∧
      (pool.shared.recordings 0).full = true ∧ (pool.shared.recordings 0).worker.looping = false := by
  have hoverview : (Pool.play waits spawn (reactIf anyInput)
      (waitingScript ++ [.outside (.worker 0 .writeFails)]) (idle { })).map (fun pool : ServicePool =>
        ((pool.stage 3).wait, (pool.shared.recordings 0).full, (pool.shared.recordings 0).worker.looping)) =
      some (some (.put 0), true, false) := by decide +kernel
  obtain ⟨pool, hplayed, hfields⟩ := Option.map_eq_some_iff.mp hoverview
  simp only [Prod.mk.injEq] at hfields
  obtain ⟨hwait, hfields⟩ := hfields
  obtain ⟨next, hstage⟩ := Stage.wait_eq_some.mp hwait
  exact ⟨pool, next, reaches_of_played hplayed, hstage, hfields⟩

end Lms200.Service
