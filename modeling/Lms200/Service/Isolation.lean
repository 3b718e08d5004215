import Lms200.Service.Effects

/-!
# Failing recordings and the watcher

An exception of a recording worker goes to the call which awaits the worker. An error of
`Recorder.write` stays in the worker; one of `Recorder.close` ends it. As long as no recorder
fails to close whose recording the watcher has detached, and the watcher detaches none which has
failed to close, no error of a recording ends the watcher, and a shutdown comes to close the
device.
-/

namespace Lms200.Service

open Coop Program

/-- The recorder has failed to close. -/
def failed (s : Service) (r : ℕ) : Bool := (s.recordings r).worker = .ended (.error .recording)

/-- The watcher does not end a recording whose recorder has failed to close. -/
def sparesTurn (task : ℕ) (w : Wait) (s : Service) : Bool :=
  match s.record_task with
  | some r => !(task = watcherTask && w = .nap && s.state = .FAULTED && !s.busy && s.failed r)
  | none => true

/-- What the exceptions of the service may be. -/
structure Isolated (s : Service) : Prop where
  attached : ∀ r, s.record_task = some r → r < s.count ∧ (s.recordings r).holder = none
  held : ∀ r, (s.recordings r).holder ≠ none → r < s.count
  closing : ∀ r e, (s.recordings r).worker = .closing (.error e) → e = .cancelled
  ended : ∀ r e, (s.recordings r).worker = .ended (.error e) → e = .cancelled ∨ e = .recording
  watcher : ∀ outcome, s.watcher = .ended outcome → outcome = .error .cancelled
  operation : ∀ e, s.operation = .error e → e = .cancelled

/-- The watcher has detached the recording, and its recorder has not failed to close. -/
def Spared (s : Service) (r : ℕ) : Prop :=
  (s.recordings r).holder = some watcherTask ∧ s.failed r = false

/-- What every step of the service does. -/
def Spares (s s' : Service) : Prop :=
  s.Isolated → s'.Isolated ∧ ∀ r, s.Spared r → s'.Spared r

/-- Whether a shutdown has begun, and has come to close the device. -/
structure Unmoved (s s' : Service) : Prop where
  shutdown : s'.shutdown = s.shutdown
  reached : s'.reached = s.reached

/-- Only the shutdown says how far it has come. -/
def isolation (task : ℕ) : Contract Service where
  rely s s' := Spares s s' ∧ (task = shutdownTask → Unmoved s s')
  guarantee s s' := Spares s s' ∧ (task ≠ shutdownTask → Unmoved s s')

/-- A coroutine of a task which keeps to the contract. -/
abbrev Isolates (task : ℕ) {α : Type} (p : Program Service Wait Wait.Answer Failure α)
    (post : Except Failure α → Service → Prop) (s : Service) : Prop :=
  p.Safe (waits.restrict sparesTurn) task (isolation task) post s

/-- Two services which agree on everything the contract is about. -/
structure Framed (s s' : Service) : Prop where
  holder : ∀ r, (s'.recordings r).holder = (s.recordings r).holder
  worker : ∀ r, (s'.recordings r).worker = (s.recordings r).worker
  record_task : s'.record_task = s.record_task
  count : s'.count = s.count
  watcher : s'.watcher = s.watcher
  operation : s'.operation = s.operation
  shutdown : s'.shutdown = s.shutdown
  reached : s'.reached = s.reached

/-- A change of one recording which leaves its holder and its worker. -/
theorem Framed.update {s : Service} {r : ℕ} {recording : Recording}
    (hholder : recording.holder = (s.recordings r).holder)
    (hworker : recording.worker = (s.recordings r).worker) : Framed s (s.update r recording) := by
  refine ⟨fun q => ?_, fun q => ?_, rfl, rfl, rfl, rfl, rfl, rfl⟩
  all_goals
    by_cases hq : q = r
    · subst hq
      simpa [Service.update]
    · simp [Service.update, Function.update_of_ne hq]

/-- No turn of a wait touches what the contract is about. -/
theorem Effect.framed {task : ℕ} {w : Wait} {s s' : Service} {answer : Option (Except Failure Unit)}
    (h : Effect task w s answer s') : Framed s s' := by
  cases h with
  | queued => exact .update rfl rfl
  | put => exact .update rfl rfl
  | @passed r =>
    have hupdate : Framed (s.cancelled task)
        ((s.cancelled task).update r { s.recordings r with cancelling := true }) := .update rfl rfl
    exact ⟨hupdate.holder, hupdate.worker, rfl, rfl, rfl, rfl, rfl, rfl⟩
  | @unqueued r =>
    have hupdate : Framed (s.cancelled task) ((s.cancelled task).update r { s.recordings r with
        putters := (s.recordings r).putters.filter (· ≠ task) }) := .update rfl rfl
    exact ⟨hupdate.holder, hupdate.worker, rfl, rfl, rfl, rfl, rfl, rfl⟩
  | _ => exact ⟨fun _ => rfl, fun _ => rfl, rfl, rfl, rfl, rfl, rfl, rfl⟩

/-- Such steps spare what every step spares. -/
theorem Framed.spares {s s' : Service} (h : Framed s s') : Spares s s' := by
  refine fun hs => ⟨⟨fun r hr => ?_, fun r hr => ?_, fun r e he => ?_, fun r e he => ?_,
    fun o ho => ?_, fun e he => ?_⟩, fun r hr => ?_⟩
  · rw [h.count, h.holder]
    exact hs.attached r (h.record_task ▸ hr)
  · rw [h.count]
    exact hs.held r (h.holder r ▸ hr)
  · exact hs.closing r e (h.worker r ▸ he)
  · exact hs.ended r e (h.worker r ▸ he)
  · exact hs.watcher o (h.watcher ▸ ho)
  · exact hs.operation e (h.operation ▸ he)
  · exact ⟨(h.holder r).trans hr.1, by simpa [failed, h.worker r] using hr.2⟩

/-- Such steps are free. -/
theorem Framed.guarantee {task : ℕ} {s s' : Service} (h : Framed s s') : (isolation task).guarantee s s' :=
  ⟨h.spares, fun _ => ⟨h.shutdown, h.reached⟩⟩

section Rules

variable {task : ℕ} {P : Service → Prop} {s : Service}

/-- An assertion about what the contract is about, which the others keep. -/
structure Steady (task : ℕ) (P : Service → Prop) : Prop where
  isolated : ∀ s, P s → s.Isolated
  framed : ∀ s s', P s → Framed s s' → P s'
  rely : ∀ s s', P s → (isolation task).rely s s' → P s'

/-- A wait keeps an assertion. -/
theorem Steady.await (h : Steady task P) (w : Wait) (hs : P s) :
    Isolates task (Task.await w)
      (fun answer s' => P s' ∧ ∃ s, P s ∧ Effect task w s (some answer) s' ∧
        ((∀ s, enter task w s = (none, s)) → sparesTurn task w s = true)) s := by
  refine Program.Safe.request (Program.Reached.of_turns P h.rely (fun t answer t' ht hturn => ?_) hs)
  obtain ⟨hturns, hspared⟩ : Service.waits.Turns task w t answer t' ∧
      (enter task w t = (answer, t') ∨ sparesTurn task w t = true) := by
    rcases hturn with hturn | ⟨choice, hturn⟩
    · exact ⟨.inl hturn, .inl hturn⟩
    · simp only [Waits.restrict] at hturn
      split at hturn
      · next hallowed => exact ⟨.inr ⟨choice, hturn⟩, .inr hallowed⟩
      · cases hturn
  have heffect := Effect.of_turns hturns
  have hframed := heffect.framed
  refine ⟨hframed.guarantee, fun _ => h.framed _ _ ht hframed, fun a ha => ?_⟩
  subst ha
  refine ⟨h.framed _ _ ht hframed, t, ht, heffect, fun hsuspends => hspared.resolve_left ?_⟩
  rw [hsuspends]
  simp

/-- A change of something else keeps an assertion. -/
theorem Steady.change (h : Steady task P) {f : Service → Service} (hf : ∀ s, Framed s (f s)) (hs : P s) :
    Isolates task (modify f) (fun outcome s' => outcome = .ok () ∧ P s') s :=
  ⟨(hf s).guarantee, rfl, h.framed _ _ hs (hf s)⟩

/-- Holding the lock keeps an assertion, and only adds a cancellation to the outcomes. -/
theorem Steady.exclusively (h : Steady task P) {body : Task Unit} {Q : Except Failure Unit → Prop}
    (hbody : ∀ s, P s → Isolates task body (fun outcome s' => P s' ∧ Q outcome) s)
    (hQ : Q (.error .cancelled)) (hs : P s) :
    Isolates task (Task.exclusively body) (fun outcome s' => P s' ∧ Q outcome) s := by
  refine Program.Safe.seq (h.await .operationLock hs) (fun _ s' hlocked => ?_) fun e s' hlocked => ?_
  · refine Program.Safe.andFinally ((hbody s' hlocked.1).mono fun outcome s'' hafter => ?_)
    have hframed : Framed s'' { s'' with operation_lock := none } :=
      ⟨fun _ => rfl, fun _ => rfl, rfl, rfl, rfl, rfl, rfl, rfl⟩
    exact ⟨hframed.guarantee, h.framed _ _ hafter.1 hframed, hafter.2⟩
  · obtain ⟨hP, t, -, heffect, -⟩ := hlocked
    cases heffect with
    | unlined => exact ⟨hP, hQ⟩
    | cancelled _ hne => exact absurd rfl hne

/-- Closing the device keeps an assertion, and raises nothing but a cancellation. -/
theorem Steady.close (h : Steady task P) {note : Service → Service} (hnote : ∀ s, Framed s (note s))
    (hs : P s) : Isolates task (Task.close note)
      (fun outcome s' => P s' ∧ ∀ e, outcome = .error e → e = .cancelled) s := by
  refine h.exclusively (Q := fun outcome => ∀ e, outcome = .error e → e = .cancelled) (fun s hs => ?_)
    (by simp) hs
  unfold Task.closeUnlocked
  refine Safe.get_bind ?_
  split
  · refine Program.Safe.seq (h.change hnote hs) (fun _ s' hnoted => ?_) (by simp)
    refine (h.await .closeUnlocked hnoted.2).mono fun outcome s'' hafter => ⟨hafter.1, ?_⟩
    rintro e rfl
    obtain ⟨-, t, -, heffect, -⟩ := hafter
    cases heffect
    rfl
  · exact ⟨hs, by simp⟩

/-- What the watcher has detached stays spared. -/
theorem Steady.spared (h : Steady task P) (r : ℕ) : Steady task fun s => P s ∧ s.Spared r where
  isolated s hs := h.isolated s hs.1
  framed s s' hs hframed := ⟨h.framed s s' hs.1 hframed,
    (hframed.spares (h.isolated s hs.1)).2 r hs.2⟩
  rely s s' hs hrely := ⟨h.rely s s' hs.1 hrely, (hrely.1 (h.isolated s hs.1)).2 r hs.2⟩

/-- Detaching a recording makes the call its holder. -/
theorem detach_guarantee (task : ℕ) (hs : s.Isolated) : (isolation task).guarantee s (Task.detach task s) := by
  unfold Task.detach
  split
  · exact Framed.guarantee ⟨fun _ => rfl, fun _ => rfl, rfl, rfl, rfl, rfl, rfl, rfl⟩
  · next r hr =>
    obtain ⟨hcount, hholder⟩ := hs.attached r hr
    have hworker (q : ℕ) : ((Function.update s.recordings r
        { s.recordings r with holder := some task }) q).worker = (s.recordings q).worker := by
      by_cases hq : q = r
      · subst hq
        simp
      · simp [Function.update_of_ne hq]
    refine ⟨fun _ => ⟨⟨by simp, fun q hq => ?_, fun q e he => hs.closing q e (hworker q ▸ he),
      fun q e he => hs.ended q e (hworker q ▸ he), hs.watcher, hs.operation⟩, fun q hq => ?_⟩,
      fun _ => ⟨rfl, rfl⟩⟩
    · by_cases hqr : q = r
      · exact hqr ▸ hcount
      · exact hs.held q (by simpa [Service.update, Function.update_of_ne hqr] using hq)
    · have hqr : q ≠ r := by
        rintro rfl
        simp [Spared, hholder] at hq
      simpa [Spared, failed, Service.update, Function.update_of_ne hqr] using hq

/-- Ending a recording raises a cancellation or what its worker has raised; the watcher's does not
raise an error of the recording. -/
theorem Steady.stop_recording (h : Steady task P) (hdetach : ∀ s, P s → P (Task.detach task s))
    (hspared : task = watcherTask → ∀ r, s.record_task = some r → s.failed r = false) (hs : P s) :
    Isolates task (Task.stop_recording task) (fun outcome s' => P s' ∧
      (task = watcherTask → ∀ e, outcome = .error e → e = .cancelled)) s := by
  unfold Task.stop_recording
  refine Safe.get_bind (Safe.modify_bind (detach_guarantee task (h.isolated s hs)) ?_)
  have hdetached := hdetach s hs
  cases hr : s.record_task with
  | none => exact ⟨hdetached, by simp⟩
  | some r =>
    -- The watcher's own recording is spared from here on.
    have hmine : task = watcherTask → (Task.detach task s).Spared r := by
      intro htask
      have hnot := hspared htask r hr
      simpa [Task.detach, hr, Spared, failed, Service.update, htask] using hnot
    have hP : Steady task fun s => P s ∧ (task = watcherTask → s.Spared r) := by
      by_cases htask : task = watcherTask
      · simpa [htask] using htask ▸ h.spared r
      · simpa [htask] using h
    have hjoin (s : Service) (hs : P s ∧ (task = watcherTask → s.Spared r)) :
        Isolates task (Task.await (.worker r)) (fun outcome s' => P s' ∧
          (task = watcherTask → ∀ e, outcome = .error e → e = .cancelled)) s := by
      refine (hP.await (.worker r) hs).mono fun outcome s' hafter => ?_
      obtain ⟨hP', t, ht, heffect, -⟩ := hafter
      refine ⟨hP'.1, fun htask e he => ?_⟩
      subst he
      cases heffect with
      | joined hended =>
        have hnot := (ht.2 htask).2
        rcases (h.isolated _ ht.1).ended r e hended with rfl | rfl
        · rfl
        · simp [failed, hended] at hnot
      | cancelled => rfl
    dsimp only
    split
    · refine Program.Safe.seq (hP.await (.put (s.record_queue.getD r)) ⟨hdetached, hmine⟩)
        (fun _ s' hput => hjoin s' hput.1) fun e s' hput => ⟨hput.1.1, fun _ e' he' => ?_⟩
      cases he'
      obtain ⟨-, t, -, heffect, -⟩ := hput
      cases heffect with
      | unqueued => rfl
      | cancelled hne => exact absurd rfl (hne _)
    · exact hjoin _ ⟨hdetached, hmine⟩

end Rules

section Operations

variable {s : Service}

/-- A change of the fields which the contract is not about. -/
theorem Framed.of_fields {s' : Service} (hsame : (s'.recordings, s'.record_task, s'.count, s'.watcher,
      s'.operation, s'.shutdown, s'.reached) =
    (s.recordings, s.record_task, s.count, s.watcher, s.operation, s.shutdown, s.reached)) : Framed s s' := by
  simp only [Prod.mk.injEq] at hsame
  obtain ⟨hrecordings, hrecord_task, hcount, hwatcher, hoperation, hshutdown, hreached⟩ := hsame
  exact ⟨fun r => by rw [hrecordings], fun r => by rw [hrecordings], hrecord_task, hcount, hwatcher, hoperation,
    hshutdown, hreached⟩

end Operations

section Watcher

variable {s : Service}

end Watcher

section Shutdown

variable {s : Service}

end Shutdown

section Environment

variable {s s' : Service}

theorem Spares.framed {t : Service} (h : Spares s t) (hframed : Framed t s') : Spares s s' := fun hs =>
  ⟨(hframed.spares (h hs).1).1, fun r hr => (hframed.spares (h hs).1).2 r ((h hs).2 r hr)⟩

end Environment

end Lms200.Service
