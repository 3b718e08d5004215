import Lms200.Service.Routine

/-!
# What becomes of published scans

A ledger keeps, beside a run of the service, what was published while each recording was attached, what
its worker has written, and by how much the drop counter has grown on its account.

A scan which is published to a recording is refused by a full queue, queued, being written or written.
The failure path counts by the size of the queue, in which the end of the recording waits as well.
-/

namespace Lms200.Service

open Coop Program

/-- The account of one recording. -/
structure Entry where
  published : List Scan := []
  written : List Scan := []
  writing : Option Scan := none
  drops : ℕ := 0

/-- The accounts of all recordings. -/
abbrev Ledger := ℕ → Entry

/-- Enter what has happened outside the coroutines between two states of the service. -/
def Ledger.note (l : Ledger) (s s' : Service) : Input → Ledger
  | .publish scan =>
    match s.recorder with
    | none => l
    | some r =>
      if (s.recordings r).closed then l
      else Function.update l r { l r with
        published := (l r).published ++ [scan]
        drops := (l r).drops + (s'.record_drops - s.record_drops) }
  | .worker r turn => Function.update l r
      { published := (l r).published
        written := if turn = .writes then (l r).written ++ (l r).writing.toList else (l r).written
        writing := if (s'.recordings r).worker = .writing then (s.recordings r).queue.head?.join else none
        drops := (l r).drops + (s'.record_drops - s.record_drops) }
  | _ => l

/-- The pool with its ledger. -/
abbrev Books := ServicePool × Ledger

namespace Books

/-- One move of a script, entered into the ledger. -/
def move (allowed : Input → Service → Bool) (b : Books) (m : Move Input Job Turn) : Option Books :=
  (b.1.move waits spawn (reactIf allowed) m).map fun pool =>
    (pool, match m with
      | .outside input => b.2.note b.1.shared pool.shared input
      | _ => b.2)

/-- A script, entered into the ledger. -/
def play (allowed : Input → Service → Bool) : Script → Books → Option Books
  | [], b => some b
  | m :: rest, b => (b.move allowed m).bind (play allowed rest)

end Books

/-- No write fails while the end of its recording is queued, and no worker is cancelled which has a scan
to write. -/
def countsInput : Input → Service → Bool
  | .worker r .writeFails, s => none ∉ (s.recordings r).queue
  | .worker r .cancelled, s => !(s.recordings r).worker.looping ||
      ((s.recordings r).worker ≠ .writing && (s.recordings r).queue.all (·.isNone))
  | _, _ => true

/-- The scans which are kept account, with the counted losses, for those published. -/
def Entry.Keeps (e : Entry) (kept : List Scan) : Prop :=
  kept.Sublist e.published ∧ e.published.length = kept.length + e.drops

/-- What a worker still has to write follows what it has written; the end of the recording is queued
behind the scans. -/
def Balanced (recording : Recording) (e : Entry) : Prop :=
  ∃ (scans : List Scan) (sentinels : ℕ),
    recording.queue = scans.map some ++ List.replicate sentinels none ∧
      (e.writing.isSome = true ↔ recording.worker = .writing) ∧
      e.Keeps (if recording.worker.looping then e.written ++ e.writing.toList ++ scans else e.written)

/-- What is attached is written by a worker which nobody has ended. -/
structure Filed (s : Service) : Prop where
  attached : ∀ r, s.recorder = some r → r < s.count ∧ s.record_task = some r ∧ s.record_queue = some r
  active : ∀ r, s.recorder = some r → (s.recordings r).worker.looping = true ∧
    none ∉ (s.recordings r).queue ∧ (s.recordings r).cancelling = false
  tasked : ∀ r, s.record_task = some r → r < s.count

/-- The recording is not attached any more. -/
def Abandoned (s : Service) (r : ℕ) : Prop := r < s.count ∧ s.recorder ≠ some r

/-- No recording is attached twice. -/
def Later (s s' : Service) : Prop :=
  s.count ≤ s'.count ∧ ∀ r < s.count, s'.recorder = some r → s.recorder = some r

/-- What the coroutines do to the books: they end recordings which are not attached any more. -/
structure Clerical (s s' : Service) : Prop where
  later : Later s s'
  count : s'.count = s.count
  record_drops : s'.record_drops = s.record_drops
  worker : ∀ r, (s'.recordings r).worker = (s.recordings r).worker
  queue : ∀ r, ∃ sentinels, (s'.recordings r).queue = (s.recordings r).queue ++ List.replicate sentinels none

theorem Abandoned.later {s s' : Service} {r : ℕ} (h : Abandoned s r) (hlater : Later s s') : Abandoned s' r :=
  ⟨h.1.trans_le hlater.1, fun hr => h.2 (hlater.2 r h.1 hr)⟩

theorem Later.refl (s : Service) : Later s s := ⟨le_rfl, fun _ _ h => h⟩

theorem Later.trans {s t u : Service} (h : Later s t) (h' : Later t u) : Later s u :=
  ⟨h.1.trans h'.1, fun r hr hu => h.2 r hr (h'.2 r (hr.trans_le h.1) hu)⟩

namespace Clerical

theorem of_sameBooks {s s' : Service} (h : SameBooks s s') : Clerical s s' where
  later := ⟨h.count.ge, fun r _ hr => h.recorder ▸ hr⟩
  count := h.count
  record_drops := h.record_drops
  worker r := by rw [h.recordings]
  queue r := ⟨0, by rw [h.recordings, List.replicate_zero, List.append_nil]⟩

theorem trans {s t u : Service} (h : Clerical s t) (h' : Clerical t u) : Clerical s u where
  later := h.later.trans h'.later
  count := h'.count.trans h.count
  record_drops := h'.record_drops.trans h.record_drops
  worker r := (h'.worker r).trans (h.worker r)
  queue r := by
    obtain ⟨k, hk⟩ := h.queue r
    obtain ⟨k', hk'⟩ := h'.queue r
    exact ⟨k + k', by rw [hk', hk, List.append_assoc, List.replicate_append_replicate]⟩

/-- A change of one recording. -/
theorem update {s : Service} {r : ℕ} {recording : Recording}
    (hworker : recording.worker = (s.recordings r).worker)
    (hqueue : ∃ sentinels, recording.queue = (s.recordings r).queue ++ List.replicate sentinels none) :
    Clerical s (s.update r recording) := by
  refine ⟨Later.refl s, rfl, rfl, fun q => ?_, fun q => ?_⟩
  · by_cases hq : q = r
    · subst hq
      simpa [Service.update]
    · simp only [Service.update, Function.update_of_ne hq]
  · by_cases hq : q = r
    · subst hq
      simpa [Service.update]
    · simp only [Service.update, Function.update_of_ne hq]
      exact ⟨0, (List.append_nil _).symm⟩

/-- The sentinels put by coroutines do not disturb an account. -/
theorem balanced {s s' : Service} (h : Clerical s s') {r : ℕ} {e : Entry} (hs : Balanced (s.recordings r) e) :
    Balanced (s'.recordings r) e := by
  obtain ⟨scans, sentinels, hqueue, hwriting, hkeeps⟩ := hs
  obtain ⟨more, hmore⟩ := h.queue r
  refine ⟨scans, sentinels + more, ?_, ?_, ?_⟩
  · rw [hmore, hqueue, List.append_assoc, List.replicate_append_replicate]
  · rw [h.worker]
    exact hwriting
  · rw [h.worker]
    exact hkeeps

end Clerical

namespace Filed

variable {s s' : Service} {task r : ℕ}

theorem same (hs : s.Filed) (h : SameRecordings s s') : s'.Filed := by
  obtain ⟨hrecordings, hrecorder, hrecord_task, hrecord_queue, hcount⟩ := h
  constructor
  all_goals simp only [hrecordings, hrecorder, hrecord_task, hrecord_queue, hcount]
  exacts [hs.attached, hs.active, hs.tasked]

/-- A change of a recording which is not attached, or stays fit to be. -/
theorem update (hs : s.Filed) (recording : Recording)
    (h : s.recorder = some r → recording.worker.looping = true ∧ none ∉ recording.queue ∧
      recording.cancelling = false) : (s.update r recording).Filed := by
  refine ⟨hs.attached, fun q hq => ?_, hs.tasked⟩
  by_cases hqr : q = r
  · subst hqr
    simp only [Service.update, Function.update_self]
    exact h hq
  · simp only [Service.update, Function.update_of_ne hqr]
    exact hs.active q hq

end Filed

/-- The coroutines keep to the books. -/
def filing (_ : ℕ) : Contract Service where
  rely s s' := s.Filed → s'.Filed ∧ Later s s'
  guarantee s s' := s.Filed → s'.Filed ∧ Clerical s s'

section Coroutines

variable {s s' : Service} {task r : ℕ}

theorem SameBooks.filed (h : SameBooks s s') : (filing task).guarantee s s' := fun hs =>
  ⟨hs.same h.toSameRecordings, .of_sameBooks h⟩

/-- A recording is detached. -/
theorem detach_filed (task : ℕ) (hs : s.Filed) :
    (Task.detach task s).Filed ∧ Clerical s (Task.detach task s) ∧
      ∀ r, s.record_task = some r → Abandoned (Task.detach task s) r := by
  unfold Task.detach
  cases hr : s.record_task with
  | none =>
    refine ⟨⟨nofun, nofun, nofun⟩, ?_, nofun⟩
    exact ⟨⟨le_rfl, nofun⟩, rfl, rfl, fun _ => rfl, fun _ => ⟨0, (List.append_nil _).symm⟩⟩
  | some r =>
    have hupdate : Clerical s (s.update r { s.recordings r with holder := some task }) :=
      .update rfl ⟨0, (List.append_nil _).symm⟩
    refine ⟨⟨nofun, nofun, nofun⟩, ?_, fun q hq => ?_⟩
    · exact ⟨⟨le_rfl, nofun⟩, rfl, rfl, hupdate.worker, hupdate.queue⟩
    · obtain rfl := Option.some.inj hq
      exact ⟨hs.tasked r hr, nofun⟩

/-- What a task knows of a recording which it ends. -/
def Ending (r : ℕ) (s : Service) : Prop := s.Filed ∧ Abandoned s r

/-- A change of a recording which is not attached any more. -/
theorem ending_update {recording : Recording} (h : Ending r s)
    (hworker : recording.worker = (s.recordings r).worker)
    (hqueue : ∃ sentinels, recording.queue = (s.recordings r).queue ++ List.replicate sentinels none) :
    (filing task).guarantee s (s.update r recording) ∧ Ending r (s.update r recording) := by
  have hclerical := Clerical.update hworker hqueue
  have hfiled : (s.update r recording).Filed := h.1.update recording fun hr => absurd hr h.2.2
  exact ⟨fun _ => ⟨hfiled, hclerical⟩, hfiled, h.2.later hclerical.later⟩

/-- The waits for a slot and for the worker keep to the books. -/
theorem ending_turn {w : Wait} (hw : w = .put r ∨ w = .worker r) (h : Ending r s)
    {answer : Option (Except Failure Unit)} (heffect : Effect task w s answer s') :
    (filing task).guarantee s s' ∧ Ending r s' := by
  have hkept : ∀ {t : Service}, SameBooks s t → (filing task).guarantee s t ∧ Ending r t := fun ht =>
    ⟨ht.filed, h.1.same ht.toSameRecordings, h.2.later (Clerical.of_sameBooks ht).later⟩
  have hnone : ∃ sentinels, (s.recordings r).queue = (s.recordings r).queue ++ List.replicate sentinels none :=
    ⟨0, (List.append_nil _).symm⟩
  have hcancelled : ∀ recording : Recording, recording.worker = (s.recordings r).worker →
      recording.queue = (s.recordings r).queue →
      (filing task).guarantee s ((s.cancelled task).update r recording) ∧
        Ending r ((s.cancelled task).update r recording) := by
    intro recording hworker hqueue
    have hsame : SameBooks s (s.cancelled task) := .of_fields rfl
    obtain ⟨hguarantee, hending⟩ := hkept hsame
    have hthis : (filing task).guarantee (s.cancelled task) ((s.cancelled task).update r recording) ∧ _ :=
      ending_update hending hworker ⟨0, by rw [hqueue]; exact (List.append_nil _).symm⟩
    refine ⟨fun hs => ?_, hthis.2⟩
    obtain ⟨hfiled, hclerical⟩ := hthis.1 (hguarantee hs).1
    exact ⟨hfiled, (hguarantee hs).2.trans hclerical⟩
  cases heffect with
  | blocked => exact hkept (.of_fields rfl)
  | went => exact hkept (.of_fields rfl)
  | joined => exact hkept (.of_fields rfl)
  | cancelled => exact hkept (.of_fields rfl)
  | queued =>
    obtain rfl := Wait.put.inj (hw.resolve_right nofun)
    exact ending_update h rfl hnone
  | put =>
    obtain rfl := Wait.put.inj (hw.resolve_right nofun)
    exact ending_update h rfl ⟨1, rfl⟩
  | unqueued =>
    obtain rfl := Wait.put.inj (hw.resolve_right nofun)
    exact hcancelled _ rfl rfl
  | passed =>
    obtain rfl := Wait.worker.inj (hw.resolve_left nofun)
    exact hcancelled _ rfl rfl
  | _ => rcases hw with hw | hw <;> cases hw

theorem ending_await {w : Wait} (hw : w = .put r ∨ w = .worker r) (h : Ending r s) :
    (Task.await w).Safe waits task (filing task) (fun _ => Ending r) s := by
  apply Safe.request
  apply Reached.of_turns (Ending r)
  · intro t t' ht hrely
    exact ⟨(hrely ht.1).1, ht.2.later (hrely ht.1).2⟩
  · intro t answer t' ht hturn
    obtain ⟨hguarantee, hending⟩ := ending_turn hw ht (Effect.of_turns hturn)
    exact ⟨hguarantee, fun _ => hending, fun _ _ => hending⟩
  · exact h

/-- `stop_recording` puts its sentinel behind everything published. -/
theorem stop_recording_filed (hs : s.Filed) :
    (Task.stop_recording task).Safe waits task (filing task) (fun _ s' => s'.Filed) s := by
  obtain ⟨hfiled, hclerical, habandoned⟩ := detach_filed task hs
  unfold Task.stop_recording
  refine Safe.get_bind (Safe.modify_bind (fun _ => ⟨hfiled, hclerical⟩) ?_)
  cases hr : s.record_task with
  | none => exact hfiled
  | some r =>
    have hending : Ending r (Task.detach task s) := ⟨hfiled, habandoned r hr⟩
    dsimp only
    split
    · next hrecorder =>
      simp only [Bool.and_eq_true, Option.isSome_iff_exists] at hrecorder
      obtain ⟨⟨r', hr'⟩, -⟩ := hrecorder
      obtain ⟨-, htask, hrecord⟩ := hs.attached r' hr'
      obtain rfl : r' = r := Option.some.inj (htask.symm.trans hr)
      rw [hrecord, Option.getD_some]
      refine Safe.seq (ending_await (.inl rfl) hending) (fun _ t ht => ?_) fun _ _ ht => ht.1
      exact (ending_await (.inr rfl) ht).mono fun _ _ ht' => ht'.1
    · exact (ending_await (.inr rfl) hending).mono fun _ _ ht => ht.1

/-- The coroutines keep to the books. -/
theorem filing_routine : Routine filing Filed where
  change _ _ _ hsame hs := ⟨hsame.filed, hs.same hsame.toSameRecordings⟩
  await _ _ _ hput hworker hs := by
    refine Safe.request (Reached.of_turns Filed (fun t t' ht hrely => (hrely ht).1) ?_ hs)
    intro t answer t' ht hturn
    have hsame := (Effect.of_turns hturn).sameBooks hput hworker
    exact ⟨hsame.filed, fun _ => ht.same hsame.toSameRecordings, fun _ _ => ht.same hsame.toSameRecordings⟩
  stop_recording _ _ hs := stop_recording_filed hs

end Coroutines

section Environment

variable {s s' : Service} {r : ℕ}

/-- A turn of a worker touches its own recording, and detaches it when it loses its worker. -/
theorem worked_filed {recording : Recording} (hs : s.Filed)
    (h : s.recorder = some r → recording.worker.looping = true ∧ none ∉ recording.queue ∧
      recording.cancelling = false) : (s.update r recording).Filed ∧ Later s (s.update r recording) :=
  ⟨hs.update recording h, Later.refl s⟩

/-- Fetching from an attached recording leaves its worker in the loop. -/
theorem fetch_active {recording : Recording} (h : none ∉ recording.queue) (hcancelling : recording.cancelling = false) :
    recording.fetch.worker.looping = true ∧ none ∉ recording.fetch.queue ∧ recording.fetch.cancelling = false := by
  unfold Recording.fetch
  split
  · next hqueue => exact ⟨rfl, by simp [hqueue], hcancelling⟩
  · next rest hqueue => exact absurd (hqueue ▸ List.mem_cons_self) h
  · next scan rest hqueue =>
    rw [hqueue] at h
    exact ⟨rfl, fun hmem => h (List.mem_cons_of_mem _ hmem), hcancelling⟩

/-- A write which fails detaches its recording. -/
theorem writeFails_filed (hs : s.Filed) : (s.writeFails r).Filed ∧ Later s (s.writeFails r) := by
  have hrecorder : ∀ q, (s.writeFails r).recorder = some q → q ≠ r ∧ s.recorder = some q := by
    intro q hq
    simp only [Service.writeFails] at hq
    split at hq
    · cases hq
    · next hne => exact ⟨fun heq => hne (heq ▸ hq), hq⟩
  refine ⟨⟨fun q hq => hs.attached q (hrecorder q hq).2, fun q hq => ?_, hs.tasked⟩, le_rfl, fun q _ hq => (hrecorder q hq).2⟩
  obtain ⟨hne, hq'⟩ := hrecorder q hq
  simp only [Service.writeFails, Service.update, Function.update_of_ne hne]
  exact hs.active q hq'

/-- A turn of a worker keeps to the books. -/
theorem work_filed {turn : WorkerTurn} (h : s.work r turn = some s') (hs : s.Filed) : s'.Filed ∧ Later s s' := by
  have hleft : ∀ {w : Worker} {closed : Bool}, (s.recordings r).worker.looping = false →
      (s.update r { s.recordings r with worker := w, closed }).Filed ∧
        Later s (s.update r { s.recordings r with worker := w, closed }) := by
    intro w closed hleft
    apply worked_filed hs
    intro hr
    rw [(hs.active r hr).1] at hleft
    cases hleft
  have hfetch : (s.update r (s.recordings r).fetch).Filed ∧ Later s (s.update r (s.recordings r).fetch) := by
    apply worked_filed hs
    intro hr
    obtain ⟨-, hqueue, hcancelling⟩ := hs.active r hr
    exact fetch_active hqueue hcancelling
  unfold Service.work at h
  dsimp only at h
  split at h
  swap
  · cases h
  split at h
  · cases h
    exact hfetch
  · split at h
    · cases h
    · cases h
      exact hfetch
  · cases h
    exact hfetch
  · cases h
    exact writeFails_filed hs
  · next hclosing =>
    cases h
    exact hleft (by rw [hclosing]; rfl)
  · next hclosing =>
    cases h
    exact hleft (by rw [hclosing]; rfl)
  · split at h
    · next hcancelling =>
      have hdetached : s.recorder ≠ some r := by
        intro hr
        rw [(hs.active r hr).2.2] at hcancelling
        cases hcancelling
      split at h <;> cases h <;> exact worked_filed hs fun hr => absurd hr hdetached
    · cases h
  · cases h

theorem SameBooks.outside (h : SameBooks s s') (hs : s.Filed) : s'.Filed ∧ Later s s' :=
  ⟨hs.same h.toSameRecordings, (Clerical.of_sameBooks h).later⟩

/-- A publication puts its scan into the attached recording. -/
theorem publish_filed (scan : Scan) (hs : s.Filed) : (s.publish scan).Filed ∧ Later s (s.publish scan) := by
  unfold Service.publish
  split
  · next r q hr hq =>
    obtain ⟨-, -, hrecord⟩ := hs.attached r hr
    obtain rfl : r = q := Option.some.inj (hrecord.symm.trans hq)
    obtain ⟨hlooping, hqueue, hcancelling⟩ := hs.active r hr
    split
    · exact ⟨hs, Later.refl s⟩
    split
    · exact ⟨hs.same (.of_fields rfl), le_rfl, fun _ _ h => h⟩
    · exact worked_filed hs fun _ => ⟨hlooping, by simp [hqueue], hcancelling⟩
  · exact ⟨hs, Later.refl s⟩

/-- A new recording is attached. -/
theorem start_recording_filed (h : s.start_recording = some s') (hs : s.Filed) : s'.Filed ∧ Later s s' := by
  unfold Service.start_recording at h
  split at h
  · cases h
  split at h
  · cases h
    exact ⟨hs, Later.refl s⟩
  · cases h
    refine ⟨⟨?_, ?_, ?_⟩, Nat.le_succ _, fun r hr heq => ?_⟩
    · rintro r ⟨⟩
      exact ⟨Nat.lt_succ_self _, rfl, rfl⟩
    · rintro r ⟨⟩
      simp [Service.update, Worker.looping]
    · rintro r ⟨⟩
      exact Nat.lt_succ_self _
    · exact absurd (Option.some.inj heq) (Nat.ne_of_gt hr)

/-- What happens outside the coroutines keeps to the books. -/
theorem react_filed {input : Input} (h : react input s = some s') (hs : s.Filed) : s'.Filed ∧ Later s s' := by
  cases input with
  | launch =>
    simp only [react] at h
    split at h <;> cases h
    exact SameBooks.outside (.of_fields rfl) hs
  | moves state =>
    simp only [react, Service.moves] at h
    split at h
    · cases h
    split at h <;> cases h <;> exact SameBooks.outside (.of_fields rfl) hs
  | opens =>
    simp only [react] at h
    split at h <;> cases h
    exact SameBooks.outside (.of_fields rfl) hs
  | publish scan =>
    obtain rfl := Option.some.inj h
    exact publish_filed scan hs
  | record => exact start_recording_filed h hs
  | consent enable_writes consent =>
    simp only [react, Service.consent] at h
    split at h
    · cases h
    split at h <;> cases h
    exact SameBooks.outside (.of_fields rfl) hs
  | worker r turn => exact work_filed h hs

end Environment

/-- What happens outside the coroutines, of what is allowed, may happen. -/
theorem reactIf_eq_some {allowed : Input → Service → Bool} {input : Input} {s s' : Service}
    (h : reactIf allowed input s = some s') : allowed input s = true ∧ react input s = some s' := by
  unfold reactIf at h
  split at h
  · next hallowed => exact ⟨hallowed, h⟩
  · cases h

/-- The contracts of the tasks fit together. -/
def filingDiscipline (allowed : Input → Service → Bool) : Discipline waits (Outside allowed) spawn where
  inv := Filed
  contract := filing
  ended _ _ _ := True
  guarantee_inv _ _ _ h hs := (h hs).1
  guarantee_rely _ _ _ _ _ hs h := fun _ => ⟨(h hs).1, (h hs).2.later⟩
  env_inv _ _ h hs := by
    obtain ⟨input, hinput⟩ := h
    exact (react_filed (reactIf_eq_some hinput).2 hs).1
  env_rely _ _ _ hs h := by
    obtain ⟨input, hinput⟩ := h
    exact fun _ => react_filed (reactIf_eq_some hinput).2 hs
  ended_rely _ _ _ _ _ _ := trivial
  spawn_inv _ _ _ _ _ h hs := hs.same (spawn_sameBooks h).toSameRecordings
  spawn_rely _ _ _ _ _ _ _ _ h := fun hs => SameBooks.outside (spawn_sameBooks h) hs
  spawn_safe _ _ _ _ _ _ hs _ h := (filing_routine.spawned h hs).mono fun _ _ _ => trivial

/-- Every recording is balanced, and those to come have no account yet. -/
structure Kept (s : Service) (l : Ledger) : Prop where
  balanced : ∀ r < s.count, Balanced (s.recordings r) (l r)
  later : ∀ r, s.count ≤ r → l r = {}

section Accounts

variable {s s' : Service} {l : Ledger} {r : ℕ}

/-- Coroutines disturb no account. -/
theorem Clerical.kept (h : Clerical s s') (hs : Kept s l) : Kept s' l :=
  ⟨fun r hr => h.balanced (hs.balanced r (h.count ▸ hr)), fun r hr => hs.later r (h.count ▸ hr)⟩

/-- One recording and its account change. -/
theorem Kept.update {recording : Recording} {e : Entry} (hs : Kept s l) (hr : r < s.count)
    (hcount : s'.count = s.count) (hrecordings : s'.recordings = Function.update s.recordings r recording)
    (h : Balanced recording e) : Kept s' (Function.update l r e) := by
  refine ⟨fun q hq => ?_, fun q hq => ?_⟩
  · rw [hrecordings]
    by_cases hqr : q = r
    · subst hqr
      rw [Function.update_self, Function.update_self]
      exact h
    · rw [Function.update_of_ne hqr, Function.update_of_ne hqr]
      exact hs.balanced q (hcount ▸ hq)
  · rw [hcount] at hq
    rw [Function.update_of_ne (Nat.ne_of_gt (hr.trans_le hq))]
    exact hs.later q hq

/-- A worker which is not writing has no scan in its hands. -/
theorem Balanced.writing_eq_none {recording : Recording} {e : Entry} (h : Balanced recording e)
    (hworker : recording.worker ≠ .writing) : e.writing = none := by
  obtain ⟨-, -, -, hwriting, -⟩ := h
  exact Option.not_isSome_iff_eq_none.mp (mt hwriting.mp hworker)

/-- A worker fetches its next scan, or the end of its recording. -/
theorem Balanced.fetch {recording : Recording} {e : Entry} {written : List Scan} (h : Balanced recording e)
    (hlooping : recording.worker.looping = true) (hwritten : written = e.written ++ e.writing.toList) :
    Balanced recording.fetch { e with
      written
      writing := if recording.fetch.worker = .writing then recording.queue.head?.join else none } := by
  obtain ⟨scans, sentinels, hqueue, -, hkeeps⟩ := h
  rw [if_pos hlooping, ← hwritten] at hkeeps
  cases scans with
  | nil =>
    rw [List.append_nil] at hkeeps
    cases sentinels with
    | zero =>
      have hempty : recording.queue = [] := hqueue
      have hfetch : recording.fetch = { recording with worker := .getting } := by
        rw [Recording.fetch, hempty]
      rw [hfetch]
      refine ⟨[], 0, hempty, by simp, ?_⟩
      simpa [Worker.looping, Entry.Keeps] using hkeeps
    | succ sentinels =>
      have hend : recording.queue = none :: List.replicate sentinels none := hqueue
      have hfetch : recording.fetch =
          { recording with queue := List.replicate sentinels none, worker := .closing (.ok ()) } := by
        rw [Recording.fetch, hend]
      rw [hfetch]
      refine ⟨[], sentinels, rfl, by simp, ?_⟩
      simpa [Worker.looping, Entry.Keeps] using hkeeps
  | cons scan scans =>
    have hnext : recording.queue = some scan :: (scans.map some ++ List.replicate sentinels none) := hqueue
    have hfetch : recording.fetch =
        { recording with queue := scans.map some ++ List.replicate sentinels none, worker := .writing } := by
      rw [Recording.fetch, hnext]
    rw [hfetch, hnext]
    refine ⟨scans, sentinels, rfl, by simp, ?_⟩
    simpa [Worker.looping, Entry.Keeps] using hkeeps

/-- A failing write loses its scan and those queued, when no end of the recording is queued. -/
theorem Balanced.writeFails {recording : Recording} {e : Entry} (h : Balanced recording e)
    (hworker : recording.worker = .writing) (hqueue : none ∉ recording.queue) :
    Balanced { recording with worker := .closing (.ok ()) }
      { e with writing := none, drops := e.drops + (recording.queue.length + 1) } := by
  obtain ⟨scans, sentinels, hsplit, hwriting, hsublist, hcount⟩ := h
  have hlooping : recording.worker.looping = true := by rw [hworker]; rfl
  rw [if_pos hlooping] at hsublist hcount
  obtain ⟨scan, hscan⟩ := Option.isSome_iff_exists.mp (hwriting.mpr hworker)
  have hnone : sentinels = 0 := by
    by_contra hne
    apply hqueue
    rw [hsplit]
    exact List.mem_append_right _ (List.mem_replicate.mpr ⟨hne, rfl⟩)
  refine ⟨scans, sentinels, hsplit, by simp, ?_⟩
  have hleft : Worker.looping (.closing (.ok ())) = false := rfl
  dsimp only
  rw [hleft, if_neg Bool.false_ne_true]
  refine ⟨?_, ?_⟩
  · rw [List.append_assoc] at hsublist
    exact (List.sublist_append_left _ _).trans hsublist
  · rw [hsplit, hnone]
    simp only [hscan, List.length_append, Option.toList_some, List.length_singleton, List.length_map,
      List.length_replicate] at hcount ⊢
    omega

/-- A worker which has left its loop goes on. -/
theorem Balanced.leave {recording recording' : Recording} {e : Entry} (h : Balanced recording e)
    (hbefore : recording.worker.looping = false) (hqueue : recording'.queue = recording.queue)
    (hafter : recording'.worker.looping = false) : Balanced recording' { e with writing := none } := by
  obtain ⟨scans, sentinels, hsplit, -, hkeeps⟩ := h
  refine ⟨scans, sentinels, hqueue.trans hsplit, ?_, ?_⟩
  · have hne : recording'.worker ≠ .writing := fun heq => by rw [heq] at hafter; cases hafter
    simp [hne]
  · rw [hbefore, if_neg Bool.false_ne_true] at hkeeps
    rw [hafter, if_neg Bool.false_ne_true]
    exact hkeeps

/-- A worker with nothing to write is cancelled. -/
theorem Balanced.cancel {recording recording' : Recording} {e : Entry} (h : Balanced recording e)
    (hworker : recording.worker ≠ .writing) (hempty : recording.queue.all (·.isNone) = true)
    (hqueue : recording'.queue = recording.queue) (hafter : recording'.worker.looping = false) :
    Balanced recording' { e with writing := none } := by
  have hnone := h.writing_eq_none hworker
  obtain ⟨scans, sentinels, hsplit, -, hkeeps⟩ := h
  have hscans : scans = [] := by
    rw [hsplit, List.all_append, Bool.and_eq_true] at hempty
    cases scans with
    | nil => rfl
    | cons scan rest => simp at hempty
  refine ⟨scans, sentinels, hqueue.trans hsplit, ?_, ?_⟩
  · have hne : recording'.worker ≠ .writing := fun heq => by rw [heq] at hafter; cases hafter
    simp [hne]
  · rw [hafter, if_neg Bool.false_ne_true]
    rw [hscans, hnone] at hkeeps
    simpa [Entry.Keeps] using hkeeps

/-- A turn of a worker is entered exactly. -/
theorem Kept.work {turn : WorkerTurn} (hs : Kept s l) (h : s.work r turn = some s')
    (hallowed : countsInput (.worker r turn) s = true) : Kept s' (l.note s s' (.worker r turn)) := by
  unfold Service.work at h
  dsimp only at h
  split at h
  swap
  · cases h
  next hr =>
  have hbalanced := hs.balanced r hr
  -- A worker which was not writing has written nothing more.
  have hfetch : ∀ {turn : WorkerTurn}, (s.recordings r).worker.looping = true →
      ((s.recordings r).worker = .writing ↔ turn = .writes) →
      Kept (s.update r (s.recordings r).fetch)
        (l.note s (s.update r (s.recordings r).fetch) (.worker r turn)) := by
    intro turn hlooping hturn
    refine hs.update hr rfl rfl ?_
    simp only [Service.update, Function.update_self, Nat.sub_self, Nat.add_zero]
    apply hbalanced.fetch hlooping
    by_cases hwrites : turn = .writes
    · rw [if_pos hwrites]
    · rw [if_neg hwrites, hbalanced.writing_eq_none (mt hturn.mp hwrites), Option.toList_none, List.append_nil]
  have hleave : ∀ {turn : WorkerTurn} {recording : Recording}, turn ≠ .writes →
      recording.worker.looping = false → Balanced recording { l r with writing := none } →
      Kept (s.update r recording) (l.note s (s.update r recording) (.worker r turn)) := by
    intro turn recording hturn hleft hthis
    have hne : recording.worker ≠ .writing := fun heq => by rw [heq] at hleft; cases hleft
    refine hs.update hr rfl rfl ?_
    simp only [Service.update, Function.update_self, Nat.sub_self, Nat.add_zero, if_neg hturn, if_neg hne]
    exact hthis
  split at h
  · next hworker =>
    cases h
    exact hfetch (by rw [hworker]; rfl) (by simp [hworker])
  · next hworker =>
    split at h
    · cases h
    · cases h
      exact hfetch (by rw [hworker]; rfl) (by simp [hworker])
  · next hworker =>
    cases h
    exact hfetch (by rw [hworker]; rfl) (by simp [hworker])
  · next hworker =>
    cases h
    have hqueue : none ∉ (s.recordings r).queue := by simpa [countsInput] using hallowed
    refine hs.update hr rfl rfl ?_
    simp only [Service.writeFails, Service.update, Function.update_self, Nat.add_sub_cancel_left, reduceCtorEq,
      if_false]
    exact hbalanced.writeFails hworker hqueue
  · next outcome hworker =>
    cases h
    exact hleave nofun rfl (hbalanced.leave (by rw [hworker]; rfl) rfl rfl)
  · next outcome hworker =>
    cases h
    exact hleave nofun rfl (hbalanced.leave (by rw [hworker]; rfl) rfl rfl)
  · split at h
    · simp only [countsInput, Bool.or_eq_true, Bool.not_eq_true', Bool.and_eq_true, decide_eq_true_eq] at hallowed
      have hcancel : ∀ {recording : Recording}, recording.queue = (s.recordings r).queue →
          recording.worker.looping = false → Balanced recording { l r with writing := none } := by
        intro recording hqueue hafter
        rcases hallowed with hleft | ⟨hidle, hempty⟩
        · exact hbalanced.leave hleft hqueue hafter
        · exact hbalanced.cancel hidle hempty hqueue hafter
      split at h <;> cases h <;> exact hleave nofun rfl (hcancel rfl rfl)
    · cases h
  · cases h

/-- A publication is entered exactly. -/
theorem Kept.publish (hs : Kept s l) (hfiled : s.Filed) (scan : Scan) :
    Kept (s.publish scan) (l.note s (s.publish scan) (.publish scan)) := by
  cases hrecorder : s.recorder with
  | none =>
    have hsame : s.publish scan = s := by rw [Service.publish, hrecorder]
    simp only [Ledger.note, hrecorder, hsame]
    exact hs
  | some r =>
    obtain ⟨hr, -, hqueue⟩ := hfiled.attached r hrecorder
    obtain ⟨hlooping, hnone, -⟩ := hfiled.active r hrecorder
    obtain ⟨scans, sentinels, hsplit, hwriting, hsublist, hcount⟩ := hs.balanced r hr
    rw [if_pos hlooping] at hsublist hcount
    simp only [Ledger.note, hrecorder]
    have hpublish := Service.publish.eq_def s scan
    rw [hrecorder, hqueue] at hpublish
    dsimp only at hpublish
    by_cases hclosed : (s.recordings r).closed = true
    · rw [if_pos hclosed] at hpublish ⊢
      rw [hpublish]
      exact hs
    rw [if_neg hclosed] at hpublish ⊢
    by_cases hfull : (s.recordings r).full = true
    · rw [if_pos hfull] at hpublish
      rw [hpublish]
      refine hs.update hr rfl (Function.update_eq_self r s.recordings).symm ⟨scans, sentinels, hsplit, hwriting, ?_⟩
      rw [if_pos hlooping]
      refine ⟨hsublist.trans (List.sublist_append_left _ _), ?_⟩
      simp only [List.length_append, List.length_singleton, Nat.add_sub_cancel_left] at hcount ⊢
      omega
    · rw [if_neg hfull] at hpublish
      rw [hpublish]
      have hsentinels : sentinels = 0 := by
        by_contra hne
        apply hnone
        rw [hsplit]
        exact List.mem_append_right _ (List.mem_replicate.mpr ⟨hne, rfl⟩)
      refine hs.update hr rfl rfl ⟨scans ++ [scan], 0, ?_, hwriting, ?_⟩
      · simp [hsplit, hsentinels]
      · rw [if_pos hlooping, ← List.append_assoc]
        refine ⟨hsublist.append (List.Sublist.refl [scan]), ?_⟩
        simp only [Service.update, Nat.sub_self, Nat.add_zero, List.length_append, List.length_singleton] at hcount ⊢
        omega

/-- A new recording starts with an empty account. -/
theorem Kept.start_recording (hs : Kept s l) (h : s.start_recording = some s') : Kept s' l := by
  unfold Service.start_recording at h
  split at h
  · cases h
  split at h
  · cases h
    exact hs
  · cases h
    refine ⟨fun r hr => ?_, fun r hr => hs.later r (Nat.le_of_succ_le hr)⟩
    by_cases hnew : r = s.count
    · subst hnew
      rw [hs.later _ le_rfl]
      simp only [Service.update, Function.update_self]
      exact ⟨[], 0, rfl, by simp, by simp [Worker.looping, Entry.Keeps]⟩
    · simp only [Service.update, Function.update_of_ne hnew]
      exact hs.balanced r (Nat.lt_of_le_of_ne (Nat.le_of_lt_succ hr) hnew)

/-- Whatever happens outside the coroutines is entered exactly, where it is allowed. -/
theorem Kept.react {input : Input} (hs : Kept s l) (hfiled : s.Filed) (h : react input s = some s')
    (hallowed : countsInput input s = true) : Kept s' (l.note s s' input) := by
  have hsame : ∀ {s'}, SameBooks s s' → Kept s' l := fun hsame => (Clerical.of_sameBooks hsame).kept hs
  cases input with
  | launch =>
    simp only [Service.react] at h
    split at h <;> cases h
    exact hsame (.of_fields rfl)
  | moves state =>
    simp only [Service.react, Service.moves] at h
    split at h
    · cases h
    split at h <;> cases h <;> exact hsame (.of_fields rfl)
  | opens =>
    simp only [Service.react] at h
    split at h <;> cases h
    exact hsame (.of_fields rfl)
  | publish scan =>
    obtain rfl := Option.some.inj h
    exact hs.publish hfiled scan
  | record => exact hs.start_recording h
  | consent enable_writes consent =>
    simp only [Service.react, Service.consent] at h
    split at h
    · cases h
    split at h <;> cases h
    exact hsame (.of_fields rfl)
  | worker r turn => exact hs.work h hallowed

end Accounts

/-- Guaranteed steps are the coroutines' own. -/
theorem clerical_of_guaranteed {task : ℕ} {s s' : Service}
    (h : Relation.ReflTransGen (filing task).guarantee s s') (hs : s.Filed) : s'.Filed ∧ Clerical s s' := by
  induction h with
  | refl => exact ⟨hs, .of_sameBooks (.of_fields rfl)⟩
  | tail _ hstep ih =>
    obtain ⟨hfiled, hclerical⟩ := hstep ih.1
    exact ⟨hfiled, ih.2.trans hclerical⟩

namespace Books

/-- The coroutines are where they may be, and the ledger is exact. -/
def Exact (b : Books) : Prop := (filingDiscipline countsInput).Ok b.1 ∧ Kept b.1.shared b.2

/-- Every move is entered exactly. -/
theorem Exact.move {b b' : Books} {m : Move Input Job Turn} (h : b.Exact) (hmove : b.move countsInput m = some b') :
    b'.Exact := by
  obtain ⟨pool, hpool, rfl⟩ := Option.map_eq_some_iff.mp hmove
  obtain ⟨hok, hkept⟩ := h
  have hstep : Pool.Step waits (Outside countsInput) spawn b.1 pool :=
    .of_move (fun input _ _ hinput => ⟨input, hinput⟩) hpool
  refine ⟨hok.step hstep, ?_⟩
  cases m with
  | outside input =>
    obtain ⟨s', hinput, rfl⟩ := Option.map_eq_some_iff.mp hpool
    obtain ⟨hallowed, hreact⟩ := reactIf_eq_some hinput
    exact hkept.react hok.1 hreact hallowed
  | turn task choice =>
    have hsteps : Relation.ReflTransGen (filing task).guarantee b.1.shared pool.shared :=
      hok.turn_guaranteed (Pool.TurnOf.of_move hpool)
    exact (clerical_of_guaranteed hsteps hok.1).2.kept hkept
  | start task job =>
    obtain ⟨outcome, p, s', -, hspawn, rfl⟩ := Pool.start_of_move hpool
    have hsame := spawn_sameBooks hspawn
    have hfiled := hok.1.same hsame.toSameRecordings
    have hsteps : Relation.ReflTransGen (filing task).guarantee s' (p.advance waits task s').2 :=
      (filing_routine.spawned hspawn hok.1).advance.1
    exact (clerical_of_guaranteed hsteps hfiled).2.kept ((Clerical.of_sameBooks hsame).kept hkept)

/-- Every script is entered exactly. -/
theorem Exact.play {script : Script} {b b' : Books} (h : b.Exact) (hplay : b.play countsInput script = some b') :
    b'.Exact := by
  induction script generalizing b with
  | nil =>
    obtain rfl := Option.some.inj hplay
    exact h
  | cons m rest ih =>
    obtain ⟨next, hmove, hrest⟩ := Option.bind_eq_some_iff.mp hplay
    exact ih (h.move hmove) hrest

/-- A service which has just been made has an exact ledger. -/
theorem exact_idle (settings : Settings) : Exact (idle settings, fun _ => {}) :=
  ⟨⟨⟨nofun, nofun, nofun⟩, fun _ => trivial⟩, fun r hr => absurd hr (Nat.not_lt_zero r), fun _ _ => rfl⟩

end Books

/-- Where no write fails while the end of its recording is queued, and no worker is cancelled which has a
scan to write: once a worker has left its loop, what was published to its recording while it was attached
is what it has written and what was counted as dropped, and it has written it in order. -/
theorem record_drops_exact {settings : Settings} {script : Script} {b : Books}
    (h : Books.play countsInput script (idle settings, fun _ => {}) = some b) {r : ℕ}
    (hleft : (b.1.shared.recordings r).worker.looping = false) :
    (b.2 r).published.length = (b.2 r).written.length + (b.2 r).drops ∧
      (b.2 r).written.Sublist (b.2 r).published := by
  obtain ⟨-, hkept⟩ := (Books.exact_idle settings).play h
  by_cases hr : r < b.1.shared.count
  · obtain ⟨scans, sentinels, -, -, hkeeps⟩ := hkept.balanced r hr
    rw [hleft, if_neg Bool.false_ne_true] at hkeeps
    exact ⟨hkeeps.2, hkeeps.1⟩
  · rw [hkept.later r (Nat.not_lt.mp hr)]
    exact ⟨rfl, .slnil⟩

/-- A write fails with a scan queued behind it. -/
def failingScript : Script :=
  recordingScript ++ [.outside (.publish someScan), .outside (.worker 0 .gets), .outside (.publish someScan),
    .outside (.worker 0 .writeFails), .outside (.worker 0 .closes)]

/-- Both scans are counted. -/
theorem record_drops_exact_failing : ∃ b : Books,
    Books.play countsInput failingScript (idle { }, fun _ => {}) = some b ∧ (b.2 0).drops = 2 ∧
      (b.2 0).published.length = (b.2 0).written.length + (b.2 0).drops := by
  have hoverview : (Books.play countsInput failingScript (idle { }, fun _ => {})).map (fun b : Books =>
      ((b.1.shared.recordings 0).worker.looping, (b.2 0).drops)) = some (false, 2) := by decide +kernel
  obtain ⟨b, hplayed, hfields⟩ := Option.map_eq_some_iff.mp hoverview
  obtain ⟨hleft, hdrops⟩ := Prod.mk.inj hfields
  exact ⟨b, hplayed, hdrops, (record_drops_exact hplayed hleft).1⟩

/-- A recording is ended during a write, which then fails. -/
def endedScript : Script :=
  recordingScript ++ [.outside (.publish someScan), .outside (.worker 0 .gets), .start 3 .stop,
    .outside (.worker 0 .writeFails), .outside (.worker 0 .closes)]

/-- One scan is published and lost, and two are counted: the end of the recording is counted as a scan. -/
theorem end_counted_as_drop : ∃ b : Books,
    Books.play anyInput endedScript (idle { }, fun _ => {}) = some b ∧
      (b.1.shared.recordings 0).worker.done = true ∧
      ¬ (b.2 0).published.length = (b.2 0).written.length + (b.2 0).drops := by
  have hoverview : (Books.play anyInput endedScript (idle { }, fun _ => {})).map (fun b : Books =>
      ((b.1.shared.recordings 0).worker.done, (b.2 0).published.length, (b.2 0).written.length,
        (b.2 0).drops)) = some (true, 1, 0, 2) := by decide +kernel
  obtain ⟨b, hplayed, hfields⟩ := Option.map_eq_some_iff.mp hoverview
  simp only [Prod.mk.injEq] at hfields
  obtain ⟨hdone, hpublished, hwritten, hdrops⟩ := hfields
  refine ⟨b, hplayed, hdone, ?_⟩
  rw [hpublished, hwritten, hdrops]
  decide

end Lms200.Service
