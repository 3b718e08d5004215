import Lms200.Service.Effects

/-!
# The watcher and a later recovery

The watcher observes a fault, ends the recording, and waits for the operation lock before it closes
the device. The lock is handed on in the order of asking. So a start or reconnect which is accepted
once the watcher has asked for the lock comes after it; one which is accepted while the watcher
ends the recording may come first, and the watcher then closes the device which it has recovered.
-/

namespace Lms200.Service

open Coop Program

/-- Since the last observation of a fault the device has been recovered, and has not faulted. -/
def Recovered (trace : List Happening) : Prop :=
  ∃ before between after, trace = before ++ .observed :: between ++ .recovered :: after ∧
    .observed ∉ between ++ after ∧ .faulted ∉ after

/-- The watcher closes the device, or sets it to `FAULTED`, because of an observation of a fault which
came before a recovery, since which the device has not faulted. -/
def Undoes (trace : List Happening) : Prop :=
  ∃ earlier act later, trace = earlier ++ act :: later ∧ (act = .closing ∨ act = .overridden) ∧
    Recovered earlier

/-- A start or reconnect is not accepted while the watcher ends the recording because of a fault which
it has observed. -/
def yieldsJob : ℕ → Job → Service → Bool
  | 1, .action name, s => !(name.starts && s.attending && watcherTask ∉ s.waiters)
  | _, _, _ => true

/-- Start only what is allowed. -/
def spawnIf (allowed : ℕ → Job → Service → Bool) : Spawn Service Wait Wait.Answer Failure Job :=
  fun task job s => if allowed task job s then spawn task job s else none

section Traces

variable {trace : List Happening}

/-- Only a recovery makes a trace recovered. -/
theorem Recovered.of_append {happening : Happening} (h : Recovered (trace ++ [happening]))
    (hne : happening ≠ .recovered) : Recovered trace ∧ happening ≠ .observed ∧ happening ≠ .faulted := by
  obtain ⟨before, between, after, heq, hobserved, hfaulted⟩ := h
  rcases List.eq_nil_or_concat after with rfl | ⟨after, last, rfl⟩
  · obtain ⟨-, hlast⟩ := List.append_inj' heq rfl
    exact absurd (List.cons.inj hlast).1 hne
  · rw [List.concat_eq_append] at heq hobserved hfaulted
    have : trace ++ [happening] = (before ++ .observed :: between ++ .recovered :: after) ++ [last] := by
      simpa using heq
    obtain ⟨htrace, hlast⟩ := List.append_inj' this rfl
    obtain rfl := (List.cons.inj hlast).1
    simp only [List.mem_append, List.mem_singleton, not_or] at hobserved hfaulted
    refine ⟨⟨before, between, after, htrace, ?_, hfaulted.1⟩, Ne.symm hobserved.2.2, Ne.symm hfaulted.2⟩
    simp [hobserved]

/-- What the watcher does at the end of a trace undoes what the trace has recovered. -/
theorem Undoes.of_append {happening : Happening} (h : Undoes (trace ++ [happening])) :
    Undoes trace ∨ (happening = .closing ∨ happening = .overridden) ∧ Recovered trace := by
  obtain ⟨earlier, act, later, heq, hact, hrecovered⟩ := h
  rcases List.eq_nil_or_concat later with rfl | ⟨later, last, rfl⟩
  · obtain ⟨rfl, hlast⟩ := List.append_inj' heq rfl
    obtain rfl := (List.cons.inj hlast).1
    exact .inr ⟨hact, hrecovered⟩
  · have : trace ++ [happening] = (earlier ++ act :: later) ++ [last] := by simpa using heq
    obtain ⟨htrace, -⟩ := List.append_inj' this rfl
    exact .inl ⟨earlier, act, later, htrace, hact, hrecovered⟩

end Traces

/-- The watcher waits for the lock before the operation does. -/
def Ahead (waiters : List ℕ) : Prop :=
  ∃ front back, waiters = front ++ operationTask :: back ∧ watcherTask ∈ front ∧ operationTask ∉ front

/-- The watcher has not undone a recovery, and will not undo one with what it has observed. -/
structure Unharmed (s : Service) : Prop where
  safe : ¬ Undoes s.trace
  fresh : s.attending = true ∨ s.operation_lock = some watcherTask → ¬ Recovered s.trace
  waiting : operationTask ∈ s.waiters → s.busy = true

/-- What the operation may rely on: the watcher observes no fault while it runs, and nobody overtakes
the watcher. -/
structure Passes (s s' : Service) : Prop where
  busy : s'.busy = s.busy
  count : s'.waiters.count operationTask = s.waiters.count operationTask
  attending : s.busy = true → s.attending = false → s'.attending = false
  queued : s.busy = true → (s.attending = true → watcherTask ∈ s.waiters) →
    s'.attending = true → watcherTask ∈ s'.waiters
  ahead : s.busy = true → (s.attending = true → Ahead s.waiters) → s'.attending = true → Ahead s'.waiters

/-- What a task may rely on: it keeps the lock, and the watcher keeps attending. -/
structure Yields (task : ℕ) (s s' : Service) : Prop where
  lock : s'.operation_lock = some task ↔ s.operation_lock = some task
  watcher : task = watcherTask → s'.attending = s.attending
  operation : task = operationTask → Passes s s'

/-- Every task keeps out of the others' way. -/
def yielding (task : ℕ) : Contract Service where
  rely s s' := s.Unharmed → s'.Unharmed ∧ Yields task s s'
  guarantee s s' := s.Unharmed → s'.Unharmed ∧ ∀ other, other ≠ task → Yields other s s'

/-- A coroutine of a task which keeps to the contract. -/
abbrev Defers (task : ℕ) {α : Type} (p : Program Service Wait Wait.Answer Failure α)
    (post : Except Failure α → Service → Prop) (s : Service) : Prop :=
  p.Safe waits task (yielding task) post s

/-- Two services which agree on the lock and on what has become of the device, a fault apart. -/
structure Calm (s s' : Service) : Prop where
  operation_lock : s'.operation_lock = s.operation_lock
  waiters : s'.waiters = s.waiters
  busy : s'.busy = s.busy
  attending : s'.attending = s.attending
  trace : s'.trace = s.trace ∨ s'.trace = s.trace ++ [.faulted]

section Guarantees

variable {s s' : Service} {task : ℕ}

theorem Calm.of_fields (hsame : (s'.operation_lock, s'.waiters, s'.busy, s'.attending, s'.trace) =
    (s.operation_lock, s.waiters, s.busy, s.attending, s.trace)) : Calm s s' := by
  simp only [Prod.mk.injEq] at hsame
  obtain ⟨hlock, hwaiters, hbusy, hattending, htrace⟩ := hsame
  exact ⟨hlock, hwaiters, hbusy, hattending, .inl htrace⟩

theorem Calm.of_fault (hsame : (s'.operation_lock, s'.waiters, s'.busy, s'.attending, s'.trace) =
    (s.operation_lock, s.waiters, s.busy, s.attending, s.trace ++ [.faulted])) : Calm s s' := by
  simp only [Prod.mk.injEq] at hsame
  obtain ⟨hlock, hwaiters, hbusy, hattending, htrace⟩ := hsame
  exact ⟨hlock, hwaiters, hbusy, hattending, .inr htrace⟩

/-- Whatever else happens, waiters and flags which stay the same are no trouble. -/
theorem Yields.of_fields (hlock : s'.operation_lock = some task ↔ s.operation_lock = some task)
    (hwaiters : s'.waiters = s.waiters) (hbusy : s'.busy = s.busy)
    (hattending : s'.attending = s.attending) : Yields task s s' := by
  refine ⟨hlock, fun _ => hattending, fun _ => ⟨hbusy, by rw [hwaiters], fun _ h => hattending.trans h, ?_, ?_⟩⟩
  · rw [hwaiters, hattending]
    exact fun _ h => h
  · rw [hwaiters, hattending]
    exact fun _ h => h

theorem Calm.unharmed (h : Calm s s') (hs : s.Unharmed) : s'.Unharmed := by
  obtain ⟨hlock, hwaiters, hbusy, hattending, htrace⟩ := h
  refine ⟨?_, ?_, by rw [hwaiters, hbusy]; exact hs.waiting⟩
  · rcases htrace with htrace | htrace
    · rw [htrace]
      exact hs.safe
    · rw [htrace]
      exact fun h => h.of_append.elim hs.safe fun h => by simp at h
  · rw [hattending, hlock]
    intro hfresh
    rcases htrace with htrace | htrace
    · rw [htrace]
      exact hs.fresh hfresh
    · rw [htrace]
      exact fun h => hs.fresh hfresh (h.of_append (by simp)).1

theorem Calm.guarantee (h : Calm s s') : (yielding task).guarantee s s' := fun hs =>
  ⟨h.unharmed hs, fun _ _ => .of_fields (by rw [h.operation_lock]) h.waiters h.busy h.attending⟩

/-- Only a wait for the lock touches the lock. -/
theorem Effect.calm {w : Wait} {answer : Option (Except Failure Unit)} (h : Effect task w s answer s')
    (hw : w ≠ .operationLock) : Calm s s' := by
  cases h with
  | lined => exact absurd rfl hw
  | locked => exact absurd rfl hw
  | unlined => exact absurd rfl hw
  | failed => exact .of_fault rfl
  | unestablished => exact .of_fault rfl
  | _ => exact .of_fields rfl

/-- A task asks for the lock. -/
theorem lined_guarantee (hbusy : task = operationTask → s.busy = true) :
    (yielding task).guarantee s { s with waiters := s.waiters ++ [task] } := by
  refine fun hs => ⟨⟨hs.safe, hs.fresh, fun hmem => ?_⟩, fun other hne => ⟨Iff.rfl, fun _ => rfl, fun hother =>
    ⟨rfl, ?_, fun _ h => h, ?_, ?_⟩⟩⟩
  · rcases List.mem_append.mp hmem with hmem | hmem
    · exact hs.waiting hmem
    · exact hbusy (List.mem_singleton.mp hmem).symm
  · subst hother
    simp [hne.symm]
  · exact fun _ h hattending => List.mem_append_left _ (h hattending)
  · intro _ h hattending
    obtain ⟨front, back, hwaiters, hwatcher, hfront⟩ := h hattending
    exact ⟨front, back ++ [task], by simp [hwaiters], hwatcher, hfront⟩

/-- A task which is first in the line takes the lock. -/
theorem locked_guarantee (hfree : s.operation_lock = none)
    (hfirst : s.waiters = [] ∨ s.waiters.head? = some task)
    (hattending : task = watcherTask → s.attending = true) :
    (yielding task).guarantee s
      { s.come task with operation_lock := some task, waiters := s.waiters.tail } := by
  have hwaiters : s.waiters = [] ∨ s.waiters = task :: s.waiters.tail := by
    rcases hfirst with h | h
    · exact .inl h
    · obtain ⟨rest, hrest⟩ := List.head?_eq_some_iff.mp h
      exact .inr (by simp [hrest])
  have hmem {other : ℕ} (hne : other ≠ task) : other ∈ s.waiters.tail ↔ other ∈ s.waiters := by
    rcases hwaiters with h | h
    · simp [h]
    · rw [h, List.tail_cons, List.mem_cons]
      simp [hne]
  refine fun hs => ⟨⟨hs.safe, fun hfresh => ?_, fun h => hs.waiting (List.mem_of_mem_tail h)⟩,
    fun other hne => ⟨?_, fun hother => ?_, fun hother => ⟨rfl, ?_, ?_, ?_, ?_⟩⟩⟩
  · rcases hfresh with hfresh | hfresh
    · exact hs.fresh (.inl (Bool.and_eq_true_iff.mp hfresh).1)
    · exact hs.fresh (.inl (hattending (Option.some.inj hfresh)))
  · simp [hfree, hne.symm]
  · subst hother
    simp [come, hne.symm]
  · subst hother
    rcases hwaiters with h | h
    · simp [h]
    · conv_rhs => rw [h]
      exact (List.count_cons_of_ne hne.symm).symm
  · intro _ h
    simp [come, h]
  · intro _ h hattending'
    obtain ⟨hbefore, hnot⟩ := Bool.and_eq_true_iff.mp hattending'
    exact (hmem (Ne.symm (of_decide_eq_true hnot))).mpr (h hbefore)
  · intro _ h hattending'
    obtain ⟨hbefore, hnot⟩ := Bool.and_eq_true_iff.mp hattending'
    obtain ⟨front, back, hsplit, hwatcher, hfront⟩ := h hbefore
    rcases hwaiters with hnil | hcons
    · simp [hnil] at hsplit
    · cases front with
      | nil => cases hwatcher
      | cons first front =>
        rw [hcons, List.cons_append, List.cons.injEq] at hsplit
        obtain ⟨rfl, hsplit⟩ := hsplit
        refine ⟨front, back, hsplit, ?_, fun h => hfront (List.mem_cons_of_mem _ h)⟩
        exact (List.mem_cons.mp hwatcher).resolve_left fun h => of_decide_eq_true hnot h.symm

/-- A cancelled task leaves the line. -/
theorem unlined_guarantee : (yielding task).guarantee s
    { (s.cancelled task).come task with waiters := s.waiters.filter (· ≠ task) } := by
  refine fun hs => ⟨⟨hs.safe, fun hfresh => hs.fresh (hfresh.imp_left fun h => (Bool.and_eq_true_iff.mp h).1),
    fun h => hs.waiting (List.mem_filter.mp h).1⟩, fun other hne => ⟨Iff.rfl, fun hother => ?_, fun hother =>
      ⟨rfl, ?_, ?_, ?_, ?_⟩⟩⟩
  · subst hother
    simp [come, hne.symm, Service.cancelled]
  · subst hother
    exact List.count_filter (by simpa using hne)
  · intro _ h
    simp [come, Service.cancelled, h]
  · intro _ h hattending
    obtain ⟨hbefore, hnot⟩ := Bool.and_eq_true_iff.mp hattending
    exact List.mem_filter.mpr ⟨h hbefore, by simpa using Ne.symm (of_decide_eq_true hnot)⟩
  · intro _ h hattending
    obtain ⟨hbefore, hnot⟩ := Bool.and_eq_true_iff.mp hattending
    obtain ⟨front, back, hsplit, hwatcher, hfront⟩ := h hbefore
    subst hother
    refine ⟨front.filter (· ≠ task), back.filter (· ≠ task), by simp [hsplit, hne], ?_, ?_⟩
    · exact List.mem_filter.mpr ⟨hwatcher, by simpa using Ne.symm (of_decide_eq_true hnot)⟩
    · exact fun h => hfront (List.mem_filter.mp h).1

/-- The holder releases the lock. -/
theorem released_guarantee (hheld : s.operation_lock = some task) :
    (yielding task).guarantee s { s with operation_lock := none } := by
  refine fun hs => ⟨⟨hs.safe, fun hfresh => hs.fresh (.inl (by simpa using hfresh)), hs.waiting⟩,
    fun other hne => .of_fields ?_ rfl rfl rfl⟩
  simp [hheld, hne.symm]

end Guarantees

section Rules

variable {task : ℕ} {P L : Service → Prop} {s : Service}

/-- An assertion about the lock and the watcher which the others keep. -/
structure Firm (task : ℕ) (P : Service → Prop) : Prop where
  unharmed : ∀ s, P s → s.Unharmed
  calm : ∀ s s', P s → Calm s s' → P s'
  rely : ∀ s s', P s → (yielding task).rely s s' → P s'

/-- A wait for something else than the lock keeps an assertion. -/
theorem Firm.await (h : Firm task P) {w : Wait} (hw : w ≠ .operationLock) (hs : P s) :
    Defers task (Task.await w) (fun _ s' => P s') s := by
  refine Safe.request (Reached.of_turns P h.rely (fun t answer t' ht hturn => ?_) hs)
  have hcalm := (Effect.of_turns hturn).calm hw
  exact ⟨hcalm.guarantee, fun _ => h.calm _ _ ht hcalm, fun _ _ => h.calm _ _ ht hcalm⟩

/-- A change of something else keeps an assertion. -/
theorem Firm.change (h : Firm task P) {f : Service → Service} (hf : ∀ s, Calm s (f s)) (hs : P s) :
    Defers task (modify f) (fun _ s' => P s') s :=
  ⟨(hf s).guarantee, h.calm _ _ hs (hf s)⟩

theorem calm_detach (task : ℕ) (s : Service) : Calm s (Task.detach task s) := by
  unfold Task.detach
  split <;> exact .of_fields rfl

/-- Ending a recording keeps an assertion. -/
theorem Firm.stop_recording (h : Firm task P) (hs : P s) :
    Defers task (Task.stop_recording task) (fun _ s' => P s') s := by
  refine Safe.get_bind (Safe.modify_bind (calm_detach task s).guarantee ?_)
  have hdetached := h.calm _ _ hs (calm_detach task s)
  split
  · exact hdetached
  · split
    · exact Safe.seq (h.await (by simp) hdetached) (fun _ s' hs' => h.await (by simp) hs') fun _ _ hs' => hs'
    · exact h.await (by simp) hdetached

/-- A turn of a task which is suspended on the lock. -/
theorem resume_lock {choice : Turn} {s' : Service} {answer : Option (Except Failure Unit)}
    (h : resume task .operationLock choice s = some (answer, s')) :
    (answer = some (.ok ()) ∧ s.operation_lock = none ∧ s.waiters.head? = some task ∧
        s' = { s.come task with operation_lock := some task, waiters := s.waiters.tail }) ∨
      (answer = some (.error .cancelled) ∧
        s' = { (s.cancelled task).come task with waiters := s.waiters.filter (· ≠ task) }) := by
  unfold resume at h
  cases choice with
  | goes =>
    simp only at h
    split at h
    · next hfirst =>
      cases h
      exact .inl ⟨rfl, hfirst.1, hfirst.2, rfl⟩
    · cases h
  | raises => cases h
  | cancels =>
    simp only at h
    split at h <;> cases h
    exact .inr ⟨rfl, rfl⟩

/-- What the wait for the lock ends in. -/
def Ends (L C : Service → Prop) : Except Failure Unit → Service → Prop
  | .ok _, s => L s
  | .error e, s => e = .cancelled ∧ C s

/-- What has to hold of a task which asks for the lock, waits for it, has it, or gives up. -/
structure Locks (task : ℕ) (P Q L C : Service → Prop) : Prop where
  firm : Firm task Q
  busy : ∀ s, P s → task = operationTask → s.busy = true
  attending : ∀ s, P s ∨ Q s → task = watcherTask → s.attending = true
  lined : ∀ s, P s → Q { s with waiters := s.waiters ++ [task] }
  taken : ∀ s, P s → s.operation_lock = none → s.waiters = [] →
    L { s.come task with operation_lock := some task, waiters := s.waiters.tail }
  locked : ∀ s, Q s → s.operation_lock = none → s.waiters.head? = some task →
    L { s.come task with operation_lock := some task, waiters := s.waiters.tail }
  cancelled : ∀ s, Q s →
    C { (s.cancelled task).come task with waiters := s.waiters.filter (· ≠ task) }

/-- The wait for the lock ends with the lock, or is cancelled. -/
theorem Locks.await {Q C : Service → Prop} (h : Locks task P Q L C) (hs : P s) :
    Defers task (Task.await .operationLock) (Ends L C) s := by
  refine Safe.request ?_
  by_cases hfree : s.operation_lock = none ∧ s.waiters = []
  · have henter : Service.waits.enter task .operationLock s = (some (.ok ()),
        { s.come task with operation_lock := some task, waiters := s.waiters.tail }) := by
      have hwaiters : s.waiters.tail = s.waiters := by simp [hfree.2]
      simp only [waits, enter, if_pos hfree]
      rw [hwaiters]
      rfl
    refine Reached.intro henter (locked_guarantee hfree.1 (.inl hfree.2) (h.attending s (.inl hs)))
      (fun a ha => ?_) (by simp)
    cases ha
    exact h.taken s hs hfree.1 hfree.2
  · have henter : Service.waits.enter task .operationLock s =
        (none, { s with waiters := s.waiters ++ [task] }) := if_neg hfree
    refine Reached.intro henter (lined_guarantee (h.busy s hs)) (by simp) fun _ => ?_
    refine ⟨Q, h.lined s hs, h.firm.rely, fun choice t t' ht hresume => ?_,
      fun choice t answer t' ht hresume => ?_⟩
    · rcases resume_lock hresume with ⟨hanswer, -⟩ | ⟨hanswer, -⟩ <;> cases hanswer
    · rcases resume_lock hresume with ⟨hanswer, hfree, hfirst, rfl⟩ | ⟨hanswer, rfl⟩ <;> cases hanswer
      · exact ⟨locked_guarantee hfree (.inr hfirst) (h.attending t (.inr ht)), h.locked t ht hfree hfirst⟩
      · exact ⟨unlined_guarantee, rfl, h.cancelled t ht⟩

/-- Holding the lock for a body which keeps what holds of the holder. -/
theorem Locks.exclusively {Q C : Service → Prop} (h : Locks task P Q L C)
    (hheld : ∀ s, L s → s.operation_lock = some task) {body : Task Unit}
    {post : Except Failure Unit → Service → Prop} (hcancelled : ∀ s, C s → post (.error .cancelled) s)
    (hbody : ∀ s, L s → Defers task body (fun outcome s' => L s' ∧
      post outcome { s' with operation_lock := none }) s) (hs : P s) :
    Defers task (Task.exclusively body) post s := by
  refine Safe.seq (h.await hs) (fun _ s' hs' => ?_) fun e s' hs' => ?_
  · exact Safe.andFinally ((hbody s' hs').mono fun outcome s'' hafter =>
      ⟨released_guarantee (hheld s'' hafter.1), hafter.2⟩)
  · obtain ⟨rfl, hC⟩ := hs'
    exact hcancelled s' hC

end Rules

section Operations

variable {c : Prop} {s s' : Service}

/-- The operation runs; if it starts the stream, the watcher does not end a recording. -/
structure Running (c : Prop) (s : Service) : Prop where
  unharmed : s.Unharmed
  busy : s.busy = true
  unlisted : s.waiters.count operationTask = 0
  behind : c → s.attending = true → watcherTask ∈ s.waiters

/-- The operation waits for the lock; the watcher comes first if it attends to a fault. -/
structure Asking (c : Prop) (s : Service) : Prop where
  unharmed : s.Unharmed
  busy : s.busy = true
  once : s.waiters.count operationTask = 1
  behind : c → s.attending = true → Ahead s.waiters

/-- The operation has the lock, and the watcher attends to no fault. -/
structure Holding (c : Prop) (s : Service) : Prop where
  unharmed : s.Unharmed
  busy : s.busy = true
  held : s.operation_lock = some operationTask
  unlisted : s.waiters.count operationTask = 0
  alone : c → s.attending = false

theorem firm_running (c : Prop) : Firm operationTask (Running c) where
  unharmed _ hs := hs.unharmed
  calm s s' hs h := by
    refine ⟨h.unharmed hs.unharmed, h.busy.trans hs.busy, h.waiters ▸ hs.unlisted, fun hc hattending => ?_⟩
    rw [h.waiters]
    exact hs.behind hc (h.attending ▸ hattending)
  rely s s' hs hrely := by
    obtain ⟨hunharmed, hyields⟩ := hrely hs.unharmed
    have hpasses := hyields.operation rfl
    exact ⟨hunharmed, hpasses.busy.trans hs.busy, hpasses.count.trans hs.unlisted,
      fun hc => hpasses.queued hs.busy (hs.behind hc)⟩

theorem firm_asking (c : Prop) : Firm operationTask (Asking c) where
  unharmed _ hs := hs.unharmed
  calm s s' hs h := by
    refine ⟨h.unharmed hs.unharmed, h.busy.trans hs.busy, h.waiters ▸ hs.once, fun hc hattending => ?_⟩
    rw [h.waiters]
    exact hs.behind hc (h.attending ▸ hattending)
  rely s s' hs hrely := by
    obtain ⟨hunharmed, hyields⟩ := hrely hs.unharmed
    have hpasses := hyields.operation rfl
    exact ⟨hunharmed, hpasses.busy.trans hs.busy, hpasses.count.trans hs.once,
      fun hc => hpasses.ahead hs.busy (hs.behind hc)⟩

theorem firm_holding (c : Prop) : Firm operationTask (Holding c) where
  unharmed _ hs := hs.unharmed
  calm s s' hs h := ⟨h.unharmed hs.unharmed, h.busy.trans hs.busy, h.operation_lock.trans hs.held,
    h.waiters ▸ hs.unlisted, fun hc => h.attending.trans (hs.alone hc)⟩
  rely s s' hs hrely := by
    obtain ⟨hunharmed, hyields⟩ := hrely hs.unharmed
    have hpasses := hyields.operation rfl
    exact ⟨hunharmed, hpasses.busy.trans hs.busy, hyields.lock.mpr hs.held,
      hpasses.count.trans hs.unlisted, fun hc => hpasses.attending hs.busy (hs.alone hc)⟩

/-- Nobody is ahead of the first in the line. -/
theorem not_ahead_of_first {waiters : List ℕ} (h : waiters.head? = some operationTask) : ¬ Ahead waiters := by
  rintro ⟨front, back, rfl, hwatcher, hfront⟩
  cases front with
  | nil => cases hwatcher
  | cons first front =>
    simp only [List.cons_append, List.head?_cons, Option.some.injEq] at h
    exact hfront (h ▸ List.mem_cons_self)

/-- The operation comes to the lock after a watcher which attends to a fault. -/
theorem locks_operation (c : Prop) :
    Locks operationTask (Running c) (Asking c) (Holding c) (Running c) where
  firm := firm_asking c
  busy _ hs _ := hs.busy
  attending _ _ htask := absurd htask (by decide)
  lined s hs := by
    refine ⟨(lined_guarantee (fun _ => hs.busy) hs.unharmed).1, hs.busy, by simp [hs.unlisted],
      fun hc hattending => ?_⟩
    exact ⟨s.waiters, [], rfl, hs.behind hc hattending, List.count_eq_zero.mp hs.unlisted⟩
  taken s hs hfree hnil := by
    refine ⟨(locked_guarantee hfree (.inl hnil) (fun htask => absurd htask (by decide)) hs.unharmed).1,
      hs.busy, rfl, by simp [hnil], fun hc => ?_⟩
    cases hattending : s.attending with
    | false => simp [come, hattending]
    | true =>
      have hwatcher := hs.behind hc hattending
      simp [hnil] at hwatcher
  locked s hs hfree hfirst := by
    refine ⟨(locked_guarantee hfree (.inr hfirst) (fun htask => absurd htask (by decide)) hs.unharmed).1,
      hs.busy, rfl, ?_, fun hc => ?_⟩
    · obtain ⟨rest, hrest⟩ := List.head?_eq_some_iff.mp hfirst
      have honce := hs.once
      rw [hrest, List.count_cons_self] at honce
      simpa [hrest] using honce
    · cases hattending : s.attending with
      | false => simp [come, hattending]
      | true => exact absurd (hs.behind hc hattending) (not_ahead_of_first hfirst)
  cancelled s hs := by
    refine ⟨(unlined_guarantee hs.unharmed).1, hs.busy, by simp [List.count_eq_zero], fun hc hattending => ?_⟩
    obtain ⟨front, back, hwaiters, hwatcher, -⟩ := hs.behind hc (Bool.and_eq_true_iff.mp hattending).1
    exact List.mem_filter.mpr ⟨hwaiters ▸ List.mem_append_left _ hwatcher, by decide⟩

/-- When the operation releases the lock, the watcher attends to no fault and does not hold it. -/
theorem Holding.released (h : Holding c s) : Running c { s with operation_lock := none } ∧
    (c → ¬ ({ s with operation_lock := none }.attending = true ∨
      { s with operation_lock := none }.operation_lock = some watcherTask)) := by
  refine ⟨⟨(released_guarantee h.held h.unharmed).1, h.busy, h.unlisted, fun hc hattending => ?_⟩, fun hc => ?_⟩
  · simp [h.alone hc] at hattending
  · simp [h.alone hc]

/-- What an operation under the lock leaves behind. -/
def Concluded (c : Prop) (outcome : Except Failure Unit) (s : Service) : Prop :=
  Running c s ∧ (outcome = .ok () → c → ¬ (s.attending = true ∨ s.operation_lock = some watcherTask))

theorem exclusively_concludes {body : Task Unit}
    (hbody : ∀ s, Holding c s → Defers operationTask body (fun _ s' => Holding c s') s) (hs : Running c s) :
    Defers operationTask (Task.exclusively body) (Concluded c) s :=
  (locks_operation c).exclusively (fun _ hs => hs.held) (fun _ hs => ⟨hs, by simp⟩)
    (fun s hs => (hbody s hs).mono fun _ _ hs' => ⟨hs', hs'.released.1, fun _ => hs'.released.2⟩) hs

theorem close_concludes (hs : Running c s) :
    Defers operationTask (Task.close id) (Concluded c) s := by
  refine exclusively_concludes (fun s hs => Safe.get_bind ?_) hs
  split
  · exact Safe.seq ((firm_holding c).change (fun _ => .of_fields rfl) hs)
      (fun _ s' hs' => (firm_holding c).await (by simp) hs') fun _ _ hs' => hs'
  · exact hs

theorem initialize_concludes (hs : Running c s) :
    Defers operationTask Task.initializeDevice (Concluded c) s := by
  refine Safe.get_bind ?_
  split
  · exact ⟨hs, by simp⟩
  · refine exclusively_concludes (fun s hs => Safe.get_bind ?_) hs
    split
    · exact hs
    · exact (firm_holding c).await (by simp) hs

/-- An operation which starts the stream completes when the watcher attends to no fault. -/
theorem perform_concludes (name : Operation) (hs : Running (name.starts = true) s) :
    Defers operationTask (Task.perform name) (Concluded (name.starts = true)) s := by
  have h := firm_running (name.starts = true)
  cases name with
  | start => exact initialize_concludes hs
  | reconnect =>
    refine Safe.seq (h.stop_recording hs) (fun _ s' hs' => ?_) fun _ _ hs' => ⟨hs', by simp⟩
    refine Safe.seq (h.change (fun _ => .of_fields rfl) hs') (fun _ s' hs' => ?_) fun _ _ hs' => ⟨hs', by simp⟩
    exact Safe.seq (close_concludes hs') (fun _ s' hs' => initialize_concludes hs'.1)
      fun _ _ hs' => ⟨hs'.1, by simp⟩
  | stop =>
    refine Safe.seq (close_concludes hs) (fun _ s' hs' => ?_) fun _ _ hs' => ⟨hs'.1, by simp⟩
    exact (h.stop_recording hs'.1).mono fun _ _ hs' => ⟨hs', by simp [Operation.starts]⟩
  | probe =>
    refine Safe.get_bind ?_
    split
    · exact ⟨hs, by simp [Operation.starts]⟩
    · exact (h.await (by simp) hs).mono fun _ _ hs' => ⟨hs', by simp [Operation.starts]⟩

/-- A recovery is no trouble while the watcher attends to no fault. -/
theorem recover_guarantee {name : Operation} {task : ℕ} (h : Concluded (name.starts = true) (.ok ()) s) :
    (yielding task).guarantee s (Task.recover name s) ∧
      Running (name.starts = true) (Task.recover name s) := by
  unfold Task.recover
  split
  · next hstarts =>
    obtain ⟨hs, hcompletes⟩ := h
    have hidle := hcompletes rfl hstarts.1
    have hunharmed : (Task.log .recovered s).Unharmed :=
      ⟨fun h => h.of_append.elim hs.unharmed.safe fun h => by simp at h, fun h => absurd h hidle,
        hs.unharmed.waiting⟩
    exact ⟨fun _ => ⟨hunharmed, fun _ _ => .of_fields Iff.rfl rfl rfl rfl⟩,
      hunharmed, hs.busy, hs.unlisted, hs.behind⟩
  · exact ⟨Calm.guarantee (.of_fields rfl), h.1⟩

theorem operation_defers (name : Operation) (hs : Running (name.starts = true) s) :
    Defers operationTask (Task.operation name) (fun _ _ => True) s := by
  have h := firm_running (name.starts = true)
  have hhandler {s : Service} (hs : Running (name.starts = true) s) :
      Defers operationTask (do Task.close id; modify Service.fault)
        (fun _ s' => Running (name.starts = true) s') s :=
    Safe.seq (close_concludes hs) (fun _ s' hs' => h.change (fun _ => .of_fault rfl) hs'.1)
      fun _ _ hs' => hs'.1
  have haction {s : Service} (hs : Running (name.starts = true) s) :
      Defers operationTask (Task.runAction name) (fun _ s' => Running (name.starts = true) s') s := by
    refine Safe.attempt_seq (perform_concludes name hs) fun outcome s' hs' => ?_
    match outcome with
    | .ok () => exact recover_guarantee hs'
    | .error .cancelled => exact hs'.1
    | .error .recording => exact hhandler hs'.1
    | .error .operation => exact hhandler hs'.1
  unfold Task.operation
  refine Safe.attempt_seq (Q := fun _ s' => Running (name.starts = true) s') ?_ fun outcome s' hs' => ?_
  · exact Safe.seq (h.await (by simp) hs) (fun _ s' hs' => haction hs') fun _ _ hs' => hs'
  · have hunlisted : operationTask ∉ s'.waiters := List.count_eq_zero.mp hs'.unlisted
    refine ⟨fun hs => ⟨⟨hs.safe, hs.fresh, fun hmem => absurd hmem hunlisted⟩, fun other hne =>
      ⟨Iff.rfl, fun _ => rfl, fun hother => absurd hother hne⟩⟩, trivial⟩

end Operations

theorem firm_unharmed (task : ℕ) : Firm task Unharmed :=
  ⟨fun _ hs => hs, fun _ _ hs h => h.unharmed hs, fun _ _ hs hrely => (hrely hs).1⟩

section Holders

variable {task : ℕ} {s s' : Service}

/-- A task which has the lock. -/
def Holds (task : ℕ) (s : Service) : Prop := s.Unharmed ∧ s.operation_lock = some task

theorem firm_holds (task : ℕ) : Firm task (Holds task) where
  unharmed _ hs := hs.1
  calm _ _ hs h := ⟨h.unharmed hs.1, h.operation_lock.trans hs.2⟩
  rely _ _ hs hrely := by
    obtain ⟨hunharmed, hyields⟩ := hrely hs.1
    exact ⟨hunharmed, hyields.lock.mpr hs.2⟩

/-- The shutdown asks for the lock like any task. -/
theorem locks_shutdown : Locks shutdownTask Unharmed Unharmed (Holds shutdownTask) Unharmed where
  firm := firm_unharmed shutdownTask
  busy _ _ htask := absurd htask (by decide)
  attending _ _ htask := absurd htask (by decide)
  lined _ hs := (lined_guarantee (fun htask => absurd htask (by decide)) hs).1
  taken _ hs hfree hnil :=
    ⟨(locked_guarantee hfree (.inl hnil) (fun htask => absurd htask (by decide)) hs).1, rfl⟩
  locked _ hs hfree hfirst :=
    ⟨(locked_guarantee hfree (.inr hfirst) (fun htask => absurd htask (by decide)) hs).1, rfl⟩
  cancelled _ hs := (unlined_guarantee hs).1

theorem shutdown_defers (hs : s.Unharmed) :
    Defers shutdownTask Task.shutdown (fun _ _ => True) s := by
  have h := firm_unharmed shutdownTask
  have hsuppressed {w : Wait} {s : Service} (hw : w ≠ .operationLock) (hs : s.Unharmed) :
      Defers shutdownTask (Task.suppressed w) (fun _ s' => s'.Unharmed) s := by
    refine Safe.attempt_seq (h.await hw hs) fun outcome s' hs' => ?_
    match outcome with
    | .ok () => exact hs'
    | .error .cancelled => exact hs'
    | .error .recording => exact hs'
    | .error .operation => exact hs'
  have hend {s : Service} (hs : s.Unharmed) : Defers shutdownTask (do
      modify fun s : Service => { s with reached := true }
      Task.close id
      Task.stop_recording shutdownTask) (fun _ _ => True) s := by
    refine Safe.seq (h.change (fun _ => .of_fields rfl) hs) (fun _ s' hs' => ?_) fun _ _ _ => trivial
    refine Safe.seq (Q := fun _ s' => s'.Unharmed) ?_
      (fun _ s' hs' => (h.stop_recording hs').mono fun _ _ _ => trivial) fun _ _ _ => trivial
    refine locks_shutdown.exclusively (fun _ hs => hs.2) (fun _ hs => hs) (fun s hs => ?_) hs'
    refine (?_ : Defers shutdownTask _ (fun _ s' => Holds shutdownTask s') _).mono
      fun _ s' hs' => ⟨hs', (released_guarantee hs'.2 hs'.1).1⟩
    refine Safe.get_bind ?_
    split
    · exact Safe.seq ((firm_holds _).change (fun _ => .of_fields rfl) hs)
        (fun _ s' hs' => (firm_holds _).await (by simp) hs') fun _ _ hs' => hs'
    · exact hs
  have hrest {s : Service} (hs : s.Unharmed) : Defers shutdownTask (do
      if (← get).busy then
        Task.cancel operationTask
        Task.suppressed .operation
      modify fun s : Service => { s with reached := true }
      Task.close id
      Task.stop_recording shutdownTask) (fun _ _ => True) s := by
    refine Safe.get_bind ?_
    split
    · refine Safe.seq (h.change (fun _ => .of_fields rfl) hs) (fun _ s' hs' => ?_) fun _ _ _ => trivial
      exact Safe.seq (hsuppressed (by simp) hs') (fun _ s' hs' => hend hs') fun _ _ _ => trivial
    · exact hend hs
  refine Safe.get_bind ?_
  split
  · exact hrest hs
  · refine Safe.seq (h.change (fun _ => .of_fields rfl) hs) (fun _ s' hs' => ?_) fun _ _ _ => trivial
    exact Safe.seq (hsuppressed (by simp) hs') (fun _ s' hs' => hrest hs') fun _ _ _ => trivial
  · exact Safe.seq (hsuppressed (by simp) hs) (fun _ s' hs' => hrest hs') fun _ _ _ => trivial

end Holders

section Watcher

variable {s s' : Service}

/-- The watcher attends to a fault which it has observed. -/
def Attending (s : Service) : Prop := s.Unharmed ∧ s.attending = true

theorem firm_attending : Firm watcherTask Attending where
  unharmed _ hs := hs.1
  calm _ _ hs h := ⟨h.unharmed hs.1, h.attending.trans hs.2⟩
  rely _ _ hs hrely := by
    obtain ⟨hunharmed, hyields⟩ := hrely hs.1
    exact ⟨hunharmed, (hyields.watcher rfl).trans hs.2⟩

/-- The watcher asks for the lock because of a fault. -/
theorem locks_watcher : Locks watcherTask Attending Attending (Holds watcherTask) Unharmed where
  firm := firm_attending
  busy _ _ htask := absurd htask (by decide)
  attending _ hs _ := hs.elim (·.2) (·.2)
  lined _ hs := ⟨(lined_guarantee (fun htask => absurd htask (by decide)) hs.1).1, hs.2⟩
  taken _ hs hfree hnil := ⟨(locked_guarantee hfree (.inl hnil) (fun _ => hs.2) hs.1).1, rfl⟩
  locked _ hs hfree hfirst := ⟨(locked_guarantee hfree (.inr hfirst) (fun _ => hs.2) hs.1).1, rfl⟩
  cancelled _ hs := (unlined_guarantee hs.1).1

/-- What the watcher does to the device is no trouble if the device has not been recovered. -/
theorem undo_guarantee (task : ℕ) {happening : Happening} (hhappening : happening ≠ .recovered)
    (hfresh : ¬ Recovered s.trace) : (yielding task).guarantee s (Task.log happening s) := fun hs =>
  ⟨⟨fun h => h.of_append.elim hs.safe fun h => hfresh h.2,
    fun _ h => hfresh (h.of_append hhappening).1, hs.waiting⟩,
    fun _ _ => .of_fields Iff.rfl rfl rfl rfl⟩

/-- The watcher closes the device before anything has recovered it. -/
theorem close_defers (hs : Attending s) :
    Defers watcherTask (Task.close (Task.log .closing)) (fun outcome s' => s'.Unharmed ∧
      (outcome = .ok () → ¬ Recovered s'.trace)) s := by
  refine locks_watcher.exclusively (fun _ hs => hs.2) (fun _ hs => ⟨hs, by simp⟩) (fun s hs => ?_) hs
  refine (?_ : Defers watcherTask _ (fun _ s' => Holds watcherTask s') _).mono fun _ s' hs' =>
    ⟨hs', (released_guarantee hs'.2 hs'.1).1, fun _ => hs'.1.fresh (.inr hs'.2)⟩
  refine Safe.get_bind ?_
  split
  · have hguarantee := undo_guarantee watcherTask (show Happening.closing ≠ .recovered by simp)
      (hs.1.fresh (.inr hs.2))
    exact Safe.modify_bind hguarantee ((firm_holds _).await (by simp) ⟨(hguarantee hs.1).1, hs.2⟩)
  · exact hs

/-- What the watcher does about a fault which it observes while no operation runs. -/
theorem attend_defers (hidle : s.busy = false) (hs : s.Unharmed) :
    Defers watcherTask Task.attend (fun _ s' => s'.Unharmed) s := by
  have hobserved : ¬ Recovered (s.trace ++ [.observed]) := fun h => (h.of_append (by simp)).2.1 rfl
  have hunharmed : { Task.log .observed s with attending := true }.Unharmed :=
    ⟨fun h => h.of_append.elim hs.safe fun h => by simp at h, fun _ => hobserved, hs.waiting⟩
  unfold Task.attend
  refine Safe.modify_bind (fun _ => ⟨hunharmed, fun other hne => ⟨Iff.rfl, fun hother => absurd hother hne,
    fun _ => ⟨rfl, rfl, ?_, ?_, ?_⟩⟩⟩) ?_
  · simp [hidle]
  · simp [hidle]
  · simp [hidle]
  refine Safe.seq (firm_attending.stop_recording ⟨hunharmed, rfl⟩) (fun _ s' hs' => ?_) fun _ _ hs' => hs'.1
  refine Safe.seq (close_defers hs') (fun _ s' hs' => ?_) fun _ _ hs' => hs'.1
  have hguarantee := undo_guarantee watcherTask (show Happening.overridden ≠ .recovered by simp) (hs'.2 rfl)
  have hcalm : Calm (Task.log .overridden s') { Task.log .overridden s' with state := .FAULTED } := .of_fields rfl
  have hset : (yielding watcherTask).guarantee s' { Task.log .overridden s' with state := .FAULTED } :=
    fun hs => ⟨hcalm.unharmed (hguarantee hs).1, fun other hne => .of_fields Iff.rfl rfl rfl rfl⟩
  exact ⟨hset, (hset hs'.1).1⟩

theorem iteration_defers (hs : s.Unharmed) :
    Defers watcherTask Task.iteration (fun _ _ => True) s := by
  have h := firm_unharmed watcherTask
  refine Safe.attempt_seq (Q := fun _ s' => s'.Unharmed) ?_ fun outcome s' hs' => ?_
  · refine Safe.seq (h.await (by simp) hs) (fun _ s' hs' => Safe.get_bind ?_) fun _ _ hs' => hs'
    split
    · next hfaulted =>
      obtain ⟨-, hidle⟩ : s'.state = .FAULTED ∧ s'.busy = false := by simpa using hfaulted
      refine Safe.andFinally ((attend_defers hidle hs').mono fun _ s'' hs'' => ?_)
      have hdone : { s'' with attending := false }.Unharmed :=
        ⟨hs''.safe, fun hfresh => hs''.fresh (.inr (by simpa using hfresh)), hs''.waiting⟩
      refine ⟨fun _ => ⟨hdone, fun other hne => ⟨Iff.rfl, fun hother => absurd hother hne, fun _ =>
        ⟨rfl, rfl, by simp, by simp, by simp⟩⟩⟩, hdone⟩
    · exact hs'
  · match outcome with
    | .ok () => trivial
    | .error e => exact ⟨Calm.guarantee (.of_fields rfl), trivial⟩

end Watcher

/-- What happens outside the coroutines is no trouble. -/
theorem outside_calm {s s' : Service} (h : Outside anyInput s s') : Calm s s' := by
  obtain ⟨input, h⟩ := h
  simp only [reactIf, anyInput, if_true] at h
  cases input with
  | launch =>
    simp only [react] at h
    split at h <;> cases h
    exact .of_fields rfl
  | moves state =>
    simp only [react, moves] at h
    split at h
    · cases h
    split at h <;> cases h
    exacts [.of_fault rfl, .of_fields rfl]
  | opens =>
    simp only [react] at h
    split at h <;> cases h
    exact .of_fields rfl
  | publish scan =>
    simp only [react, Option.some.injEq] at h
    subst h
    unfold publish
    split
    · split
      · exact .of_fields rfl
      split <;> exact .of_fields rfl
    · exact .of_fields rfl
  | record =>
    simp only [react, start_recording] at h
    split at h
    · cases h
    split at h <;> cases h <;> exact .of_fields rfl
  | consent enable_writes consent =>
    simp only [react, Service.consent] at h
    split at h
    · cases h
    split at h <;> cases h
    exact .of_fields rfl
  | worker r turn =>
    simp only [react, work] at h
    split at h
    swap
    · cases h
    split at h
    case h_2 => split at h <;> cases h; exact .of_fields rfl
    case h_7 =>
      split at h
      · split at h <;> cases h <;> exact .of_fields rfl
      · cases h
    all_goals cases h
    all_goals exact .of_fields rfl

section Spawns

variable {task : ℕ} {job : Job} {p : Task Unit} {s s' : Service}

/-- What is started is allowed. -/
theorem spawnIf_eq_some {allowed : ℕ → Job → Service → Bool} (h : spawnIf allowed task job s = some (p, s')) :
    allowed task job s = true ∧ spawn task job s = some (p, s') := by
  unfold spawnIf at h
  split at h
  · next hallowed => exact ⟨hallowed, h⟩
  · cases h

/-- An operation which is accepted runs behind a watcher which attends to a fault. -/
theorem accepted {name : Operation} (haccepts : s.accepts name = true)
    (hyields : yieldsJob operationTask (.action name) s = true) (hs : s.Unharmed) :
    Running (name.starts = true) { s with busy := true } := by
  obtain ⟨hidle, -⟩ := Bool.and_eq_true_iff.mp haccepts
  refine ⟨⟨hs.safe, hs.fresh, fun _ => rfl⟩, rfl, List.count_eq_zero.mpr fun hmem => ?_,
    fun hstarts hattending => ?_⟩
  · simp [hs.waiting hmem] at hidle
  · by_contra hunlisted
    simp_all [yieldsJob, operationTask]

/-- Starting a task is no trouble to the others. -/
theorem spawned (h : spawnIf yieldsJob task job s = some (p, s')) :
    (s.Unharmed → s'.Unharmed) ∧ ∀ other, other ≠ task → (yielding other).rely s s' := by
  obtain ⟨-, h⟩ := spawnIf_eq_some h
  unfold spawn at h
  split at h
  · split at h <;> cases h
    exact ⟨fun hs => hs, fun _ _ hs => ⟨hs, .of_fields Iff.rfl rfl rfl rfl⟩⟩
  · split at h <;> cases h
    have hbusy (hs : s.Unharmed) : { s with busy := true }.Unharmed := ⟨hs.safe, hs.fresh, fun _ => rfl⟩
    exact ⟨hbusy, fun other hne hs => ⟨hbusy hs, Iff.rfl, fun _ => rfl, fun hother => absurd hother hne⟩⟩
  · cases h
    have hcalm : Calm s { s with shutdown := true, reached := false } := .of_fields rfl
    exact ⟨hcalm.unharmed, fun _ _ hs => ⟨hcalm.unharmed hs, .of_fields Iff.rfl rfl rfl rfl⟩⟩
  · cases h
    exact ⟨fun hs => hs, fun _ _ hs => ⟨hs, .of_fields Iff.rfl rfl rfl rfl⟩⟩
  · cases h

end Spawns

/-- The contracts of the tasks fit together. -/
def recoveryDiscipline : Discipline waits (Outside anyInput) (spawnIf yieldsJob) where
  inv := Unharmed
  contract := yielding
  ended _ _ _ := True
  guarantee_inv _ _ _ h hs := (h hs).1
  guarantee_rely _ other _ _ hne hs h := fun _ => ⟨(h hs).1, (h hs).2 other hne⟩
  env_inv _ _ h hs := (outside_calm h).unharmed hs
  env_rely task s s' hs h := fun _ =>
    ⟨(outside_calm h).unharmed hs, by
      have hcalm := outside_calm h
      exact .of_fields (by rw [hcalm.operation_lock]) hcalm.waiters hcalm.busy hcalm.attending⟩
  ended_rely _ _ _ _ _ _ := trivial
  spawn_inv s task job p s' h hs := (spawned h).1 hs
  spawn_rely s task job p s' other hne hs h := (spawned h).2 other hne
  spawn_safe := by
    intro s task job p s' outcome hs _ h
    obtain ⟨hallowed, h⟩ := spawnIf_eq_some h
    unfold spawn at h
    split at h
    · split at h <;> cases h
      exact iteration_defers hs
    · next name _ =>
      split at h
      · next haccepts =>
        cases h
        exact operation_defers name (accepted haccepts hallowed hs)
      · cases h
    · cases h
      have hcalm : Calm s { s with shutdown := true, reached := false } := .of_fields rfl
      exact shutdown_defers (hcalm.unharmed hs)
    · cases h
      exact ((firm_unharmed _).stop_recording hs).mono fun _ _ _ => trivial
    · cases h

/-- Where no start or reconnect is accepted while the watcher ends the recording because of a fault, the
watcher undoes no later recovery. -/
theorem watcher_never_undoes {settings : Settings} {pool : ServicePool}
    (h : Pool.Reaches waits (Outside anyInput) (spawnIf yieldsJob) (idle settings) pool) :
    ¬ Undoes pool.shared.trace := by
  have hidle : recoveryDiscipline.Ok (idle settings) := by
    refine ⟨⟨?_, ?_, by simp [idle]⟩, fun _ => trivial⟩
    · rintro ⟨earlier, act, later, heq, -⟩
      simp [idle] at heq
    · rintro - ⟨before, between, after, heq, -⟩
      simp [idle] at heq
  exact (hidle.run h).1.safe

/-- The watcher observes a fault, and waits for the worker of the recording. -/
def observingScript : Script :=
  recordingScript ++ [.outside (.moves .FAULTED), .start 0 .iteration, .turn 0 .goes]

/-- The worker ends, and the watcher closes the device and sets it to `FAULTED`. -/
def endingScript : Script :=
  [.outside (.worker 0 .gets), .outside (.worker 0 .closes), .turn 0 .goes, .turn 0 .goes]

/-- A start which is accepted while the watcher ends the recording. -/
def startScript : Script := [.start 1 (.action .start), .turn 1 .goes, .turn 1 .goes]

/-- A start which is accepted after the watcher has closed the device lasts. -/
theorem watcher_never_undoes_restarted : ∃ pool : ServicePool,
    pool.shared.trace = [.recovered, .faulted, .observed, .closing, .overridden, .recovered] ∧
      ¬ Undoes pool.shared.trace := by
  have hoverview : (Pool.play waits (spawnIf yieldsJob) (reactIf anyInput) (observingScript ++ endingScript ++
      startScript) (idle { })).map (fun pool : ServicePool => pool.shared.trace) =
      some [.recovered, .faulted, .observed, .closing, .overridden, .recovered] := by decide +kernel
  obtain ⟨pool, hplayed, htrace⟩ := Option.map_eq_some_iff.mp hoverview
  exact ⟨pool, htrace, watcher_never_undoes (reaches_of_played hplayed)⟩

/-- A start which is accepted while the watcher waits for the worker of the recording completes; then the
watcher closes the device which it has recovered, and sets it to `FAULTED`. -/
theorem watcher_undoes_recovery : ∃ pool : ServicePool,
    Pool.Reaches waits (Outside anyInput) spawn (idle { }) pool ∧
      pool.shared.trace = [.recovered, .faulted, .observed, .recovered, .closing, .overridden] ∧
      Undoes pool.shared.trace := by
  have hoverview : (Pool.play waits spawn (reactIf anyInput) (observingScript ++ startScript ++ endingScript)
      (idle { })).map (fun pool : ServicePool => pool.shared.trace) =
      some [.recovered, .faulted, .observed, .recovered, .closing, .overridden] := by decide +kernel
  obtain ⟨pool, hplayed, htrace⟩ := Option.map_eq_some_iff.mp hoverview
  refine ⟨pool, reaches_of_played hplayed, htrace, ?_⟩
  exact ⟨[.recovered, .faulted, .observed, .recovered], .closing, [.overridden], htrace, .inl rfl,
    [.recovered, .faulted], [], [], rfl, by simp, by simp⟩

end Lms200.Service
