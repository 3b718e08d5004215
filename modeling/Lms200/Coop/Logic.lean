import Lms200.Coop.Program

/-!
# Reasoning about cooperative programs

A wait runs first in the turn of its task, and suspends the task unless it is answered there.
What a scheduled wait may do then is given by an outer choice: it stays blocked, makes progress
and goes on waiting, or is answered.

`Safe` is the guarantee of one task under interference. Where it is suspended it asks for an
assertion which the steps of the others keep, and which every turn of the wait either keeps or
turns into an answer that the rest of the program is safe for.
-/

namespace Lms200.Coop

/-- What a wait does when a task reaches it, and its turns once the task is suspended: blocked,
still waiting, or answered. -/
structure Waits (σ W : Type) (A : W → Type) (ε C : Type) where
  enter : ℕ → (w : W) → σ → Option (Except ε (A w)) × σ
  resume : ℕ → (w : W) → C → σ → Option (Option (Except ε (A w)) × σ)

/-- What a task may find when it reaches a wait, or takes a turn in it. -/
def Waits.Turns {σ W : Type} {A : W → Type} {ε C : Type} (waits : Waits σ W A ε C) (task : ℕ) (w : W)
    (s : σ) (answer : Option (Except ε (A w))) (s' : σ) : Prop :=
  waits.enter task w s = (answer, s') ∨ ∃ choice, waits.resume task w choice s = some (answer, s')

/-- The same waits, of which only some turns are taken. -/
def Waits.restrict {σ W : Type} {A : W → Type} {ε C : Type} (waits : Waits σ W A ε C)
    (allowed : ℕ → W → σ → Bool) : Waits σ W A ε C where
  enter := waits.enter
  resume task w choice s := if allowed task w s then waits.resume task w choice s else none

/-- What the others may do, and what the task itself promises to do. -/
structure Contract (σ : Type) where
  rely : σ → σ → Prop
  guarantee : σ → σ → Prop

namespace Program

variable {σ W : Type} {A : W → Type} {ε C α β : Type}

/-- A task suspended in a wait goes on as `next` describes, from the answers it may get. -/
def Suspended (waits : Waits σ W A ε C) (task : ℕ) (contract : Contract σ) (w : W)
    (next : Except ε (A w) → σ → Prop) (s : σ) : Prop :=
  ∃ assertion : σ → Prop, assertion s ∧
    (∀ t t', assertion t → contract.rely t t' → assertion t') ∧
    (∀ choice t t', assertion t → waits.resume task w choice t = some (none, t') →
      contract.guarantee t t' ∧ assertion t') ∧
    ∀ choice t answer t', assertion t → waits.resume task w choice t = some (some answer, t') →
      contract.guarantee t t' ∧ next answer t'

/-- A wait which its task reaches goes on as `next` describes, at once or from its suspension. -/
def Reached (waits : Waits σ W A ε C) (task : ℕ) (contract : Contract σ) (w : W)
    (next : Except ε (A w) → σ → Prop) (s : σ) : Prop :=
  contract.guarantee s (waits.enter task w s).2 ∧
    match (waits.enter task w s).1 with
    | some answer => next answer (waits.enter task w s).2
    | none => Suspended waits task contract w next (waits.enter task w s).2

/-- One task of the pool meets its postcondition and its contract from a state on. -/
def Safe (waits : Waits σ W A ε C) (task : ℕ) (contract : Contract σ) :
    Program σ W A ε α → (Except ε α → σ → Prop) → σ → Prop
  | ret a, post, s => post (.ok a) s
  | raise e, post, s => post (.error e) s
  | get next, post, s => (next s).Safe waits task contract post s
  | set s' next, post, s => contract.guarantee s s' ∧ next.Safe waits task contract post s'
  | wait w next, post, s => Reached waits task contract w
      (fun answer => (next answer).Safe waits task contract post) s

variable {waits : Waits σ W A ε C} {task : ℕ} {contract : Contract σ}

/-- A suspended task may go on in a weaker way. -/
theorem Suspended.mono {w : W} {next next' : Except ε (A w) → σ → Prop} {s : σ}
    (h : Suspended waits task contract w next s) (himp : ∀ answer t, next answer t → next' answer t) :
    Suspended waits task contract w next' s := by
  obtain ⟨assertion, hnow, hstable, hstay, hanswer⟩ := h
  refine ⟨assertion, hnow, hstable, hstay, fun choice t answer t' ht hresume => ?_⟩
  obtain ⟨hguarantee, hnext⟩ := hanswer choice t answer t' ht hresume
  exact ⟨hguarantee, himp answer t' hnext⟩

/-- What a reached wait owes, by what it does at once. -/
theorem Reached.intro {w : W} {next : Except ε (A w) → σ → Prop} {s s' : σ}
    {answer : Option (Except ε (A w))} (henter : waits.enter task w s = (answer, s'))
    (hguarantee : contract.guarantee s s') (hsome : ∀ a, answer = some a → next a s')
    (hnone : answer = none → Suspended waits task contract w next s') :
    Reached waits task contract w next s := by
  unfold Reached
  rw [henter]
  refine ⟨hguarantee, ?_⟩
  cases answer with
  | some a => exact hsome a rfl
  | none => exact hnone rfl

/-- A wait may go on in a weaker way. -/
theorem Reached.mono {w : W} {next next' : Except ε (A w) → σ → Prop} {s : σ}
    (h : Reached waits task contract w next s) (himp : ∀ answer t, next answer t → next' answer t) :
    Reached waits task contract w next' s := by
  obtain ⟨hguarantee, hrest⟩ := h
  refine ⟨hguarantee, ?_⟩
  cases hanswer : (waits.enter task w s).1 with
  | some answer =>
    rw [hanswer] at hrest
    exact himp _ _ hrest
  | none =>
    rw [hanswer] at hrest
    exact hrest.mono himp

/-- A wait whose every turn keeps an assertion, or gives an answer which is fine. -/
theorem Reached.of_turns {w : W} {next : Except ε (A w) → σ → Prop} {s : σ} (P : σ → Prop)
    (hrely : ∀ t t', P t → contract.rely t t' → P t')
    (hturn : ∀ t answer t', P t → waits.Turns task w t answer t' →
      contract.guarantee t t' ∧ (answer = none → P t') ∧ ∀ a, answer = some a → next a t')
    (hs : P s) : Reached waits task contract w next s := by
  obtain ⟨hguarantee, hstay, hanswer⟩ := hturn s _ _ hs (.inl rfl)
  refine .intro rfl hguarantee hanswer fun hnone => ⟨P, hstay hnone, hrely, ?_, ?_⟩
  · intro choice t t' ht hresume
    obtain ⟨hguarantee, hstay, -⟩ := hturn t none t' ht (.inr ⟨choice, hresume⟩)
    exact ⟨hguarantee, hstay rfl⟩
  · intro choice t answer t' ht hresume
    obtain ⟨hguarantee, -, hanswer⟩ := hturn t (some answer) t' ht (.inr ⟨choice, hresume⟩)
    exact ⟨hguarantee, hanswer answer rfl⟩

/-- A weaker postcondition is met as well. -/
theorem Safe.mono {p : Program σ W A ε α} {post post' : Except ε α → σ → Prop} {s : σ}
    (h : p.Safe waits task contract post s) (himp : ∀ outcome t, post outcome t → post' outcome t) :
    p.Safe waits task contract post' s := by
  induction p generalizing s with
  | ret a => exact himp _ _ h
  | raise e => exact himp _ _ h
  | get next ih => exact ih s h
  | set s' next ih => exact ⟨h.1, ih h.2⟩
  | wait w next ih => exact Reached.mono h fun answer t hnext => ih answer hnext

/-- Sequencing: the value continues, an exception skips the rest. -/
theorem Safe.bind {p : Program σ W A ε α} {f : α → Program σ W A ε β}
    {post : Except ε β → σ → Prop} {s : σ}
    (h : p.Safe waits task contract (fun
      | .ok a => (f a).Safe waits task contract post
      | .error e => post (.error e)) s) :
    (p >>= f).Safe waits task contract post s := by
  induction p generalizing s with
  | ret a => exact h
  | raise e => exact h
  | get next ih => exact ih s h
  | set s' next ih => exact ⟨h.1, ih h.2⟩
  | wait w next ih => exact Reached.mono h fun answer t hnext => ih answer hnext

/-- Sequencing, with what holds in between. -/
theorem Safe.seq {p : Program σ W A ε α} {f : α → Program σ W A ε β} {Q : Except ε α → σ → Prop}
    {post : Except ε β → σ → Prop} {s : σ} (h : p.Safe waits task contract Q s)
    (hok : ∀ a t, Q (.ok a) t → (f a).Safe waits task contract post t)
    (herror : ∀ e t, Q (.error e) t → post (.error e) t) :
    (p >>= f).Safe waits task contract post s := by
  refine Safe.bind (h.mono fun outcome t hmid => ?_)
  cases outcome with
  | ok a => exact hok a t hmid
  | error e => exact herror e t hmid

/-- Reading the outcome as a value loses nothing. -/
theorem Safe.attempt {p : Program σ W A ε α} {post : Except ε (Except ε α) → σ → Prop} {s : σ}
    (h : p.Safe waits task contract (fun outcome => post (.ok outcome)) s) :
    p.attempt.Safe waits task contract post s := by
  induction p generalizing s with
  | ret a => exact h
  | raise e => exact h
  | get next ih => exact ih s h
  | set s' next ih => exact ⟨h.1, ih h.2⟩
  | wait w next ih => exact Reached.mono h fun answer t hnext => ih answer hnext

/-- The outcome of a program decides how to go on. -/
theorem Safe.attempt_seq {p : Program σ W A ε α} {f : Except ε α → Program σ W A ε β}
    {Q : Except ε α → σ → Prop} {post : Except ε β → σ → Prop} {s : σ}
    (h : p.Safe waits task contract Q s)
    (hnext : ∀ outcome t, Q outcome t → (f outcome).Safe waits task contract post t) :
    (p.attempt >>= f).Safe waits task contract post s :=
  Safe.bind (Safe.attempt (h.mono hnext))

/-- A handler runs from the state the exception left. -/
theorem Safe.tryCatch {p : Program σ W A ε α} {handler : ε → Program σ W A ε α}
    {post : Except ε α → σ → Prop} {s : σ}
    (h : p.Safe waits task contract (fun
      | .ok a => post (.ok a)
      | .error e => (handler e).Safe waits task contract post) s) :
    (tryCatch p handler).Safe waits task contract post s := by
  refine Safe.bind (Safe.attempt (h.mono fun outcome t ht => ?_))
  cases outcome with
  | ok a => exact ht
  | error e => exact ht

/-- A cleanup runs whatever the outcome, and its own exception replaces the outcome. -/
theorem Safe.andFinally {p : Program σ W A ε α} {cleanup : Program σ W A ε Unit}
    {post : Except ε α → σ → Prop} {s : σ}
    (h : p.Safe waits task contract (fun outcome => cleanup.Safe waits task contract (fun
      | .ok () => post outcome
      | .error e => post (.error e))) s) :
    (p.andFinally cleanup).Safe waits task contract post s := by
  refine Safe.bind (Safe.attempt (h.mono fun outcome t ht => Safe.bind (ht.mono ?_)))
  intro cleaned t' ht'
  cases cleaned with
  | error e => exact ht'
  | ok u =>
    cases outcome with
    | ok a => exact ht'
    | error e => exact ht'

/-- Handlers which keep an assertion. -/
theorem Safe.tryCatch_keeps {p : Program σ W A ε α} {handler : ε → Program σ W A ε α} {P : σ → Prop} {s : σ}
    (h : p.Safe waits task contract (fun _ => P) s)
    (hhandler : ∀ e t, P t → (handler e).Safe waits task contract (fun _ => P) t) :
    (MonadExcept.tryCatch p handler).Safe waits task contract (fun _ => P) s := by
  refine Safe.tryCatch (h.mono fun outcome t ht => ?_)
  cases outcome with
  | ok a => exact ht
  | error e => exact hhandler e t ht

/-- A cleanup which turns an assertion into another one. -/
theorem Safe.andFinally_keeps {p : Program σ W A ε α} {cleanup : Program σ W A ε Unit} {P Q : σ → Prop} {s : σ}
    (h : p.Safe waits task contract (fun _ => P) s)
    (hcleanup : ∀ t, P t → cleanup.Safe waits task contract (fun _ => Q) t) :
    (p.andFinally cleanup).Safe waits task contract (fun _ => Q) s := by
  refine Safe.andFinally (h.mono fun outcome t ht => (hcleanup t ht).mono fun cleaned t' ht' => ?_)
  cases cleaned <;> exact ht'

/-- The outcome of a computation as a program. -/
theorem Safe.ofExcept {outcome : Except ε α} {post : Except ε α → σ → Prop} {s : σ}
    (h : post outcome s) : (Program.ofExcept outcome).Safe waits task contract post s := by
  cases outcome with
  | ok a => exact h
  | error e => exact h

/-- Awaiting gives the answer of the wait. -/
theorem Safe.request {w : W} {post : Except ε (A w) → σ → Prop} {s : σ}
    (h : Reached waits task contract w post s) :
    (Program.request w).Safe waits task contract post s :=
  Reached.mono h fun _ _ hpost => Safe.ofExcept hpost

section Rules

variable {post : Except ε α → σ → Prop} {s : σ}

@[simp] theorem safe_pure (a : α) :
    (pure a : Program σ W A ε α).Safe waits task contract post s ↔ post (.ok a) s := Iff.rfl

@[simp] theorem safe_throw (e : ε) :
    (throw e : Program σ W A ε α).Safe waits task contract post s ↔ post (.error e) s := Iff.rfl

@[simp] theorem safe_get_bind (f : σ → Program σ W A ε α) :
    (MonadState.get >>= f : Program σ W A ε α).Safe waits task contract post s ↔
      (f s).Safe waits task contract post s := Iff.rfl

@[simp] theorem safe_pure_bind (b : β) (f : β → Program σ W A ε α) :
    (pure b >>= f : Program σ W A ε α).Safe waits task contract post s ↔
      (f b).Safe waits task contract post s := Iff.rfl

@[simp] theorem safe_throw_bind (e : ε) (f : β → Program σ W A ε α) :
    ((throw e : Program σ W A ε β) >>= f).Safe waits task contract post s ↔
      post (.error e) s := Iff.rfl

theorem Safe.get_bind {f : σ → Program σ W A ε α} (h : (f s).Safe waits task contract post s) :
    (MonadState.get >>= f : Program σ W A ε α).Safe waits task contract post s := h

theorem Safe.modify_bind {f : σ → σ} {next : Unit → Program σ W A ε α}
    (hguarantee : contract.guarantee s (f s)) (h : (next ()).Safe waits task contract post (f s)) :
    (modify f >>= next : Program σ W A ε α).Safe waits task contract post s := ⟨hguarantee, h⟩

theorem safe_modify (f : σ → σ) (post : Except ε Unit → σ → Prop) :
    (modify f : Program σ W A ε Unit).Safe waits task contract post s ↔
      contract.guarantee s (f s) ∧ post (.ok ()) (f s) := Iff.rfl

theorem safe_modify_bind (f : σ → σ) (next : Unit → Program σ W A ε α) :
    (modify f >>= next : Program σ W A ε α).Safe waits task contract post s ↔
      contract.guarantee s (f s) ∧ (next ()).Safe waits task contract post (f s) := Iff.rfl

end Rules

/-- Against an environment which answers at once and by the turns of the waits, a safe program
ends in its postcondition. -/
theorem Safe.run {τ : Type} {p : Program σ W A ε α} {post : Except ε α → σ → Prop}
    (answer : (w : W) → σ × τ → Except ε (A w) × σ × τ)
    (henter : ∀ w s, waits.enter task w s = (none, s))
    (hanswer : ∀ w s, ∃ choice,
      waits.resume task w choice s.1 = some (some (answer w s).1, (answer w s).2.1))
    (s : σ × τ) (h : p.Safe waits task contract post s.1) :
    post (p.run answer s).1 (p.run answer s).2.1 := by
  induction p generalizing s with
  | ret a => exact h
  | raise e => exact h
  | get next ih => exact ih s.1 s h
  | set s' next ih => exact ih (s', s.2) h.2
  | wait w next ih =>
    obtain ⟨-, hsuspended⟩ := h
    rw [henter] at hsuspended
    obtain ⟨assertion, hnow, -, -, hturn⟩ := hsuspended
    obtain ⟨choice, hchoice⟩ := hanswer w s
    exact ih _ _ (hturn choice s.1 _ _ hnow hchoice).2

end Program

end Lms200.Coop
