import Lms200.Coop.Pool

/-!
# Calls beside a partner

A single call whose waits are answered by a partner with a state of its own, while an environment
changes both states between the turns. A run of the call ends when the call returns.

`Served` is the guarantee of such a call: nothing which may happen leaves it in a wait from which
it cannot go on, and whenever it returns the postcondition holds at that moment.
-/

namespace Lms200.Coop

variable {σ τ W : Type} {A : W → Type} {ε C α β : Type}

namespace Program

/-- Run beside a partner up to the next suspension or to the end. -/
def proceed (waits : Waits (σ × τ) W A ε C) (task : ℕ) :
    Program σ W A ε α → σ × τ → Stage σ W A ε α × σ × τ
  | ret a, s => (.done (.ok a), s)
  | raise e, s => (.done (.error e), s)
  | get next, s => (next s.1).proceed waits task s
  | set s' next, s => next.proceed waits task (s', s.2)
  | wait w next, s =>
    match (waits.enter task w s).1 with
    | some answer => (next answer).proceed waits task (waits.enter task w s).2
    | none => (.waiting w next, (waits.enter task w s).2)

end Program

/-- The steps of a call which has not returned: of the environment, a turn which leaves it waiting,
and an answered turn. -/
inductive Stage.Step (waits : Waits (σ × τ) W A ε C) (env : σ × τ → σ × τ → Prop) (task : ℕ) :
    Stage σ W A ε α × σ × τ → Stage σ W A ε α × σ × τ → Prop
  | env {w next s s'} : env s s' → Step waits env task (.waiting w next, s) (.waiting w next, s')
  | stay {w next choice s s'} : waits.resume task w choice s = some (none, s') →
      Step waits env task (.waiting w next, s) (.waiting w next, s')
  | turn {w next choice answer s s'} : waits.resume task w choice s = some (some answer, s') →
      Step waits env task (.waiting w next, s) ((next answer).proceed waits task s')

/-- A call reaches a stage in finitely many steps. -/
def Stage.Reaches (waits : Waits (σ × τ) W A ε C) (env : σ × τ → σ × τ → Prop) (task : ℕ) :
    Stage σ W A ε α × σ × τ → Stage σ W A ε α × σ × τ → Prop :=
  Relation.ReflTransGen (Stage.Step waits env task)

/-- What may happen during a wait without answering it. -/
def Waits.Passes (waits : Waits (σ × τ) W A ε C) (env : σ × τ → σ × τ → Prop) (task : ℕ) (w : W)
    (s s' : σ × τ) : Prop :=
  env s s' ∨ ∃ choice, waits.resume task w choice s = some (none, s')

/-- A wait can still be answered. -/
def Waits.Answerable (waits : Waits (σ × τ) W A ε C) (env : σ × τ → σ × τ → Prop) (task : ℕ) (w : W)
    (s : σ × τ) : Prop :=
  ∃ s' choice answer s'', Relation.ReflTransGen (waits.Passes env task w) s s' ∧
    waits.resume task w choice s' = some (some answer, s'')

namespace Program

/-- A suspended call goes on as `next` describes, and never gets where it could not go on. -/
def Attended (waits : Waits (σ × τ) W A ε C) (env : σ × τ → σ × τ → Prop) (task : ℕ) (w : W)
    (next : Except ε (A w) → σ × τ → Prop) (s : σ × τ) : Prop :=
  ∃ assertion : σ × τ → Prop, assertion s ∧
    (∀ t t', assertion t → waits.Passes env task w t t' → assertion t') ∧
    (∀ t, assertion t → waits.Answerable env task w t) ∧
    ∀ choice t answer t', assertion t → waits.resume task w choice t = some (some answer, t') →
      next answer t'

/-- A call can always go on until it returns, and returns in its postcondition. -/
def Served (waits : Waits (σ × τ) W A ε C) (env : σ × τ → σ × τ → Prop) (task : ℕ) :
    Program σ W A ε α → (Except ε α → σ × τ → Prop) → σ × τ → Prop
  | ret a, post, s => post (.ok a) s
  | raise e, post, s => post (.error e) s
  | get next, post, s => (next s.1).Served waits env task post s
  | set s' next, post, s => next.Served waits env task post (s', s.2)
  | wait w next, post, s =>
    match (waits.enter task w s).1 with
    | some answer => (next answer).Served waits env task post (waits.enter task w s).2
    | none => Attended waits env task w (fun answer => (next answer).Served waits env task post)
        (waits.enter task w s).2

variable {waits : Waits (σ × τ) W A ε C} {env : σ × τ → σ × τ → Prop} {task : ℕ}

/-- A wait is attended when an assertion holds throughout and a measure leads to an answer. -/
theorem Attended.intro {w : W} {next : Except ε (A w) → σ × τ → Prop} {s : σ × τ}
    (assertion : σ × τ → Prop) (measure : σ × τ → ℕ) (hnow : assertion s)
    (henv : ∀ t t', assertion t → env t t' → assertion t')
    (hstay : ∀ choice t t', assertion t → waits.resume task w choice t = some (none, t') → assertion t')
    (hgo : ∀ t, assertion t → (∃ choice answer t', waits.resume task w choice t = some (some answer, t')) ∨
      ∃ t', waits.Passes env task w t t' ∧ measure t' < measure t)
    (hanswer : ∀ choice t answer t', assertion t →
      waits.resume task w choice t = some (some answer, t') → next answer t') :
    Attended waits env task w next s := by
  have hkeep : ∀ t t', assertion t → waits.Passes env task w t t' → assertion t' := by
    intro t t' ht hpass
    rcases hpass with hmove | hturn
    · exact henv t t' ht hmove
    · obtain ⟨choice, hresume⟩ := hturn
      exact hstay choice t t' ht hresume
  refine ⟨assertion, hnow, hkeep, fun t ht => ?_, hanswer⟩
  induction hm : measure t using Nat.strongRecOn generalizing t with
  | ind m ih =>
    subst hm
    rcases hgo t ht with hnext | hpass
    · obtain ⟨choice, answer, t', hresume⟩ := hnext
      exact ⟨t, choice, answer, t', .refl, hresume⟩
    · obtain ⟨t', hpass, hlt⟩ := hpass
      obtain ⟨t₁, choice, answer, t₂, hsteps, hresume⟩ := ih _ hlt t' (hkeep t t' ht hpass) rfl
      exact ⟨t₁, choice, answer, t₂, .head hpass hsteps, hresume⟩

/-- A suspended call may go on in a weaker way. -/
theorem Attended.mono {w : W} {next next' : Except ε (A w) → σ × τ → Prop} {s : σ × τ}
    (h : Attended waits env task w next s) (himp : ∀ answer t, next answer t → next' answer t) :
    Attended waits env task w next' s := by
  obtain ⟨assertion, hnow, hkeep, hgo, hanswer⟩ := h
  refine ⟨assertion, hnow, hkeep, hgo, fun choice t answer t' ht hresume => ?_⟩
  exact himp answer t' (hanswer choice t answer t' ht hresume)

/-- A weaker postcondition is met as well. -/
theorem Served.mono {p : Program σ W A ε α} {post post' : Except ε α → σ × τ → Prop} {s : σ × τ}
    (h : p.Served waits env task post s) (himp : ∀ outcome t, post outcome t → post' outcome t) :
    p.Served waits env task post' s := by
  induction p generalizing s with
  | ret a => exact himp _ _ h
  | raise e => exact himp _ _ h
  | get next ih => exact ih s.1 h
  | set s' next ih => exact ih h
  | wait w next ih =>
    unfold Served at h ⊢
    split
    · next answer hanswer =>
      rw [hanswer] at h
      exact ih answer h
    · next hnone =>
      rw [hnone] at h
      exact h.mono fun answer t hnext => ih answer hnext

/-- Sequencing: the value continues, an exception skips the rest. -/
theorem Served.bind {p : Program σ W A ε α} {f : α → Program σ W A ε β}
    {post : Except ε β → σ × τ → Prop} {mid : Except ε α → σ × τ → Prop} {s : σ × τ}
    (h : p.Served waits env task mid s)
    (hok : ∀ a t, mid (.ok a) t → (f a).Served waits env task post t)
    (herror : ∀ e t, mid (.error e) t → post (.error e) t) :
    (p >>= f).Served waits env task post s := by
  induction p generalizing s with
  | ret a => exact hok a s h
  | raise e => exact herror e s h
  | get next ih => exact ih s.1 h
  | set s' next ih => exact ih h
  | wait w next ih =>
    change (wait w fun answer => (next answer).bind f).Served waits env task post s
    unfold Served at h ⊢
    split
    · next answer hanswer =>
      rw [hanswer] at h
      exact ih answer h
    · next hnone =>
      rw [hnone] at h
      exact h.mono fun answer t hnext => ih answer hnext

/-- Reading the outcome as a value loses nothing. -/
theorem Served.attempt {p : Program σ W A ε α} {post : Except ε (Except ε α) → σ × τ → Prop} {s : σ × τ}
    (h : p.Served waits env task (fun outcome => post (.ok outcome)) s) :
    p.attempt.Served waits env task post s := by
  induction p generalizing s with
  | ret a => exact h
  | raise e => exact h
  | get next ih => exact ih s.1 h
  | set s' next ih => exact ih h
  | wait w next ih =>
    change (wait w fun answer => (next answer).attempt).Served waits env task post s
    unfold Served at h ⊢
    split
    · next answer hanswer =>
      rw [hanswer] at h
      exact ih answer h
    · next hnone =>
      rw [hnone] at h
      exact h.mono fun answer t hnext => ih answer hnext

/-- The outcome of a computation as a program. -/
theorem Served.ofExcept {outcome : Except ε α} {post : Except ε α → σ × τ → Prop} {s : σ × τ}
    (h : post outcome s) : (Program.ofExcept outcome).Served waits env task post s := by
  cases outcome with
  | ok a => exact h
  | error e => exact h

/-- A wait which is answered where it is reached. -/
theorem Served.request_now {w : W} {post : Except ε (A w) → σ × τ → Prop} {s s' : σ × τ} {answer : Except ε (A w)}
    (henter : waits.enter task w s = (some answer, s')) (hpost : post answer s') :
    (request w).Served waits env task post s := by
  unfold request Served
  rw [henter]
  exact Served.ofExcept hpost

/-- A wait in which the call is suspended. -/
theorem Served.request_later {w : W} {post : Except ε (A w) → σ × τ → Prop} {s s' : σ × τ}
    (henter : waits.enter task w s = (none, s')) (hattended : Attended waits env task w post s') :
    (request w).Served waits env task post s := by
  unfold request Served
  rw [henter]
  exact hattended.mono fun answer t ht => Served.ofExcept ht

/-- What a call still owes at a stage. -/
def Owes (waits : Waits (σ × τ) W A ε C) (env : σ × τ → σ × τ → Prop) (task : ℕ)
    (post : Except ε α → σ × τ → Prop) : Stage σ W A ε α × σ × τ → Prop
  | (.done outcome, s) => post outcome s
  | (.waiting w next, s) => Attended waits env task w
      (fun answer => (next answer).Served waits env task post) s

/-- A turn leaves the call with what it still owes. -/
theorem Served.proceed {p : Program σ W A ε α} {post : Except ε α → σ × τ → Prop} {s : σ × τ}
    (h : p.Served waits env task post s) : Owes waits env task post (p.proceed waits task s) := by
  induction p generalizing s with
  | ret a => exact h
  | raise e => exact h
  | get next ih => exact ih s.1 h
  | set s' next ih => exact ih h
  | wait w next ih =>
    unfold Served at h
    unfold Program.proceed
    split
    · next answer hanswer =>
      rw [hanswer] at h
      exact ih answer h
    · next hnone =>
      rw [hnone] at h
      exact h

/-- Every step leaves the call with what it still owes. -/
theorem Owes.step {post : Except ε α → σ × τ → Prop} {c c' : Stage σ W A ε α × σ × τ}
    (h : Owes waits env task post c) (hstep : Stage.Step waits env task c c') :
    Owes waits env task post c' := by
  cases hstep with
  | env henv =>
    obtain ⟨assertion, hnow, hkeep, hrest⟩ := h
    exact ⟨assertion, hkeep _ _ hnow (.inl henv), hkeep, hrest⟩
  | @stay w next choice s s' hresume =>
    obtain ⟨assertion, hnow, hkeep, hrest⟩ := h
    exact ⟨assertion, hkeep _ _ hnow (.inr ⟨choice, hresume⟩), hkeep, hrest⟩
  | @turn w next choice answer s s' hresume =>
    obtain ⟨assertion, hnow, -, -, hanswer⟩ := h
    exact (hanswer choice s answer s' hnow hresume).proceed

/-- During a wait the call stays in it. -/
theorem reaches_of_passes {w : W} {next : Except ε (A w) → Program σ W A ε α} {s s' : σ × τ}
    (h : Relation.ReflTransGen (waits.Passes env task w) s s') :
    Stage.Reaches waits env task (.waiting w next, s) (.waiting w next, s') := by
  induction h with
  | refl => exact .refl
  | tail _ hpass ih =>
    rcases hpass with henv | hturn
    · exact ih.tail (.env henv)
    · obtain ⟨choice, hresume⟩ := hturn
      exact ih.tail (.stay hresume)

/-- An attended wait gets an answer with which the call goes on. -/
theorem Attended.answers {w : W} {next : Except ε (A w) → σ × τ → Prop} {s : σ × τ}
    (h : Attended waits env task w next s) :
    ∃ t choice answer t', Relation.ReflTransGen (waits.Passes env task w) s t ∧
      waits.resume task w choice t = some (some answer, t') ∧ next answer t' := by
  obtain ⟨assertion, hnow, hkeep, hgo, hnext⟩ := h
  obtain ⟨t, choice, answer, t', hsteps, hresume⟩ := hgo s hnow
  have ht : assertion t := by
    clear hresume
    induction hsteps with
    | refl => exact hnow
    | tail _ hpass ih => exact hkeep _ _ ih hpass
  exact ⟨t, choice, answer, t', hsteps, hresume, hnext choice t answer t' ht hresume⟩

/-- A call which is served can return. -/
theorem Served.returns {p : Program σ W A ε α} {post : Except ε α → σ × τ → Prop} {s : σ × τ}
    (h : p.Served waits env task post s) :
    ∃ outcome t, Stage.Reaches waits env task (p.proceed waits task s) (.done outcome, t) := by
  induction p generalizing s with
  | ret a => exact ⟨.ok a, s, .refl⟩
  | raise e => exact ⟨.error e, s, .refl⟩
  | get next ih => exact ih s.1 h
  | set s' next ih => exact ih h
  | wait w next ih =>
    unfold Served at h
    unfold Program.proceed
    split
    · next answer hanswer =>
      rw [hanswer] at h
      exact ih answer h
    · next hnone =>
      rw [hnone] at h
      obtain ⟨t, choice, answer, t', hsteps, hresume, hnext⟩ := h.answers
      obtain ⟨outcome, t₂, hreach⟩ := ih answer hnext
      exact ⟨outcome, t₂, (reaches_of_passes hsteps).trans (.head (.turn hresume) hreach)⟩

/-- From wherever a call has got, it can return. -/
theorem Owes.returns {post : Except ε α → σ × τ → Prop} {c : Stage σ W A ε α × σ × τ}
    (h : Owes waits env task post c) :
    ∃ outcome t, Stage.Reaches waits env task c (.done outcome, t) := by
  obtain ⟨stage, s⟩ := c
  cases stage with
  | done outcome => exact ⟨outcome, s, .refl⟩
  | waiting w next =>
    obtain ⟨t, choice, answer, t', hsteps, hresume, hnext⟩ := h.answers
    obtain ⟨outcome, t₂, hreach⟩ := hnext.returns
    exact ⟨outcome, t₂, (reaches_of_passes hsteps).trans (.head (.turn hresume) hreach)⟩

/-- In every run a served call can still return, and returns in its postcondition. -/
theorem Served.run {p : Program σ W A ε α} {post : Except ε α → σ × τ → Prop} {s : σ × τ}
    (h : p.Served waits env task post s) {c : Stage σ W A ε α × σ × τ}
    (hrun : Stage.Reaches waits env task (p.proceed waits task s) c) :
    (∃ outcome t, Stage.Reaches waits env task c (.done outcome, t)) ∧
      ∀ outcome t, c = (.done outcome, t) → post outcome t := by
  have howes : Owes waits env task post c := by
    induction hrun with
    | refl => exact h.proceed
    | tail _ hstep ih => exact ih.step hstep
  refine ⟨howes.returns, fun outcome t heq => ?_⟩
  subst heq
  exact howes

/-- From a precondition on, a call comes to one outcome and to a postcondition, whatever happens. -/
def Yields (waits : Waits (σ × τ) W A ε C) (env : σ × τ → σ × τ → Prop) (task : ℕ) (P : σ × τ → Prop)
    (p : Program σ W A ε α) (r : Except ε α) (Q : σ × τ → Prop) : Prop :=
  ∀ s, P s → p.Served waits env task (fun outcome t => outcome = r ∧ Q t) s

section Rules

variable {P Q R : σ × τ → Prop}

theorem Yields.done {a : α} (h : ∀ s, P s → Q s) :
    Yields waits env task P (pure a : Program σ W A ε α) (.ok a) Q :=
  fun s hs => ⟨rfl, h s hs⟩

theorem Yields.fails {e : ε} (h : ∀ s, P s → Q s) :
    Yields waits env task P (throw e : Program σ W A ε α) (.error e) Q :=
  fun s hs => ⟨rfl, h s hs⟩

/-- The value continues. -/
theorem Yields.bind {p : Program σ W A ε α} {f : α → Program σ W A ε β} {a : α} {r : Except ε β}
    (hp : Yields waits env task P p (.ok a) Q) (hf : Yields waits env task Q (f a) r R) :
    Yields waits env task P (p >>= f) r R := by
  intro s hs
  apply (hp s hs).bind
  · intro b t ht
    obtain ⟨heq, ht⟩ := ht
    cases heq
    exact hf t ht
  · intro e t ht
    cases ht.1

/-- An exception skips the rest. -/
theorem Yields.raises {p : Program σ W A ε α} {f : α → Program σ W A ε β} {e : ε}
    (hp : Yields waits env task P p (.error e) Q) : Yields waits env task P (p >>= f) (.error e) Q := by
  intro s hs
  apply (hp s hs).bind
  · intro b t ht
    cases ht.1
  · intro e' t ht
    obtain ⟨heq, ht⟩ := ht
    cases heq
    exact ⟨rfl, ht⟩

/-- The outcome decides how to go on. -/
theorem Yields.attempt_bind {p : Program σ W A ε α} {f : Except ε α → Program σ W A ε β}
    {outcome : Except ε α} {r : Except ε β} (hp : Yields waits env task P p outcome Q)
    (hf : Yields waits env task Q (f outcome) r R) : Yields waits env task P (p.attempt >>= f) r R := by
  intro s hs
  have hattempt : p.attempt.Served waits env task (fun read t => read = .ok outcome ∧ Q t) s :=
    Served.attempt ((hp s hs).mono fun read t ht => ⟨congrArg Except.ok ht.1, ht.2⟩)
  apply hattempt.bind
  · intro read t ht
    obtain ⟨heq, ht⟩ := ht
    cases heq
    exact hf t ht
  · intro e t ht
    cases ht.1

/-- What is read from the state is known. -/
theorem Yields.get_bind {f : σ → Program σ W A ε α} {g : Program σ W A ε α} {r : Except ε α}
    (hread : ∀ s, P s → f s.1 = g) (hg : Yields waits env task P g r Q) :
    Yields waits env task P (MonadState.get >>= f) r Q := by
  intro s hs
  change (f s.1).Served waits env task _ s
  rw [hread s hs]
  exact hg s hs

/-- A change of the state, and what follows it. -/
theorem Yields.modify_bind {g : σ → σ} {next : Unit → Program σ W A ε α} {r : Except ε α}
    (hset : ∀ s, P s → Q (g s.1, s.2)) (hnext : Yields waits env task Q (next ()) r R) :
    Yields waits env task P (modify g >>= next) r R :=
  fun s hs => hnext (g s.1, s.2) (hset s hs)

theorem Yields.change {g : σ → σ} (hset : ∀ s, P s → Q (g s.1, s.2)) :
    Yields waits env task P (modify g : Program σ W A ε Unit) (.ok ()) Q :=
  fun s hs => ⟨rfl, hset s hs⟩

/-- A change of the state as a cleanup leaves the outcome. -/
theorem Yields.andFinally_modify {p : Program σ W A ε α} {g : σ → σ} {r : Except ε α}
    (hp : Yields waits env task P p r Q) (hset : ∀ s, Q s → R (g s.1, s.2)) :
    Yields waits env task P (p.andFinally (modify g)) r R := by
  apply Yields.attempt_bind hp
  intro s hs
  change (Program.ofExcept r : Program σ W A ε α).Served waits env task _ (g s.1, s.2)
  exact Served.ofExcept ⟨rfl, hset s hs⟩

/-- A wait which is answered where it is reached. -/
theorem Yields.at_once {w : W} {answer : Except ε (A w)}
    (henter : ∀ s, P s → ∃ s', waits.enter task w s = (some answer, s') ∧ Q s') :
    Yields waits env task P (request w) answer Q := by
  intro s hs
  obtain ⟨s', hanswer, ht⟩ := henter s hs
  exact Served.request_now hanswer ⟨rfl, ht⟩

/-- A wait in which the call is suspended. -/
theorem Yields.suspended {w : W} {answer : Except ε (A w)}
    (henter : ∀ s, P s → ∃ s', waits.enter task w s = (none, s') ∧
      Attended waits env task w (fun read t => read = answer ∧ Q t) s') :
    Yields waits env task P (request w) answer Q := by
  intro s hs
  obtain ⟨s', hnone, hattended⟩ := henter s hs
  exact Served.request_later hnone hattended

theorem Yields.mono {p : Program σ W A ε α} {r : Except ε α} {P' Q' : σ × τ → Prop}
    (h : Yields waits env task P p r Q) (hpre : ∀ s, P' s → P s) (hpost : ∀ s, Q s → Q' s) :
    Yields waits env task P' p r Q' :=
  fun s hs => (h s (hpre s hs)).mono fun _ t ht => ⟨ht.1, hpost t ht.2⟩

end Rules

end Program

end Lms200.Coop
