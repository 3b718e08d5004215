import Lms200.Coop.Pool

/-!
# What a turn does

A turn runs from the answer of a wait to the next suspension, and nobody sees the device inside of
it. So what happens to the state over a run is read off where each turn begins and where it ends.
-/

namespace Lms200.Coop

variable {σ W : Type} {A : W → Type} {ε C J α β : Type}

namespace Program

/-- Whatever a suspended wait does is a turn, or goes on as `next` describes from where it began. -/
def Goes (waits : Waits σ W A ε C) (task : ℕ) (turn : σ → σ → Prop) (w : W)
    (next : Except ε (A w) → σ → σ → Prop) : Prop :=
  (∀ choice t t', waits.resume task w choice t = some (none, t') → turn t t') ∧
    ∀ choice t answer t', waits.resume task w choice t = some (some answer, t') → next answer t t'

/-- Every turn of a program ends as `turn` says of where it began, and the program as `post` says of
where its last turn began. -/
def Turns (waits : Waits σ W A ε C) (task : ℕ) (turn : σ → σ → Prop) :
    Program σ W A ε α → (Except ε α → σ → σ → Prop) → σ → σ → Prop
  | ret a, post, start, s => post (.ok a) start s
  | raise e, post, start, s => post (.error e) start s
  | get next, post, start, s => (next s).Turns waits task turn post start s
  | set s' next, post, start, _ => next.Turns waits task turn post start s'
  | wait w next, post, start, s =>
    match (waits.enter task w s).1 with
    | some answer => (next answer).Turns waits task turn post start (waits.enter task w s).2
    | none => turn start (waits.enter task w s).2 ∧
        Goes waits task turn w fun answer => (next answer).Turns waits task turn post

variable {waits : Waits σ W A ε C} {task : ℕ} {turn : σ → σ → Prop}

/-- A program may end in a weaker way. -/
theorem Turns.mono {p : Program σ W A ε α} {post post' : Except ε α → σ → σ → Prop} {start s : σ}
    (h : p.Turns waits task turn post start s) (himp : ∀ outcome t t', post outcome t t' → post' outcome t t') :
    p.Turns waits task turn post' start s := by
  induction p generalizing start s with
  | ret a => exact himp _ _ _ h
  | raise e => exact himp _ _ _ h
  | get next ih => exact ih s h
  | set s' next ih => exact ih h
  | wait w next ih =>
    unfold Turns at h ⊢
    split
    · next answer hanswer =>
      rw [hanswer] at h
      exact ih answer h
    · next hnone =>
      rw [hnone] at h
      exact ⟨h.1, h.2.1, fun choice t answer t' hresume => ih answer (h.2.2 choice t answer t' hresume)⟩

/-- Sequencing: the value continues in the same turn, an exception skips the rest. -/
theorem Turns.bind {p : Program σ W A ε α} {f : α → Program σ W A ε β}
    {post : Except ε β → σ → σ → Prop} {start s : σ}
    (h : p.Turns waits task turn (fun
      | .ok a => (f a).Turns waits task turn post
      | .error e => post (.error e)) start s) :
    (p >>= f).Turns waits task turn post start s := by
  induction p generalizing start s with
  | ret a => exact h
  | raise e => exact h
  | get next ih => exact ih s h
  | set s' next ih => exact ih h
  | wait w next ih =>
    change (wait w fun answer => (next answer).bind f).Turns waits task turn post start s
    unfold Turns at h ⊢
    split
    · next answer hanswer =>
      rw [hanswer] at h
      exact ih answer h
    · next hnone =>
      rw [hnone] at h
      exact ⟨h.1, h.2.1, fun choice t answer t' hresume => ih answer (h.2.2 choice t answer t' hresume)⟩

/-- Sequencing, with what holds in between. -/
theorem Turns.seq {p : Program σ W A ε α} {f : α → Program σ W A ε β} {Q : Except ε α → σ → σ → Prop}
    {post : Except ε β → σ → σ → Prop} {start s : σ} (h : p.Turns waits task turn Q start s)
    (hok : ∀ a t t', Q (.ok a) t t' → (f a).Turns waits task turn post t t')
    (herror : ∀ e t t', Q (.error e) t t' → post (.error e) t t') :
    (p >>= f).Turns waits task turn post start s := by
  refine Turns.bind (h.mono fun outcome t t' hmid => ?_)
  cases outcome with
  | ok a => exact hok a t t' hmid
  | error e => exact herror e t t' hmid

/-- Reading the outcome as a value loses nothing. -/
theorem Turns.attempt {p : Program σ W A ε α} {post : Except ε (Except ε α) → σ → σ → Prop} {start s : σ}
    (h : p.Turns waits task turn (fun outcome => post (.ok outcome)) start s) :
    p.attempt.Turns waits task turn post start s := by
  induction p generalizing start s with
  | ret a => exact h
  | raise e => exact h
  | get next ih => exact ih s h
  | set s' next ih => exact ih h
  | wait w next ih =>
    change (wait w fun answer => (next answer).attempt).Turns waits task turn post start s
    unfold Turns at h ⊢
    split
    · next answer hanswer =>
      rw [hanswer] at h
      exact ih answer h
    · next hnone =>
      rw [hnone] at h
      exact ⟨h.1, h.2.1, fun choice t answer t' hresume => ih answer (h.2.2 choice t answer t' hresume)⟩

/-- The outcome of a program decides how to go on. -/
theorem Turns.attempt_seq {p : Program σ W A ε α} {f : Except ε α → Program σ W A ε β}
    {Q : Except ε α → σ → σ → Prop} {post : Except ε β → σ → σ → Prop} {start s : σ}
    (h : p.Turns waits task turn Q start s)
    (hnext : ∀ outcome t t', Q outcome t t' → (f outcome).Turns waits task turn post t t') :
    (p.attempt >>= f).Turns waits task turn post start s :=
  Turns.bind (Turns.attempt (h.mono hnext))

/-- A change of the state, as a cleanup whatever the outcome. -/
theorem Turns.finally_modify {p : Program σ W A ε α} {f : σ → σ} {Q post : Except ε α → σ → σ → Prop}
    {start s : σ} (h : p.Turns waits task turn Q start s)
    (hafter : ∀ outcome t t', Q outcome t t' → post outcome t (f t')) :
    (p.andFinally (modify f)).Turns waits task turn post start s := by
  refine Turns.attempt_seq h fun outcome t t' hmid => ?_
  cases outcome with
  | ok a => exact hafter _ t t' hmid
  | error e => exact hafter _ t t' hmid

/-- The outcome of a computation as a program. -/
theorem Turns.ofExcept {outcome : Except ε α} {post : Except ε α → σ → σ → Prop} {start s : σ}
    (h : post outcome start s) : (Program.ofExcept outcome).Turns waits task turn post start s := by
  cases outcome with
  | ok a => exact h
  | error e => exact h

/-- Awaiting gives the answer of the wait. -/
theorem Turns.request {w : W} {post : Except ε (A w) → σ → σ → Prop} {start s : σ}
    (hnow : ∀ answer, (waits.enter task w s).1 = some answer → post answer start (waits.enter task w s).2)
    (hnone : (waits.enter task w s).1 = none → turn start (waits.enter task w s).2)
    (hgoes : Goes waits task turn w post) :
    (Program.request w).Turns waits task turn post start s := by
  unfold Program.request Turns
  split
  · next answer hanswer => exact Turns.ofExcept (hnow answer hanswer)
  · next hanswer =>
    exact ⟨hnone hanswer, hgoes.1, fun choice t answer t' hresume =>
      Turns.ofExcept (hgoes.2 choice t answer t' hresume)⟩

theorem Turns.get_bind {f : σ → Program σ W A ε α} {post : Except ε α → σ → σ → Prop} {start s : σ}
    (h : (f s).Turns waits task turn post start s) :
    (MonadState.get >>= f : Program σ W A ε α).Turns waits task turn post start s := h

theorem Turns.modify_bind {f : σ → σ} {next : Unit → Program σ W A ε α}
    {post : Except ε α → σ → σ → Prop} {start s : σ}
    (h : (next ()).Turns waits task turn post start (f s)) :
    (modify f >>= next : Program σ W A ε α).Turns waits task turn post start s := h

end Program

variable {waits : Waits σ W A ε C} {turn : σ → σ → Prop}

/-- The turns which a task has ahead. -/
def Stage.Turns (waits : Waits σ W A ε C) (task : ℕ) (turn : σ → σ → Prop) : Stage σ W A ε α → Prop
  | done _ => True
  | waiting w next => Program.Goes waits task turn w fun answer =>
      (next answer).Turns waits task turn fun _ => turn

/-- The first turn of a program, and what is ahead after it. -/
theorem Program.Turns.advance {task : ℕ} {p : Program σ W A ε α} {start s : σ}
    (h : p.Turns waits task turn (fun _ => turn) start s) :
    turn start (p.advance waits task s).2 ∧ (p.advance waits task s).1.Turns waits task turn := by
  induction p generalizing s with
  | ret a => exact ⟨h, trivial⟩
  | raise e => exact ⟨h, trivial⟩
  | get next ih => exact ih s h
  | set s' next ih => exact ih h
  | wait w next ih =>
    unfold Program.Turns at h
    unfold Program.advance
    cases hanswer : (waits.enter task w s).1 with
    | some answer =>
      rw [hanswer] at h
      exact ih answer h
    | none =>
      rw [hanswer] at h
      exact h

/-- What happens to the state in a step: the environment moves, or a task takes a turn. -/
theorem Pool.Step.turned {env : σ → σ → Prop} {spawn : Spawn σ W A ε J} {pool pool' : Pool σ W A ε}
    (hspawn : ∀ s task job p s', spawn task job s = some (p, s') →
      p.Turns waits task turn (fun _ => turn) s s')
    (h : ∀ task, (pool.stage task).Turns waits task turn) (hstep : Pool.Step waits env spawn pool pool') :
    (env pool.shared pool'.shared ∨ turn pool.shared pool'.shared) ∧
      ∀ task, (pool'.stage task).Turns waits task turn := by
  have hafter {task : ℕ} {p : Program σ W A ε Unit} {s' : σ}
      (hp : p.Turns waits task turn (fun _ => turn) pool.shared s') :
      turn pool.shared (pool.after task (p.advance waits task s')).shared ∧
        ∀ other, ((pool.after task (p.advance waits task s')).stage other).Turns waits other turn := by
    obtain ⟨hturn, hstage⟩ := hp.advance
    refine ⟨hturn, fun other => ?_⟩
    by_cases hother : other = task
    · subst hother
      simpa only [Pool.after, Function.update_self] using hstage
    · simpa only [Pool.after, Function.update_of_ne hother] using h other
  cases hstep with
  | env henv => exact ⟨.inl henv, h⟩
  | @stay task w next choice s' hstage hresume =>
    have hthis := h task
    rw [hstage] at hthis
    exact ⟨.inr (hthis.1 choice _ _ hresume), h⟩
  | @turn task w next choice answer s' hstage hresume =>
    have hthis := h task
    rw [hstage] at hthis
    obtain ⟨hturn, hstages⟩ := hafter (hthis.2 choice _ answer _ hresume)
    exact ⟨.inr hturn, hstages⟩
  | @start task outcome job p s' hstage hstarted =>
    obtain ⟨hturn, hstages⟩ := hafter (hspawn _ task job p s' hstarted)
    exact ⟨.inr hturn, hstages⟩

/-- A pool reaches another one in steps which are all allowed. -/
def Pool.ReachesBy (waits : Waits σ W A ε C) (env : σ → σ → Prop) (spawn : Spawn σ W A ε J)
    (allowed : σ → σ → Prop) : Pool σ W A ε → Pool σ W A ε → Prop :=
  Relation.ReflTransGen fun pool pool' =>
    Pool.Step waits env spawn pool pool' ∧ allowed pool.shared pool'.shared

/-- Play a script whose moves are all allowed. -/
def Pool.playBy {I : Type} (waits : Waits σ W A ε C) (spawn : Spawn σ W A ε J) (react : I → σ → Option σ)
    (allowed : σ → σ → Bool) : List (Move I J C) → Pool σ W A ε → Option (Pool σ W A ε)
  | [], pool => some pool
  | move :: rest, pool => (pool.move waits spawn react move).bind fun next =>
      if allowed pool.shared next.shared then playBy waits spawn react allowed rest next else none

/-- A script whose moves are all allowed is a run of allowed steps. -/
theorem Pool.ReachesBy.of_play {I : Type} {env : σ → σ → Prop} {spawn : Spawn σ W A ε J} {react : I → σ → Option σ}
    {allowed : σ → σ → Prop} [DecidableRel allowed]
    (henv : ∀ input s s', react input s = some s' → env s s') {moves : List (Move I J C)}
    {pool pool' : Pool σ W A ε}
    (h : pool.playBy waits spawn react (fun s s' => decide (allowed s s')) moves = some pool') :
    ReachesBy waits env spawn allowed pool pool' := by
  induction moves generalizing pool with
  | nil =>
    cases h
    exact .refl
  | cons move rest ih =>
    obtain ⟨next, hmove, hrest⟩ := Option.bind_eq_some_iff.mp h
    split at hrest
    · next hallowed => exact .head ⟨.of_move henv hmove, of_decide_eq_true hallowed⟩ (ih hrest)
    · cases hrest

/-- What every step keeps holds over a run. -/
theorem Pool.ReachesBy.turned {env allowed : σ → σ → Prop} {spawn : Spawn σ W A ε J} {pool pool' : Pool σ W A ε}
    (hrun : Pool.ReachesBy waits env spawn allowed pool pool')
    (hspawn : ∀ s task job p s', spawn task job s = some (p, s') →
      p.Turns waits task turn (fun _ => turn) s s')
    (h : ∀ task, (pool.stage task).Turns waits task turn) {P : σ → Prop}
    (hkeep : ∀ s s', env s s' ∨ turn s s' → P s → P s') (hs : P pool.shared) :
    P pool'.shared ∧ ∀ task, (pool'.stage task).Turns waits task turn := by
  induction hrun with
  | refl => exact ⟨hs, h⟩
  | tail _ hstep ih =>
    obtain ⟨hturn, hstages⟩ := Pool.Step.turned hspawn ih.2 hstep.1
    exact ⟨hkeep _ _ hturn ih.1, hstages⟩

end Lms200.Coop
