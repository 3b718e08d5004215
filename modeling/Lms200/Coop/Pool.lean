import Lms200.Coop.Logic
import Mathlib.Logic.Function.Basic
import Mathlib.Logic.Relation

/-!
# Pools of cooperative tasks

Tasks run one at a time, from one suspension to the next. Between their turns the environment
changes the state, and a task which has ended may be replaced by a new one.

A `Discipline` gives every task a contract such that what one guarantees is what the others
rely on, and a condition which a task establishes before it ends. Tasks which are safe for
their contracts then keep the shared invariant over every run.
-/

namespace Lms200.Coop

variable {σ W : Type} {A : W → Type} {ε C J α : Type}

/-- Where a task stands between its turns. -/
inductive Stage (σ W : Type) (A : W → Type) (ε α : Type) where
  | done (outcome : Except ε α)
  | waiting (w : W) (next : Except ε (A w) → Program σ W A ε α)

/-- The outcome of a task which has ended. -/
def Stage.outcome : Stage σ W A ε α → Option (Except ε α)
  | done outcome => some outcome
  | waiting _ _ => none

theorem Stage.outcome_eq_some {stage : Stage σ W A ε α} {outcome : Except ε α} :
    stage.outcome = some outcome ↔ stage = .done outcome := by
  cases stage <;> simp [Stage.outcome]

/-- The wait in which a task is suspended. -/
def Stage.wait : Stage σ W A ε α → Option W
  | done _ => none
  | waiting w _ => some w

theorem Stage.wait_eq_some {stage : Stage σ W A ε α} {w : W} :
    stage.wait = some w ↔ ∃ next, stage = .waiting w next := by
  cases stage with
  | done outcome => simp [Stage.wait]
  | waiting w' next =>
    refine ⟨fun h => ?_, ?_⟩
    · cases h
      exact ⟨next, rfl⟩
    · rintro ⟨next', h⟩
      cases h
      rfl

/-- Run up to the next suspension or to the end. -/
def Program.advance (waits : Waits σ W A ε C) (task : ℕ) :
    Program σ W A ε α → σ → Stage σ W A ε α × σ
  | ret a, s => (.done (.ok a), s)
  | raise e, s => (.done (.error e), s)
  | get next, s => (next s).advance waits task s
  | set s' next, _ => next.advance waits task s'
  | wait w next, s =>
    match (waits.enter task w s).1 with
    | some answer => (next answer).advance waits task (waits.enter task w s).2
    | none => (.waiting w next, (waits.enter task w s).2)

/-- A pool: the shared state and the stage of every task. -/
structure Pool (σ W : Type) (A : W → Type) (ε : Type) where
  shared : σ
  stage : ℕ → Stage σ W A ε Unit

/-- A task has taken a turn. -/
def Pool.after (pool : Pool σ W A ε) (task : ℕ) (turn : Stage σ W A ε Unit × σ) :
    Pool σ W A ε :=
  ⟨turn.2, Function.update pool.stage task turn.1⟩

/-- The program a job runs in a free slot, and the state it starts from, if it may start. -/
abbrev Spawn (σ W : Type) (A : W → Type) (ε J : Type) :=
  ℕ → J → σ → Option (Program σ W A ε Unit × σ)

/-- The steps of a pool: of the environment, a turn which leaves its task waiting, an answered
turn, and a new task in the place of one which has ended. -/
inductive Pool.Step (waits : Waits σ W A ε C) (env : σ → σ → Prop) (spawn : Spawn σ W A ε J) :
    Pool σ W A ε → Pool σ W A ε → Prop
  | env {pool s'} : env pool.shared s' → Step waits env spawn pool ⟨s', pool.stage⟩
  | stay {pool task w next choice s'} : pool.stage task = .waiting w next →
      waits.resume task w choice pool.shared = some (none, s') →
      Step waits env spawn pool ⟨s', pool.stage⟩
  | turn {pool task w next choice answer s'} : pool.stage task = .waiting w next →
      waits.resume task w choice pool.shared = some (some answer, s') →
      Step waits env spawn pool (pool.after task ((next answer).advance waits task s'))
  | start {pool task outcome job p s'} : pool.stage task = .done outcome →
      spawn task job pool.shared = some (p, s') →
      Step waits env spawn pool (pool.after task (p.advance waits task s'))

/-- A turn of one task. -/
inductive Pool.TurnOf (waits : Waits σ W A ε C) (task : ℕ) (pool : Pool σ W A ε) : Pool σ W A ε → Prop
  | stay {w next choice s'} : pool.stage task = .waiting w next →
      waits.resume task w choice pool.shared = some (none, s') →
      TurnOf waits task pool ⟨s', pool.stage⟩
  | turn {w next choice answer s'} : pool.stage task = .waiting w next →
      waits.resume task w choice pool.shared = some (some answer, s') →
      TurnOf waits task pool (pool.after task ((next answer).advance waits task s'))

/-- A pool reaches another one in finitely many steps. -/
def Pool.Reaches (waits : Waits σ W A ε C) (env : σ → σ → Prop) (spawn : Spawn σ W A ε J) :
    Pool σ W A ε → Pool σ W A ε → Prop :=
  Relation.ReflTransGen (Pool.Step waits env spawn)

/-- A move of a script: of the environment, a turn of a task, or the start of a job. -/
inductive Move (I J C : Type) where
  | outside (input : I)
  | turn (task : ℕ) (choice : C)
  | start (task : ℕ) (job : J)

section Scripts

variable {I : Type} {waits : Waits σ W A ε C} {env : σ → σ → Prop} {spawn : Spawn σ W A ε J}
  {react : I → σ → Option σ}

/-- Make one move, if it can be made. -/
def Pool.move (waits : Waits σ W A ε C) (spawn : Spawn σ W A ε J) (react : I → σ → Option σ)
    (pool : Pool σ W A ε) : Move I J C → Option (Pool σ W A ε)
  | .outside input => (react input pool.shared).map fun s' => ⟨s', pool.stage⟩
  | .turn task choice =>
    match pool.stage task with
    | .done _ => none
    | .waiting w next =>
      match waits.resume task w choice pool.shared with
      | none => none
      | some (none, s') => some ⟨s', pool.stage⟩
      | some (some answer, s') => some (pool.after task ((next answer).advance waits task s'))
  | .start task job =>
    match pool.stage task with
    | .done _ => (spawn task job pool.shared).map fun (p, s') =>
      pool.after task (p.advance waits task s')
    | .waiting _ _ => none

/-- Play a script. -/
def Pool.play (waits : Waits σ W A ε C) (spawn : Spawn σ W A ε J) (react : I → σ → Option σ) :
    List (Move I J C) → Pool σ W A ε → Option (Pool σ W A ε)
  | [], pool => some pool
  | move :: rest, pool => (pool.move waits spawn react move).bind (play waits spawn react rest)

/-- A turn of a script is a turn of its task. -/
theorem Pool.TurnOf.of_move {pool pool' : Pool σ W A ε} {task : ℕ} {choice : C}
    (h : pool.move waits spawn react (.turn task choice) = some pool') : TurnOf waits task pool pool' := by
  unfold Pool.move at h
  dsimp only at h
  split at h
  · cases h
  · rename_i w next hstage
    split at h
    · cases h
    · rename_i s' hresume
      cases h
      exact .stay hstage hresume
    · rename_i answer s' hresume
      cases h
      exact .turn hstage hresume

/-- A turn of a task is a step. -/
theorem Pool.TurnOf.step {pool pool' : Pool σ W A ε} {task : ℕ} (h : TurnOf waits task pool pool') :
    Step waits env spawn pool pool' := by
  cases h with
  | stay hstage hresume => exact .stay hstage hresume
  | turn hstage hresume => exact .turn hstage hresume

/-- A start of a script fills a slot in which nothing runs. -/
theorem Pool.start_of_move {pool pool' : Pool σ W A ε} {task : ℕ} {job : J}
    (h : pool.move waits spawn react (.start task job) = some pool') :
    ∃ outcome p s', pool.stage task = .done outcome ∧ spawn task job pool.shared = some (p, s') ∧
      pool' = pool.after task (p.advance waits task s') := by
  unfold Pool.move at h
  dsimp only at h
  split at h
  · rename_i outcome hstage
    obtain ⟨⟨p, s'⟩, hspawn, rfl⟩ := Option.map_eq_some_iff.mp h
    exact ⟨outcome, p, s', hstage, hspawn, rfl⟩
  · cases h

/-- A move is a step. -/
theorem Pool.Step.of_move (henv : ∀ input s s', react input s = some s' → env s s') {pool pool' : Pool σ W A ε}
    {move : Move I J C} (h : pool.move waits spawn react move = some pool') :
    Step waits env spawn pool pool' := by
  cases move with
  | outside input =>
    obtain ⟨s', hreact, rfl⟩ := Option.map_eq_some_iff.mp h
    exact .env (henv input _ _ hreact)
  | turn task choice => exact (TurnOf.of_move h).step
  | start task job =>
    obtain ⟨outcome, p, s', hstage, hspawn, rfl⟩ := Pool.start_of_move h
    exact .start hstage hspawn

/-- A script which can be played is a run. -/
theorem Pool.Reaches.of_play (henv : ∀ input s s', react input s = some s' → env s s')
    {moves : List (Move I J C)} {pool pool' : Pool σ W A ε}
    (h : pool.play waits spawn react moves = some pool') : Reaches waits env spawn pool pool' := by
  induction moves generalizing pool with
  | nil =>
    cases h
    exact .refl
  | cons move rest ih =>
    obtain ⟨next, hmove, hrest⟩ := Option.bind_eq_some_iff.mp h
    exact .head (.of_move henv hmove) (ih hrest)

end Scripts

section Stages

variable {waits : Waits σ W A ε C} {task : ℕ} {contract : Contract σ}

/-- What a task still owes at a stage. -/
def Stage.Safe (waits : Waits σ W A ε C) (task : ℕ) (contract : Contract σ)
    (post : Except ε α → σ → Prop) : Stage σ W A ε α → σ → Prop
  | done outcome, s => post outcome s
  | waiting w next, s => Program.Suspended waits task contract w
      (fun answer => (next answer).Safe waits task contract post) s

/-- The others do not disturb a task between its turns. -/
theorem Stage.Safe.rely {post : Except ε α → σ → Prop} {stage : Stage σ W A ε α} {s s' : σ}
    (h : stage.Safe waits task contract post s) (hrely : contract.rely s s')
    (hpost : ∀ outcome, post outcome s → post outcome s') :
    stage.Safe waits task contract post s' := by
  cases stage with
  | done outcome => exact hpost outcome h
  | waiting w next =>
    obtain ⟨assertion, hnow, hstable, hturns⟩ := h
    exact ⟨assertion, hstable s s' hnow hrely, hstable, hturns⟩

/-- A turn takes guaranteed steps, and leaves the task with what it still owes. -/
theorem Program.Safe.advance {p : Program σ W A ε α} {post : Except ε α → σ → Prop} {s : σ}
    (h : p.Safe waits task contract post s) :
    Relation.ReflTransGen contract.guarantee s (p.advance waits task s).2 ∧
      (p.advance waits task s).1.Safe waits task contract post (p.advance waits task s).2 := by
  induction p generalizing s with
  | ret a => exact ⟨.refl, h⟩
  | raise e => exact ⟨.refl, h⟩
  | get next ih => exact ih s h
  | set s' next ih =>
    obtain ⟨hsteps, hsafe⟩ := ih h.2
    exact ⟨.head h.1 hsteps, hsafe⟩
  | wait w next ih =>
    obtain ⟨hguarantee, hrest⟩ := h
    unfold Program.advance
    cases hanswer : (waits.enter task w s).1 with
    | some answer =>
      rw [hanswer] at hrest
      obtain ⟨hsteps, hsafe⟩ := ih answer hrest
      exact ⟨.head hguarantee hsteps, hsafe⟩
    | none =>
      rw [hanswer] at hrest
      exact ⟨.single hguarantee, hrest⟩

end Stages

/-- Contracts which fit together, over a shared invariant. -/
structure Discipline (waits : Waits σ W A ε C) (env : σ → σ → Prop)
    (spawn : Spawn σ W A ε J) where
  inv : σ → Prop
  contract : ℕ → Contract σ
  ended : ℕ → Except ε Unit → σ → Prop
  guarantee_inv : ∀ task s s', (contract task).guarantee s s' → inv s → inv s'
  guarantee_rely : ∀ task other s s', other ≠ task → inv s → (contract task).guarantee s s' →
    (contract other).rely s s'
  env_inv : ∀ s s', env s s' → inv s → inv s'
  env_rely : ∀ task s s', inv s → env s s' → (contract task).rely s s'
  ended_rely : ∀ task outcome s s', ended task outcome s → (contract task).rely s s' →
    ended task outcome s'
  spawn_inv : ∀ s task job p s', spawn task job s = some (p, s') → inv s → inv s'
  spawn_rely : ∀ s task job p s' other, other ≠ task → inv s → spawn task job s = some (p, s') →
    (contract other).rely s s'
  spawn_safe : ∀ s task job p s' outcome, inv s → ended task outcome s →
    spawn task job s = some (p, s') → p.Safe waits task (contract task) (ended task) s'

namespace Discipline

variable {waits : Waits σ W A ε C} {env : σ → σ → Prop} {spawn : Spawn σ W A ε J}
  (d : Discipline waits env spawn)

/-- The invariant holds and every task is where its contract allows. -/
def Ok (pool : Pool σ W A ε) : Prop :=
  d.inv pool.shared ∧ ∀ task, (pool.stage task).Safe waits task (d.contract task)
    (d.ended task) pool.shared

variable {d}

/-- Guaranteed steps of one task keep the invariant, and what the others still owe. -/
theorem guaranteed {task : ℕ} {s s' : σ}
    (h : Relation.ReflTransGen (d.contract task).guarantee s s') (hinv : d.inv s) :
    d.inv s' ∧ ∀ other stage, other ≠ task →
      Stage.Safe waits other (d.contract other) (d.ended other) stage s →
      Stage.Safe waits other (d.contract other) (d.ended other) stage s' := by
  induction h with
  | refl => exact ⟨hinv, fun _ _ _ hstage => hstage⟩
  | tail _ hstep ih =>
    obtain ⟨hinv', hothers⟩ := ih
    refine ⟨d.guarantee_inv _ _ _ hstep hinv', fun other stage hne hstage => ?_⟩
    have hrely := d.guarantee_rely task other _ _ hne hinv' hstep
    exact (hothers other stage hne hstage).rely hrely
      fun outcome hended => d.ended_rely _ _ _ _ hended hrely

/-- A turn which ends safely leaves the pool in order. -/
theorem Ok.after {pool : Pool σ W A ε} {task : ℕ} {p : Program σ W A ε Unit} {s' : σ}
    (hinv : d.inv s') (hothers : ∀ other, other ≠ task → (pool.stage other).Safe waits other
      (d.contract other) (d.ended other) s')
    (hsafe : p.Safe waits task (d.contract task) (d.ended task) s') :
    d.Ok (pool.after task (p.advance waits task s')) := by
  obtain ⟨hsteps, hstage⟩ := hsafe.advance
  obtain ⟨hinv', hkeep⟩ := guaranteed hsteps hinv
  refine ⟨hinv', fun other => ?_⟩
  by_cases hother : other = task
  · subst hother
    simpa only [Pool.after, Function.update_self] using hstage
  · simp only [Pool.after, Function.update_of_ne hother]
    exact hkeep other _ hother (hothers other hother)

/-- Every step leaves the pool in order. -/
theorem Ok.step {pool pool' : Pool σ W A ε} (h : d.Ok pool)
    (hstep : Pool.Step waits env spawn pool pool') : d.Ok pool' := by
  obtain ⟨hinv, htasks⟩ := h
  cases hstep with
  | env henv =>
    refine ⟨d.env_inv _ _ henv hinv, fun task => ?_⟩
    have hrely := d.env_rely task _ _ hinv henv
    exact (htasks task).rely hrely fun outcome hended => d.ended_rely _ _ _ _ hended hrely
  | @stay task w next choice s' hstage hresume =>
    have hthis := htasks task
    rw [hstage] at hthis
    obtain ⟨assertion, hnow, hstable, hstay, hanswer⟩ := hthis
    obtain ⟨hguarantee, hlater⟩ := hstay choice _ _ hnow hresume
    obtain ⟨hinv', hkeep⟩ := guaranteed (.single hguarantee) hinv
    refine ⟨hinv', fun other => ?_⟩
    by_cases hother : other = task
    · subst hother
      rw [hstage]
      exact ⟨assertion, hlater, hstable, hstay, hanswer⟩
    · exact hkeep other _ hother (htasks other)
  | @turn task w next choice answer s' hstage hresume =>
    have hthis := htasks task
    rw [hstage] at hthis
    obtain ⟨assertion, hnow, -, -, hanswer⟩ := hthis
    obtain ⟨hguarantee, hsafe⟩ := hanswer choice _ _ _ hnow hresume
    obtain ⟨hinv', hkeep⟩ := guaranteed (.single hguarantee) hinv
    exact Ok.after hinv' (fun other hother => hkeep other _ hother (htasks other)) hsafe
  | @start task outcome job p s' hstage hspawn =>
    have hthis := htasks task
    rw [hstage] at hthis
    refine Ok.after (d.spawn_inv _ _ _ _ _ hspawn hinv) (fun other hother => ?_)
      (d.spawn_safe _ _ _ _ _ outcome hinv hthis hspawn)
    have hrely := d.spawn_rely _ _ _ _ _ other hother hinv hspawn
    exact (htasks other).rely hrely fun outcome hended => d.ended_rely _ _ _ _ hended hrely

/-- A turn of a task takes steps which the task guarantees. -/
theorem Ok.turn_guaranteed {pool pool' : Pool σ W A ε} (h : d.Ok pool) {task : ℕ}
    (hturn : pool.TurnOf waits task pool') :
    Relation.ReflTransGen (d.contract task).guarantee pool.shared pool'.shared := by
  have hthis := h.2 task
  cases hturn with
  | @stay w next choice s' hstage hresume =>
    rw [hstage] at hthis
    obtain ⟨assertion, hnow, -, hstay, -⟩ := hthis
    exact .single (hstay choice _ _ hnow hresume).1
  | @turn w next choice answer s' hstage hresume =>
    rw [hstage] at hthis
    obtain ⟨assertion, hnow, -, -, hanswer⟩ := hthis
    obtain ⟨hguarantee, hsafe⟩ := hanswer choice _ _ _ hnow hresume
    exact .head hguarantee hsafe.advance.1

/-- Every run leaves the pool in order. -/
theorem Ok.run {pool pool' : Pool σ W A ε} (h : d.Ok pool)
    (hrun : Pool.Reaches waits env spawn pool pool') : d.Ok pool' := by
  induction hrun with
  | refl => exact h
  | tail _ hstep ih => exact ih.step hstep

/-- Guaranteed steps of one task keep what another relies on. -/
theorem guaranteed_keep {task other : ℕ} {K : σ → Prop} {s s' : σ} (hother : other ≠ task)
    (h : Relation.ReflTransGen (d.contract task).guarantee s s') (hinv : d.inv s)
    (hrely : ∀ s s', d.inv s → (d.contract other).rely s s' → K s → K s') (hs : K s) : K s' := by
  induction h with
  | refl => exact hs
  | tail hsteps hstep ih =>
    have hinv' := (guaranteed hsteps hinv).1
    exact hrely _ _ hinv' (d.guarantee_rely task other _ _ hother hinv' hstep) ih

/-- Every suspended task is known to have entered its wait. -/
def Entered (K : ℕ → W → σ → Prop) (pool : Pool σ W A ε) : Prop :=
  ∀ task w next, pool.stage task = .waiting w next → K task w pool.shared

end Discipline

/-- A task which is suspended after its turn has just entered its wait. -/
theorem Program.advance_entered {waits : Waits σ W A ε C} {task : ℕ} {K : W → σ → Prop}
    (henter : ∀ w s s', waits.enter task w s = (none, s') → K w s') {p : Program σ W A ε α} {s s' : σ}
    {w : W} {next : Except ε (A w) → Program σ W A ε α}
    (h : p.advance waits task s = (.waiting w next, s')) : K w s' := by
  induction p generalizing s with
  | ret a => cases h
  | raise e => cases h
  | get next ih => exact ih s h
  | set s' next ih => exact ih h
  | wait w next ih =>
    unfold Program.advance at h
    cases hanswer : (waits.enter task w s).1 with
    | some answer =>
      rw [hanswer] at h
      exact ih answer h
    | none =>
      rw [hanswer] at h
      cases h
      exact henter w s _ (Prod.ext hanswer rfl)

namespace Discipline

variable {waits : Waits σ W A ε C} {env : σ → σ → Prop} {spawn : Spawn σ W A ε J}
  {d : Discipline waits env spawn}

/-- What a task knows from entering a wait it knows until it goes on. -/
theorem Entered.run {K : ℕ → W → σ → Prop}
    (henter : ∀ task w s s', waits.enter task w s = (none, s') → K task w s')
    (hstay : ∀ task w choice s s', K task w s → waits.resume task w choice s = some (none, s') →
      K task w s')
    (hrely : ∀ task w s s', d.inv s → (d.contract task).rely s s' → K task w s → K task w s')
    {pool pool' : Pool σ W A ε} (hok : d.Ok pool) (h : Entered K pool)
    (hrun : Pool.Reaches waits env spawn pool pool') : Entered K pool' := by
  have hafter : ∀ {pool : Pool σ W A ε} {task : ℕ} {p : Program σ W A ε Unit} {s' : σ}, d.inv s' →
      (∀ other w next, other ≠ task → pool.stage other = .waiting w next → K other w s') →
      p.Safe waits task (d.contract task) (d.ended task) s' →
      Entered K (pool.after task (p.advance waits task s')) := by
    intro pool task p s' hinv hothers hsafe other w next hstage
    by_cases hother : other = task
    · subst hother
      simp only [Pool.after, Function.update_self] at hstage
      exact Program.advance_entered (henter other) (Prod.ext hstage rfl)
    · simp only [Pool.after, Function.update_of_ne hother] at hstage
      exact guaranteed_keep hother hsafe.advance.1 hinv (hrely other w) (hothers other w next hother hstage)
  induction hrun with
  | refl => exact h
  | tail hsteps hstep ih =>
    obtain ⟨hinv, htasks⟩ := hok.run hsteps
    cases hstep with
    | env henv =>
      exact fun task w next hstage =>
        hrely task w _ _ hinv (d.env_rely task _ _ hinv henv) (ih task w next hstage)
    | @stay task w next choice s' hstage hresume =>
      have hthis := htasks task
      rw [hstage] at hthis
      obtain ⟨assertion, hnow, -, hturn, -⟩ := hthis
      intro other w' next' hstage'
      by_cases hother : other = task
      · subst hother
        obtain ⟨rfl, -⟩ := Stage.waiting.inj (hstage.symm.trans hstage')
        exact hstay _ _ _ _ _ (ih _ _ _ hstage) hresume
      · exact hrely other w' _ _ hinv
          (d.guarantee_rely task other _ _ hother hinv (hturn choice _ _ hnow hresume).1)
          (ih other w' next' hstage')
    | @turn task w next choice answer s' hstage hresume =>
      have hthis := htasks task
      rw [hstage] at hthis
      obtain ⟨assertion, hnow, -, -, hanswer⟩ := hthis
      obtain ⟨hguarantee, hsafe⟩ := hanswer choice _ _ _ hnow hresume
      refine hafter (d.guarantee_inv _ _ _ hguarantee hinv) (fun other w' next' hother hstage' => ?_) hsafe
      exact hrely other w' _ _ hinv (d.guarantee_rely task other _ _ hother hinv hguarantee)
        (ih other w' next' hstage')
    | @start task outcome job p s' hstage hspawn =>
      have hthis := htasks task
      rw [hstage] at hthis
      refine hafter (d.spawn_inv _ _ _ _ _ hspawn hinv) (fun other w' next' hother hstage' => ?_)
        (d.spawn_safe _ _ _ _ _ outcome hinv hthis hspawn)
      exact hrely other w' _ _ hinv (d.spawn_rely _ _ _ _ _ other hother hinv hspawn)
        (ih other w' next' hstage')

end Discipline

end Lms200.Coop
