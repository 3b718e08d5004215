import Lms200.Coop.Program

/-!
# Runs of cooperative programs

Against an environment which answers every wait at once, a program is a function of the state
and of whatever the environment keeps. Its run follows its structure.
-/

namespace Lms200.Coop.Program

variable {σ τ W : Type} {A : W → Type} {ε α β : Type}
  {answer : (w : W) → σ × τ → Except ε (A w) × σ × τ} {s : σ × τ}

@[simp] theorem run_pure (a : α) : (pure a : Program σ W A ε α).run answer s = (.ok a, s) := rfl

@[simp] theorem run_throw (e : ε) : (throw e : Program σ W A ε α).run answer s = (.error e, s) := rfl

/-- The value continues, an exception skips the rest. -/
theorem run_bind (p : Program σ W A ε α) (f : α → Program σ W A ε β) :
    (p >>= f).run answer s = match p.run answer s with
      | (.ok a, s') => (f a).run answer s'
      | (.error e, s') => (.error e, s') := by
  induction p generalizing s with
  | ret a => rfl
  | raise e => rfl
  | get next ih => exact ih s.1
  | set s' next ih => exact ih
  | wait w next ih => exact ih (answer w s).1

/-- Reading the outcome as a value never raises. -/
theorem run_attempt (p : Program σ W A ε α) :
    p.attempt.run answer s = (.ok (p.run answer s).1, (p.run answer s).2) := by
  induction p generalizing s with
  | ret a => rfl
  | raise e => rfl
  | get next ih => exact ih s.1
  | set s' next ih => exact ih
  | wait w next ih => exact ih (answer w s).1

@[simp] theorem run_ofExcept (outcome : Except ε α) :
    (ofExcept outcome : Program σ W A ε α).run answer s = (outcome, s) := by
  cases outcome <;> rfl

/-- A wait gives what the environment answers. -/
@[simp] theorem run_request (w : W) : (request w : Program σ W A ε (A w)).run answer s = answer w s :=
  run_ofExcept _

@[simp] theorem run_modify (f : σ → σ) :
    (modify f : Program σ W A ε Unit).run answer s = (.ok (), f s.1, s.2) := rfl

@[simp] theorem run_modify_bind (f : σ → σ) (next : Unit → Program σ W A ε α) :
    (modify f >>= next : Program σ W A ε α).run answer s = (next ()).run answer (f s.1, s.2) := rfl

@[simp] theorem run_get_bind (next : σ → Program σ W A ε α) :
    (MonadState.get >>= next : Program σ W A ε α).run answer s = (next s.1).run answer s := rfl

/-- A cleanup which only changes the state leaves the outcome. -/
theorem run_andFinally_modify (p : Program σ W A ε α) (f : σ → σ) :
    (p.andFinally (modify f)).run answer s =
      ((p.run answer s).1, f (p.run answer s).2.1, (p.run answer s).2.2) := by
  change (p.attempt >>= fun outcome => ((modify f : Program σ W A ε Unit) >>= fun _ =>
    ofExcept outcome)).run answer s = _
  rw [run_bind, run_attempt]
  exact run_ofExcept _

end Lms200.Coop.Program
