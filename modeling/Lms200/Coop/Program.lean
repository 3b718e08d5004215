import Mathlib.Data.Nat.Notation

/-!
# Cooperative programs

Programs of a cooperative scheduler. Between two waits a program reads and writes the shared
state without interruption; at a wait every other task may run before it is answered. An
answer is a value or an exception, and an exception leaves the state as it is.

Loops which may wait forever are no programs of this type. A wait whose answer takes several
turns stands for them.
-/

namespace Lms200.Coop

/-- A program over a shared state, the waits it makes and the exceptions it raises. -/
inductive Program (σ W : Type) (A : W → Type) (ε α : Type) where
  | ret (a : α)
  | raise (e : ε)
  | get (next : σ → Program σ W A ε α)
  | set (s : σ) (next : Program σ W A ε α)
  | wait (w : W) (next : Except ε (A w) → Program σ W A ε α)

namespace Program

variable {σ W : Type} {A : W → Type} {ε α β : Type}

/-- Continue with the value of a program. -/
def bind : Program σ W A ε α → (α → Program σ W A ε β) → Program σ W A ε β
  | ret a, f => f a
  | raise e, _ => raise e
  | get next, f => get fun s => (next s).bind f
  | set s next, f => set s (next.bind f)
  | wait w next, f => wait w fun answer => (next answer).bind f

/-- The outcome of a program as a value. -/
def attempt : Program σ W A ε α → Program σ W A ε (Except ε α)
  | ret a => ret (.ok a)
  | raise e => ret (.error e)
  | get next => get fun s => (next s).attempt
  | set s next => set s next.attempt
  | wait w next => wait w fun answer => (next answer).attempt

/-- An outcome as a program. -/
def ofExcept : Except ε α → Program σ W A ε α
  | .ok a => ret a
  | .error e => raise e

instance : Monad (Program σ W A ε) where
  pure := ret
  bind := bind

instance : MonadStateOf σ (Program σ W A ε) where
  get := get ret
  set s := set s (ret ())
  modifyGet f := get fun s => set (f s).2 (ret (f s).1)

instance : MonadExceptOf ε (Program σ W A ε) where
  throw := raise
  tryCatch p handler := p.attempt.bind fun
    | .ok a => ret a
    | .error e => handler e

/-- Wait, and raise the exception which answers. -/
def request (w : W) : Program σ W A ε (A w) := wait w ofExcept

/-- Run the cleanup after a program, whatever its outcome. -/
def andFinally (p : Program σ W A ε α) (cleanup : Program σ W A ε Unit) : Program σ W A ε α :=
  p.attempt.bind fun outcome => cleanup.bind fun _ => ofExcept outcome

/-- Run to the end against an environment which answers every wait at once. -/
def run {τ : Type} (answer : (w : W) → σ × τ → Except ε (A w) × σ × τ) :
    Program σ W A ε α → σ × τ → Except ε α × σ × τ
  | ret a, s => (.ok a, s)
  | raise e, s => (.error e, s)
  | get next, s => (next s.1).run answer s
  | set s' next, s => next.run answer (s', s.2)
  | wait w next, s => (next (answer w s).1).run answer (answer w s).2

end Program

end Lms200.Coop
