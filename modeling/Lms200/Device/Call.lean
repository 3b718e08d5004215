import Lms200.Device.Rules

/-!
# One call and the reader

A single coroutine, interleaved with the reader and the clock at every wait. `Meets` for a
contract which the reader keeps to is then a fact about every pool the call reaches.
-/

namespace Lms200

open Coop

/-- A pool of tasks of the device. -/
abbrev DevicePool := Pool Device Request Request.Answer Error

/-- No task is started besides the call. -/
def alone : Spawn Device Request Request.Answer Error Unit := fun _ _ _ => none

/-- What the reader and the clock do, of what is allowed. -/
def Reacts (allowed : Device → Input → Prop) (d d' : Device) : Prop :=
  ∃ input, allowed d input ∧ d' = d.react input

/-- Anything may be read at any time. -/
def anything (_ : Device) (_ : Input) : Prop := True

/-- A call, run up to its first suspension. -/
def Device.call (d : Device) (p : Action Unit) : DevicePool :=
  Pool.after ⟨d, fun _ => .done (.ok ())⟩ 0 (p.advance Device.waits 0 d)

/-- The call reaches a pool. -/
def Device.CallReaches (allowed : Device → Input → Prop) (d : Device) (p : Action Unit) :
    DevicePool → Prop :=
  Pool.Reaches Device.waits (Reacts allowed) alone (d.call p)

/-- Play a script for a call, with what the outside may do at each input. -/
def Device.played (react : Input → Device → Option Device) (d : Device) (p : Action Unit)
    (script : List (Move Input Unit Choice)) : Option DevicePool :=
  (d.call p).play Device.waits alone react script

/-- Anything may happen outside. -/
def reactAnyhow (input : Input) (d : Device) : Option Device := some (d.react input)

/-- A script which can be played is a run of the call. -/
theorem Device.CallReaches.of_played {allowed : Device → Input → Prop}
    {react : Input → Device → Option Device} {d : Device} {p : Action Unit}
    {script : List (Move Input Unit Choice)} {pool : DevicePool}
    (hreact : ∀ input d d', react input d = some d' → allowed d input ∧ d' = d.react input)
    (h : d.played react p script = some pool) : d.CallReaches allowed p pool :=
  Pool.Reaches.of_play (fun input d d' h => ⟨input, hreact input d d' h⟩) h

/-- What may happen anyhow is a step of the unrestricted environment. -/
theorem reactAnyhow_anything (input : Input) (d d' : Device) (h : reactAnyhow input d = some d') :
    anything d input ∧ d' = d.react input :=
  ⟨trivial, (Option.some.inj h).symm⟩

section Run

variable {allowed : Device → Input → Prop} {contract : Contract Device} {inv : Device → Prop}
  {post : Except Error Unit → Device → Prop}

/-- The contracts of a pool in which only the first task ever runs. -/
def callDiscipline (hguarantee : ∀ d d', contract.guarantee d d' → inv d → inv d')
    (hinv : ∀ d input, allowed d input → inv d → inv (d.react input))
    (hrely : ∀ d input, allowed d input → inv d → contract.rely d (d.react input))
    (hpost : ∀ outcome d d', post outcome d → contract.rely d d' → post outcome d') :
    Discipline Device.waits (Reacts allowed) alone where
  inv := inv
  contract
    | 0 => contract
    | _ + 1 => ⟨fun _ _ => True, fun _ _ => False⟩
  ended
    | 0 => post
    | _ + 1 => fun _ _ => True
  guarantee_inv task d d' h := match task with
    | 0 => hguarantee d d' h
    | _ + 1 => h.elim
  guarantee_rely task other d d' hne _ h := match task, other with
    | 0, 0 => absurd rfl hne
    | 0, _ + 1 => trivial
    | _ + 1, _ => h.elim
  env_inv := by
    rintro d _ ⟨input, hallowed, rfl⟩
    exact hinv d input hallowed
  env_rely := by
    rintro task d _ h ⟨input, hallowed, rfl⟩
    match task with
    | 0 => exact hrely d input hallowed h
    | _ + 1 => trivial
  ended_rely task outcome d d' h hd := match task with
    | 0 => hpost outcome d d' h hd
    | _ + 1 => trivial
  spawn_inv _ _ _ _ _ h := nomatch h
  spawn_rely _ _ _ _ _ _ _ _ h := nomatch h
  spawn_safe _ _ _ _ _ _ _ _ h := nomatch h

/-- Wherever the call gets, the invariant holds and the call owes what it has promised. -/
theorem Device.CallReaches.safe {d : Device} {p : Action Unit} {pool : DevicePool}
    (hrun : d.CallReaches allowed p pool) (h : Meets 0 contract p post d) (hd : inv d)
    (hguarantee : ∀ d d', contract.guarantee d d' → inv d → inv d')
    (hinv : ∀ d input, allowed d input → inv d → inv (d.react input))
    (hrely : ∀ d input, allowed d input → inv d → contract.rely d (d.react input))
    (hpost : ∀ outcome d d', post outcome d → contract.rely d d' → post outcome d') :
    inv pool.shared ∧ (pool.stage 0).Safe Device.waits 0 contract post pool.shared := by
  have hstart : (callDiscipline hguarantee hinv hrely hpost).Ok (d.call p) := by
    refine Discipline.Ok.after hd (fun other hother => ?_) h
    match other with
    | 0 => exact absurd rfl hother
    | _ + 1 => trivial
  obtain ⟨hshared, hstages⟩ := hstart.run hrun
  exact ⟨hshared, hstages 0⟩

end Run

end Lms200
