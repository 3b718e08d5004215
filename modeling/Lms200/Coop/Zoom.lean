import Lms200.Coop.Logic

/-!
# Programs about a part of the state

A program about a part of a state is a program about the whole, which waits for more than the part
knows of. What is safe for the part is safe for the whole.
-/

namespace Lms200.Coop

variable {σ τ W V : Type} {A : W → Type} {B : V → Type} {ε C α : Type}

/-- A part of a state, which can be read and replaced. -/
structure Part (τ σ : Type) where
  get : τ → σ
  put : σ → τ → τ
  get_put : ∀ s t, get (put s t) = s

/-- A program about a part, as a program about the whole. -/
def Program.zoom (part : Part τ σ) : Program σ W A ε α → Program τ (W ⊕ V) (Sum.elim A B) ε α
  | ret a => ret a
  | raise e => raise e
  | get next => get fun t => (next (part.get t)).zoom part
  | set s next => get fun t => set (part.put s t) (next.zoom part)
  | wait w next => wait (.inl w) fun answer => (next answer).zoom part

/-- The waits of a part, and what else the whole waits for. -/
def Waits.zoom (part : Part τ σ) (waits : Waits σ W A ε C) (others : Waits τ V B ε C) :
    Waits τ (W ⊕ V) (Sum.elim A B) ε C where
  enter task
    | .inl w, t => ((waits.enter task w (part.get t)).1, part.put (waits.enter task w (part.get t)).2 t)
    | .inr v, t => others.enter task v t
  resume task
    | .inl w, choice, t => (waits.resume task w choice (part.get t)).map fun (answer, s) => (answer, part.put s t)
    | .inr v, choice, t => others.resume task v choice t

/-- A contract about a part. -/
def Contract.zoom (part : Part τ σ) (contract : Contract σ) : Contract τ where
  rely t t' := contract.rely (part.get t) (part.get t')
  guarantee t t' := contract.guarantee (part.get t) (part.get t')

variable {part : Part τ σ} {waits : Waits σ W A ε C} {others : Waits τ V B ε C} {task : ℕ}
  {contract : Contract σ}

/-- A suspended task of the part waits in the same way for the whole. -/
theorem Program.Suspended.zoom {w : W} {next : Except ε (A w) → σ → Prop} {t : τ}
    (h : Suspended waits task contract w next (part.get t)) :
    Suspended (waits.zoom part others) task (contract.zoom part) (.inl w)
      (fun answer t' => next answer (part.get t')) t := by
  obtain ⟨assertion, hnow, hrely, hstay, hanswer⟩ := h
  refine ⟨fun t => assertion (part.get t), hnow, fun _ _ => hrely _ _, ?_, ?_⟩
  · intro choice t t' ht hresume
    obtain ⟨⟨answer, s⟩, hturn, heq⟩ := Option.map_eq_some_iff.mp hresume
    obtain ⟨rfl, rfl⟩ := Prod.mk.inj heq
    have hafter := hstay choice _ s ht hturn
    change contract.guarantee _ (part.get (part.put s t)) ∧ assertion (part.get (part.put s t))
    rwa [part.get_put]
  · intro choice t answer t' ht hresume
    obtain ⟨⟨answer', s⟩, hturn, heq⟩ := Option.map_eq_some_iff.mp hresume
    obtain ⟨rfl, rfl⟩ := Prod.mk.inj heq
    have hafter := hanswer choice _ answer s ht hturn
    change contract.guarantee _ (part.get (part.put s t)) ∧ next answer (part.get (part.put s t))
    rwa [part.get_put]

/-- What is safe for the part is safe for the whole. -/
theorem Program.Safe.zoom {p : Program σ W A ε α} {post : Except ε α → σ → Prop} {t : τ}
    (h : p.Safe waits task contract post (part.get t)) :
    (p.zoom part).Safe (waits.zoom part others) task (contract.zoom part)
      (fun outcome t' => post outcome (part.get t')) t := by
  induction p generalizing t with
  | ret a => exact h
  | raise e => exact h
  | get next ih => exact ih (part.get t) h
  | set s next ih =>
    have hput := part.get_put s t
    refine ⟨?_, ih ?_⟩
    · change contract.guarantee (part.get t) (part.get (part.put s t))
      rw [hput]
      exact h.1
    · rw [hput]
      exact h.2
  | wait w next ih =>
    obtain ⟨hguarantee, hrest⟩ := h
    have hput := part.get_put (waits.enter task w (part.get t)).2 t
    have henter : (waits.zoom part others).enter task (.inl w) t =
        ((waits.enter task w (part.get t)).1, part.put (waits.enter task w (part.get t)).2 t) := rfl
    refine Reached.intro henter ?_ (fun a ha => ih a ?_) fun hnone => ?_
    · change contract.guarantee (part.get t) (part.get (part.put _ t))
      rwa [hput]
    · rw [ha] at hrest
      rwa [hput]
    · rw [hnone] at hrest
      rw [← hput] at hrest
      exact Suspended.mono (Suspended.zoom hrest) fun answer t' ht' => ih answer ht'

end Lms200.Coop
