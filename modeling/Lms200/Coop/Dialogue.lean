import Lms200.Coop.Run

/-!
# Programs in dialogue with an environment

A program alone, whose every wait is a call which the environment answers as it likes: with a
value or an exception, depending on all that was said before. The history of a run lists the
exchanges, the latest first, each with the state in which the program made its call.

`Holds` is the guarantee of a program against every environment. Each call has to be allowed in
the state and after the history it is made with, and the outcome has to satisfy the
postcondition with the state and the history it is reached with.
-/

namespace Lms200.Coop

variable {σ W : Type} {A : W → Type} {ε α β : Type}

/-- One call, with the state it is made in, and its answer. -/
structure Exchange (σ W : Type) (A : W → Type) (ε : Type) where
  state : σ
  call : W
  answer : Except ε (A call)

/-- What has been said, the latest exchange first. -/
abbrev History (σ W : Type) (A : W → Type) (ε : Type) := List (Exchange σ W A ε)

/-- An environment answers each call, given the history before it. -/
abbrev Oracle (σ W : Type) (A : W → Type) (ε : Type) := History σ W A ε → (w : W) → Except ε (A w)

/-- Every call of a history was allowed when it was made. -/
def Lawful (may : σ → History σ W A ε → W → Prop) (h : History σ W A ε) : Prop :=
  ∀ x past, x :: past <:+ h → may x.state past x.call

theorem Lawful.nil {may : σ → History σ W A ε → W → Prop} : Lawful may ([] : History σ W A ε) := by
  intro x past hsuffix
  exact absurd (List.suffix_nil.mp hsuffix) (List.cons_ne_nil _ _)

/-- A lawful history goes on with an allowed call. -/
theorem Lawful.cons {may : σ → History σ W A ε → W → Prop} {h : History σ W A ε} (hlawful : Lawful may h)
    {s : σ} {w : W} (hmay : may s h w) (answer : Except ε (A w)) : Lawful may (⟨s, w, answer⟩ :: h) := by
  intro x past hsuffix
  rcases List.suffix_cons_iff.mp hsuffix with heq | hearlier
  · obtain ⟨rfl, rfl⟩ := List.cons.inj heq
    exact hmay
  · exact hlawful x past hearlier

/-- A call was answered with a value, after a past of which a property holds. -/
def Told (w : W) (a : A w) (before : History σ W A ε → Prop) (h : History σ W A ε) : Prop :=
  ∃ s past, ⟨s, w, .ok a⟩ :: past <:+ h ∧ before past

theorem Told.head {s : σ} {w : W} {a : A w} {before : History σ W A ε → Prop} {h : History σ W A ε}
    (hbefore : before h) : Told w a before (⟨s, w, .ok a⟩ :: h) :=
  ⟨s, h, List.suffix_refl _, hbefore⟩

/-- What was said stays said. -/
theorem Told.mono {w : W} {a : A w} {before : History σ W A ε → Prop} {h h' : History σ W A ε}
    (htold : Told w a before h) (hsuffix : h <:+ h') : Told w a before h' := by
  obtain ⟨s, past, hpast, hbefore⟩ := htold
  exact ⟨s, past, hpast.trans hsuffix, hbefore⟩

/-- A property of the past which stays true is true now. -/
theorem Told.before {w : W} {a : A w} {before : History σ W A ε → Prop} {h : History σ W A ε}
    (htold : Told w a before h) (hmono : ∀ past, before past → past <:+ h → before h) : before h := by
  obtain ⟨s, past, hpast, hbefore⟩ := htold
  exact hmono past hbefore ((List.suffix_cons _ _).trans hpast)

namespace Program

/-- Run against an environment, keeping the history. -/
def converse (oracle : Oracle σ W A ε) (p : Program σ W A ε α) (s : σ) (h : History σ W A ε) :
    Except ε α × σ × History σ W A ε :=
  p.run (fun w sh => (oracle sh.2 w, sh.1, ⟨sh.1, w, oracle sh.2 w⟩ :: sh.2)) (s, h)

/-- The guarantee of a program whatever the environment answers. -/
def Holds (may : σ → History σ W A ε → W → Prop) :
    Program σ W A ε α → (Except ε α → σ → History σ W A ε → Prop) → σ → History σ W A ε → Prop
  | ret a, post, s, h => post (.ok a) s h
  | raise e, post, s, h => post (.error e) s h
  | get next, post, s, h => (next s).Holds may post s h
  | set s' next, post, _, h => next.Holds may post s' h
  | wait w next, post, s, h => may s h w ∧ ∀ answer, (next answer).Holds may post s (⟨s, w, answer⟩ :: h)

variable {may : σ → History σ W A ε → W → Prop} {post : Except ε α → σ → History σ W A ε → Prop} {s : σ}
  {h : History σ W A ε}

/-- A guarantee is met by every run. -/
theorem Holds.converse {p : Program σ W A ε α} (hp : p.Holds may post s h) (hlawful : Lawful may h)
    (oracle : Oracle σ W A ε) :
    let r := p.converse oracle s h
    Lawful may r.2.2 ∧ post r.1 r.2.1 r.2.2 := by
  induction p generalizing s h with
  | ret a => exact ⟨hlawful, hp⟩
  | raise e => exact ⟨hlawful, hp⟩
  | get next ih => exact ih s hp hlawful
  | set s' next ih => exact ih hp hlawful
  | wait w next ih => exact ih _ (hp.2 _) (hlawful.cons hp.1 _)

theorem Holds.mono {p : Program σ W A ε α} {post' : Except ε α → σ → History σ W A ε → Prop}
    (hp : p.Holds may post s h) (himp : ∀ r s h, post r s h → post' r s h) : p.Holds may post' s h := by
  induction p generalizing s h with
  | ret a => exact himp _ _ _ hp
  | raise e => exact himp _ _ _ hp
  | get next ih => exact ih s hp
  | set s' next ih => exact ih hp
  | wait w next ih => exact ⟨hp.1, fun answer => ih answer (hp.2 answer)⟩

@[simp] theorem holds_pure (a : α) :
    (pure a : Program σ W A ε α).Holds may post s h ↔ post (.ok a) s h := Iff.rfl

@[simp] theorem holds_throw (e : ε) :
    (throw e : Program σ W A ε α).Holds may post s h ↔ post (.error e) s h := Iff.rfl

/-- The value continues, an exception skips the rest. -/
@[simp] theorem holds_bind (p : Program σ W A ε α) (f : α → Program σ W A ε β)
    {post : Except ε β → σ → History σ W A ε → Prop} :
    (p >>= f).Holds may post s h ↔ p.Holds may (fun r s h => match r with
      | .ok a => (f a).Holds may post s h
      | .error e => post (.error e) s h) s h := by
  induction p generalizing s h with
  | ret a => exact Iff.rfl
  | raise e => exact Iff.rfl
  | get next ih => exact ih s
  | set s' next ih => exact ih
  | wait w next ih => exact and_congr_right fun _ => forall_congr' fun answer => ih answer

theorem holds_attempt (p : Program σ W A ε α) {post : Except ε (Except ε α) → σ → History σ W A ε → Prop} :
    p.attempt.Holds may post s h ↔ p.Holds may (fun r s h => post (.ok r) s h) s h := by
  induction p generalizing s h with
  | ret a => exact Iff.rfl
  | raise e => exact Iff.rfl
  | get next ih => exact ih s
  | set s' next ih => exact ih
  | wait w next ih => exact and_congr_right fun _ => forall_congr' fun answer => ih answer

@[simp] theorem holds_ofExcept (outcome : Except ε α) :
    (ofExcept outcome : Program σ W A ε α).Holds may post s h ↔ post outcome s h := by
  cases outcome <;> exact Iff.rfl

/-- A call has to be allowed, and any answer may follow. -/
@[simp] theorem holds_request (w : W) {post : Except ε (A w) → σ → History σ W A ε → Prop} :
    (request w : Program σ W A ε (A w)).Holds may post s h ↔
      may s h w ∧ ∀ answer, post answer s (⟨s, w, answer⟩ :: h) := by
  simp only [request, Holds, holds_ofExcept]

@[simp] theorem holds_get {post : Except ε σ → σ → History σ W A ε → Prop} :
    (MonadState.get : Program σ W A ε σ).Holds may post s h ↔ post (.ok s) s h := Iff.rfl

@[simp] theorem holds_modify (f : σ → σ) {post : Except ε PUnit → σ → History σ W A ε → Prop} :
    (modify f : Program σ W A ε PUnit).Holds may post s h ↔ post (.ok ()) (f s) h := Iff.rfl

/-- The handler starts from the state and the history of the exception. -/
@[simp] theorem holds_tryCatch (p : Program σ W A ε α) (handler : ε → Program σ W A ε α) :
    (tryCatch p handler).Holds may post s h ↔ p.Holds may (fun r s h => match r with
      | .ok a => post (.ok a) s h
      | .error e => (handler e).Holds may post s h) s h := by
  refine Iff.trans (holds_bind p.attempt _) ((holds_attempt p).trans (iff_of_eq ?_))
  congr 1
  funext r s h
  cases r <;> rfl

/-- The cleanup runs after every outcome; its own exception replaces the outcome. -/
@[simp] theorem holds_andFinally (p : Program σ W A ε α) (cleanup : Program σ W A ε Unit) :
    (p.andFinally cleanup).Holds may post s h ↔ p.Holds may (fun outcome s h =>
      cleanup.Holds may (fun r s h => post (r.bind fun _ => outcome) s h) s h) s h := by
  refine Iff.trans (holds_bind p.attempt _) ((holds_attempt p).trans (iff_of_eq ?_))
  congr 1
  funext outcome s h
  refine propext ((holds_bind cleanup _).trans (iff_of_eq ?_))
  congr 1
  funext r s h
  cases r with
  | ok _ => exact propext (holds_ofExcept outcome)
  | error e => rfl

@[simp] theorem holds_ite {c : Prop} [Decidable c] (p q : Program σ W A ε α) :
    (if c then p else q).Holds may post s h ↔
      (c → p.Holds may post s h) ∧ (¬ c → q.Holds may post s h) := by
  by_cases hc : c <;> simp [hc]

/-- A program goes on from what its first part guarantees. -/
theorem Holds.seq {p : Program σ W A ε α} {f : α → Program σ W A ε β}
    {post : Except ε β → σ → History σ W A ε → Prop}
    {middle : Except ε α → σ → History σ W A ε → Prop} (hp : p.Holds may middle s h)
    (herror : ∀ e s h, middle (.error e) s h → post (.error e) s h)
    (hok : ∀ a s h, middle (.ok a) s h → (f a).Holds may post s h) :
    (p >>= f).Holds may post s h := by
  refine (holds_bind p f).mpr (hp.mono fun r s h hr => ?_)
  cases r with
  | ok a => exact hok a s h hr
  | error e => exact herror e s h hr

/-- A program goes on from an assertion about the value of its first part. -/
theorem Holds.bind {p : Program σ W A ε α} {f : α → Program σ W A ε β}
    {post : Except ε β → σ → History σ W A ε → Prop} (middle : α → σ → History σ W A ε → Prop)
    (hp : p.Holds may (fun r s h => match r with
      | .ok a => middle a s h
      | .error e => post (.error e) s h) s h)
    (hf : ∀ a s h, middle a s h → (f a).Holds may post s h) : (p >>= f).Holds may post s h :=
  hp.seq (fun _ _ _ hr => hr) hf

/-- A call and what follows it. -/
theorem holds_request_bind {w : W} {f : A w → Program σ W A ε β}
    {post : Except ε β → σ → History σ W A ε → Prop} :
    (request w >>= f).Holds may post s h ↔ may s h w ∧
      (∀ e, post (.error e) s (⟨s, w, .error e⟩ :: h)) ∧
      ∀ a, (f a).Holds may post s (⟨s, w, .ok a⟩ :: h) := by
  rw [holds_bind, holds_request]
  refine and_congr_right fun _ => ⟨fun hall => ⟨fun e => hall (.error e), fun a => hall (.ok a)⟩, ?_⟩
  rintro ⟨herror, hok⟩ (e | a)
  · exact herror e
  · exact hok a

@[simp] theorem holds_get_bind {f : σ → Program σ W A ε β}
    {post : Except ε β → σ → History σ W A ε → Prop} :
    ((MonadState.get : Program σ W A ε σ) >>= f).Holds may post s h ↔ (f s).Holds may post s h :=
  Iff.rfl

@[simp] theorem holds_modify_bind {g : σ → σ} {f : PUnit → Program σ W A ε β}
    {post : Except ε β → σ → History σ W A ε → Prop} :
    ((modify g : Program σ W A ε PUnit) >>= f).Holds may post s h ↔ (f ()).Holds may post (g s) h :=
  Iff.rfl

/-- An invariant survives every call of a kind, whatever the answer. -/
def Survives (kind : W → Bool) (invariant : σ → History σ W A ε → Prop) : Prop :=
  ∀ ⦃s s' h⦄ ⦃w : W⦄ (answer : Except ε (A w)), kind w = true →
    invariant s h → invariant s (⟨s', w, answer⟩ :: h)

/-- A call keeps an invariant which survives it. -/
theorem Survives.bind {kind : W → Bool} {invariant : σ → History σ W A ε → Prop}
    (hinv : Survives kind invariant) {w : W} {f : A w → Program σ W A ε β}
    {post : Except ε β → σ → History σ W A ε → Prop} (hs : invariant s h) (hkind : kind w = true)
    (hmay : may s h w) (herror : ∀ e h, invariant s h → post (.error e) s h)
    (hok : ∀ a, invariant s (⟨s, w, .ok a⟩ :: h) → (f a).Holds may post s (⟨s, w, .ok a⟩ :: h)) :
    (request w >>= f).Holds may post s h :=
  holds_request_bind.mpr ⟨hmay, fun e => herror e _ (hinv _ hkind hs), fun a => hok a (hinv _ hkind hs)⟩

/-- A last call keeps an invariant which survives it. -/
theorem Survives.request {kind : W → Bool} {invariant : σ → History σ W A ε → Prop}
    (hinv : Survives kind invariant) {w : W} {post : Except ε (A w) → σ → History σ W A ε → Prop}
    (hs : invariant s h) (hkind : kind w = true) (hmay : may s h w)
    (hpost : ∀ r h, invariant s h → post r s h) :
    (request w : Program σ W A ε (A w)).Holds may post s h :=
  (holds_request w).mpr ⟨hmay, fun answer => hpost answer _ (hinv _ hkind hs)⟩

/-- An invariant goes on over every call of a kind which is answered with a value. -/
def Continues (kind : W → Bool) (invariant : σ → History σ W A ε → Prop) : Prop :=
  ∀ ⦃s s' h⦄ ⦃w : W⦄ (a : A w), kind w = true → invariant s h → invariant s (⟨s', w, .ok a⟩ :: h)

/-- An answered call keeps the invariant. -/
theorem Continues.bind {kind : W → Bool} {invariant : σ → History σ W A ε → Prop}
    (hinv : Continues kind invariant) {w : W} {f : A w → Program σ W A ε β}
    {post : Except ε β → σ → History σ W A ε → Prop} (hs : invariant s h) (hkind : kind w = true)
    (hmay : may s h w) (herror : ∀ e, post (.error e) s (⟨s, w, .error e⟩ :: h))
    (hok : ∀ a, invariant s (⟨s, w, .ok a⟩ :: h) → (f a).Holds may post s (⟨s, w, .ok a⟩ :: h)) :
    (request w >>= f).Holds may post s h :=
  holds_request_bind.mpr ⟨hmay, herror, fun a => hok a (hinv a hkind hs)⟩

/-- So does a last call. -/
theorem Continues.request {kind : W → Bool} {invariant : σ → History σ W A ε → Prop}
    (hinv : Continues kind invariant) {w : W} {post : Except ε (A w) → σ → History σ W A ε → Prop}
    (hs : invariant s h) (hkind : kind w = true) (hmay : may s h w) (herror : ∀ e, post (.error e) s (⟨s, w, .error e⟩ :: h))
    (hok : ∀ a, invariant s (⟨s, w, .ok a⟩ :: h) → post (.ok a) s (⟨s, w, .ok a⟩ :: h)) :
    (request w : Program σ W A ε (A w)).Holds may post s h := by
  refine (holds_request w).mpr ⟨hmay, ?_⟩
  rintro (e | a)
  · exact herror e
  · exact hok a (hinv a hkind hs)

/-- A statement which is only executed under a condition. -/
def provided (c : Prop) [Decidable c] (p : Program σ W A ε Unit) : Program σ W A ε Unit :=
  if c then p else pure ()

theorem holds_provided {c : Prop} [Decidable c] {p : Program σ W A ε Unit}
    {post : Except ε Unit → σ → History σ W A ε → Prop} :
    (provided c p).Holds may post s h ↔
      (c → p.Holds may post s h) ∧ (¬ c → post (.ok ()) s h) :=
  holds_ite p (pure ())

/-- Repeat a body until it gives a result. A run is observed for a number of passes; the exception
`cut` ends the observation. -/
def repeatUntil (cut : ε) (body : Program σ W A ε (Option α)) : ℕ → Program σ W A ε α
  | 0 => throw cut
  | passes + 1 => do
    match ← body with
    | some a => pure a
    | none => repeatUntil cut body passes

/-- An invariant which every pass keeps. -/
theorem Holds.repeatUntil {cut : ε} {body : Program σ W A ε (Option α)}
    (invariant : σ → History σ W A ε → Prop)
    (hcut : ∀ s h, invariant s h → post (.error cut) s h)
    (hbody : ∀ s h, invariant s h → body.Holds may (fun r s h => match r with
      | .ok none => invariant s h
      | .ok (some a) => post (.ok a) s h
      | .error e => post (.error e) s h) s h)
    (passes : ℕ) (hs : invariant s h) : (repeatUntil cut body passes).Holds may post s h := by
  induction passes generalizing s h with
  | zero => exact hcut s h hs
  | succ passes ih =>
    rw [Program.repeatUntil, holds_bind]
    refine (hbody s h hs).mono fun r s h hr => ?_
    match r, hr with
    | .ok none, hr => exact ih hr
    | .ok (some a), hr => exact hr
    | .error e, hr => exact hr

end Program

end Lms200.Coop
