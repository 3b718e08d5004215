import Lms200.Device.Interference

/-!
# One call with the device for itself

While a single coroutine runs, nobody else touches the session, so what it does can be followed
on sessions alone: every assertion is an equation for the session, whatever the reader does.
The call promises that every change of the wire log leaves it as it may be.
-/

namespace Lms200

open Coop

/-- One task, of which only the log of the wire is promised. -/
def solo (ok : List Wire → Prop) : Contract Device where
  rely d d' := d'.toSession = d.toSession
  guarantee d d' := d'.wire = d.wire ∨ ok d'.wire

/-- From a session on, a coroutine meets its postcondition on sessions. -/
def Traces (ok : List Wire → Prop) {α : Type} (p : Action α)
    (post : Except Error α → Session → Prop) (S : Session) : Prop :=
  ∀ d : Device, d.toSession = S →
    Meets 0 (solo ok) p (fun outcome d' => post outcome d'.toSession) d

/-- Some writes of a command have been attempted. -/
def Session.sent (S : Session) (cmd : Command) (n : ℕ) : Session :=
  { S with
    changed := S.changed || cmd.mutates
    wire := S.wire ++ List.replicate n (.wrote cmd.payload) }

/-- A reply has been accepted. -/
def Session.accept (S : Session) (r : Response) : Session :=
  { S with wire := S.wire ++ [.accepted r] }

section Rules

variable {ok : List Wire → Prop} {α β : Type} {S : Session}

/-- Bookkeeping and the steps of the others keep the session. -/
theorem kept_session (S : Session) : Kept (solo ok) fun d => d.toSession = S :=
  ⟨fun _ _ h hrely => hrely.trans h, fun _ _ h hquiet => hquiet.session.trans h⟩

theorem solo_admits (d d' : Device) (h : Quiet d d') : (solo ok).guarantee d d' :=
  .inl (congrArg Session.wire h.session)

theorem Traces.bind {p : Action α} {f : α → Action β} {mid : Except Error α → Session → Prop}
    {post : Except Error β → Session → Prop} (h : Traces ok p mid S)
    (hok : ∀ a T, mid (.ok a) T → Traces ok (f a) post T)
    (herror : ∀ e T, mid (.error e) T → post (.error e) T) : Traces ok (p >>= f) post S :=
  fun d hd => Meets.bind (h d hd) (fun a d' hmid => hok a _ hmid d' rfl)
    fun e _ hmid => herror e _ hmid

theorem Traces.attempt_bind {p : Action α} {f : Except Error α → Action β}
    {mid : Except Error α → Session → Prop} {post : Except Error β → Session → Prop}
    (h : Traces ok p mid S) (hnext : ∀ outcome T, mid outcome T → Traces ok (f outcome) post T) :
    Traces ok (p.attempt >>= f) post S :=
  fun d hd => Meets.attempt_bind (h d hd) fun outcome d' hmid => hnext outcome _ hmid d' rfl

theorem Traces.mono {p : Action α} {mid post : Except Error α → Session → Prop}
    (h : Traces ok p mid S) (himp : ∀ outcome T, mid outcome T → post outcome T) :
    Traces ok p post S :=
  fun d hd => Program.Safe.mono (h d hd) fun outcome d' => himp outcome d'.toSession

theorem Traces.pure {a : α} {post : Except Error α → Session → Prop} (h : post (.ok a) S) :
    Traces ok (Pure.pure a) post S := by
  rintro d rfl
  exact h

theorem Traces.throw {e : Error} {post : Except Error α → Session → Prop} (h : post (.error e) S) :
    Traces ok (MonadExcept.throw e : Action α) post S := by
  rintro d rfl
  exact h

theorem Traces.lift_bind {value : Except Error α} {next : α → Action β}
    {post : Except Error β → Session → Prop}
    (hok : ∀ a, value = .ok a → Traces ok (next a) post S)
    (herror : ∀ e, value = .error e → post (.error e) S) :
    Traces ok (Action.lift value >>= next) post S :=
  fun d hd => Meets.lift_bind (fun a ha => hok a ha d hd) fun e he => hd ▸ herror e he

theorem Traces.get_bind {next : Device → Action β} {post : Except Error β → Session → Prop}
    (hnext : ∀ d, d.toSession = S → Traces ok (next d) post S) :
    Traces ok ((MonadState.get : Action Device) >>= next) post S :=
  fun d hd => Meets.get_bind (hnext d hd d hd)

/-- A change of the device, by what it does to the session. -/
theorem Traces.modify_bind {f : Device → Device} (g : Session → Session)
    (hf : ∀ d, (f d).toSession = g d.toSession) {next : Unit → Action β}
    {post : Except Error β → Session → Prop} (hwire : (g S).wire = S.wire ∨ ok (g S).wire)
    (hnext : Traces ok (next ()) post (g S)) :
    Traces ok ((modify f : Action Unit) >>= next) post S := by
  intro d hd
  have hsession : (f d).toSession = g S := (hf d).trans (congrArg g hd)
  refine Meets.modify_bind ?_ (hnext (f d) hsession)
  change (f d).toSession.wire = d.toSession.wire ∨ ok (f d).toSession.wire
  rw [hsession, hd]
  exact hwire

theorem Traces.change {f : Device → Device} (g : Session → Session)
    (hf : ∀ d, (f d).toSession = g d.toSession) {post : Except Error Unit → Session → Prop}
    (hwire : (g S).wire = S.wire ∨ ok (g S).wire) (hpost : post (.ok ()) (g S)) :
    Traces ok (modify f : Action Unit) post S :=
  fun d hd => show Meets 0 (solo ok) ((modify f : Action Unit) >>= Pure.pure) _ d from
    Traces.modify_bind g hf hwire (Traces.pure hpost) d hd

/-- A change which leaves the session alone. -/
theorem Traces.keep_bind {f : Device → Device} {next : Unit → Action β}
    {post : Except Error β → Session → Prop} (hnext : Traces ok (next ()) post S)
    (hf : ∀ d, (f d).toSession = d.toSession) :
    Traces ok ((modify f : Action Unit) >>= next) post S :=
  Traces.modify_bind id hf (.inl rfl) hnext

theorem Traces.keep {f : Device → Device} {post : Except Error Unit → Session → Prop}
    (hpost : post (.ok ()) S) (hf : ∀ d, (f d).toSession = d.toSession) :
    Traces ok (modify f : Action Unit) post S :=
  Traces.change id hf (.inl rfl) hpost

theorem Traces.transition_bind {state : State} {next : Unit → Action β}
    {post : Except Error β → Session → Prop} (hnext : Traces ok (next ()) post S) :
    Traces ok (Action.transition state >>= next) post S :=
  Traces.keep_bind (f := (Device.transition · state)) hnext fun _ => rfl

theorem Traces.transition {state : State} {post : Except Error Unit → Session → Prop}
    (h : post (.ok ()) S) : Traces ok (Action.transition state) post S :=
  Traces.keep (f := (Device.transition · state)) h fun _ => rfl

theorem Traces.asserted_bind {value : Option α} {next : α → Action β}
    {post : Except Error β → Session → Prop} {a : α} (h : value = some a)
    (hnext : Traces ok (next a) post S) : Traces ok (Action.asserted value >>= next) post S := by
  subst h
  exact hnext

/-- A silent wait keeps the session. -/
theorem Traces.silent {w : Request} {good : Except Error w.Answer → Prop} (hsilent : Silent w good) :
    Traces ok (Action.await w) (fun answer T => good answer ∧ T = S) S :=
  fun _ hd => Meets.silent solo_admits hsilent (kept_session S) hd

theorem Traces.sleep {seconds : ℚ} :
    Traces ok (Action.sleep seconds) (fun answer T => answer = .ok () ∧ T = S) S :=
  fun _ hd => Meets.sleep solo_admits (kept_session S) hd

/-- A wait which first suspends, by what its turns do to the session. -/
theorem Traces.suspends {w : Request} {post : Except Error w.Answer → Session → Prop}
    (henter : ∀ d, Device.enter 0 w d = (none, d))
    (hresume : ∀ choice d answer d', d.toSession = S →
      Device.resume 0 w choice d = some (answer, d') →
      ∃ a, answer = some a ∧ (d'.wire = d.wire ∨ ok d'.wire) ∧ post a d'.toSession) :
    Traces ok (Action.await w) post S := by
  intro d hd
  refine Meets.await (Program.Reached.intro (henter d) (.inl rfl) (by simp) fun _ => ?_)
  refine ⟨fun d => d.toSession = S, hd, (kept_session S).rely, ?_, ?_⟩
  · intro choice t t' ht h
    obtain ⟨a, ha, -⟩ := hresume choice t none t' ht h
    cases ha
  · intro choice t answer t' ht h
    obtain ⟨a, ha, hwire, hpost⟩ := hresume choice t (some answer) t' ht h
    cases ha
    exact ⟨hwire, hpost⟩

/-- The transport opens at some rate, or raises. -/
theorem Traces.openTransport :
    Traces ok (Action.await .openTransport) (fun
      | .ok (), T => ∃ baud, T = { S with transport.baud := baud }
      | .error _, T => T = S) S := by
  refine Traces.suspends (fun _ => rfl) fun choice d answer d' hd h => ?_
  subst hd
  cases choice with
  | done =>
    cases h
    exact ⟨_, rfl, .inl rfl, d.transport.baud, rfl⟩
  | leased baud =>
    cases h
    exact ⟨_, rfl, .inl rfl, baud, rfl⟩
  | raised e =>
    cases h
    exact ⟨_, rfl, .inl rfl, rfl⟩

/-- The rate of the adapter changes, or the change raises. -/
theorem Traces.setBaud {rate : ℕ} (hok : ok (S.wire ++ [.baud rate])) :
    Traces ok (Action.await (.setBaud rate)) (fun
      | .ok (), T => T = { S with transport.baud := rate, wire := S.wire ++ [.baud rate] }
      | .error _, T => T = S) S := by
  refine Traces.suspends (fun _ => rfl) fun choice d answer d' hd h => ?_
  subst hd
  cases choice with
  | raised e =>
    cases h
    exact ⟨_, rfl, .inl rfl, rfl⟩
  | done =>
    cases h
    exact ⟨_, rfl, .inr hok, rfl⟩
  | leased baud =>
    cases h
    exact ⟨_, rfl, .inr hok, rfl⟩

/-- The operation lock is taken. -/
theorem Traces.operationLock :
    Traces ok (Action.await .operationLock) (fun answer T => answer = .ok () ∧
      T = { S with operation_lock := some 0 }) S := by
  intro d hd
  have htake : ∀ d d' : Device, d.toSession = S → d.takeOperationLock 0 = some d' →
      d'.toSession = { S with operation_lock := some 0 } := by
    intro d d' hd h
    unfold Device.takeOperationLock at h
    split at h
    · cases h
      rw [← hd]
    · cases h
  have hwire : ∀ d d' : Device, d.toSession = S → d.takeOperationLock 0 = some d' →
      (solo ok).guarantee d d' := fun d d' hd h =>
    .inl ((congrArg Session.wire (htake d d' hd h)).trans (congrArg Session.wire hd).symm)
  cases htaken : d.takeOperationLock 0 with
  | some d' =>
    refine Meets.await (Program.Reached.intro (show _ = (some (.ok ()), d') from ?_)
      (hwire d d' hd htaken) ?_ (by simp))
    · simp [Device.waits, Device.enter, htaken]
    · intro a ha
      cases ha
      exact ⟨rfl, htake d d' hd htaken⟩
  | none =>
    refine Meets.await (Program.Reached.intro (show _ = (none, d) from ?_) (.inl rfl) (by simp) ?_)
    · simp [Device.waits, Device.enter, htaken]
    · refine fun _ => ⟨fun d => d.toSession = S, hd, (kept_session S).rely, ?_, ?_⟩
      · intro choice t t' ht h
        obtain ⟨t'', -, heq⟩ := Option.map_eq_some_iff.mp h
        cases heq
      · intro choice t answer t' ht h
        obtain ⟨t'', htake', heq⟩ := Option.map_eq_some_iff.mp h
        cases heq
        exact ⟨hwire t t' ht htake', rfl, htake t t' ht htake'⟩

/-- A command: its writes, and the reply if one is accepted. -/
theorem Traces.command {cmd : Command} (hattempts : 0 < cmd.attempts)
    (htelegram : ∃ telegram, cmd.telegram S.settings.address = .ok telegram)
    (hgate : cmd.mutates = true → S.settings.require_write = .ok ())
    (hwrote : ∀ n, n ≤ cmd.attempts → ok (S.sent cmd n).wire)
    (haccepted : ∀ n r, n ≤ cmd.attempts → r.command = cmd.response_id →
      ok ((S.sent cmd n).accept r).wire) :
    Traces ok (Action.command cmd) (fun
      | .ok r, T => r.command = cmd.response_id ∧ confirm r cmd.payload = .ok () ∧
        ∃ n, 0 < n ∧ n ≤ cmd.attempts ∧ T = (S.sent cmd n).accept r
      | .error _, T => ∃ n, 0 < n ∧ n ≤ cmd.attempts ∧ T = S.sent cmd n) S := by
  intro d hd
  refine Meets.command solo_admits (P := fun n d => d.toSession = S.sent cmd n) (.inl hattempts)
    (kept_session S) (fun n => kept_session _) ?_ ?_ ?_ ?_ ?_ ?_ ?_ hd
  · intro outcome d d' h hquiet
    dsimp only at h ⊢
    rw [hquiet.session]
    exact h
  · intro hplain d hd
    simp [Session.sent, hplain, hd]
  · intro hmutates d hd
    refine ⟨fun _ => ⟨.inl rfl, ?_⟩, fun e he => ?_⟩
    · simp [Session.sent, hmutates, ← hd]
    · rw [hd, hgate hmutates] at he
      cases he
  · intro n d e hd he
    obtain ⟨telegram, htelegram⟩ := htelegram
    rw [hd, show (S.sent cmd n).settings = S.settings from rfl, htelegram] at he
    cases he
  · intro n d hd hn
    refine ⟨.inr ?_, ?_⟩
    · change ok (d.toSession.wire ++ [_])
      rw [hd]
      simpa [Session.sent, List.replicate_succ'] using hwrote (n + 1) hn
    · change ({ d.toSession with wire := d.toSession.wire ++ [_] } : Session) = _
      rw [hd]
      simp [Session.sent, List.replicate_succ']
  · rintro n d r d' hd hpos hle ⟨hcommand, hconfirm, number, hquiet⟩
    have hsession : d'.toSession = (S.sent cmd n).accept r := by
      rw [hquiet.session]
      change ({ d.toSession with wire := d.toSession.wire ++ [_] } : Session) = _
      rw [hd]
      rfl
    refine ⟨.inr ?_, hcommand, hconfirm, n, hpos, hle, hsession⟩
    rw [hsession]
    exact haccepted n r hle hcommand
  · exact fun n d e hd hpos hle => ⟨n, hpos, hle, hd⟩

end Rules

end Lms200
