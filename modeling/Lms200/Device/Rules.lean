import Lms200.Device.Tasks

/-!
# Rules for the tasks of the device

Most of what a command does is bookkeeping: locks, counters, the queue and its locals. An
assertion which bookkeeping and the steps of the others keep holds through all of it, so the
rules for commands ask only what a write attempt and an accepted reply do to an assertion.
-/

namespace Lms200

open Coop

/-- Two devices which differ in bookkeeping at most. -/
structure Quiet (d d' : Device) : Prop where
  session : d'.toSession = d.toSession
  state : d'.state = d.state
  reader : d'.reader = d.reader
  faults : d'.faults = d.faults
  queued : d'.queued = d.queued
  accepted : d'.accepted = d.accepted

namespace Quiet

theorem refl (d : Device) : Quiet d d := ⟨rfl, rfl, rfl, rfl, rfl, rfl⟩

theorem trans {d d' d'' : Device} (h : Quiet d d') (h' : Quiet d' d'') : Quiet d d'' :=
  ⟨h'.session.trans h.session, h'.state.trans h.state, h'.reader.trans h.reader,
    h'.faults.trans h.faults, h'.queued.trans h.queued, h'.accepted.trans h.accepted⟩

/-- Accepting a reply commutes with bookkeeping. -/
theorem accept {d d' : Device} (h : Quiet d d') (number : ℕ) (r : Response) :
    Quiet (d.accept number r) (d'.accept number r) := by
  refine ⟨?_, h.state, h.reader, h.faults, h.queued, rfl⟩
  change { d'.toSession with wire := d'.toSession.wire ++ [Wire.accepted r] } = _
  rw [h.session]
  rfl

end Quiet

/-- The device after a reply to the command has been taken. -/
def Heeded (cmd : Command) (r : Response) (d d' : Device) : Prop :=
  r.command = cmd.response_id ∧ confirm r cmd.payload = .ok () ∧
    ∃ number, Quiet (d.accept number r) d'

/-- What the loop of `command` may come to. -/
def Heard.From (cmd : Command) (d : Device) :
    Option (Except Error Heard) × Device → Prop
  | (some (.ok (.reply r)), d') => Heeded cmd r d d'
  | (_, d') => Quiet d d'

/-- Everything but a reply is bookkeeping. -/
theorem Heard.From.quiet {cmd : Command} {d d' : Device} {answer : Option (Except Error Heard)}
    (h : Quiet d d') (hnot : ∀ r, answer ≠ some (.ok (.reply r))) :
    Heard.From cmd d (answer, d') := by
  match answer with
  | some (.ok (.reply r)) => exact absurd rfl (hnot r)
  | some (.ok .nak) => exact h
  | some (.error e) => exact h
  | none => exact h

/-- Bookkeeping may come first. -/
theorem Heard.From.after {cmd : Command} {d d' : Device}
    {result : Option (Except Error Heard) × Device} (h : Heard.From cmd d' result)
    (hquiet : Quiet d d') : Heard.From cmd d result := by
  obtain ⟨answer, d''⟩ := result
  match answer with
  | some (.ok (.reply r)) =>
    obtain ⟨hcommand, hconfirm, number, hlater⟩ := h
    exact ⟨hcommand, hconfirm, number, (hquiet.accept number r).trans hlater⟩
  | some (.ok .nak) => exact hquiet.trans h
  | some (.error e) => exact hquiet.trans h
  | none => exact hquiet.trans h

namespace Pending

/-- One event is bookkeeping or the reply. -/
theorem hear_from (cmd : Command) (p : Pending) (d : Device) (event : ℕ × Incoming)
    (rest : List (ℕ × Incoming)) :
    match hear cmd p d event with
    | (.inl _, d') => Quiet d d'
    | (.inr outcome, d') =>
      Heard.From cmd d (some outcome, { d' with events := rest, pending := none }) := by
  obtain ⟨number, incoming⟩ := event
  cases incoming with
  | error e => exact Heard.From.quiet ⟨rfl, rfl, rfl, rfl, rfl, rfl⟩ (by simp)
  | control c =>
    cases c with
    | NAK => exact Heard.From.quiet ⟨rfl, rfl, rfl, rfl, rfl, rfl⟩ (by simp)
    | ACK =>
      cases hack : p.ack with
      | false => simpa [hear, hack] using Quiet.refl d
      | true => simpa [hear, hack] using Quiet.refl d
  | reply r =>
    by_cases hmatch : r.command = cmd.response_id ∧ p.ack
    · cases hconfirm : confirm r cmd.payload with
      | error e =>
        simp only [hear, if_pos hmatch, hconfirm]
        exact Heard.From.quiet ⟨rfl, rfl, rfl, rfl, rfl, rfl⟩ (by simp)
      | ok u =>
        simp only [hear, if_pos hmatch, hconfirm]
        exact ⟨hmatch.1, hconfirm, number, rfl, rfl, rfl, rfl, rfl, rfl⟩
    · simp only [hear, if_neg hmatch]
      exact ⟨rfl, rfl, rfl, rfl, rfl, rfl⟩

/-- The loop does bookkeeping until it takes a reply. -/
theorem listen_from (cmd : Command) (p : Pending) (events : List (ℕ × Incoming)) (d : Device) :
    Heard.From cmd d (listen cmd p events d) := by
  induction events generalizing p d with
  | nil =>
    unfold listen
    split <;> exact Heard.From.quiet ⟨rfl, rfl, rfl, rfl, rfl, rfl⟩ (by simp)
  | cons event rest ih =>
    unfold listen
    split
    · exact Heard.From.quiet ⟨rfl, rfl, rfl, rfl, rfl, rfl⟩ (by simp)
    · have hevent := hear_from cmd p d event rest
      generalize hear cmd p d event = step at hevent
      match step with
      | (.inl p', d') => exact (ih p' d').after hevent
      | (.inr outcome, d') => exact hevent

/-- So does the loop which an event has woken. -/
theorem wake_from (cmd : Command) (p : Pending) (event : ℕ × Incoming)
    (rest : List (ℕ × Incoming)) (d : Device) : Heard.From cmd d (wake cmd p event rest d) := by
  have hevent := hear_from cmd p d event rest
  unfold wake
  generalize hear cmd p d event = step at hevent
  match step with
  | (.inl p', d') => exact (listen_from cmd p' rest d').after hevent
  | (.inr outcome, d') => exact hevent

end Pending

/-- A wait whose turns are bookkeeping, with the answers it may get. -/
def Silent (w : Request) (good : Except Error w.Answer → Prop) : Prop :=
  ∀ task d, (Quiet d (Device.enter task w d).2 ∧ ∀ a, (Device.enter task w d).1 = some a → good a) ∧
    ∀ choice answer d', Device.resume task w choice d = some (answer, d') →
      Quiet d d' ∧ ∀ a, answer = some a → good a

theorem silent_commandLock : Silent .commandLock (· = .ok ()) := by
  intro task d
  have htake : ∀ d' ∈ d.takeCommandLock task, Quiet d d' := by
    intro d' h
    unfold Device.takeCommandLock at h
    split at h
    · cases h
      exact ⟨rfl, rfl, rfl, rfl, rfl, rfl⟩
    · cases h
  refine ⟨?_, fun choice answer d' h => ?_⟩
  · simp only [Device.enter]
    cases htaken : d.takeCommandLock task with
    | none => exact ⟨Quiet.refl d, by simp⟩
    | some d' => exact ⟨htake d' htaken, by simp⟩
  · obtain ⟨d'', htaken, heq⟩ := Option.map_eq_some_iff.mp h
    cases heq
    exact ⟨htake d' htaken, by simp⟩

theorem silent_sleep (wake : ℚ) : Silent (.sleep wake) (· = .ok ()) := by
  refine fun task d => ⟨⟨Quiet.refl d, by simp [Device.enter]⟩, fun choice answer d' h => ?_⟩
  change (if wake ≤ d.now then some (some (.ok ()), d) else none) = some (answer, d') at h
  split at h
  · cases h
    exact ⟨Quiet.refl d, by simp⟩
  · cases h

theorem silent_joinReader : Silent .joinReader (· = .ok ()) := by
  refine fun task d => ⟨⟨Quiet.refl d, by simp [Device.enter]⟩, fun choice answer d' h => ?_⟩
  cases h
  exact ⟨Quiet.refl d, by simp⟩

theorem silent_write (telegram : Bytes) : Silent (.write telegram) fun _ => True := by
  refine fun task d => ⟨⟨Quiet.refl d, by simp⟩, fun choice answer d' h => ?_⟩
  cases choice <;> cases h <;> exact ⟨Quiet.refl d, by simp⟩

theorem silent_closeTransport : Silent .closeTransport fun _ => True := by
  refine fun task d => ⟨⟨Quiet.refl d, by simp⟩, fun choice answer d' h => ?_⟩
  cases choice <;> cases h <;> exact ⟨Quiet.refl d, by simp⟩

/-- Starting to listen is bookkeeping or takes the reply. -/
theorem startListening_from (d : Device) (cmd : Command) :
    Heard.From cmd d (d.startListening cmd) := by
  unfold Device.startListening
  cases d.pending with
  | none => exact Quiet.refl d
  | some p => exact p.listen_from cmd d.events d

/-- So is every turn of the waiting loop. -/
theorem resume_reply_from {task : ℕ} {cmd : Command} {choice : Choice} {d d' : Device}
    {answer : Option (Except Error Heard)}
    (h : Device.resume task (.reply cmd) choice d = some (answer, d')) :
    Heard.From cmd d (answer, d') := by
  have hgo : ∀ result, d.goOnListening cmd = some result → Heard.From cmd d result := by
    intro result hresult
    unfold Device.goOnListening at hresult
    split at hresult
    · cases hresult
      exact Pending.wake_from _ _ _ _ _
    · cases hresult
  cases choice with
  | done => exact hgo _ h
  | leased baud => exact hgo _ h
  | raised e =>
    change d.stopListening = some (answer, d') at h
    unfold Device.stopListening at h
    split at h
    · cases h
    · split at h
      · cases h
        exact Heard.From.quiet ⟨rfl, rfl, rfl, rfl, rfl, rfl⟩ (by simp)
      · cases h

/-- An assertion which bookkeeping and the steps of the others keep. -/
structure Kept (contract : Contract Device) (P : Device → Prop) : Prop where
  rely : ∀ d d', P d → contract.rely d d' → P d'
  quiet : ∀ d d', P d → Quiet d d' → P d'

/-- A coroutine of a task meets its postcondition and its contract from a device on. -/
def Meets (task : ℕ) (contract : Contract Device) {α : Type} (p : Action α)
    (post : Except Error α → Device → Prop) (d : Device) : Prop :=
  Program.Safe Device.waits task contract p post d

section Rules

variable {task : ℕ} {contract : Contract Device} {α β : Type} {d : Device}

theorem Meets.bind {p : Action α} {f : α → Action β} {mid : Except Error α → Device → Prop}
    {post : Except Error β → Device → Prop} (h : Meets task contract p mid d)
    (hok : ∀ a d', mid (.ok a) d' → Meets task contract (f a) post d')
    (herror : ∀ e d', mid (.error e) d' → post (.error e) d') :
    Meets task contract (p >>= f) post d :=
  Program.Safe.seq h hok herror

theorem Meets.attempt_bind {p : Action α} {f : Except Error α → Action β}
    {mid : Except Error α → Device → Prop} {post : Except Error β → Device → Prop}
    (h : Meets task contract p mid d)
    (hnext : ∀ outcome d', mid outcome d' → Meets task contract (f outcome) post d') :
    Meets task contract (p.attempt >>= f) post d :=
  Program.Safe.attempt_seq h hnext

theorem Meets.change {f : Device → Device} {post : Except Error Unit → Device → Prop}
    (hguarantee : contract.guarantee d (f d)) (hpost : post (.ok ()) (f d)) :
    Meets task contract (modify f : Action Unit) post d := ⟨hguarantee, hpost⟩

theorem Meets.modify_bind {f : Device → Device} {next : Unit → Action β}
    {post : Except Error β → Device → Prop} (hguarantee : contract.guarantee d (f d))
    (hnext : Meets task contract (next ()) post (f d)) :
    Meets task contract ((modify f : Action Unit) >>= next) post d := ⟨hguarantee, hnext⟩

theorem Meets.get_bind {next : Device → Action β} {post : Except Error β → Device → Prop}
    (hnext : Meets task contract (next d) post d) :
    Meets task contract ((MonadState.get : Action Device) >>= next) post d := hnext

theorem Meets.finally_modify {body : Action α} {f : Device → Device}
    {mid post : Except Error α → Device → Prop} (h : Meets task contract body mid d)
    (hafter : ∀ outcome d', mid outcome d' → contract.guarantee d' (f d') ∧ post outcome (f d')) :
    Meets task contract (Program.andFinally body (modify f : Action Unit)) post d :=
  Program.Safe.andFinally (Program.Safe.mono h hafter)

theorem Meets.lift {value : Except Error α} {post : Except Error α → Device → Prop}
    (h : post value d) : Meets task contract (Action.lift value) post d := by
  cases value with
  | ok a => exact h
  | error e => exact h

theorem Meets.lift_bind {value : Except Error α} {next : α → Action β}
    {post : Except Error β → Device → Prop}
    (hok : ∀ a, value = .ok a → Meets task contract (next a) post d)
    (herror : ∀ e, value = .error e → post (.error e) d) :
    Meets task contract (Action.lift value >>= next) post d := by
  cases value with
  | ok a => exact hok a rfl
  | error e => exact herror e rfl

/-- Awaiting is going on with the answer. -/
theorem Meets.await {w : Request} {post : Except Error w.Answer → Device → Prop}
    (h : Program.Reached Device.waits task contract w post d) :
    Meets task contract (Action.await w) post d := by
  refine Program.Reached.mono h fun answer d' hpost => ?_
  cases answer with
  | ok a => exact hpost
  | error e => exact hpost

/-- A free operation lock is taken at once. -/
theorem Meets.operationLock_free (hfree : d.operation_lock = none)
    (hguarantee : contract.guarantee d { d with operation_lock := some task }) :
    Meets task contract (Action.await .operationLock)
      (fun answer d' => answer = .ok () ∧ d' = { d with operation_lock := some task }) d := by
  have htake : d.takeOperationLock task = some { d with operation_lock := some task } :=
    if_pos hfree
  refine Meets.await (Program.Reached.intro (show _ = (some (.ok ()), _) from ?_) hguarantee ?_ (by simp))
  · simp [Device.waits, Device.enter, htake]
  · rintro a ha
    cases ha
    exact ⟨rfl, rfl⟩

variable {P : Device → Prop} (hadmits : ∀ d d', Quiet d d' → contract.guarantee d d')
include hadmits

/-- Awaiting a silent wait keeps an assertion. -/
theorem Meets.silent {w : Request} {good : Except Error w.Answer → Prop} (hsilent : Silent w good)
    (hP : Kept contract P) (hd : P d) :
    Meets task contract (Action.await w) (fun answer d' => good answer ∧ P d') d := by
  obtain ⟨⟨hquiet, hanswer⟩, -⟩ := hsilent task d
  refine Meets.await (Program.Reached.intro rfl (hadmits _ _ hquiet)
    (fun a ha => ⟨hanswer a ha, hP.quiet _ _ hd hquiet⟩) fun _ => ?_)
  refine ⟨P, hP.quiet _ _ hd hquiet, hP.rely, ?_, ?_⟩
  · intro choice t t' ht hresume
    obtain ⟨hstep, -⟩ := (hsilent task t).2 choice none t' hresume
    exact ⟨hadmits _ _ hstep, hP.quiet _ _ ht hstep⟩
  · intro choice t answer t' ht hresume
    obtain ⟨hstep, hgood⟩ := (hsilent task t).2 choice (some answer) t' hresume
    exact ⟨hadmits _ _ hstep, hgood answer rfl, hP.quiet _ _ ht hstep⟩

/-- A sleep keeps an assertion. -/
theorem Meets.sleep {seconds : ℚ} (hP : Kept contract P) (hd : P d) :
    Meets task contract (Action.sleep seconds) (fun answer d' => answer = .ok () ∧ P d') d :=
  Meets.silent hadmits (silent_sleep _) hP hd

/-- A turn of the wait leaves an assertion as it was, or the reply. -/
def Heard.Leaves (P : Device → Prop) (cmd : Command) : Option (Except Error Heard) → Device → Prop
  | some (.ok (.reply r)), d' => ∃ d, P d ∧ Heeded cmd r d d'
  | _, d' => P d'

/-- The wait for a reply ends with bookkeeping or with the reply. -/
theorem Meets.reply {cmd : Command} (hP : Kept contract P) (hd : P d)
    (hreply : ∀ d r d', P d → Heeded cmd r d d' → contract.guarantee d d') :
    Meets task contract (Action.await (.reply cmd)) (fun
      | .ok (.reply r), d' => ∃ d, P d ∧ Heeded cmd r d d'
      | _, d' => P d') d := by
  have hturn : ∀ {d answer d'}, P d → Heard.From cmd d (answer, d') →
      contract.guarantee d d' ∧ Heard.Leaves P cmd answer d' := by
    intro d answer d' hd hfrom
    obtain _ | e | r | _ := answer
    · exact ⟨hadmits _ _ hfrom, hP.quiet _ _ hd hfrom⟩
    · exact ⟨hadmits _ _ hfrom, hP.quiet _ _ hd hfrom⟩
    · exact ⟨hreply d r d' hd hfrom, d, hd, hfrom⟩
    · exact ⟨hadmits _ _ hfrom, hP.quiet _ _ hd hfrom⟩
  have hstart := startListening_from d cmd
  have hentered := hturn hd hstart
  refine Meets.await (Program.Reached.intro rfl hentered.1 (fun answer hanswer => ?_) fun hnone => ?_)
  · have hafter := hentered.2
    rw [hanswer] at hafter
    obtain e | r | _ := answer
    · exact hafter
    · exact hafter
    · exact hafter
  · have hafter := hentered.2
    rw [hnone] at hafter
    refine ⟨P, hafter, hP.rely, fun choice t t' ht h => hturn ht (resume_reply_from h), ?_⟩
    intro choice t answer t' ht h
    have hturned := hturn ht (resume_reply_from h)
    obtain e | r | _ := answer
    · exact hturned
    · exact hturned
    · exact hturned

/-- Sending attempts one write, whatever becomes of it, unless there is no telegram. -/
theorem Meets.send {cmd : Command} {Q : Device → Prop} {post : Except Error Unit → Device → Prop}
    (hQ : ∀ d d', Q d → Quiet d d' → Q d') (hP : Kept contract P)
    (hencode : ∀ d e, Q d → cmd.telegram d.settings.address = .error e → post (.error e) d)
    (hwrite : ∀ d, Q d →
      contract.guarantee d (d.log (.wrote cmd.payload)) ∧ P (d.log (.wrote cmd.payload)))
    (hpost : ∀ outcome d, P d → post outcome d) (hd : Q d) :
    Meets task contract (Action.send cmd) post d := by
  have hquiet : ∀ p, Quiet d { d with events := [], pending := p } :=
    fun _ => ⟨rfl, rfl, rfl, rfl, rfl, rfl⟩
  have hdrained := hQ _ _ hd (hquiet (some ⟨cmd, false, d.now⟩))
  refine Meets.modify_bind (hadmits _ _ (hquiet _)) (Meets.get_bind ?_)
  refine Meets.lift_bind (fun telegram _ => ?_) fun e he => hencode _ e hdrained he
  obtain ⟨hguarantee, hwrote⟩ := hwrite _ hdrained
  refine Meets.modify_bind hguarantee ?_
  exact Program.Safe.mono (Meets.silent hadmits (silent_write telegram) hP hwrote)
    fun outcome d' h => hpost outcome d' h.2

/-- Waiting for the reply ends with an exception and bookkeeping, or with the reply. -/
theorem Meets.awaitReply {cmd : Command} (hP : Kept contract P) (hd : P d)
    (hreply : ∀ d r d', P d → Heeded cmd r d d' → contract.guarantee d d') :
    Meets task contract (Action.awaitReply cmd) (fun
      | .ok r, d' => ∃ d, P d ∧ Heeded cmd r d d'
      | .error _, d' => P d') d := by
  have hquiet : ∀ p, Quiet d { d with pending := p } := fun _ => ⟨rfl, rfl, rfl, rfl, rfl, rfl⟩
  refine Meets.modify_bind (hadmits _ _ (hquiet _)) ?_
  refine Meets.bind (Meets.reply hadmits hP (hP.quiet _ _ hd (hquiet _)) hreply) ?_ fun _ _ h => h
  rintro (r | _) d' h
  · exact h
  · refine Meets.bind (Meets.sleep hadmits hP h) (fun _ _ h => h.2) fun _ _ h => h.2

/-- What is left of the attempts: `n` writes have been attempted. -/
theorem Meets.attempts {cmd : Command} {P : ℕ → Device → Prop}
    {post : Except Error Response → Device → Prop} (hP : ∀ n, Kept contract (P n))
    (hencode : ∀ n d e, P n d → cmd.telegram d.settings.address = .error e → post (.error e) d)
    (hwrite : ∀ n d, P n d → n < cmd.attempts →
      contract.guarantee d (d.log (.wrote cmd.payload)) ∧ P (n + 1) (d.log (.wrote cmd.payload)))
    (hreply : ∀ n d r d', P n d → 0 < n → n ≤ cmd.attempts → Heeded cmd r d d' →
      contract.guarantee d d' ∧ post (.ok r) d')
    (herror : ∀ n d e, P n d → 0 < n → n ≤ cmd.attempts → post (.error e) d)
    {remaining n : ℕ} (hd : P n d) (hcount : n + remaining = cmd.attempts)
    (hpos : 0 < remaining ∨ ∀ e, post (.error e) d) :
    Meets task contract (Action.attempts cmd remaining) post d := by
  induction remaining generalizing n d with
  | zero => exact (hpos.resolve_left (Nat.lt_irrefl 0)) _
  | succ remaining ih =>
    have hle : n + 1 ≤ cmd.attempts := by omega
    -- An attempt which failed is the last one, or another one follows after a pause.
    have hagain : ∀ e d, P (n + 1) d → Meets task contract
        (if remaining = 0 then throw e
        else do Action.sleep (3 / 100); Action.attempts cmd remaining) post d := by
      intro e d hd
      split
      · exact herror _ _ _ hd (Nat.succ_pos n) hle
      · next hmore =>
        refine Meets.bind (Meets.sleep hadmits (hP _) hd) (fun _ d' h => ?_) fun _ _ h => ?_
        · exact ih h.2 (by omega) (.inl (Nat.pos_of_ne_zero hmore))
        · exact absurd h.1 (by simp)
    let sent : Except Error Unit → Device → Prop
      | .ok (), d => P (n + 1) d
      | .error e, d => post (.error e) d
    have hsend : Meets task contract (Action.send cmd) sent d := by
      refine Meets.send hadmits (hP n).quiet (hP (n + 1)) (fun d e hd he => hencode n d e hd he)
        (fun d hd => hwrite n d hd hle) (fun outcome d hd => ?_) hd
      cases outcome with
      | ok u => exact hd
      | error e => exact herror _ _ _ hd (Nat.succ_pos n) hle
    refine Meets.bind hsend (fun _ d' hsent => ?_) fun _ _ h => h
    refine Meets.attempt_bind (Meets.awaitReply hadmits (hP _) hsent
      fun d r d' hd hheeded => (hreply _ d r d' hd (Nat.succ_pos n) hle hheeded).1) ?_
    intro outcome d'' hafter
    match outcome with
    | .ok r =>
      obtain ⟨d, hd, hheeded⟩ := hafter
      exact (hreply _ d r d'' hd (Nat.succ_pos n) hle hheeded).2
    | .error (.timeout m) =>
      have hquiet : ∀ timeouts, Quiet d'' { d'' with counters.timeouts := timeouts } :=
        fun _ => ⟨rfl, rfl, rfl, rfl, rfl, rfl⟩
      exact Meets.modify_bind (hadmits _ _ (hquiet _)) (hagain _ _ ((hP _).quiet _ _ hafter (hquiet _)))
    | .error (.protocol m) => exact hagain _ _ hafter
    | .error (.device m) => exact herror _ _ _ hafter (Nat.succ_pos n) hle
    | .error (.value m) => exact herror _ _ _ hafter (Nat.succ_pos n) hle
    | .error (.eof m) => exact herror _ _ _ hafter (Nat.succ_pos n) hle
    | .error (.os m) => exact herror _ _ _ hafter (Nat.succ_pos n) hle

/-- A command: the gate, then its attempts. -/
theorem Meets.command {cmd : Command} {Q : Device → Prop} {P : ℕ → Device → Prop}
    {post : Except Error Response → Device → Prop}
    (hattempts : 0 < cmd.attempts ∨ ∀ d e, P 0 d → post (.error e) d)
    (hQ : Kept contract Q) (hP : ∀ n, Kept contract (P n))
    (hpost : ∀ outcome d d', post outcome d → Quiet d d' → post outcome d')
    (hplain : cmd.mutates = false → ∀ d, Q d → P 0 d)
    (hgate : cmd.mutates = true → ∀ d, Q d →
      (d.settings.require_write = .ok () →
        contract.guarantee d { d with changed := true } ∧ P 0 { d with changed := true }) ∧
      ∀ e, d.settings.require_write = .error e → post (.error e) d)
    (hencode : ∀ n d e, P n d → cmd.telegram d.settings.address = .error e → post (.error e) d)
    (hwrite : ∀ n d, P n d → n < cmd.attempts →
      contract.guarantee d (d.log (.wrote cmd.payload)) ∧ P (n + 1) (d.log (.wrote cmd.payload)))
    (hreply : ∀ n d r d', P n d → 0 < n → n ≤ cmd.attempts → Heeded cmd r d d' →
      contract.guarantee d d' ∧ post (.ok r) d')
    (herror : ∀ n d e, P n d → 0 < n → n ≤ cmd.attempts → post (.error e) d)
    (hd : Q d) : Meets task contract (Action.command cmd) post d := by
  refine Meets.bind (Meets.silent hadmits silent_commandLock hQ hd) (fun _ d' hlocked => ?_)
    fun _ _ h => absurd h.1 (by simp)
  have hrest : ∀ d, P 0 d → Meets task contract (Action.attempts cmd cmd.attempts) post d :=
    fun d hd => Meets.attempts hadmits hP hencode hwrite hreply herror hd (Nat.zero_add _)
      (hattempts.imp_right fun h e => h d e hd)
  refine Meets.finally_modify (show Meets task contract _ post _ from ?_) fun outcome d' h => ?_
  · let gated : Except Error Unit → Device → Prop
      | .ok (), d => P 0 d
      | .error e, d => post (.error e) d
    refine Meets.bind (show Meets task contract _ gated _ from ?_) (fun _ d h => hrest d h)
      fun _ _ h => h
    unfold Action.gate
    cases hmutates : cmd.mutates with
    | false => exact hplain hmutates _ hlocked.2
    | true =>
      obtain ⟨hopen, hshut⟩ := hgate hmutates _ hlocked.2
      refine Meets.get_bind (Meets.lift_bind (fun _ hok => ?_) fun e he => hshut e he)
      exact Meets.change (hopen hok).1 (hopen hok).2
  · exact ⟨hadmits _ _ ⟨rfl, rfl, rfl, rfl, rfl, rfl⟩, hpost _ _ _ h ⟨rfl, rfl, rfl, rfl, rfl, rfl⟩⟩

end Rules

end Lms200
