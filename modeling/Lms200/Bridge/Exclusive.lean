import Lms200.Bridge.Steps

/-!
# An exclusive lease

Every handler keeps its contract in every interleaving. So in every run the trace is legal for one
lease at a time, the variables agree with it, and a request which is refused touches nothing.
-/

namespace Lms200.Bridge

open Coop Program SerialBridge

/-! ## Waiting -/

/-- A wait which changes nothing but what `asyncio` keeps. -/
def Wait.quiet : Wait → Bool
  | .start_server | .set_baud _ => false
  | _ => true

/-- What an answer says about the bridge. -/
def Answered (task : ℕ) : (w : Wait) → Except Fault w.Answer → SerialBridge → Prop
  | .server_closed g, .ok _, s => s.serverClosed g = true
  | .control_closed, .ok _, s => s.controlClosed = true
  | .gather tasks, _, s => ∀ t ∈ tasks, t ∈ s.finished
  | .gather_pumps, _, s => s.pumpsEnded task = true
  | _, _, _ => True

/-- What a task finds when it reaches a wait. -/
theorem enter_quiet {task : ℕ} {w : Wait} {s s' : SerialBridge} {answer : Option (Except Fault w.Answer)}
    (h : enter task w s = (answer, s')) :
    (∃ cancelled waiters, s' = { s with cancelled, waiters }) ∧
      ∀ a, answer = some a → Answered task w a s' := by
  cases w with
  | server_closed g =>
    simp only [enter] at h
    split at h
    · next hclosed =>
      cases h
      exact ⟨⟨_, _, rfl⟩, fun a ha => by cases ha; exact hclosed⟩
    · cases h
      exact ⟨⟨_, _, rfl⟩, nofun⟩
  | control_closed =>
    simp only [enter] at h
    split at h
    · next hclosed =>
      cases h
      exact ⟨⟨_, _, rfl⟩, fun a ha => by cases ha; exact hclosed⟩
    · cases h
      exact ⟨⟨_, _, rfl⟩, nofun⟩
  | gather tasks =>
    simp only [enter] at h
    split at h
    · next hempty =>
      cases h
      exact ⟨⟨_, _, rfl⟩, fun _ _ t ht => absurd (hempty ▸ ht) List.not_mem_nil⟩
    · cases h
      exact ⟨⟨_, _, rfl⟩, nofun⟩
  | _ =>
    cases h
    exact ⟨⟨_, _, rfl⟩, nofun⟩

/-- What a suspended task finds when its wait raises. -/
theorem raising_quiet {task : ℕ} {w : Wait} {e : Fault} {s s' : SerialBridge}
    {answer : Option (Except Fault w.Answer)} (h : raising task e w s = some (answer, s')) :
    (∃ cancelled waiters, s' = { s with cancelled, waiters }) ∧
      ∀ a, answer = some a → (∃ e, a = .error e) ∧ Answered task w a s' := by
  cases w with
  | gather tasks =>
    simp only [raising] at h
    split_ifs at h with hraises hended
    · cases h
      refine ⟨⟨_, _, rfl⟩, fun a ha => ?_⟩
      cases ha
      exact ⟨⟨_, rfl⟩, fun t ht => of_decide_eq_true (List.all_eq_true.mp hended t ht)⟩
    · cases h
      exact ⟨⟨_, _, rfl⟩, nofun⟩
  | gather_pumps =>
    simp only [raising, Option.ite_none_right_eq_some] at h
    obtain ⟨⟨-, hended⟩, h⟩ := h
    cases h
    exact ⟨⟨_, _, rfl⟩, fun a ha => by cases ha; exact ⟨⟨_, rfl⟩, hended⟩⟩
  | server_closed g =>
    simp only [raising, Option.ite_none_right_eq_some] at h
    obtain ⟨-, h⟩ := h
    cases h
    exact ⟨⟨_, _, rfl⟩, fun a ha => by cases ha; exact ⟨⟨_, rfl⟩, trivial⟩⟩
  | _ =>
    simp only [raising, Option.ite_none_right_eq_some] at h
    obtain ⟨-, h⟩ := h
    cases h
    exact ⟨⟨_, _, rfl⟩, fun a ha => by cases ha; exact ⟨⟨_, rfl⟩, trivial⟩⟩

/-- What a turn of a quiet wait may find. -/
theorem turns_quiet {task : ℕ} {w : Wait} (hw : w.quiet = true) {s s' : SerialBridge}
    {answer : Option (Except Fault w.Answer)} (h : SerialBridge.waits.Turns task w s answer s') :
    (∃ cancelled waiters, s' = { s with cancelled, waiters }) ∧
      ∀ a, answer = some a → Answered task w a s' := by
  rcases h with h | ⟨choice, h⟩
  · exact enter_quiet h
  cases choice with
  | raises e =>
    obtain ⟨hquiet, hanswer⟩ := raising_quiet h
    exact ⟨hquiet, fun a ha => (hanswer a ha).2⟩
  | line line =>
    cases w with
    | readline =>
      cases h
      exact ⟨⟨_, _, rfl⟩, fun _ _ => trivial⟩
    | _ => cases h
  | goes =>
    cases w with
    | start_server | set_baud baud => cases hw
    | readline => cases h
    | scheduled | hangup | reply reply | close_serial =>
      cases h
      exact ⟨⟨_, _, rfl⟩, fun _ _ => trivial⟩
    | server_closed g =>
      simp only [SerialBridge.waits, resume, Option.ite_none_right_eq_some] at h
      obtain ⟨hclosed, h⟩ := h
      cases h
      exact ⟨⟨_, _, rfl⟩, fun a ha => by cases ha; exact hclosed⟩
    | gather tasks =>
      simp only [SerialBridge.waits, resume, Option.ite_none_right_eq_some] at h
      obtain ⟨hended, h⟩ := h
      cases h
      exact ⟨⟨_, _, rfl⟩, fun _ _ t ht => of_decide_eq_true (List.all_eq_true.mp hended t ht)⟩
    | control_closed | gather_pumps =>
      simp only [SerialBridge.waits, resume, Option.ite_none_right_eq_some] at h
      obtain ⟨hended, h⟩ := h
      cases h
      exact ⟨⟨_, _, rfl⟩, fun a ha => by cases ha; exact hended⟩
    | first_completed | transport_closed =>
      simp only [SerialBridge.waits, resume, Option.ite_none_right_eq_some] at h
      obtain ⟨-, h⟩ := h
      cases h
      exact ⟨⟨_, _, rfl⟩, fun _ _ => trivial⟩

variable {origin s s' : SerialBridge} {task : ℕ} {role : Role}

/-- A coroutine which keeps the contract of its task. -/
abbrev Keeps (origin : SerialBridge) (task : ℕ) {α : Type} (p : Task α)
    (post : Except Fault α → SerialBridge → Prop) (s : SerialBridge) : Prop :=
  p.Safe SerialBridge.waits task (contract origin task) post s

/-- The task has its role and has not ended. -/
structure At (origin : SerialBridge) (task : ℕ) (role : Role) (s : SerialBridge) : Prop where
  inv : Inv origin s
  role : s.role task = some role
  alive : task ∉ s.finished

/-- What the task knows stays true whatever the others do. -/
structure Steady (origin : SerialBridge) (task : ℕ) (role : Role) (Q : SerialBridge → Prop) : Prop where
  quiet : ∀ s cancelled waiters, Q s → Q { s with cancelled, waiters }
  frame : ∀ s s', At origin task role s → Q s → Frame task s s' → Q s'

theorem At.quiet (hs : At origin task role s) (cancelled : List ℕ) (waiters : List (ℕ × ℕ)) :
    At origin task role { s with cancelled, waiters } :=
  ⟨{ hs.inv with }, hs.role, hs.alive⟩

theorem At.rely (hs : At origin task role s) (h : (contract origin task).rely s s') :
    At origin task role s' :=
  ⟨h.1, h.2.role task role hs.role, fun hin => hs.alive (h.2.alive.mp hin)⟩

theorem At.used (hs : At origin task role s) : s.role task ≠ none := by
  rw [hs.role]
  exact Option.some_ne_none role

/-- A wait keeps what the task knows. -/
theorem Steady.await {Q : SerialBridge → Prop} (h : Steady origin task role Q) {w : Wait}
    (hw : w.quiet = true) (hs : At origin task role s) (hQ : Q s) :
    Keeps origin task (await w) (fun answer s' => At origin task role s' ∧ Q s' ∧ Answered task w answer s') s := by
  refine Safe.request (Reached.of_turns (fun s => At origin task role s ∧ Q s) ?_ ?_ ⟨hs, hQ⟩)
  · exact fun t t' ht hrely => ⟨ht.1.rely hrely, h.frame t t' ht.1 ht.2 hrely.2⟩
  · intro t answer t' ht hturn
    obtain ⟨⟨cancelled, waiters, rfl⟩, hanswer⟩ := turns_quiet hw hturn
    have hnow := h.quiet t cancelled waiters ht.2
    refine ⟨ht.1.inv.quiet cancelled waiters, fun _ => ⟨ht.1.quiet cancelled waiters, hnow⟩, fun a ha => ?_⟩
    exact ⟨ht.1.quiet cancelled waiters, hnow, hanswer a ha⟩

/-- Closing the connection keeps what the task knows. -/
theorem Steady.closeWriter {Q : SerialBridge → Prop} (h : Steady origin task role Q)
    (hs : At origin task role s) (hQ : Q s) :
    Keeps origin task closeWriter (fun _ s' => At origin task role s' ∧ Q s') s := by
  refine Safe.tryCatch_keeps ((h.await rfl hs hQ).mono fun _ _ hdone => ⟨hdone.1, hdone.2.1⟩) ?_
  rintro e t ⟨ht, hQ⟩
  cases e <;> exact ⟨ht, hQ⟩

/-! ## The end of a lease -/

theorem ender_steady : Steady origin task role (Ender task) where
  quiet _ _ _ h := h
  frame s s' _ hender h := by
    rcases hender with howns | ⟨hclose, hover⟩
    · exact .inl (h.owns.mpr howns)
    · exact .inr ⟨h.role task .close hclose, h.stays_over hover⟩

/-- A task which may act on the lease does not see the listener replaced. -/
theorem Ender.data_server (hender : Ender task s) (h : Frame task s s') :
    s'.data_server = s.data_server ∨ s'.data_server = none := by
  rcases hender with howns | ⟨-, hover⟩
  · exact .inl (h.data_server howns)
  · exact h.ending hover

theorem closing_steady (g : ℕ) : Steady origin task role
    (fun s => Ender task s ∧ (s.data_server = some g ∨ s.data_server = none)) where
  quiet _ _ _ h := h
  frame s s' hs hnow h := by
    refine ⟨ender_steady.frame s s' hs hnow.1 h, ?_⟩
    rcases hnow.1.data_server h with hsame | hnone
    · rw [hsame]
      exact hnow.2
    · exact .inr hnone

theorem gathering_steady (t : ℕ) : Steady origin task role (fun s => Ender task s ∧
    s.data_server = none ∧ (s.data_task = some t ∨ s.data_task = none)) where
  quiet _ _ _ h := h
  frame s s' hs hnow h := by
    obtain ⟨hender, hserver, htask⟩ := hnow
    refine ⟨ender_steady.frame s s' hs hender h, ?_, ?_⟩
    · exact (hender.data_server h).elim (fun hsame => hsame.trans hserver) id
    · rcases h.unserved hserver with hsame | hnone
      · rw [hsame]
        exact htask
      · exact .inr hnone

/-- Closing the listener leaves no data handler which waits for its first step. -/
theorem closeDataServer_keeps (hs : At origin task role s) (hender : Ender task s) :
    Keeps origin task closeDataServer (fun outcome s' => At origin task role s' ∧
      (outcome = .ok () → Ender task s' ∧ s'.data_server = none)) s := by
  refine Safe.get_bind ?_
  cases hserver : s.data_server with
  | none => exact ⟨hs, fun _ => ⟨hender, hserver⟩⟩
  | some g =>
    have hguarantee := hs.inv.closeListener hender
    rw [closeListener_eq] at hguarantee
    refine Safe.modify_bind (by rw [closeListener_eq]; exact hguarantee) ?_
    rw [closeListener_eq]
    refine Safe.seq ((closing_steady g).await rfl ⟨hguarantee.1, hs.role, hs.alive⟩ ⟨hender, .inl hserver⟩)
      (fun _ s' hdone => ?_) fun e s' hdone => ⟨hdone.1, nofun⟩
    obtain ⟨hs', ⟨hender', hserver'⟩, hclosed⟩ := hdone
    have hcleared := hs'.inv.clearServer hender' hserver' hclosed
    exact ⟨hcleared, ⟨hcleared.1, hs'.role, hs'.alive⟩, fun _ => ⟨hender', rfl⟩⟩

/-- The data task has ended afterwards. -/
theorem cancelDataTask_keeps (hs : At origin task role s) (hender : Ender task s) (hserver : s.data_server = none) :
    Keeps origin task cancelDataTask (fun outcome s' => At origin task role s' ∧
      (outcome = .ok () → Ender task s' ∧ s'.data_server = none ∧
        ∀ t, s'.data_task = some t → t ∈ s'.finished)) s := by
  refine Safe.get_bind ?_
  cases htask : s.data_task with
  | none => exact ⟨hs, fun _ => ⟨hender, hserver, fun t ht => by cases htask.symm.trans ht⟩⟩
  | some t =>
    refine Safe.modify_bind (hs.inv.quiet _ _) ?_
    refine Safe.mono ((gathering_steady t).await rfl (hs.quiet _ _) ⟨hender, hserver, .inl htask⟩) ?_
    rintro outcome s' ⟨hs', ⟨hender', hserver', htask'⟩, hended⟩
    refine ⟨hs', fun _ => ⟨hender', hserver', fun t' ht' => ?_⟩⟩
    rcases htask' with hsome | hnone
    · obtain rfl := Option.some.inj (ht'.symm.trans hsome)
      exact hended t' List.mem_cons_self
    · cases hnone.symm.trans ht'

/-- `_end_lease` keeps the contract of whoever may act on the lease. -/
theorem end_lease_keeps (hs : At origin task role s) (hender : Ender task s) :
    Keeps origin task end_lease (fun _ s' => At origin task role s') s := by
  refine Safe.seq (closeDataServer_keeps hs hender) (fun _ s₁ hclosed => ?_) fun _ _ hs' => hs'.1
  obtain ⟨hs₁, hok⟩ := hclosed
  obtain ⟨hender₁, hserver₁⟩ := hok rfl
  refine Safe.seq (cancelDataTask_keeps hs₁ hender₁ hserver₁) (fun _ s₂ hended => ?_) fun _ _ hs' => hs'.1
  obtain ⟨hs₂, hok⟩ := hended
  obtain ⟨hender₂, hserver₂, htask₂⟩ := hok rfl
  have hreleased := hs₂.inv.release hender₂ hserver₂ htask₂
  exact ⟨hreleased, hreleased.1, hs₂.role, hs₂.alive⟩

/-! ## The control handler -/

/-- The task may end. -/
structure Gone (origin : SerialBridge) (task : ℕ) (s : SerialBridge) : Prop where
  inv : Inv origin s
  used : s.role task ≠ none
  free : task ∉ s.owns
  idle : ¬ Pumping s task

/-- A task which may end does. -/
theorem ending_keeps {body : Task Unit} (h : Keeps origin task body (fun _ => Gone origin task) s) :
    Keeps origin task (ending task body) (fun _ _ => True) s :=
  Safe.andFinally (h.mono fun outcome _ hs => ⟨hs.inv.finish hs.used hs.free hs.idle, by cases outcome <;> trivial⟩)

variable {peer : Option Peer}

/-- A control handler without the lease may end. -/
theorem At.gone_control (hs : At origin task (.control peer) s) (hfree : task ∉ s.owns) : Gone origin task s :=
  ⟨hs.inv, hs.used, hfree, hs.inv.idle (by rw [hs.role]; nofun)⟩

theorem free_steady : Steady origin task role (fun s => task ∉ s.owns) where
  quiet _ _ _ h := h
  frame _ _ _ hfree h howns := hfree (h.owns.mp howns)

theorem asking_steady : Steady origin task role (fun s => task ∉ s.owns ∧ s.request task = none) where
  quiet _ _ _ h := h
  frame s s' hs hnow h := ⟨free_steady.frame s s' hs hnow.1 h, h.request.trans hnow.2⟩

theorem owning_steady : Steady origin task role (fun s => task ∈ s.owns) where
  quiet _ _ _ h := h
  frame _ _ _ howns h := h.owns.mpr howns

/-- The holder's listener is opened once. -/
theorem startServer_keeps (hs : At origin task role s) (howns : task ∈ s.owns) (hserver : s.data_server = none)
    (hlease : ∃ lease, after s.trace = some lease ∧ lease.server = none) :
    Keeps origin task (await .start_server) (fun _ s' => At origin task role s' ∧ task ∈ s'.owns) s := by
  refine Safe.request (Reached.of_turns (fun s => At origin task role s ∧ task ∈ s.owns ∧
    s.data_server = none ∧ ∃ lease, after s.trace = some lease ∧ lease.server = none) ?_ ?_
    ⟨hs, howns, hserver, hlease⟩)
  · rintro t t' ⟨ht, howns, hserver, hlease⟩ hrely
    refine ⟨ht.rely hrely, hrely.2.owns.mpr howns, (hrely.2.data_server howns).trans hserver, ?_⟩
    rw [hrely.2.lease howns]
    exact hlease
  · rintro t answer t' ⟨ht, howns, hserver, hlease⟩ hturn
    have hsame : (contract origin task).guarantee t t := ht.inv.quiet t.cancelled t.waiters
    rcases hturn with hturn | ⟨choice, hturn⟩
    · cases hturn
      exact ⟨hsame, fun _ => ⟨ht, howns, hserver, hlease⟩, nofun⟩
    cases choice with
    | line line => cases hturn
    | raises e =>
      simp only [SerialBridge.waits, resume, raising, Option.ite_none_right_eq_some] at hturn
      obtain ⟨-, hturn⟩ := hturn
      cases hturn
      exact ⟨hsame, nofun, fun _ _ => ⟨ht, howns⟩⟩
    | goes =>
      cases hturn
      obtain ⟨lease, hlease, hunopened⟩ := hlease
      have hopened := ht.inv.openServer howns hserver hlease hunopened
      exact ⟨hopened, nofun, fun _ _ => ⟨⟨hopened.1, ht.role, ht.alive⟩, howns⟩⟩

/-- The holder changes the baud rate as its client requested. -/
theorem setBaud_keeps {baud : ℕ} (hs : At origin task role s) (howns : task ∈ s.owns)
    (hrequested : s.requested task = some baud) (hspeed : baud = 500000 → origin.high_speed = true) :
    Keeps origin task (await (.set_baud baud)) (fun _ s' => At origin task role s' ∧ task ∈ s'.owns) s := by
  refine Safe.request (Reached.of_turns (fun s => At origin task role s ∧ task ∈ s.owns ∧
    s.requested task = some baud) ?_ ?_ ⟨hs, howns, hrequested⟩)
  · rintro t t' ⟨ht, howns, hrequested⟩ hrely
    exact ⟨ht.rely hrely, hrely.2.owns.mpr howns, hrely.2.requested.trans hrequested⟩
  · rintro t answer t' ⟨ht, howns, hrequested⟩ hturn
    have hsame : (contract origin task).guarantee t t := ht.inv.quiet t.cancelled t.waiters
    rcases hturn with hturn | ⟨choice, hturn⟩
    · cases hturn
      exact ⟨hsame, fun _ => ⟨ht, howns, hrequested⟩, nofun⟩
    cases choice with
    | line line => cases hturn
    | raises e =>
      simp only [SerialBridge.waits, resume, raising, Option.ite_none_right_eq_some] at hturn
      obtain ⟨-, hturn⟩ := hturn
      cases hturn
      exact ⟨hsame, nofun, fun _ _ => ⟨ht, howns⟩⟩
    | goes =>
      cases hturn
      have hswitched := ht.inv.switch howns hrequested fun h => ht.inv.high_speed.trans (hspeed h)
      exact ⟨hswitched, nofun, fun _ _ => ⟨⟨hswitched.1, ht.role, ht.alive⟩, howns⟩⟩

/-- A message asks for the rate it names. -/
theorem rate_baud {message : Message} {baud : ℕ} (h : message.rate = some baud) : message.baud = some baud := by
  unfold Message.rate at h
  split at h
  · exact (Option.filter_eq_some_iff.mp h).1
  · cases h

/-- One message of the holder. -/
theorem serve_keeps (hs : At origin task role s) (howns : task ∈ s.owns) (message : Message) :
    Keeps origin task (serve task message) (fun _ s' => At origin task role s' ∧ task ∈ s'.owns) s := by
  have hread : (contract origin task).guarantee s _ := hs.inv.setRequested message.baud
  have hs' : At origin task role { s with requested := Function.update s.requested task message.baud } :=
    ⟨hread.1, hs.role, hs.alive⟩
  refine Safe.modify_bind hread ?_
  have hreply : ∀ {s : SerialBridge} (reply : Reply), At origin task role s → task ∈ s.owns →
      Keeps origin task (await (.reply reply)) (fun _ s' => At origin task role s' ∧ task ∈ s'.owns) s :=
    fun reply hs howns => (owning_steady.await rfl hs howns).mono fun _ _ hdone => ⟨hdone.1, hdone.2.1⟩
  cases hrate : message.rate with
  | none => exact Safe.get_bind (hreply _ hs' howns)
  | some baud =>
    refine Safe.get_bind ?_
    split
    · exact hreply _ hs' howns
    · next hspeed =>
      refine Safe.seq (setBaud_keeps hs' howns ?_ fun h => ?_) (fun _ t hdone => ?_) fun _ _ hdone => hdone
      · exact (Function.update_self _ _ _).trans (rate_baud hrate)
      · rw [← hs.inv.high_speed]
        exact Bool.not_eq_false _ ▸ fun hslow => hspeed ⟨h, hslow⟩
      · exact Safe.get_bind (hreply _ hdone.1 hdone.2)

/-- The messages of the holder. -/
theorem serveLines_keeps (lines : ℕ) (hs : At origin task role s) (howns : task ∈ s.owns) :
    Keeps origin task (serveLines task lines) (fun _ s' => At origin task role s') s := by
  induction lines generalizing s with
  | zero => exact (owning_steady.await rfl hs howns).mono fun _ _ hdone => hdone.1
  | succ lines ih =>
    refine Safe.seq (owning_steady.await rfl hs howns) (fun line t hdone => ?_) fun _ _ hdone => hdone.1
    obtain ⟨ht, howns, -⟩ := hdone
    match line with
    | none => exact ht
    | some (.error e) => exact ht
    | some (.ok message) =>
      refine Safe.bind (Safe.ofExcept ?_)
      exact Safe.seq (serve_keeps ht howns message) (fun _ t' hdone => ih hdone.1 hdone.2) fun _ _ hdone => hdone.1

/-- The part under the lease. -/
theorem hold_keeps {request : Message} (lines : ℕ) (hs : At origin task (.control peer) s)
    (hread : s.request task = some request) (hop : request.op = .lease) (htoken : request.token = .ok s.token)
    (hfree : s.lease = false) :
    Keeps origin task (hold task peer request lines) (fun _ s' => At origin task (.control peer) s') s := by
  have hgrant := hs.inv.grant hs.role hs.alive hread hop htoken hfree
  have hs' : At origin task (.control peer) (s.grant task request peer) := ⟨hgrant.1, hs.role, hs.alive⟩
  refine Safe.modify_bind hgrant ?_
  split
  · exact hs'
  have hserver : s.data_server = none := (hs.inv.no_lease (hs.inv.unleased hfree)).2.1
  refine Safe.seq (startServer_keeps hs' List.mem_cons_self hserver ⟨_, rfl, rfl⟩) (fun _ t hdone => ?_)
    fun _ _ hdone => hdone.1
  refine Safe.get_bind (Safe.seq (owning_steady.await rfl hdone.1 hdone.2) (fun _ t hdone => ?_)
    fun _ _ hdone => hdone.1)
  exact serveLines_keeps lines hdone.1 hdone.2.1

/-- The lease request. -/
theorem session_keeps (lines : ℕ) (hs : At origin task (.control peer) s) (hfree : task ∉ s.owns)
    (hnone : s.request task = none) :
    Keeps origin task (session task peer lines) (fun _ s' => At origin task (.control peer) s') s := by
  have hreply : ∀ {s : SerialBridge} (reply : Reply), At origin task (.control peer) s → task ∉ s.owns →
      Keeps origin task (await (.reply reply)) (fun _ s' => At origin task (.control peer) s') s :=
    fun reply hs hfree => (free_steady.await rfl hs hfree).mono fun _ _ hdone => hdone.1
  refine Safe.seq (asking_steady.await rfl hs ⟨hfree, hnone⟩) (fun line t hdone => ?_) fun _ _ hdone => hdone.1
  obtain ⟨ht, ⟨hfree, hnone⟩, -⟩ := hdone
  refine Safe.bind (Safe.ofExcept ?_)
  cases line.getD (.error .value) with
  | error e => exact ht
  | ok request =>
    have hset := ht.inv.setRequest ht.used hnone request
    have ht' : At origin task (.control peer) { t with request := Function.update t.request task (some request) } :=
      ⟨hset.1, ht.role, ht.alive⟩
    refine Safe.modify_bind hset (Safe.get_bind ?_)
    split
    · exact hreply _ ht' hfree
    · next hright =>
      refine Safe.bind (Safe.ofExcept ?_)
      cases htoken : request.token with
      | error e => exact ht'
      | ok token =>
        refine Safe.get_bind ?_
        split
        · exact hreply _ ht' hfree
        · next hsame =>
          obtain ⟨hop, hlease⟩ := not_or.mp hright
          refine hold_keeps lines ht' (Function.update_self _ _ _) (not_not.mp hop) ?_ (Bool.eq_false_of_not_eq_true hlease)
          rw [htoken, not_not.mp hsame]

/-- The lease of a handler ends with it. -/
theorem endOwnLease_keeps (hs : At origin task role s) :
    Keeps origin task (endOwnLease task) (fun _ s' => At origin task role s' ∧ task ∉ s'.owns) s := by
  refine Safe.get_bind ?_
  split
  · next howns =>
    refine Safe.andFinally ((end_lease_keeps hs (.inl howns)).mono fun outcome t ht => ?_)
    have hgone : At origin task role (t.disown task) ∧ task ∉ (t.disown task).owns :=
      ⟨⟨ht.inv.disown.1, ht.role, ht.alive⟩, fun h => of_decide_eq_true (List.mem_filter.mp h).2 rfl⟩
    exact ⟨ht.inv.disown, by cases outcome <;> exact hgone⟩
  · next hfree => exact ⟨hs, hfree⟩

/-- The cleanup of a control handler. -/
theorem cleanup_keeps (hs : At origin task (.control peer) s) :
    Keeps origin task (do endOwnLease task; closeWriter; modify (leave task)) (fun _ => Gone origin task) s := by
  refine Safe.seq (endOwnLease_keeps hs) (fun _ t hdone => ?_) fun _ _ hdone => hdone.1.gone_control hdone.2
  refine Safe.seq (free_steady.closeWriter hdone.1 hdone.2) (fun _ t hdone => ?_)
    fun _ _ hdone => hdone.1.gone_control hdone.2
  obtain ⟨ht, hfree⟩ := hdone
  have hleft := ht.inv.leave ht.role hfree
  exact ⟨hleft, hleft.1, ht.used, hfree, ht.inv.idle (by rw [ht.role]; nofun)⟩

/-- `_control` keeps its contract. -/
theorem control_keeps (lines : ℕ) (hs : At origin task (.control peer) s) (hfree : task ∉ s.owns)
    (hnone : s.request task = none) :
    Keeps origin task (control task peer lines) (fun _ _ => True) s := by
  refine ending_keeps (Safe.seq (asking_steady.await rfl hs ⟨hfree, hnone⟩) (fun _ t hdone => ?_)
    fun _ _ hdone => hdone.1.gone_control hdone.2.1.1)
  obtain ⟨ht, ⟨hfree, hnone⟩, -⟩ := hdone
  have hbegun := ht.inv.enterControl ht.used
  refine Safe.modify_bind hbegun (Safe.andFinally_keeps (Safe.tryCatch_keeps
    (session_keeps lines ⟨hbegun.1, ht.role, ht.alive⟩ hfree hnone) ?_) fun _ => cleanup_keeps)
  intro e t ht
  cases e <;> exact ht

/-! ## The data handler and `close` -/

theorem waiting_steady : Steady origin task role (fun s => task ∉ s.started ∧ ¬ Pumping s task) where
  quiet _ _ _ h := h
  frame _ _ _ hnow h := ⟨fun hin => hnow.1 (h.started.mp hin), fun hin => hnow.2 (h.pumps hin)⟩

theorem idle_steady : Steady origin task role (fun s => ¬ Pumping s task) where
  quiet _ _ _ h := h
  frame _ _ _ hidle h := fun hin => hidle (h.pumps hin)

theorem pumping_steady : Steady origin task role (fun s => s.data_task = some task) where
  quiet _ _ _ h := h
  frame _ _ hs hdata h := h.data_task hdata hs.alive

theorem pumped_steady : Steady origin task role (fun s => s.data_task = some task ∧ ¬ Pumping s task) where
  quiet _ _ _ h := h
  frame s s' hs hnow h := ⟨pumping_steady.frame s s' hs hnow.1 h, idle_steady.frame s s' hs hnow.2 h⟩

/-- A data handler without pumps may end. -/
theorem At.gone_data {g : ℕ} (hs : At origin task (.data g peer) s) (hidle : ¬ Pumping s task) :
    Gone origin task s :=
  ⟨hs.inv, hs.used, hs.inv.unowned (by rw [hs.role]; nofun), hidle⟩

/-- Pumps which have ended do not pump. -/
theorem not_pumping (h : s.pumpsEnded task = true) : ¬ Pumping s task := by
  obtain ⟨hto, hfrom⟩ := Bool.and_eq_true_iff.mp h
  rintro (hactive | hactive)
  · rw [of_decide_eq_true hto] at hactive
    cases hactive
  · rw [of_decide_eq_true hfrom] at hactive
    cases hactive

/-- The cleanup of a data handler which pumped. -/
theorem stopPumps_keeps {g : ℕ} (hs : At origin task (.data g peer) s) (hdata : s.data_task = some task) :
    Keeps origin task (do
      modify (cancelPumps task)
      await .gather_pumps
      closeWriter
      modify fun s => { s with data_task := none }) (fun _ => Gone origin task) s := by
  have hcancelled := hs.inv.cancelPumps hs.role
  refine Safe.modify_bind hcancelled ?_
  refine Safe.seq (pumping_steady.await rfl ⟨hcancelled.1, hs.role, hs.alive⟩ hdata) (fun _ t hdone => ?_)
    fun _ _ hdone => hdone.1.gone_data (not_pumping hdone.2.2)
  obtain ⟨ht, hdata, hended⟩ := hdone
  refine Safe.seq (pumped_steady.closeWriter ht ⟨hdata, not_pumping hended⟩) (fun _ t hdone => ?_)
    fun _ _ hdone => hdone.1.gone_data hdone.2.2
  obtain ⟨ht, hdata, hidle⟩ := hdone
  have hcleared := ht.inv.clearTask ht.role hdata hidle
  exact ⟨hcleared, hcleared.1, ht.used, ht.inv.unowned (by rw [ht.role]; nofun), hidle⟩

/-- An admitted connection pumps until one pump ends. -/
theorem pump_keeps {g : ℕ} {address : Peer} (hs : At origin task (.data g (some address)) s)
    (hserver : s.data_server = some g) (hnone : s.data_task = none) (hpeer : s.peer = some address) :
    Keeps origin task (pump task) (fun _ => Gone origin task) s := by
  have hengage := hs.inv.engage hs.role hs.alive hserver hnone hpeer
  have hrole : (s.engage task).role task = some (.data g (some address)) := by
    rw [SerialBridge.engage, closeListener_eq]
    exact hs.role
  have halive : task ∉ (s.engage task).finished := by
    rw [SerialBridge.engage, closeListener_eq]
    exact hs.alive
  have hpumped : Keeps origin task (await .first_completed) (fun _ t =>
      At origin task (.data g (some address)) t ∧ t.data_task = some task) (s.engage task) :=
    (pumping_steady.await rfl ⟨hengage.1, hrole, halive⟩ rfl).mono fun _ _ hdone => ⟨hdone.1, hdone.2.1⟩
  refine Safe.modify_bind hengage (Safe.andFinally_keeps (Safe.tryCatch_keeps hpumped ?_)
    fun _ ht => stopPumps_keeps ht.1 ht.2)
  intro e t ht
  cases e <;> exact ht

/-- `_data` keeps its contract. -/
theorem data_keeps {g : ℕ} (hs : At origin task (.data g peer) s) (hwaiting : task ∉ s.started)
    (hidle : ¬ Pumping s task) :
    Keeps origin task (data task peer) (fun _ _ => True) s := by
  refine ending_keeps (Safe.seq (waiting_steady.await rfl hs ⟨hwaiting, hidle⟩) (fun _ t hdone => ?_)
    fun _ _ hdone => hdone.1.gone_data hdone.2.1.2)
  obtain ⟨ht, ⟨hwaiting, hidle⟩, -⟩ := hdone
  have hserver := ht.inv.waiting task g peer ht.role hwaiting ht.alive
  have hbegun := ht.inv.enterData ht.role
  have ht' : At origin task (.data g peer) (t.enterData task) := ⟨hbegun.1, ht.role, ht.alive⟩
  refine Safe.modify_bind hbegun ?_
  cases peer with
  | none => exact ht'.gone_data hidle
  | some address =>
    refine Safe.get_bind ?_
    split
    · exact (idle_steady.await rfl ht' hidle).mono fun _ _ hdone => hdone.1.gone_data hdone.2.1
    · next hadmitted =>
      simp only [not_or, not_not, ne_eq] at hadmitted
      exact pump_keeps ht' hserver hadmitted.1 hadmitted.2.2

theorem stopping_steady : Steady origin task role (fun s => s.accepting = false) where
  quiet _ _ _ h := h
  frame _ _ _ hclosed h := (h.controls hclosed).1

theorem awaiting_steady (clients : List ℕ) : Steady origin task role (fun s => s.accepting = false ∧
    ∀ t peer, s.role t = some (.control peer) → t ∉ s.finished → t ∈ clients) where
  quiet _ _ _ h := h
  frame _ _ _ hnow h := by
    obtain ⟨hclosed, hcontrols⟩ := h.controls hnow.1
    exact ⟨hclosed, fun t peer hrole halive => hnow.2 t peer (hcontrols t peer hrole)
      fun hin => halive (h.finished t hin)⟩

/-- Once the control connections are lost, their handlers are among the clients. -/
theorem Inv.all_clients (hs : Inv origin s) (hclosed : s.controlClosed = true) (t : ℕ) (peer : Option Peer)
    (hrole : s.role t = some (.control peer)) (halive : t ∉ s.finished) : t ∈ s.clients := by
  refine hs.client t peer hrole ?_ halive
  by_contra hwaiting
  have hin := hs.attached t (by rw [hrole]; exact Option.some_ne_none _) (by rw [hrole]; nofun) hwaiting halive
  have hlost := List.all_eq_true.mp (Bool.and_eq_true_iff.mp hclosed).2 t hin
  simp [hrole] at hlost

/-- `close` keeps its contract. -/
theorem close_keeps (hs : At origin task .close s) : Keeps origin task (close task) (fun _ _ => True) s := by
  have hgone : ∀ {s : SerialBridge}, At origin task .close s → Gone origin task s := fun hs =>
    ⟨hs.inv, hs.used, hs.inv.unowned (by rw [hs.role]; nofun), hs.inv.idle (by rw [hs.role]; nofun)⟩
  have hstopped := hs.inv.stopAccepting hs.role
  refine ending_keeps (Safe.modify_bind hstopped ?_)
  refine Safe.seq (stopping_steady.await rfl ⟨hstopped.1, hs.role, hs.alive⟩ rfl) (fun _ t hdone => ?_)
    fun _ _ hdone => hgone hdone.1
  obtain ⟨ht, haccepting, hclosed⟩ := hdone
  refine Safe.get_bind (Safe.modify_bind (ht.inv.quiet _ _) ?_)
  refine Safe.seq ((awaiting_steady t.clients).await rfl (ht.quiet _ _)
    ⟨haccepting, ht.inv.all_clients hclosed⟩) (fun _ t' hdone => ?_) fun _ _ hdone => hgone hdone.1
  obtain ⟨ht', ⟨haccepting, hclients⟩, hended⟩ := hdone
  have hover : Over t' := by
    refine ⟨haccepting, fun c peer hrole => ?_⟩
    by_contra halive
    exact halive (hended c (hclients c peer hrole halive))
  refine Safe.seq (end_lease_keeps ht' (.inr ⟨ht'.role, hover⟩)) (fun _ t ht => ?_) fun _ _ ht => hgone ht
  exact (free_steady.await rfl ht (hgone ht).free).mono fun _ _ hdone => hgone hdone.1

/-! ## Every run -/

/-- The contracts of the handlers fit together. -/
def discipline (origin : SerialBridge) : Discipline SerialBridge.waits env spawn where
  inv := Inv origin
  contract := contract origin
  ended _ _ _ := True
  guarantee_inv _ _ _ h _ := h.1
  guarantee_rely _ other _ _ hne _ h := ⟨h.1, h.2.1 other hne⟩
  env_inv _ _ h hs := (env_step hs h).1
  env_rely task _ _ hs h := ⟨(env_step hs h).1, (env_step hs h).2 task⟩
  ended_rely _ _ _ _ _ _ := trivial
  spawn_inv _ _ _ _ _ h hs := (spawn_step hs h).1
  spawn_rely _ _ _ _ _ other hne hs h := ⟨(spawn_step hs h).1, (spawn_step hs h).2.1 other hne⟩
  spawn_safe s task job p s' _ hs _ h := by
    obtain ⟨hinv, -, hstarted, halive, hfree, hrequest, hidle, hjob⟩ := spawn_step hs h
    cases job with
    | control peer lines =>
      obtain ⟨rfl, hrole⟩ := hjob
      exact control_keeps lines ⟨hinv, hrole, halive⟩ hfree hrequest
    | data g peer =>
      obtain ⟨rfl, hrole⟩ := hjob
      exact data_keeps ⟨hinv, hrole, halive⟩ hstarted hidle
    | close =>
      obtain ⟨rfl, hrole⟩ := hjob
      exact close_keeps ⟨hinv, hrole, halive⟩

/-- The variables of the bridge stand for one lease at a time. -/
structure Exclusive (origin s : SerialBridge) : Prop where
  legal : Legal origin.token origin.high_speed s.trace
  lease : s.lease = (after s.trace).isSome
  peer : s.peer = (after s.trace).bind (·.peer)
  baud : s.baud = rate origin.baud s.trace
  owner : ∀ t ∈ s.owns, ∃ lease, after s.trace = some lease ∧ lease.holder = t
  one_owner : ∀ t ∈ s.owns, ∀ t' ∈ s.owns, t = t'
  one_pumping : ∀ t t', Pumping s t → Pumping s t' → t = t'
  pumping : ∀ t, Pumping s t → s.lease = true ∧ ∃ g peer lease, s.role t = some (.data g (some peer)) ∧
    s.peer = some peer ∧ after s.trace = some lease ∧ lease.server = some g
  late : ∀ later task request peer earlier, s.trace = later ++ .granted task request peer :: earlier →
    ∀ g, .opened g ∈ earlier → ∀ connection address, .pumped connection g address ∉ later

theorem Inv.exclusive (hs : Inv origin s) : Exclusive origin s where
  legal := hs.legal
  lease := hs.lease
  peer := hs.peer
  baud := hs.baud
  owner t ht := (hs.owner t ht).2.2
  one_owner _ ht _ ht' := hs.owner_unique ht ht'
  one_pumping t t' ht ht' := Option.some.inj ((hs.pumping t ht).1.symm.trans (hs.pumping t' ht').1)
  pumping t ht := by
    obtain ⟨htask, halive⟩ := hs.pumping t ht
    obtain ⟨g, peer, lease, hrole, hlease, hserver, hpeer⟩ := hs.current t htask halive
    refine ⟨by rw [hs.lease, hlease]; rfl, g, peer, lease, hrole, ?_, hlease, hserver⟩
    rw [hs.peer, hlease]
    exact hpeer
  late later task request peer earlier htrace g hopened connection address := by
    have hlegal := hs.legal
    rw [htrace] at hlegal
    exact hlegal.no_late_bytes hopened

/-- What a turn of a control handler without the lease does, from what its steps do. -/
theorem deeds_of_guarantees (hsteps : Relation.ReflTransGen (contract origin task).guarantee s s')
    (hrole : s.role task = some (.control peer)) (hfree : task ∉ s.owns) :
    Untouched s s' ∨ Entitled task s s' := by
  have hall : (s'.token = s.token ∧ s'.role task = s.role task) ∧
      ((Untouched s s' ∧ task ∉ s'.owns) ∨ Entitled task s s') := by
    induction hsteps with
    | refl => exact ⟨⟨rfl, rfl⟩, .inl ⟨.refl s, hfree⟩⟩
    | @tail t t' _ hstep ih =>
      obtain ⟨⟨htoken, hsame⟩, hdeed⟩ := ih
      have hthis := hstep.2.2
      refine ⟨⟨hthis.token.trans htoken, hthis.role.trans hsame⟩, ?_⟩
      rcases hdeed with ⟨huntouched, hstill⟩ | ⟨hlease, request, hread, hright⟩
      · rcases hthis.untouched peer (hsame.trans hrole) hstill with ⟨hnow, hfree'⟩ | ⟨hlease, request, hread, hop, hsent⟩
        · exact .inl ⟨huntouched.trans hnow, hfree'⟩
        · exact .inr ⟨huntouched.lease.symm.trans hlease, request, hread, hop, htoken ▸ hsent⟩
      · exact .inr ⟨hlease, request, hthis.request request hread, hright⟩
  exact hall.2.imp_left And.left

/-- In every run: one lease at a time, one data connection which pumps, and only under the lease, for the
peer of its holder; the baud rate is changed by the holder; and a turn of a control handler which does
not own the lease touches nothing, unless the handler has requested the lease rightly while it was
free. -/
theorem lease_exclusive {token : Bytes} {high_speed : Bool} {baud : ℕ} {world : World}
    (hrun : Reachable token high_speed baud world) :
    Exclusive (start token high_speed baud) world.shared ∧
      ∀ task peer world', Pool.TurnOf SerialBridge.waits task world world' →
        world.shared.role task = some (.control peer) → task ∉ world.shared.owns →
        Untouched world.shared world'.shared ∨ Entitled task world.shared world'.shared := by
  have hstart : (discipline (start token high_speed baud)).Ok (started token high_speed baud) :=
    ⟨inv_start token high_speed baud, fun _ => trivial⟩
  have hok := hstart.run hrun
  exact ⟨Inv.exclusive hok.1, fun task peer world' hturn hrole hfree =>
    deeds_of_guarantees (hok.turn_guaranteed hturn) hrole hfree⟩

/-- A lease is granted, its data connection is admitted, and a chunk goes to the scanner. -/
def pumpingScript : List (Move Input Job Turn) :=
  [.start 0 (.control (some 7) 5), .turn 0 .goes, .turn 0 (.line (some (.ok {op := .lease, token := .ok [1]}))),
    .turn 0 .goes, .turn 0 .goes, .start 1 (.data 0 (some 7)), .turn 1 .goes, .outside (.to_serial 1)]

/-- While bytes are pumped the lease is held by one handler for one data connection. -/
theorem lease_exclusive_pumping : ∃ world : World, world.shared.lease = true ∧ Pumping world.shared 1 ∧
    Exclusive (start [1] true 9600) world.shared := by
  have hoverview : (Pool.play waits spawn react pumpingScript (started [1] true 9600)).map
      (fun world : World => (world.shared.lease, world.shared.to_serial 1)) = some (true, .running) := by
    decide +kernel
  obtain ⟨world, hplayed, hfields⟩ := Option.map_eq_some_iff.mp hoverview
  obtain ⟨hlease, hrunning⟩ := Prod.mk.inj hfields
  have hrun : Reachable [1] true 9600 world := Pool.Reaches.of_play (fun input s s' h => ⟨input, h⟩) hplayed
  exact ⟨world, hlease, .inl (by rw [hrunning]; rfl), (lease_exclusive hrun).1⟩

end Lms200.Bridge
