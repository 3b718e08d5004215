import Lms200.Bridge.Tasks

/-!
# What every step of the bridge keeps

The variables of the bridge stand for the lease of its trace. `Inv` says so, and that whoever acts on
the lease is entitled to: its owner, the data task, and a data handler which has not begun. A task
relies on `Frame`; its own steps keep the invariant and the frame of all others.
-/

namespace Lms200.Bridge

open Coop SerialBridge

/-- A pump of the connection has not ended. -/
def Pumping (s : SerialBridge) (task : ℕ) : Prop :=
  (s.to_serial task).active = true ∨ (s.from_serial task).active = true

/-- The invariant, for a bridge which started as `origin`. -/
structure Inv (origin s : SerialBridge) : Prop where
  token : s.token = origin.token
  high_speed : s.high_speed = origin.high_speed
  legal : Legal origin.token origin.high_speed s.trace
  lease : s.lease = (after s.trace).isSome
  peer : s.peer = (after s.trace).bind (·.peer)
  baud : s.baud = rate origin.baud s.trace
  owner : ∀ t ∈ s.owns, t ∉ s.finished ∧ (∃ peer, s.role t = some (.control peer)) ∧
    ∃ lease, after s.trace = some lease ∧ lease.holder = t
  server : ∀ g, s.data_server = some g → ∃ lease, after s.trace = some lease ∧ lease.server = some g
  fresh : ∀ g, .opened g ∈ s.trace → g < s.servers
  listening : ∀ g ∈ s.listening, s.data_server = some g
  attached : ∀ t, s.role t ≠ none → s.role t ≠ some .close → t ∉ s.started → t ∉ s.finished →
    t ∈ s.attached
  waiting : ∀ t g peer, s.role t = some (.data g peer) → t ∉ s.started → t ∉ s.finished →
    s.data_server = some g
  client : ∀ t peer, s.role t = some (.control peer) → t ∈ s.started → t ∉ s.finished → t ∈ s.clients
  current : ∀ t, s.data_task = some t → t ∉ s.finished → ∃ g peer lease,
    s.role t = some (.data g (some peer)) ∧ after s.trace = some lease ∧ lease.server = some g ∧
      lease.peer = some peer
  pumping : ∀ t, Pumping s t → s.data_task = some t ∧ t ∉ s.finished
  unused : ∀ t, s.role t = none → t ∉ s.started ∧ t ∉ s.finished ∧ s.request t = none

/-- `close` has seen all control handlers end, and no other will begin. -/
def Over (s : SerialBridge) : Prop :=
  s.accepting = false ∧ ∀ t peer, s.role t = some (.control peer) → t ∈ s.finished

/-- What a task may rely on. -/
structure Frame (task : ℕ) (s s' : SerialBridge) : Prop where
  role : ∀ t role, s.role t = some role → s'.role t = some role
  controls : s.accepting = false → s'.accepting = false ∧
    ∀ t peer, s'.role t = some (.control peer) → s.role t = some (.control peer)
  finished : ∀ t ∈ s.finished, t ∈ s'.finished
  owns : task ∈ s'.owns ↔ task ∈ s.owns
  request : s'.request task = s.request task
  requested : s'.requested task = s.requested task
  started : task ∈ s'.started ↔ task ∈ s.started
  alive : task ∈ s'.finished ↔ task ∈ s.finished
  pumps : Pumping s' task → Pumping s task
  lease : task ∈ s.owns → after s'.trace = after s.trace
  data_server : task ∈ s.owns → s'.data_server = s.data_server
  data_task : s.data_task = some task → task ∉ s.finished → s'.data_task = some task
  unserved : s.data_server = none → s'.data_task = s.data_task ∨ s'.data_task = none
  ending : Over s → s'.data_server = s.data_server ∨ s'.data_server = none

/-- What a request may touch. -/
structure Untouched (s s' : SerialBridge) : Prop where
  lease : s'.lease = s.lease
  peer : s'.peer = s.peer
  data_server : s'.data_server = s.data_server
  data_task : s'.data_task = s.data_task
  listening : s'.listening = s.listening
  baud : s'.baud = s.baud
  to_serial : s'.to_serial = s.to_serial
  from_serial : s'.from_serial = s.from_serial
  trace : s'.trace = s.trace

/-- The task has requested a lease rightly while there was none. -/
def Entitled (task : ℕ) (s s' : SerialBridge) : Prop :=
  s.lease = false ∧ ∃ request, s'.request task = some request ∧ request.op = .lease ∧
    request.token = .ok s.token

/-- What a step of a task itself does: a control handler which does not own the lease touches nothing,
unless it is entitled to. -/
structure Deed (task : ℕ) (s s' : SerialBridge) : Prop where
  token : s'.token = s.token
  role : s'.role task = s.role task
  request : ∀ request, s.request task = some request → s'.request task = some request
  untouched : ∀ peer, s.role task = some (.control peer) → task ∉ s.owns →
    (Untouched s s' ∧ task ∉ s'.owns) ∨ Entitled task s s'

/-- The contract of a task. -/
def contract (origin : SerialBridge) (task : ℕ) : Contract SerialBridge where
  rely s s' := Inv origin s' ∧ Frame task s s'
  guarantee s s' := Inv origin s' ∧ (∀ other, other ≠ task → Frame other s s') ∧ Deed task s s'

variable {origin s s' : SerialBridge} {task : ℕ}

theorem Frame.refl (task : ℕ) (s : SerialBridge) : Frame task s s where
  role := fun _ _ h => h
  controls := fun h => ⟨h, fun _ _ h => h⟩
  finished := fun _ h => h
  owns := Iff.rfl
  request := rfl
  requested := rfl
  started := Iff.rfl
  alive := Iff.rfl
  pumps := id
  lease := fun _ => rfl
  data_server := fun _ => rfl
  data_task := fun h _ => h
  unserved := fun _ => .inl rfl
  ending := fun _ => .inl rfl

theorem Untouched.refl (s : SerialBridge) : Untouched s s := ⟨rfl, rfl, rfl, rfl, rfl, rfl, rfl, rfl, rfl⟩

theorem Untouched.trans {s'' : SerialBridge} (h : Untouched s s') (h' : Untouched s' s'') : Untouched s s'' :=
  ⟨h'.lease.trans h.lease, h'.peer.trans h.peer, h'.data_server.trans h.data_server,
    h'.data_task.trans h.data_task, h'.listening.trans h.listening, h'.baud.trans h.baud,
    h'.to_serial.trans h.to_serial, h'.from_serial.trans h.from_serial, h'.trace.trans h.trace⟩

theorem Deed.refl (task : ℕ) (s : SerialBridge) : Deed task s s :=
  ⟨rfl, rfl, fun _ h => h, fun _ _ h => .inl ⟨.refl s, h⟩⟩

/-- The end of the control handlers is for good. -/
theorem Frame.stays_over (h : Frame task s s') (hover : Over s) : Over s' := by
  obtain ⟨haccepting, hcontrols⟩ := h.controls hover.1
  exact ⟨haccepting, fun t peer ht => h.finished t (hover.2 t peer (hcontrols t peer ht))⟩

/-- The lease has one owner. -/
theorem Inv.owner_unique (hs : Inv origin s) {t t' : ℕ} (ht : t ∈ s.owns) (ht' : t' ∈ s.owns) : t = t' := by
  obtain ⟨-, -, lease, hlease, rfl⟩ := hs.owner t ht
  obtain ⟨-, -, lease', hlease', rfl⟩ := hs.owner t' ht'
  rw [Option.some.inj (hlease.symm.trans hlease')]

/-- Nobody owns it once all control handlers have ended. -/
theorem Inv.not_owned (hs : Inv origin s) (hover : Over s) (t : ℕ) : t ∉ s.owns := by
  intro ht
  obtain ⟨halive, ⟨peer, hrole⟩, -⟩ := hs.owner t ht
  exact halive (hover.2 t peer hrole)

/-- Only a data handler has pumps. -/
theorem Inv.idle (hs : Inv origin s) (hrole : ∀ g peer, s.role task ≠ some (.data g peer)) :
    ¬ Pumping s task := by
  intro hpumping
  obtain ⟨htask, halive⟩ := hs.pumping task hpumping
  obtain ⟨g, address, lease, hdata, -⟩ := hs.current task htask halive
  exact hrole g _ hdata

/-- Only a control handler owns the lease. -/
theorem Inv.unowned (hs : Inv origin s) (hrole : ∀ peer, s.role task ≠ some (.control peer)) :
    task ∉ s.owns := by
  intro howns
  obtain ⟨-, ⟨peer, hcontrol⟩, -⟩ := hs.owner task howns
  exact hrole peer hcontrol

/-- A fresh bridge is in order. -/
theorem inv_start (token : Bytes) (high_speed : Bool) (baud : ℕ) :
    Inv (start token high_speed baud) (start token high_speed baud) where
  token := rfl
  high_speed := rfl
  legal := trivial
  lease := rfl
  peer := rfl
  baud := rfl
  owner := fun _ ht => absurd ht List.not_mem_nil
  server := nofun
  fresh := fun _ hg => absurd hg List.not_mem_nil
  listening := fun _ hg => absurd hg List.not_mem_nil
  attached := fun _ hrole => absurd rfl hrole
  waiting := nofun
  client := nofun
  current := nofun
  pumping := by
    rintro t (h | h) <;> cases h
  unused := fun _ _ => ⟨List.not_mem_nil, List.not_mem_nil, rfl⟩

/-! ## The outside -/

/-- Pumped bytes are the ones of the lease's data connection. -/
theorem pumped_step {t : ℕ} (hs : Inv origin s) (hpumping : Pumping s t) (h : s.pumped t = some s') :
    Inv origin s' ∧ ∀ task, Frame task s s' := by
  obtain ⟨htask, halive⟩ := hs.pumping t hpumping
  obtain ⟨g, peer, lease, hrole, hlease, hserver, hpeer⟩ := hs.current t htask halive
  simp only [SerialBridge.pumped, hrole, Option.some.injEq] at h
  subst h
  refine ⟨{ hs with
    legal := ⟨⟨lease, hlease, hserver, hpeer⟩, hs.legal⟩
    fresh := fun g' hg' => hs.fresh g' ?_ }, fun task => { Frame.refl task s with }⟩
  exact (List.mem_cons.mp hg').resolve_left nofun

/-- A pump which ends no longer pumps. -/
theorem pumping_ended {t c : ℕ} {pump : ℕ → Pump} (h : (Function.update pump t .ended c).active = true) :
    (pump c).active = true := by
  by_cases hc : c = t
  · subst hc
    rw [Function.update_self] at h
    cases h
  · rwa [Function.update_of_ne hc] at h

/-- The outside keeps the invariant, and what every task relies on. -/
theorem env_step (hs : Inv origin s) (h : env s s') : Inv origin s' ∧ ∀ task, Frame task s s' := by
  obtain ⟨input, hreact⟩ := h
  cases input with
  | lost t =>
    simp only [react, Option.ite_none_right_eq_some, Option.some.injEq] at hreact
    obtain ⟨hbegun, rfl⟩ := hreact
    refine ⟨{ hs with attached := fun c hused hopen hstarted hfinished => ?_ },
      fun task => { Frame.refl task s with }⟩
    refine List.mem_filter.mpr ⟨hs.attached c hused hopen hstarted hfinished, decide_eq_true ?_⟩
    rintro rfl
    exact hbegun.elim hstarted hfinished
  | cancel t =>
    obtain rfl := Option.some.inj hreact
    exact ⟨{ hs with }, fun task => { Frame.refl task s with }⟩
  | to_serial t =>
    simp only [react, Option.ite_none_right_eq_some] at hreact
    exact pumped_step hs (.inl (by rw [hreact.1]; rfl)) hreact.2
  | from_serial t =>
    simp only [react, Option.ite_none_right_eq_some] at hreact
    exact pumped_step hs (.inr (by rw [hreact.1]; rfl)) hreact.2
  | to_serial_ends t =>
    simp only [react, Option.ite_none_right_eq_some, Option.some.injEq] at hreact
    obtain ⟨-, rfl⟩ := hreact
    have hpumping : ∀ c, Pumping { s with to_serial := Function.update s.to_serial t .ended } c →
        Pumping s c := fun c hc => hc.imp_left pumping_ended
    exact ⟨{ hs with pumping := fun c hc => hs.pumping c (hpumping c hc) },
      fun task => { Frame.refl task s with pumps := hpumping task }⟩
  | from_serial_ends t =>
    simp only [react, Option.ite_none_right_eq_some, Option.some.injEq] at hreact
    obtain ⟨-, rfl⟩ := hreact
    have hpumping : ∀ c, Pumping { s with from_serial := Function.update s.from_serial t .ended } c →
        Pumping s c := fun c hc => hc.imp_right pumping_ended
    exact ⟨{ hs with pumping := fun c hc => hs.pumping c (hpumping c hc) },
      fun task => { Frame.refl task s with pumps := hpumping task }⟩

/-! ## A slot is given to a role -/

/-- A slot which is not in use has no role in anything. -/
theorem Inv.assign (hs : Inv origin s) (role : Role) (attached : List ℕ) (hfree : s.role task = none)
    (hcontrol : ∀ peer, role = .control peer → s.accepting = true)
    (hdata : ∀ g peer, role = .data g peer → s.data_server = some g)
    (hattached : ∀ t ∈ s.attached, t ∈ attached) (haccepted : role ≠ .close → task ∈ attached) :
    Inv origin { s.assign task role with attached } ∧
      ∀ other, other ≠ task → Frame other s { s.assign task role with attached } := by
  have hself : Function.update s.role task (some role) task = some role := Function.update_self _ _ _
  have hother : ∀ t, t ≠ task → Function.update s.role task (some role) t = s.role t :=
    fun t ht => Function.update_of_ne ht _ _
  have hkeeps : ∀ t r, s.role t = some r → Function.update s.role task (some role) t = some r := by
    intro t r hr
    refine (hother t ?_).trans hr
    rintro rfl
    cases hfree.symm.trans hr
  obtain ⟨hstarted, hfinished, hrequest⟩ := hs.unused task hfree
  refine ⟨{ hs with owner := ?_, attached := ?_, waiting := ?_, client := ?_, current := ?_, unused := ?_ }, ?_⟩
  · intro t ht
    obtain ⟨halive, ⟨peer, hrole⟩, hlease⟩ := hs.owner t ht
    exact ⟨halive, ⟨peer, hkeeps t _ hrole⟩, hlease⟩
  · intro t hused hopen hbegun hended
    by_cases ht : t = task
    · subst ht
      refine haccepted fun hclose => hopen ?_
      rw [← hclose]
      exact hself
    · rw [show ({ s.assign task role with attached } : SerialBridge).role t = s.role t from hother t ht] at hused hopen
      exact hattached t (hs.attached t hused hopen hbegun hended)
  · intro t g peer hrole hbegun hended
    by_cases ht : t = task
    · subst ht
      exact hdata g peer (Option.some.inj (hself.symm.trans hrole))
    · exact hs.waiting t g peer ((hother t ht).symm.trans hrole) hbegun hended
  · intro t peer hrole hbegun hended
    refine hs.client t peer ((hother t ?_).symm.trans hrole) hbegun hended
    rintro rfl
    exact hstarted hbegun
  · intro t ht halive
    obtain ⟨g, peer, lease, hrole, hlease⟩ := hs.current t ht halive
    exact ⟨g, peer, lease, hkeeps t _ hrole, hlease⟩
  · intro t ht
    refine hs.unused t ((hother t ?_).symm.trans ht)
    rintro rfl
    cases hself.symm.trans ht
  · intro other hne
    refine { Frame.refl other s with role := hkeeps, controls := fun hclosed => ⟨hclosed, fun t peer ht => ?_⟩ }
    refine (hother t ?_).symm.trans ht
    rintro rfl
    have hrole : role = .control peer := Option.some.inj (hself.symm.trans ht)
    cases (hcontrol peer hrole).symm.trans hclosed

/-- What a new task starts from, and that it leaves the others alone. -/
theorem spawn_step {job : Job} {p : Task Unit} (hs : Inv origin s) (h : spawn task job s = some (p, s')) :
    Inv origin s' ∧ (∀ other, other ≠ task → Frame other s s') ∧
      task ∉ s'.started ∧ task ∉ s'.finished ∧ task ∉ s'.owns ∧ s'.request task = none ∧ ¬ Pumping s' task ∧
        match job with
        | .control peer lines => p = control task peer lines ∧ s'.role task = some (.control peer)
        | .data g peer => p = data task peer ∧ s'.role task = some (.data g peer)
        | .close => p = close task ∧ s'.role task = some .close := by
  have hunowned : s.role task = none → task ∉ s.owns := fun hfree => hs.unowned (by rw [hfree]; nofun)
  have hidle : s.role task = none → ¬ Pumping s task := fun hfree => hs.idle (by rw [hfree]; nofun)
  cases job with
  | control peer lines =>
    simp only [spawn, Option.ite_none_right_eq_some, Option.some.injEq, Prod.mk.injEq] at h
    obtain ⟨⟨hfree, haccepting⟩, rfl, rfl⟩ := h
    obtain ⟨hstarted, hfinished, hrequest⟩ := hs.unused task hfree
    obtain ⟨hinv, hframe⟩ := hs.assign (.control peer) (task :: s.attached) hfree
      (fun _ _ => haccepting) (fun _ _ => nofun) (fun _ ht => List.mem_cons_of_mem _ ht)
      fun _ => List.mem_cons_self
    exact ⟨hinv, hframe, hstarted, hfinished, hunowned hfree, hrequest, hidle hfree, rfl, Function.update_self _ _ _⟩
  | data g peer =>
    simp only [spawn, Option.ite_none_right_eq_some, Option.some.injEq, Prod.mk.injEq] at h
    obtain ⟨⟨hfree, hlistening⟩, rfl, rfl⟩ := h
    obtain ⟨hstarted, hfinished, hrequest⟩ := hs.unused task hfree
    obtain ⟨hinv, hframe⟩ := hs.assign (.data g peer) (task :: s.attached) hfree
      (fun _ => nofun) (fun g' peer' hrole => by cases hrole; exact hs.listening g hlistening)
      (fun _ ht => List.mem_cons_of_mem _ ht) fun _ => List.mem_cons_self
    exact ⟨hinv, hframe, hstarted, hfinished, hunowned hfree, hrequest, hidle hfree, rfl, Function.update_self _ _ _⟩
  | close =>
    simp only [spawn, Option.ite_none_right_eq_some, Option.some.injEq, Prod.mk.injEq] at h
    obtain ⟨hfree, rfl, rfl⟩ := h
    obtain ⟨hstarted, hfinished, hrequest⟩ := hs.unused task hfree
    obtain ⟨hinv, hframe⟩ := hs.assign .close s.attached hfree
      (fun _ => nofun) (fun _ _ => nofun) (fun _ ht => ht) fun hne => absurd rfl hne
    exact ⟨hinv, hframe, hstarted, hfinished, hunowned hfree, hrequest, hidle hfree, rfl, Function.update_self _ _ _⟩

end Lms200.Bridge
