import Lms200.Bridge.Invariant

/-!
# The steps of the handlers

Each statement of a coroutine which changes the bridge keeps the contract of its task, from what the
task knows when it comes to the statement.
-/

namespace Lms200.Bridge

open Coop SerialBridge

variable {origin s s' : SerialBridge} {task : ℕ}

/-- The task may act on the lease: it owns it, or it is `close` after all control handlers. -/
def Ender (task : ℕ) (s : SerialBridge) : Prop :=
  task ∈ s.owns ∨ s.role task = some .close ∧ Over s

/-- Nobody else owns the lease then. -/
theorem Ender.not_other (hs : Inv origin s) (hender : Ender task s) {other : ℕ} (hne : other ≠ task) :
    other ∉ s.owns := by
  rcases hender with howns | ⟨-, hover⟩
  · exact fun hother => hne (hs.owner_unique hother howns)
  · exact hs.not_owned hover other

/-- Only a control handler which does not own the lease is asked what it touches. -/
theorem Ender.touches (hender : Ender task s) {peer : Option Peer} (hrole : s.role task = some (.control peer))
    (hfree : task ∉ s.owns) : (Untouched s s' ∧ task ∉ s'.owns) ∨ Entitled task s s' := by
  rcases hender with howns | ⟨hclose, -⟩
  · exact absurd howns hfree
  · cases hclose.symm.trans hrole

/-- What `asyncio` keeps about cancellations and waits is nobody's concern. -/
theorem Inv.quiet (hs : Inv origin s) (cancelled : List ℕ) (waiters : List (ℕ × ℕ)) :
    (contract origin task).guarantee s { s with cancelled, waiters } :=
  ⟨{ hs with }, fun other _ => { Frame.refl other s with },
    { Deed.refl task s with untouched := fun _ _ hfree => .inl ⟨{ Untouched.refl s with }, hfree⟩ }⟩

/-- A slot in use stays out of the unused ones. -/
theorem Inv.unused_cons (hs : Inv origin s) (hrole : s.role task ≠ none) {started finished : List ℕ}
    (hstarted : started = s.started ∨ started = task :: s.started)
    (hfinished : finished = s.finished ∨ finished = task :: s.finished) (t : ℕ) (ht : s.role t = none) :
    t ∉ started ∧ t ∉ finished ∧ s.request t = none := by
  have hne : t ≠ task := by
    rintro rfl
    exact hrole ht
  obtain ⟨hbegun, hended, hrequest⟩ := hs.unused t ht
  refine ⟨?_, ?_, hrequest⟩
  · rcases hstarted with rfl | rfl
    · exact hbegun
    · exact List.not_mem_cons_of_ne_of_not_mem hne hbegun
  · rcases hfinished with rfl | rfl
    · exact hended
    · exact List.not_mem_cons_of_ne_of_not_mem hne hended

/-- A control handler begins. -/
theorem Inv.enterControl (hs : Inv origin s) (hrole : s.role task ≠ none) :
    (contract origin task).guarantee s (s.enterControl task) := by
  refine ⟨{ hs with attached := ?_, waiting := ?_, client := ?_, unused := ?_ }, fun other hne => ?_, ?_⟩
  · exact fun t hused hopen hbegun => hs.attached t hused hopen fun h => hbegun (List.mem_cons_of_mem _ h)
  · exact fun t g peer hdata hbegun => hs.waiting t g peer hdata fun h => hbegun (List.mem_cons_of_mem _ h)
  · intro t peer hcontrol hbegun halive
    rcases List.mem_cons.mp hbegun with rfl | hbegun
    · exact List.mem_cons_self
    · exact List.mem_cons_of_mem _ (hs.client t peer hcontrol hbegun halive)
  · exact hs.unused_cons hrole (.inr rfl) (.inl rfl)
  · exact { Frame.refl other s with
      started := ⟨fun h => (List.mem_cons.mp h).resolve_left hne, List.mem_cons_of_mem _⟩ }
  · exact { Deed.refl task s with untouched := fun _ _ hfree => .inl ⟨{ Untouched.refl s with }, hfree⟩ }

/-- A data handler begins. -/
theorem Inv.enterData (hs : Inv origin s) {g : ℕ} {peer : Option Peer}
    (hrole : s.role task = some (.data g peer)) :
    (contract origin task).guarantee s (s.enterData task) := by
  refine ⟨{ hs with attached := ?_, waiting := ?_, client := ?_, unused := ?_ }, fun other hne => ?_, ?_⟩
  · exact fun t hused hopen hbegun => hs.attached t hused hopen fun h => hbegun (List.mem_cons_of_mem _ h)
  · exact fun t g peer hdata hbegun => hs.waiting t g peer hdata fun h => hbegun (List.mem_cons_of_mem _ h)
  · intro t peer hcontrol hbegun halive
    rcases List.mem_cons.mp hbegun with rfl | hbegun
    · cases hcontrol.symm.trans hrole
    · exact hs.client t peer hcontrol hbegun halive
  · exact hs.unused_cons (by rw [hrole]; exact Option.some_ne_none _) (.inr rfl) (.inl rfl)
  · exact { Frame.refl other s with
      started := ⟨fun h => (List.mem_cons.mp h).resolve_left hne, List.mem_cons_of_mem _⟩ }
  · exact { Deed.refl task s with untouched := fun _ _ hfree => .inl ⟨{ Untouched.refl s with }, hfree⟩ }

/-- A control handler has read its request. -/
theorem Inv.setRequest (hs : Inv origin s) (hrole : s.role task ≠ none) (hnone : s.request task = none)
    (request : Message) :
    (contract origin task).guarantee s
      { s with request := Function.update s.request task (some request) } := by
  refine ⟨{ hs with unused := fun t ht => ?_ }, fun other hne => ?_, ?_⟩
  · obtain ⟨hbegun, hended, hrequest⟩ := hs.unused t ht
    refine ⟨hbegun, hended, (Function.update_of_ne ?_ _ _).trans hrequest⟩
    rintro rfl
    exact hrole ht
  · exact { Frame.refl other s with request := Function.update_of_ne hne _ _ }
  · exact { Deed.refl task s with
      request := fun _ hsome => by cases hnone.symm.trans hsome
      untouched := fun _ _ hfree => .inl ⟨{ Untouched.refl s with }, hfree⟩ }

/-- A control handler has read a message. -/
theorem Inv.setRequested (hs : Inv origin s) (baud : Option ℕ) :
    (contract origin task).guarantee s
      { s with requested := Function.update s.requested task baud } :=
  ⟨{ hs with }, fun other hne => { Frame.refl other s with requested := Function.update_of_ne hne _ _ },
    { Deed.refl task s with untouched := fun _ _ hfree => .inl ⟨{ Untouched.refl s with }, hfree⟩ }⟩

/-- Where there is no lease there is no data listener, no data task which runs, and no data handler
which waits for its first step. -/
theorem Inv.no_lease (hs : Inv origin s) (hnone : after s.trace = none) :
    s.owns = [] ∧ s.data_server = none ∧ ∀ t, s.data_task = some t → t ∈ s.finished := by
  refine ⟨?_, ?_, fun t ht => ?_⟩
  · refine List.eq_nil_iff_forall_not_mem.mpr fun t ht => ?_
    obtain ⟨-, -, lease, hlease, -⟩ := hs.owner t ht
    cases hnone.symm.trans hlease
  · refine Option.eq_none_iff_forall_ne_some.mpr fun g hg => ?_
    obtain ⟨lease, hlease, -⟩ := hs.server g hg
    cases hnone.symm.trans hlease
  · by_contra halive
    obtain ⟨g, peer, lease, -, hlease, -⟩ := hs.current t ht halive
    cases hnone.symm.trans hlease

/-- The variable `_lease` says so. -/
theorem Inv.unleased (hs : Inv origin s) (hfree : s.lease = false) : after s.trace = none := by
  have hlease := hs.lease
  rw [hfree] at hlease
  exact Option.not_isSome_iff_eq_none.mp (by simp [← hlease])

/-- A right request gets the lease while there is none. -/
theorem Inv.grant (hs : Inv origin s) {peer : Option Peer} {request : Message}
    (hrole : s.role task = some (.control peer)) (halive : task ∉ s.finished)
    (hread : s.request task = some request) (hop : request.op = .lease) (htoken : request.token = .ok s.token)
    (hfree : s.lease = false) :
    (contract origin task).guarantee s (s.grant task request peer) := by
  have hnone := hs.unleased hfree
  obtain ⟨howns, hserver, hdata⟩ := hs.no_lease hnone
  have hclosed : s.listening = [] := by
    refine List.eq_nil_iff_forall_not_mem.mpr fun g hg => ?_
    cases hserver.symm.trans (hs.listening g hg)
  refine ⟨{ hs with legal := ?_, lease := rfl, peer := rfl, owner := ?_, server := ?_, fresh := ?_, current := ?_ },
    fun other hne => ?_, ?_⟩
  · exact ⟨⟨hnone, hop, hs.token ▸ htoken⟩, hs.legal⟩
  · intro t ht
    obtain rfl : t = task := by simpa [SerialBridge.grant, howns] using ht
    exact ⟨halive, ⟨peer, hrole⟩, _, rfl, rfl⟩
  · exact fun g hg => by cases hserver.symm.trans hg
  · exact fun g hg => hs.fresh g ((List.mem_cons.mp hg).resolve_left nofun)
  · exact fun t ht hrunning => absurd (hdata t ht) hrunning
  · have hother : other ∉ s.owns := by simp [howns]
    exact { Frame.refl other s with
      owns := ⟨fun h => (List.mem_cons.mp h).resolve_left hne, List.mem_cons_of_mem _⟩
      lease := fun h => absurd h hother }
  · exact { Deed.refl task s with untouched := fun _ _ _ => .inr ⟨hfree, request, hread, hop, htoken⟩ }

/-- The owner opens the listener of its lease. -/
theorem Inv.openServer (hs : Inv origin s) (howns : task ∈ s.owns) (hserver : s.data_server = none)
    {lease : Lease} (hlease : after s.trace = some lease) (hunopened : lease.server = none) :
    (contract origin task).guarantee s s.openServer := by
  have hclosed : s.listening = [] := by
    refine List.eq_nil_iff_forall_not_mem.mpr fun g hg => ?_
    cases hserver.symm.trans (hs.listening g hg)
  have hafter : after s.openServer.trace = some { lease with server := some s.servers } := by
    simp [SerialBridge.openServer, after, hlease]
  refine ⟨{ hs with
      legal := ?_, lease := ?_, peer := ?_, owner := ?_, server := ?_, fresh := ?_
      listening := ?_, waiting := ?_, current := ?_ }, fun other hne => ?_, ?_⟩
  · exact ⟨⟨⟨lease, hlease, hunopened⟩, fun hopened => (hs.fresh _ hopened).false⟩, hs.legal⟩
  · rw [hafter]
    exact hs.lease.trans (by rw [hlease]; rfl)
  · rw [hafter]
    exact hs.peer.trans (by rw [hlease]; rfl)
  · intro t ht
    obtain ⟨halive, hrole, lease', hlease', hholder⟩ := hs.owner t ht
    obtain rfl := Option.some.inj (hlease.symm.trans hlease')
    exact ⟨halive, hrole, _, hafter, hholder⟩
  · intro g hg
    exact ⟨_, hafter, hg⟩
  · intro g hg
    rcases List.mem_cons.mp hg with heq | hg
    · obtain rfl := Event.opened.inj heq
      exact Nat.lt_succ_self _
    · exact Nat.lt_succ_of_lt (hs.fresh g hg)
  · intro g hg
    obtain rfl : g = s.servers := by simpa [SerialBridge.openServer, hclosed] using hg
    rfl
  · intro t g peer hrole hbegun hended
    cases hserver.symm.trans (hs.waiting t g peer hrole hbegun hended)
  · intro t ht halive
    obtain ⟨g, peer, lease', -, hlease', hserver', -⟩ := hs.current t ht halive
    obtain rfl := Option.some.inj (hlease.symm.trans hlease')
    cases hunopened.symm.trans hserver'
  · have hother : other ∉ s.owns := fun h => hne (hs.owner_unique h howns)
    exact { Frame.refl other s with
      lease := fun h => absurd h hother
      data_server := fun h => absurd h hother
      ending := fun hover => absurd howns (hs.not_owned hover task) }
  · exact { Deed.refl task s with untouched := fun _ _ hfree => absurd howns hfree }

/-- The owner changes the baud rate as its client requested. -/
theorem Inv.switch (hs : Inv origin s) (howns : task ∈ s.owns) {baud : ℕ}
    (hrequested : s.requested task = some baud) (hspeed : baud = 500000 → s.high_speed = true) :
    (contract origin task).guarantee s (s.switch task baud) := by
  obtain ⟨-, -, lease, hlease, hholder⟩ := hs.owner task howns
  refine ⟨{ hs with legal := ?_, baud := rfl, fresh := ?_ }, fun other _ => { Frame.refl other s with },
    { Deed.refl task s with untouched := fun _ _ hfree => absurd howns hfree }⟩
  · exact ⟨⟨⟨lease, hlease, hholder⟩, hrequested, fun h => hs.high_speed ▸ hspeed h⟩, hs.legal⟩
  · exact fun g hg => hs.fresh g ((List.mem_cons.mp hg).resolve_left nofun)

/-! ## The end of a lease -/

theorem closeListener_subset (s : SerialBridge) : ∀ g ∈ s.closeListener.listening, g ∈ s.listening := by
  intro g hg
  unfold SerialBridge.closeListener at hg
  split at hg
  · exact (List.mem_filter.mp hg).1
  · exact hg

/-- Closing the listener changes nothing else. -/
theorem closeListener_eq (s : SerialBridge) :
    s.closeListener = { s with listening := s.closeListener.listening } := by
  unfold SerialBridge.closeListener
  split <;> rfl

/-- The listener is closed. -/
theorem Inv.closeListener (hs : Inv origin s) (hender : Ender task s) :
    (contract origin task).guarantee s s.closeListener := by
  rw [closeListener_eq]
  exact ⟨{ hs with listening := fun g hg => hs.listening g (closeListener_subset s g hg) },
    fun other _ => { Frame.refl other s with },
    { Deed.refl task s with untouched := fun _ hrole hfree => hender.touches hrole hfree }⟩

/-- The closed listener is forgotten. No data handler waits for its first step then. -/
theorem Inv.clearServer (hs : Inv origin s) (hender : Ender task s) {g : ℕ}
    (hserver : s.data_server = some g ∨ s.data_server = none) (hclosed : s.serverClosed g = true) :
    (contract origin task).guarantee s { s with data_server := none } := by
  obtain ⟨hlistening, hattached⟩ := Bool.and_eq_true_iff.mp hclosed
  have hnot : ∀ g', s.data_server = some g' → g' = g := by
    intro g' hg'
    rcases hserver with hsome | hnone
    · exact Option.some.inj (hg'.symm.trans hsome)
    · cases hnone.symm.trans hg'
  refine ⟨{ hs with server := nofun, listening := ?_, waiting := ?_ }, fun other hne => ?_, ?_⟩
  · intro g' hg'
    obtain rfl := hnot g' (hs.listening g' hg')
    exact absurd hg' (of_decide_eq_true hlistening)
  · intro t g' peer hrole hbegun halive
    obtain rfl := hnot g' (hs.waiting t g' peer hrole hbegun halive)
    have hdata : s.role t = some (.data g' peer) := hrole
    have hin := hs.attached t (by rw [hdata]; exact Option.some_ne_none _) (by rw [hdata]; nofun) hbegun halive
    have hlost := List.all_eq_true.mp hattached t hin
    simp [hdata] at hlost
  · exact { Frame.refl other s with
      data_server := fun h => absurd h (hender.not_other hs hne)
      unserved := fun _ => .inl rfl
      ending := fun _ => .inr rfl }
  · exact { Deed.refl task s with untouched := fun _ hrole hfree => hender.touches hrole hfree }

/-- The lease is released once its listener is forgotten and its data task has ended. -/
theorem Inv.release (hs : Inv origin s) (hender : Ender task s) (hserver : s.data_server = none)
    (hdata : ∀ t, s.data_task = some t → t ∈ s.finished) :
    (contract origin task).guarantee s s.release := by
  refine ⟨{ hs with
      legal := ⟨trivial, hs.legal⟩, lease := rfl, peer := rfl, owner := ?_, server := ?_, fresh := ?_
      waiting := ?_, current := ?_ }, fun other hne => ?_, ?_⟩
  · exact fun t ht => absurd ht List.not_mem_nil
  · exact fun g hg => by cases hserver.symm.trans hg
  · exact fun g hg => hs.fresh g ((List.mem_cons.mp hg).resolve_left nofun)
  · exact hs.waiting
  · exact fun t ht halive => absurd (hdata t ht) halive
  · have hother := hender.not_other hs hne
    exact { Frame.refl other s with
      owns := ⟨fun h => absurd h List.not_mem_nil, fun h => absurd h hother⟩
      lease := fun h => absurd h hother }
  · exact { Deed.refl task s with untouched := fun _ hrole hfree => hender.touches hrole hfree }

/-- A handler gives up its lease. -/
theorem Inv.disown (hs : Inv origin s) : (contract origin task).guarantee s (s.disown task) := by
  refine ⟨{ hs with owner := fun t ht => hs.owner t (List.mem_filter.mp ht).1 }, fun other hne => ?_, ?_⟩
  · exact { Frame.refl other s with
      owns := ⟨fun h => (List.mem_filter.mp h).1, fun h => List.mem_filter.mpr ⟨h, decide_eq_true hne⟩⟩ }
  · exact { Deed.refl task s with
      untouched := fun _ _ hfree => .inl ⟨{ Untouched.refl s with }, fun h => hfree (List.mem_filter.mp h).1⟩ }

/-! ## The end of a task -/

/-- A task which owns nothing and has no pumps may end. -/
theorem Inv.finish (hs : Inv origin s) (hrole : s.role task ≠ none) (hfree : task ∉ s.owns)
    (hidle : ¬ Pumping s task) : (contract origin task).guarantee s (s.finish task) := by
  have hlives : ∀ {t : ℕ}, t ∉ task :: s.finished → t ∉ s.finished := fun h hin => h (List.mem_cons_of_mem _ hin)
  refine ⟨{ hs with
      owner := ?_, attached := ?_, waiting := ?_, client := ?_, current := ?_, pumping := ?_
      unused := ?_ }, fun other hne => ?_, ?_⟩
  · intro t ht
    obtain ⟨halive, howner⟩ := hs.owner t ht
    refine ⟨fun hin => ?_, howner⟩
    rcases List.mem_cons.mp hin with rfl | hin
    · exact hfree ht
    · exact halive hin
  · exact fun t hused hopen hbegun halive => hs.attached t hused hopen hbegun (hlives halive)
  · exact fun t g peer hdata hbegun halive => hs.waiting t g peer hdata hbegun (hlives halive)
  · exact fun t peer hcontrol hbegun halive => hs.client t peer hcontrol hbegun (hlives halive)
  · exact fun t ht halive => hs.current t ht (hlives halive)
  · intro t ht
    obtain ⟨hdata, halive⟩ := hs.pumping t ht
    refine ⟨hdata, fun hin => ?_⟩
    rcases List.mem_cons.mp hin with rfl | hin
    · exact hidle ht
    · exact halive hin
  · exact hs.unused_cons hrole (.inl rfl) (.inr rfl)
  · exact { Frame.refl other s with
      finished := fun _ h => List.mem_cons_of_mem _ h
      alive := ⟨fun h => (List.mem_cons.mp h).resolve_left hne, List.mem_cons_of_mem _⟩ }
  · exact { Deed.refl task s with untouched := fun _ _ hfree => .inl ⟨{ Untouched.refl s with }, hfree⟩ }

/-- A control handler leaves the clients with its last step. -/
theorem Inv.leave (hs : Inv origin s) {peer : Option Peer} (hrole : s.role task = some (.control peer))
    (hfree : task ∉ s.owns) : (contract origin task).guarantee s (s.leave task) := by
  obtain ⟨hinv, hframe, hdeed⟩ := hs.finish (by rw [hrole]; exact Option.some_ne_none _) hfree
    (hs.idle (by rw [hrole]; nofun))
  refine ⟨{ hinv with client := fun t peer hcontrol hbegun halive => ?_ }, fun other hne => { hframe other hne with },
    { hdeed with untouched := fun _ _ hfree => .inl ⟨{ Untouched.refl s with }, hfree⟩ }⟩
  refine List.mem_filter.mpr ⟨hinv.client t peer hcontrol hbegun halive, decide_eq_true ?_⟩
  rintro rfl
  exact halive List.mem_cons_self

/-! ## A data handler -/

/-- A data connection is admitted under the lease of its listener. -/
theorem Inv.engage (hs : Inv origin s) {g : ℕ} {peer : Peer} (hrole : s.role task = some (.data g (some peer)))
    (halive : task ∉ s.finished) (hserver : s.data_server = some g) (hnone : s.data_task = none)
    (hpeer : s.peer = some peer) : (contract origin task).guarantee s (s.engage task) := by
  obtain ⟨lease, hlease, hlistener⟩ := hs.server g hserver
  have hquiet : ∀ t, ¬ Pumping s t := by
    intro t ht
    cases hnone.symm.trans (hs.pumping t ht).1
  have hpumping : ∀ t, Pumping (s.engage task) t → t = task := by
    intro t ht
    by_contra hne
    refine hquiet t ?_
    simpa only [Pumping, SerialBridge.engage, Function.update_of_ne hne] using ht
  have hengage : s.engage task = { s with
      listening := s.closeListener.listening
      data_task := some task
      to_serial := Function.update s.to_serial task .running
      from_serial := Function.update s.from_serial task .running } := by
    rw [SerialBridge.engage, closeListener_eq]
  rw [hengage] at hpumping ⊢
  refine ⟨{ hs with listening := ?_, current := ?_, pumping := ?_ }, fun other hne => ?_, ?_⟩
  · exact fun g hg => hs.listening g (closeListener_subset s g hg)
  · intro t ht _
    obtain rfl := Option.some.inj ht
    refine ⟨g, peer, lease, hrole, hlease, hlistener, ?_⟩
    simpa [hlease, hpeer] using hs.peer.symm
  · intro t ht
    obtain rfl := hpumping t ht
    exact ⟨rfl, halive⟩
  · exact { Frame.refl other s with
      pumps := fun h => absurd (hpumping other h) hne
      data_task := fun h => by cases hnone.symm.trans h
      unserved := fun h => by cases h.symm.trans hserver }
  · exact { Deed.refl task s with untouched := fun _ hcontrol => by cases hrole.symm.trans hcontrol }

theorem active_cancelPump (pump : Pump) : (cancelPump pump).active = pump.active := by
  cases pump <;> rfl

/-- Cancelling a pump does not end it. -/
theorem pumping_cancelPumps (t : ℕ) : Pumping (s.cancelPumps task) t ↔ Pumping s t := by
  have hactive : ∀ pump : ℕ → Pump,
      (Function.update pump task (cancelPump (pump task)) t).active = (pump t).active := by
    intro pump
    by_cases ht : t = task
    · subst ht
      rw [Function.update_self, active_cancelPump]
    · rw [Function.update_of_ne ht]
  simp only [Pumping, SerialBridge.cancelPumps, hactive]

/-- The pumps of a data handler are cancelled. -/
theorem Inv.cancelPumps (hs : Inv origin s) {g : ℕ} {peer : Option Peer}
    (hrole : s.role task = some (.data g peer)) :
    (contract origin task).guarantee s (s.cancelPumps task) :=
  ⟨{ hs with pumping := fun t ht => hs.pumping t ((pumping_cancelPumps t).mp ht) },
    fun other _ => { Frame.refl other s with pumps := (pumping_cancelPumps other).mp },
    { Deed.refl task s with untouched := fun _ hcontrol => by cases hrole.symm.trans hcontrol }⟩

/-- The data handler is done. -/
theorem Inv.clearTask (hs : Inv origin s) {g : ℕ} {peer : Option Peer}
    (hrole : s.role task = some (.data g peer)) (hdata : s.data_task = some task)
    (hidle : ¬ Pumping s task) :
    (contract origin task).guarantee s { s with data_task := none } := by
  refine ⟨{ hs with current := nofun, pumping := ?_ }, fun other hne => ?_, ?_⟩
  · intro t ht
    obtain rfl := Option.some.inj ((hs.pumping t ht).1.symm.trans hdata)
    exact absurd ht hidle
  · exact { Frame.refl other s with
      data_task := fun h => absurd (Option.some.inj (h.symm.trans hdata)) hne
      unserved := fun _ => .inr rfl }
  · exact { Deed.refl task s with untouched := fun _ hcontrol => by cases hrole.symm.trans hcontrol }

/-- `close` stops accepting control connections. -/
theorem Inv.stopAccepting (hs : Inv origin s) (hrole : s.role task = some .close) :
    (contract origin task).guarantee s { s with accepting := false } :=
  ⟨{ hs with }, fun other _ => { Frame.refl other s with
      controls := fun _ => ⟨rfl, fun _ _ h => h⟩
      ending := fun _ => .inl rfl },
    { Deed.refl task s with untouched := fun _ hcontrol => by cases hrole.symm.trans hcontrol }⟩

end Lms200.Bridge
