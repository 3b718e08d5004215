import Lms200.Simulator.Delivery
import Lms200.Device.Solo

/-!
# Waits at the bench

What a wait of the device comes to beside the simulator: a write leaves the acknowledgement and the
reply of the scanner on their way, and the wait for the reply takes it, however the reader, the
producer and the clock interleave with them.
-/

namespace Lms200

open Coop Program

namespace Simulator

variable {s s' : Simulator}

/-- The next request of a write is taken. -/
theorem serve_request {request : Event} {rest : List Event} (hreply : s.reply = none)
    (hrequests : s.requests = request :: rest)
    (htake : ({ s with requests := rest } : Simulator).take request = (none, s')) : s.serve = (none, s') := by
  unfold serve
  split
  · next hsome => exact absurd (hreply.symm.trans hsome) (by simp)
  · rw [hrequests]
    dsimp only
    rw [htake]

/-- The reply which is due is emitted. -/
theorem serve_reply {result telegram : Bytes} {new_baud : Option Rate} (hreply : s.reply = some (result, new_baud))
    (hencode : encode (result ++ [s.status]) 0x81 = .ok telegram) :
    s.serve = (none, { s.emit telegram with reply := none, device_baud := new_baud.getD s.device_baud }) := by
  unfold serve
  split
  · next hsome =>
    cases hreply.symm.trans hsome
    rw [hencode]
  · next hnone => exact absurd (hreply.symm.trans hnone) (by simp)

/-- A write without requests returns. -/
theorem serve_done (hreply : s.reply = none) (hrequests : s.requests = []) : s.serve = (some (.ok ()), s) := by
  unfold serve
  split
  · next hsome => exact absurd (hreply.symm.trans hsome) (by simp)
  · rw [hrequests]

end Simulator

/-- From one scene on, a coroutine comes to one outcome and to another scene. -/
def Brings (contour : Contour) {α : Type} (x : Scene) (p : Action α) (r : Except Error α) (y : Scene) : Prop :=
  Yields Bench.waits (Bench.env contour) 0 x.Shows p r y.Shows

/-- The clock can reach any time. -/
theorem exists_tick (wake now : ℚ) : ∃ elapsed : ℚ≥0, wake ≤ now + elapsed := by
  by_cases hle : wake ≤ now
  · exact ⟨0, by simpa using hle⟩
  · have hpos : 0 ≤ wake - now := sub_nonneg.mpr (le_of_not_ge hle)
    refine ⟨⟨wake - now, hpos⟩, ?_⟩
    change wake ≤ now + (wake - now)
    rw [add_sub_cancel]

section Waits

variable {contour : Contour} {status : StatusByte} (hstatus : Healthy status) {x : Scene} (hx : x.Sound status)

/-- A free command lock is taken at once. -/
theorem brings_commandLock (hfree : x.lock = none) :
    Brings contour x (Action.await .commandLock) (.ok ()) { x with lock := some 0 } := by
  apply Yields.at_once
  intro b hb
  have htake : b.1.takeCommandLock 0 = some { b.1 with command_lock := some 0 } := if_pos (hb.lock.trans hfree)
  have henter : Bench.waits.enter 0 .commandLock b = (some (.ok ()), { b.1 with command_lock := some 0 }, b.2) := by
    change ((b.1.takeCommandLock 0).map fun _ => Except.ok (), (b.1.takeCommandLock 0).getD b.1, b.2) = _
    rw [htake]
    rfl
  exact ⟨_, henter, { hb with lock := rfl }⟩

/-- A sleep ends, and keeps what the clock, the reader and the producer keep. -/
theorem yields_sleep {P : Bench → Prop} (hP : ∀ b b', P b → Bench.env contour b b' → P b') (seconds : ℚ) :
    Yields Bench.waits (Bench.env contour) 0 P (Action.sleep seconds) (.ok ()) P := by
  intro b hb
  have hwake : ∀ wake, Yields Bench.waits (Bench.env contour) 0 P (Action.await (.sleep wake)) (.ok ()) P := by
    intro wake
    apply Yields.suspended
    intro b hb
    refine ⟨b, rfl, ?_⟩
    have hresume : ∀ choice (t : Bench), Bench.waits.resume 0 (.sleep wake) choice t =
        if wake ≤ t.1.now then some (some (.ok ()), t) else none := by
      intro choice t
      change ((if wake ≤ t.1.now then some (some (Except.ok ()), t.1) else none).map fun r => (r.1, r.2, t.2)) = _
      split <;> rfl
    apply Attended.intro P (fun t => if wake ≤ t.1.now then 0 else 1) hb hP
    · intro choice t t' ht hturn
      rw [hresume] at hturn
      split at hturn
      · cases hturn
      · cases hturn
    · intro t ht
      by_cases hdue : wake ≤ t.1.now
      · exact .inl ⟨.done, .ok (), t, by rw [hresume, if_pos hdue]⟩
      · right
        obtain ⟨elapsed, hreached⟩ := exists_tick wake t.1.now
        refine ⟨({ t.1 with now := t.1.now + elapsed }, t.2), .inl ⟨.tick elapsed, rfl⟩, ?_⟩
        rw [if_neg hdue]
        change (if wake ≤ t.1.now + elapsed then 0 else 1) < 1
        rw [if_pos hreached]
        exact Nat.one_pos
    · intro choice t answer t' ht hturn
      rw [hresume] at hturn
      split at hturn
      · cases hturn
        exact ⟨rfl, ht⟩
      · cases hturn
  exact hwake (b.1.now + seconds) b hb

include hstatus hx

omit hstatus hx in
/-- The device is not touched by the turns of a write. -/
theorem resume_write (telegram : Bytes) (choice : Choice) (b : Bench) :
    Bench.waits.resume 0 (.write telegram) choice b = some (b.2.serve.1, b.1, b.2.serve.2) := rfl

/-- A write at one rate: the scanner takes the request, and its acknowledgement and its reply are on
their way when the write returns. -/
theorem brings_write {cmd : Command} {o : Scanner.Outcome} {data telegram : Bytes}
    (hanswers : x.scanner.Answers status cmd o data)
    (htelegram : cmd.telegram x.session.settings.address = .ok telegram)
    (hrate : x.scanner.baud = x.scanner.device_baud.baud) (hdue : x.due = []) (hreply : x.reply = none) :
    Brings contour x (Action.await (.write telegram)) (.ok ())
      { x with
        scanner := o.after
        due := [.control .ACK, .reply (replyOf status (cmd.response_id :: data))]
        requests := [] } := by
  obtain ⟨wire, hwire⟩ : ∃ wire, encode (cmd.response_id :: data ++ [status.raw]) 0x81 = .ok wire := by
    have hlegal : 1 ≤ (cmd.response_id :: data ++ [status.raw]).length ∧
        (cmd.response_id :: data ++ [status.raw]).length ≤ MAX_PAYLOAD := by
      have hsize := hanswers.size
      simp only [List.length_append, List.length_cons, List.length_nil, MAX_PAYLOAD]
      omega
    exact ⟨_, Telegram.encode_eq ⟨0x81, _, hlegal⟩⟩
  obtain ⟨address, haddress, hsent⟩ : ∃ address : UInt8, (address = 0 ∨ address = 1) ∧
      encode cmd.payload address.toNat = .ok telegram := by
    have hle := hx.address
    unfold Command.telegram at htelegram
    rw [if_neg (by omega)] at htelegram
    have hencode : encode cmd.payload x.session.settings.address = .ok telegram := by
      cases hencoded : encode cmd.payload x.session.settings.address with
      | error m =>
        rw [hencoded] at htelegram
        cases htelegram
      | ok wire =>
        rw [hencoded] at htelegram
        cases htelegram
        rfl
    have hcases : x.session.settings.address = 0 ∨ x.session.settings.address = 1 := by omega
    rcases hcases with hzero | hone
    · rw [hzero] at hencode
      exact ⟨0, .inl rfl, hencode⟩
    · rw [hone] at hencode
      exact ⟨1, .inr rfl, hencode⟩
  obtain ⟨segment, hbytes, hevent⟩ := exists_segment hsent
  let taken : Scene := { x with requests := [.frame ⟨address, cmd.payload, telegram⟩] }
  let acknowledged : Scene :=
    { x with scanner := o.scanner, due := [.control .ACK], requests := [], reply := some (o.result, o.new_baud) }
  let answered : Scene :=
    { x with
      scanner := o.after
      due := [.control .ACK, .reply (replyOf status (cmd.response_id :: data))]
      requests := [] }
  have htaken : taken.Sound status := ⟨hx.status, hx.unit, hx.address, hx.due⟩
  have hacknowledged : acknowledged.Sound status :=
    ⟨hanswers.status_kept.trans hx.status, hanswers.unit_kept hx.unit, hx.address, by simp [acknowledged]⟩
  have hanswered : answered.Sound status :=
    ⟨hanswers.status_kept.trans hx.status, hanswers.unit_kept hx.unit, hx.address, by simp [answered]⟩
  -- the turns of the write, in their order
  have hfirst : ∀ t, taken.Shows t → t.2.serve.1 = none ∧ acknowledged.Shows (t.1, t.2.serve.2) := by
    intro t ht
    have hperform : ({ t.2.toScanner with commands := t.2.commands ++ [cmd.payload] } : Scanner).perform cmd.payload =
        .ok o := by
      rw [← hanswers.performed, show t.2.toScanner = x.scanner from ht.scanner]
      rfl
    have htake : ({ t.2 with requests := [] } : Simulator).take (.frame ⟨address, cmd.payload, telegram⟩) =
        (none, ({ t.2 with toScanner := o.scanner, requests := [], reply := some (o.result, o.new_baud) } :
          Simulator).emit [Control.ACK.byte]) := by
      unfold Simulator.take Simulator.accept
      dsimp only
      rw [if_pos haddress, if_neg (by rw [ht.silence_next]; exact lt_irrefl 0),
        if_neg (by rw [ht.nak_next]; exact lt_irrefl 0), hperform]
      dsimp only
      rw [ht.omit_ack]
      rfl
    have hshown : ({ x with scanner := o.scanner, requests := [], reply := some (o.result, o.new_baud) } : Scene).Shows
        (t.1, { t.2 with toScanner := o.scanner, requests := [], reply := some (o.result, o.new_baud) }) :=
      { ht with scanner := rfl, requests := rfl, reply := rfl }
    have hack := hshown.control .ACK
    rw [show x.due ++ [Incoming.control .ACK] = [.control .ACK] by rw [hdue]; rfl] at hack
    rw [Simulator.serve_request (ht.reply.trans hreply) ht.requests htake]
    exact ⟨rfl, hack⟩
  have hsecond : ∀ t, acknowledged.Shows t → t.2.serve.1 = none ∧ answered.Shows (t.1, t.2.serve.2) := by
    intro t ht
    have hsent := ht.replied hstatus hacknowledged hwire hanswers.known
    have hencode : encode (o.result ++ [t.2.status]) 0x81 = .ok wire := by
      rw [hanswers.result, show t.2.status = status.raw from (congrArg Scanner.status ht.scanner).trans hacknowledged.status]
      exact hwire
    rw [Simulator.serve_reply ht.reply hencode]
    refine ⟨rfl, { hsent with scanner := ?_, reply := hreply.symm }⟩
    change ({ t.2.toScanner with device_baud := o.new_baud.getD t.2.toScanner.device_baud } : Scanner) = o.after
    rw [show t.2.toScanner = o.scanner from ht.scanner]
    rfl
  have hlast : ∀ t, answered.Shows t → t.2.serve = (some (.ok ()), t.2) := fun t ht =>
    Simulator.serve_done (ht.reply.trans hreply) ht.requests
  apply Yields.suspended
  intro b hb
  refine ⟨(b.1, b.2.write telegram), rfl, ?_⟩
  have hstart : taken.Shows (b.1, b.2.write telegram) := by
    have hfed := (Coming.fresh hb.incoming).emit segment
    rw [hevent, hbytes, List.nil_append] at hfed
    unfold Simulator.write
    rw [if_neg (by rw [hb.scanner]; exact not_not.mpr hrate)]
    exact { hb with incoming := hfed.drained, requests := hfed.events }
  apply Attended.intro (fun t => taken.Shows t ∨ acknowledged.Shows t ∨ answered.Shows t)
    (fun t => 2 * t.2.requests.length + if t.2.reply.isSome then 1 else 0) (.inl hstart)
  · intro t t' ht henv
    rcases ht with h1 | h2 | h3
    · exact .inl (h1.env hstatus htaken henv).1
    · exact .inr (.inl (h2.env hstatus hacknowledged henv).1)
    · exact .inr (.inr (h3.env hstatus hanswered henv).1)
  · intro choice t t' ht hturn
    rw [resume_write] at hturn
    obtain ⟨hnone, heq⟩ := Prod.mk.inj (Option.some.inj hturn)
    subst heq
    rcases ht with h1 | h2 | h3
    · exact .inr (.inl (hfirst t h1).2)
    · exact .inr (.inr (hsecond t h2).2)
    · rw [hlast t h3] at hnone
      cases hnone
  · intro t ht
    rcases ht with h1 | h2 | h3
    · right
      refine ⟨(t.1, t.2.serve.2), .inr ⟨.done, ?_⟩, ?_⟩
      · rw [resume_write, (hfirst t h1).1]
      · have hafter := (hfirst t h1).2
        rw [hafter.requests, hafter.reply, h1.requests, h1.reply]
        simp [acknowledged, taken, hreply]
    · right
      refine ⟨(t.1, t.2.serve.2), .inr ⟨.done, ?_⟩, ?_⟩
      · rw [resume_write, (hsecond t h2).1]
      · have hafter := (hsecond t h2).2
        rw [hafter.requests, hafter.reply, h2.requests, h2.reply]
        simp [acknowledged, answered, hreply]
    · left
      exact ⟨.done, .ok (), (t.1, t.2), by rw [resume_write, hlast t h3]⟩
  · intro choice t answer t' ht hturn
    rw [resume_write] at hturn
    obtain ⟨hsome, heq⟩ := Prod.mk.inj (Option.some.inj hturn)
    subst heq
    rcases ht with h1 | h2 | h3
    · rw [(hfirst t h1).1] at hsome
      cases hsome
    · rw [(hsecond t h2).1] at hsome
      cases hsome
    · rw [hlast t h3] at hsome ⊢
      cases hsome
      exact ⟨rfl, h3⟩

end Waits

/-- What the waiting loop still needs: the acknowledgement and the reply, or the reply alone. -/
def Pending.Awaits (p : Pending) (r : Response) (due : List Incoming) : Prop :=
  p.ack = false ∧ due = [.control .ACK, .reply r] ∨ p.ack = true ∧ due = [.reply r]

/-- How the waiting loop leaves the device: it has emptied the queue, or it has taken the reply. -/
inductive Pending.Heeds (r : Response) (later : List Incoming) (d : Device) :
    Option (Except Error Heard) × Device → Prop
  | waits {p : Pending} : p.Awaits r later → Heeds r later d (none, { d with events := [], pending := some p })
  | takes {number : ℕ} : later = [] → Heeds r later d
      (some (.ok (.reply r)), { d.accept number r with events := [], pending := none })

section Loop

variable {cmd : Command} {r : Response} (hcommand : r.command = cmd.response_id)
  (hconfirm : confirm r cmd.payload = .ok ()) {d : Device} (htimeout : 0 < cmd.timeout * d.settings.timeout_scale)
include hcommand hconfirm

/-- The reply is taken once the request is acknowledged. -/
theorem Pending.hear_reply {p : Pending} (hack : p.ack = true) (number : ℕ) :
    p.hear cmd d (number, .reply r) = (.inr (.ok (.reply r)), d.accept number r) := by
  unfold hear
  dsimp only
  rw [if_pos ⟨hcommand, hack⟩, hconfirm]

/-- Behind the acknowledgement the loop takes the reply, if it is queued. -/
theorem Pending.listen_acknowledged {p : Pending} {events : List (ℕ × Incoming)} {later : List Incoming}
    (hack : p.ack = true) (hdue : events.map Prod.snd ++ later = [.reply r]) (hearly : ¬ p.deadline ≤ d.now) :
    Heeds r later d (p.listen cmd events d) := by
  cases events with
  | nil =>
    unfold listen
    rw [if_neg hearly]
    exact .waits (.inr ⟨hack, hdue⟩)
  | cons event rest =>
    obtain ⟨number, incoming⟩ := event
    obtain ⟨rfl, hnil⟩ := List.cons.inj hdue
    obtain ⟨hrest, rfl⟩ := List.append_eq_nil_iff.mp hnil
    obtain rfl := List.map_eq_nil_iff.mp hrest
    unfold listen
    rw [if_neg hearly, hear_reply hcommand hconfirm hack]
    exact .takes rfl

include htimeout

/-- The acknowledgement sets the deadline of the reply. -/
theorem Pending.hear_acknowledgement {p : Pending} (hack : p.ack = false) (number : ℕ)
    {rest : List (ℕ × Incoming)} {later : List Incoming} (hdue : rest.map Prod.snd ++ later = [.reply r]) :
    ∃ p', p.hear cmd d (number, .control .ACK) = (.inl p', d) ∧ Heeds r later d (p'.listen cmd rest d) := by
  refine ⟨{ p with ack := true, deadline := d.now + cmd.timeout * d.settings.timeout_scale }, ?_, ?_⟩
  · unfold hear
    dsimp only
    rw [if_neg (by rw [hack]; exact Bool.false_ne_true)]
  · apply listen_acknowledged hcommand hconfirm rfl hdue
    exact not_le.mpr (lt_add_of_pos_right _ htimeout)

/-- The loop over the queued events. -/
theorem Pending.listen_heeds {p : Pending} {events : List (ℕ × Incoming)} {later : List Incoming}
    (hawaits : p.Awaits r (events.map Prod.snd ++ later)) (hearly : ¬ p.deadline ≤ d.now) :
    Heeds r later d (p.listen cmd events d) := by
  rcases hawaits with ⟨hack, hdue⟩ | ⟨hack, hdue⟩
  · cases events with
    | nil =>
      unfold listen
      rw [if_neg hearly]
      exact .waits (.inl ⟨hack, hdue⟩)
    | cons event rest =>
      obtain ⟨number, incoming⟩ := event
      obtain ⟨rfl, hrest⟩ := List.cons.inj hdue
      obtain ⟨p', hheard, hheeds⟩ := hear_acknowledgement hcommand hconfirm htimeout hack number hrest
      unfold listen
      rw [if_neg hearly, hheard]
      exact hheeds
  · exact listen_acknowledged hcommand hconfirm hack hdue hearly

/-- The loop which an event has woken. -/
theorem Pending.wake_heeds {p : Pending} {event : ℕ × Incoming} {rest : List (ℕ × Incoming)}
    {later : List Incoming} (hawaits : p.Awaits r ((event :: rest).map Prod.snd ++ later)) :
    Heeds r later d (p.wake cmd event rest d) := by
  obtain ⟨number, incoming⟩ := event
  rcases hawaits with ⟨hack, hdue⟩ | ⟨hack, hdue⟩
  · obtain ⟨rfl, hrest⟩ := List.cons.inj hdue
    obtain ⟨p', hheard, hheeds⟩ := hear_acknowledgement hcommand hconfirm htimeout hack number hrest
    unfold wake
    rw [hheard]
    exact hheeds
  · obtain ⟨rfl, hnil⟩ := List.cons.inj hdue
    obtain ⟨hrest, rfl⟩ := List.append_eq_nil_iff.mp hnil
    obtain rfl := List.map_eq_nil_iff.mp hrest
    unfold wake
    rw [hear_reply hcommand hconfirm hack]
    exact .takes rfl

end Loop

section Replies

variable {contour : Contour} {status : StatusByte} (hstatus : Healthy status) {x : Scene} (hx : x.Sound status)
  {cmd : Command} {r : Response} (hcommand : r.command = cmd.response_id) (hconfirm : confirm r cmd.payload = .ok ())
  (htimeout : 0 < cmd.timeout * x.session.settings.timeout_scale)

/-- The bench while a command waits for its reply. -/
def Scene.Awaiting (x : Scene) (r : Response) (b : Bench) : Prop :=
  ∃ p due, b.1.pending = some p ∧ p.Awaits r due ∧ ({ x with due } : Scene).Shows b

/-- How far the bench is from handing an event to the waiting loop. -/
def Scene.pace (b : Bench) : ℕ :=
  (if b.1.reader = some .created then 1 else 0) + 4 * b.2.queue.length + b.1.events.length

/-- The scene once a reply is taken. -/
def Scene.accept (x : Scene) (r : Response) : Scene := { x with session := x.session.accept r, due := [] }

/-- How a turn of the loop leaves the bench. -/
theorem Scene.Shows.heeds {due : List Incoming} {b : Bench} (h : ({ x with due } : Scene).Shows b)
    (result : Option (Except Error Heard) × Device)
    (hheeds : ∀ later, b.1.events.map Prod.snd ++ later = due → Pending.Heeds r later b.1 result) :
    (result.1 = none ∧ x.Awaiting r (result.2, b.2) ∧ result.2.events = [] ∧ result.2.reader = b.1.reader) ∨
      (result.1 = some (.ok (.reply r)) ∧ (x.accept r).Shows (result.2, b.2)) := by
  obtain ⟨expected, hcoming, hplain, hdue⟩ := h.coming
  cases hheeds _ hdue with
  | @waits p hawaits =>
    left
    refine ⟨rfl, ⟨p, _, rfl, hawaits, { h with coming := ⟨expected, hcoming, hplain, rfl⟩ }⟩, rfl, rfl⟩
  | @takes number hlater =>
    right
    refine ⟨rfl, { h with session := ?_, coming := ⟨expected, hcoming, hplain, hlater⟩ }⟩
    change ({ b.1.toSession with wire := b.1.toSession.wire ++ [.accepted r] } : Session) = _
    rw [h.session]
    rfl

include hx in
/-- The clock, the reader and the producer leave the wait as it is. -/
theorem Scene.Awaiting.env (hstatus : Healthy status) {b b' : Bench} (h : x.Awaiting r b)
    (hmove : Bench.env contour b b') : x.Awaiting r b' := by
  obtain ⟨p, due, hpending, hawaits, hshows⟩ := h
  have hsound : ({ x with due } : Scene).Sound status := by
    refine ⟨hx.status, hx.unit, hx.address, ?_⟩
    rcases hawaits with ⟨-, rfl⟩ | ⟨-, rfl⟩ <;> simp
  obtain ⟨hshows', hsame⟩ := hshows.env hstatus hsound hmove
  exact ⟨p, due, hsame.trans hpending, hawaits, hshows'⟩

/-- While a reply is awaited, something is queued or still to be read. -/
theorem Scene.Awaiting.queue_ne_nil {b : Bench} (h : x.Awaiting r b) (hevents : b.1.events = []) :
    b.2.queue ≠ [] := by
  intro hqueue
  obtain ⟨p, due, -, hawaits, hshows⟩ := h
  obtain ⟨expected, hcoming, -, hdue⟩ := hshows.coming
  rw [hqueue] at hcoming
  rw [hevents, hcoming.idle.2] at hdue
  rcases hawaits with ⟨-, rfl⟩ | ⟨-, rfl⟩
  · cases hdue
  · cases hdue

include hcommand hconfirm htimeout

/-- A turn of the waiting loop empties the queue or takes the reply. -/
theorem Scene.Awaiting.turn {b b' : Bench} (h : x.Awaiting r b) {choice : Choice}
    {answer : Option (Except Error Heard)} (hturn : Bench.waits.resume 0 (.reply cmd) choice b = some (answer, b')) :
    (answer = none ∧ x.Awaiting r b' ∧ b'.1.events = [] ∧ b.1.events ≠ [] ∧ b'.1.reader = b.1.reader ∧ b'.2 = b.2) ∨
      (answer = some (.ok (.reply r)) ∧ (x.accept r).Shows b') := by
  have hwoken : ∀ result, b.1.goOnListening cmd = some result → result = (answer, b'.1) → b'.2 = b.2 →
      (answer = none ∧ x.Awaiting r b' ∧ b'.1.events = [] ∧ b.1.events ≠ [] ∧ b'.1.reader = b.1.reader ∧ b'.2 = b.2) ∨
        (answer = some (.ok (.reply r)) ∧ (x.accept r).Shows b') := by
    intro result hgo hresult hsame
    obtain ⟨p, due, hpending, hawaits, hshows⟩ := h
    unfold Device.goOnListening at hgo
    rw [hpending] at hgo
    cases hevents : b.1.events with
    | nil =>
      rw [hevents] at hgo
      cases hgo
    | cons event rest =>
      rw [hevents] at hgo
      cases hgo
      have htimeout' : 0 < cmd.timeout * b.1.settings.timeout_scale := by
        rw [show b.1.settings = x.session.settings from congrArg Session.settings hshows.session]
        exact htimeout
      have hheeds := hshows.heeds (p.wake cmd event rest b.1) fun later hlater =>
        Pending.wake_heeds hcommand hconfirm htimeout' (by rw [← hevents, hlater]; exact hawaits)
      rw [hresult] at hheeds
      obtain ⟨d', s'⟩ := b'
      cases hsame
      rcases hheeds with ⟨hnone, hawaiting, hempty, hreader⟩ | hdone
      · exact .inl ⟨hnone, hawaiting, hempty, List.cons_ne_nil _ _, hreader, rfl⟩
      · exact .inr hdone
  have hgone : ∀ choice : Choice, ((Device.resume 0 (.reply cmd) choice b.1).map fun r => (r.1, r.2, b.2)) =
      some (answer, b') → (∀ e, choice ≠ .raised e) → (answer = none ∧ x.Awaiting r b' ∧ b'.1.events = [] ∧
        b.1.events ≠ [] ∧ b'.1.reader = b.1.reader ∧ b'.2 = b.2) ∨
          (answer = some (.ok (.reply r)) ∧ (x.accept r).Shows b') := by
    intro choice hmap hchoice
    obtain ⟨result, hresume, heq⟩ := Option.map_eq_some_iff.mp hmap
    obtain ⟨rfl, rfl⟩ := Prod.mk.inj heq
    cases choice with
    | done => exact hwoken result hresume rfl rfl
    | leased baud => exact hwoken result hresume rfl rfl
    | raised e => exact absurd rfl (hchoice e)
  cases choice with
  | done => exact hgone .done hturn (by simp)
  | leased baud => exact hgone (.leased baud) hturn (by simp)
  | raised e =>
    change (if b.2.queue = [] ∧ b.1.events = [] then _ else none) = _ at hturn
    split at hturn
    · next hsilent => exact absurd hsilent.1 (h.queue_ne_nil hsilent.2)
    · cases hturn

include hstatus hx

/-- While a reply is awaited the loop can go on with an event, or the reader can fetch one. -/
theorem Scene.Awaiting.progress {t : Bench} (ht : x.Awaiting r t) :
    (∃ choice answer t', Bench.waits.resume 0 (.reply cmd) choice t = some (some answer, t')) ∨
      ∃ t', Bench.waits.Passes (Bench.env contour) 0 (.reply cmd) t t' ∧ Scene.pace t' < Scene.pace t := by
  have hbound : ∀ t, x.Awaiting r t → t.1.events.length ≤ 2 := by
    intro t ht
    obtain ⟨p, due, -, hawaits, hshows⟩ := ht
    obtain ⟨expected, -, -, hdue⟩ := hshows.coming
    have hlength := congrArg List.length hdue
    rw [List.length_append, List.length_map] at hlength
    rcases hawaits with ⟨-, rfl⟩ | ⟨-, rfl⟩
    · exact le_trans (Nat.le_add_right _ _) hlength.le
    · exact le_trans (Nat.le_add_right _ _) (hlength.le.trans one_le_two)
  by_cases hevents : t.1.events = []
  · right
    have hqueue := ht.queue_ne_nil hevents
    obtain ⟨p, due, hpending, hawaits, hshows⟩ := id ht
    rcases hshows.reader with hcreated | ⟨last_bytes, hrunning⟩
    · have hbegun : t.1.react .begin = { t.1 with reader := some (.running t.1.now) } := if_pos hcreated
      refine ⟨(t.1.react .begin, t.2), .inl ⟨.begin, rfl⟩, ?_⟩
      simp [Scene.pace, hbegun, hcreated]
    · have hpositive : t.2.queue.length ≠ 0 := fun hzero => hqueue (List.length_eq_zero_iff.mp hzero)
      have hmove : Bench.react contour (.read t.2.queue.length) t = some
          (t.1.react (.read (.data (t.2.queue.take t.2.queue.length))),
            { t.2 with queue := t.2.queue.drop t.2.queue.length }) := by
        unfold Bench.react
        dsimp only
        have hreading : Bench.reading t.1 = true := by
          unfold Bench.reading
          rw [hrunning]
        rw [if_neg (not_or.mpr ⟨not_not.mpr hreading, hpositive⟩), if_neg (not_not.mpr hshows.producer)]
      refine ⟨_, .inl ⟨_, hmove⟩, ?_⟩
      have hfew : (t.1.react (.read (.data (t.2.queue.take t.2.queue.length)))).events.length ≤ 2 :=
        hbound _ (ht.env hx hstatus ⟨_, hmove⟩)
      simp only [Scene.pace, List.drop_length, List.length_nil]
      split <;> split <;> omega
  · obtain ⟨p, due, hpending, hawaits, hshows⟩ := id ht
    obtain ⟨event, rest, hcons⟩ := List.exists_cons_of_ne_nil hevents
    have hgo : Bench.waits.resume 0 (.reply cmd) .done t =
        some ((p.wake cmd event rest t.1).1, (p.wake cmd event rest t.1).2, t.2) := by
      change ((t.1.goOnListening cmd).map fun r => (r.1, r.2, t.2)) = _
      unfold Device.goOnListening
      rw [hpending, hcons]
      rfl
    rcases ht.turn hcommand hconfirm htimeout hgo with ⟨hnone, -, hempty, -, hreader, hsame⟩ | ⟨hsome, -⟩
    · right
      refine ⟨((p.wake cmd event rest t.1).2, t.2), .inr ⟨.done, ?_⟩, ?_⟩
      · rw [hgo, hnone]
      · simp only [Scene.pace]
        rw [hempty, hreader, hcons]
        simp only [List.length_nil, List.length_cons]
        omega
    · left
      exact ⟨.done, .ok (.reply r), ((p.wake cmd event rest t.1).2, t.2), by rw [hgo, hsome]⟩

/-- The wait for the reply which is due takes it. -/
theorem served_reply (contour : Contour) {b : Bench} {p : Pending} (hpending : b.1.pending = some p) (hack : p.ack = false)
    (hearly : ¬ p.deadline ≤ b.1.now) (hshows : ({ x with due := [.control .ACK, .reply r] } : Scene).Shows b) :
    (Action.await (.reply cmd)).Served Bench.waits (Bench.env contour) 0
      (fun outcome t => outcome = .ok (.reply r) ∧ (x.accept r).Shows t) b := by
  have henter : Bench.waits.enter 0 (.reply cmd) b =
      ((p.listen cmd b.1.events b.1).1, (p.listen cmd b.1.events b.1).2, b.2) := by
    change ((b.1.startListening cmd).1, (b.1.startListening cmd).2, b.2) = _
    unfold Device.startListening
    rw [hpending]
  have htimeout' : 0 < cmd.timeout * b.1.settings.timeout_scale := by
    rw [show b.1.settings = x.session.settings from congrArg Session.settings hshows.session]
    exact htimeout
  have hheeds := hshows.heeds (p.listen cmd b.1.events b.1) fun later hlater =>
    Pending.listen_heeds hcommand hconfirm htimeout' (by rw [hlater]; exact .inl ⟨hack, rfl⟩) hearly
  rcases hheeds with ⟨hnone, hawaiting, -, -⟩ | ⟨hsome, hdone⟩
  · rw [hnone] at henter
    apply Served.request_later henter
    apply Attended.intro (fun t => x.Awaiting r t) Scene.pace hawaiting
    · exact fun t t' ht henv => ht.env hx hstatus henv
    · intro choice t t' ht hturn
      rcases ht.turn hcommand hconfirm htimeout hturn with ⟨-, hafter, -⟩ | ⟨hanswer, -⟩
      · exact hafter
      · cases hanswer
    · exact fun t ht => ht.progress hstatus hx hcommand hconfirm htimeout
    · intro choice t answer t' ht hturn
      rcases ht.turn hcommand hconfirm htimeout hturn with ⟨hanswer, -⟩ | ⟨hanswer, hdone⟩
      · cases hanswer
      · exact ⟨Option.some.inj hanswer, hdone⟩
  · rw [hsome] at henter
    exact Served.request_now henter ⟨rfl, hdone⟩

end Replies

end Lms200
