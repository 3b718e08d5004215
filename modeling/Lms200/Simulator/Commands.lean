import Lms200.Simulator.Waits

/-!
# Commands at the bench

At one rate a command gets the reply of the scanner with its first attempt. At two rates it times out
after its last attempt, and the scanner has heard nothing.
-/

namespace Lms200

open Coop Program

section Replies

variable {contour : Contour} {status : StatusByte} (hstatus : Healthy status) {x : Scene} (hx : x.Sound status)
  {cmd : Command} {r : Response} (hcommand : r.command = cmd.response_id) (hconfirm : confirm r cmd.payload = .ok ())
  (htimeout : 0 < cmd.timeout * x.session.settings.timeout_scale)
include hstatus hx hcommand hconfirm htimeout

/-- An attempt whose reply is due succeeds. -/
theorem brings_awaitReply (hack : 0 < x.session.settings.ack_timeout) :
    Brings contour { x with due := [.control .ACK, .reply r] } (Action.awaitReply cmd) (.ok r) (x.accept r) := by
  intro b hb
  have hshows : ({ x with due := [.control .ACK, .reply r] } : Scene).Shows
      ({ b.1 with pending := some ⟨cmd, false, b.1.now + b.1.settings.ack_timeout⟩ }, b.2) := { hb with }
  have hearly : ¬ b.1.now + b.1.settings.ack_timeout ≤ b.1.now := by
    rw [show b.1.settings = x.session.settings from congrArg Session.settings hb.session]
    exact not_le.mpr (lt_add_of_pos_right _ hack)
  have hheard := served_reply hstatus hx hcommand hconfirm htimeout contour (b := (_, b.2)) rfl rfl hearly hshows
  apply hheard.bind
  · intro heard t ht
    obtain ⟨heq, ht⟩ := ht
    cases heq
    exact ⟨rfl, ht⟩
  · intro e t ht
    cases ht.1

end Replies

/-- A bench at which no command is under way. -/
def Scene.rest (S : Session) (M : Scanner) : Scene := { session := S, scanner := M }

/-- A bench at which a command is under way, between its waits. -/
def Scene.busy (S : Session) (M : Scanner) (due : List Incoming) : Scene :=
  { session := S, scanner := M, lock := some 0, due }

/-- A session and a healthy scanner, whose client uses an address of the simulator. -/
structure Peers (status : StatusByte) (S : Session) (M : Scanner) : Prop where
  healthy : Healthy status
  status : M.status = status.raw
  unit : ∃ unit, M.config.unit = .ok unit
  address : S.settings.address ≤ 1
  ack_timeout : 0 < S.settings.ack_timeout
  timeout_scale : 0 < S.settings.timeout_scale

section Commands

variable {contour : Contour} {status : StatusByte} {S : Session} {M : Scanner} {cmd : Command}

/-- Peers stay peers, whatever has been written and read. -/
theorem Peers.of_settings (h : Peers status S M) {S' : Session} {M' : Scanner} (hsettings : S'.settings = S.settings)
    (hstatus : M'.status = M.status) (hunit : ∃ unit, M'.config.unit = .ok unit) : Peers status S' M' :=
  ⟨h.healthy, hstatus.trans h.status, hunit, hsettings ▸ h.address, hsettings ▸ h.ack_timeout,
    hsettings ▸ h.timeout_scale⟩

/-- The gate lets a command of an admitted session pass. -/
theorem brings_gate (hgate : cmd.mutates = true → S.settings.require_write = .ok ()) :
    Brings contour (Scene.busy S M []) (Action.gate cmd) (.ok ())
      (Scene.busy { S with changed := S.changed || cmd.mutates } M []) := by
  unfold Action.gate
  cases hmutates : cmd.mutates with
  | false =>
    rw [if_neg Bool.false_ne_true]
    apply Yields.done
    intro b hb
    rw [Bool.or_false]
    exact hb
  | true =>
    rw [if_pos rfl]
    apply Yields.get_bind (g := modify fun d => { d with changed := true })
    · intro b hb
      rw [show b.1.settings = S.settings from congrArg Session.settings hb.session, hgate hmutates]
      rfl
    · apply Yields.change
      intro b hb
      refine { hb with session := ?_ }
      change ({ b.1.toSession with changed := true } : Session) = _
      rw [hb.session, Bool.or_true]
      rfl

/-- At one rate, a telegram is written and its replies are on their way. -/
theorem brings_send (h : Peers status S M) {o : Scanner.Outcome} {data : Bytes}
    (hanswers : M.Answers status cmd o data) (htelegram : ∃ telegram, cmd.telegram S.settings.address = .ok telegram)
    (hrate : M.baud = M.device_baud.baud) :
    Brings contour (Scene.busy S M []) (Action.send cmd) (.ok ())
      (Scene.busy { S with wire := S.wire ++ [.wrote cmd.payload] } o.after
        [.control .ACK, .reply (replyOf status (cmd.response_id :: data))]) := by
  obtain ⟨telegram, htelegram⟩ := htelegram
  unfold Action.send
  apply Yields.modify_bind (Q := (Scene.busy S M []).Shows)
  · intro b hb
    obtain ⟨expected, hcoming, hplain, hdue⟩ := hb.coming
    obtain ⟨-, hlater⟩ := List.append_eq_nil_iff.mp hdue
    exact { hb with coming := ⟨expected, hcoming, hplain, hlater⟩ }
  · apply Yields.get_bind (g := (do
      modify (Device.log · (.wrote cmd.payload))
      Action.await (.write telegram)))
    · intro b hb
      rw [show b.1.settings = S.settings from congrArg Session.settings hb.session, htelegram]
      rfl
    · apply Yields.modify_bind
        (Q := (Scene.busy { S with wire := S.wire ++ [.wrote cmd.payload] } M []).Shows)
      · intro b hb
        refine { hb with session := ?_ }
        change ({ b.1.toSession with wire := b.1.toSession.wire ++ [.wrote cmd.payload] } : Session) = _
        rw [hb.session]
        rfl
      · exact brings_write h.healthy ⟨h.status, h.unit, h.address, by simp [Scene.busy]⟩ hanswers htelegram hrate rfl rfl

/-- At one rate, a command gets its reply with its first attempt. -/
theorem brings_command (h : Peers status S M) {o : Scanner.Outcome} {data : Bytes}
    (hanswers : M.Answers status cmd o data) (htelegram : ∃ telegram, cmd.telegram S.settings.address = .ok telegram)
    (hattempts : 0 < cmd.attempts) (hpatience : 0 < cmd.timeout)
    (hgate : cmd.mutates = true → S.settings.require_write = .ok ()) (hrate : M.baud = M.device_baud.baud) :
    Brings contour (Scene.rest S M) (Action.command cmd) (.ok (replyOf status (cmd.response_id :: data)))
      (Scene.rest ((S.sent cmd 1).accept (replyOf status (cmd.response_id :: data))) o.after) := by
  have h₁ : Peers status { S with changed := S.changed || cmd.mutates } M := h.of_settings rfl rfl h.unit
  have hsound : (Scene.busy { S with changed := S.changed || cmd.mutates, wire := S.wire ++ [.wrote cmd.payload] }
      o.after []).Sound status :=
    ⟨hanswers.status_kept.trans h.status, hanswers.unit_kept h.unit, h.address, Nat.zero_le 2⟩
  have hattempt : Brings contour (Scene.busy { S with changed := S.changed || cmd.mutates } M [])
      (Action.attempts cmd cmd.attempts) (.ok (replyOf status (cmd.response_id :: data)))
      (Scene.busy ((S.sent cmd 1).accept (replyOf status (cmd.response_id :: data))) o.after []) := by
    obtain ⟨remaining, hremaining⟩ := Nat.exists_eq_succ_of_ne_zero hattempts.ne'
    rw [hremaining, Action.attempts]
    apply Yields.bind (brings_send h₁ hanswers htelegram hrate)
    apply Yields.attempt_bind (brings_awaitReply h.healthy hsound (replyOf_command status _ data) hanswers.confirmed
      (mul_pos hpatience h.timeout_scale) h.ack_timeout)
    exact Yields.done fun b hb => hb
  have hbody : Brings contour (Scene.busy S M [])
      (do Action.gate cmd; Action.attempts cmd cmd.attempts) (.ok (replyOf status (cmd.response_id :: data)))
      (Scene.busy ((S.sent cmd 1).accept (replyOf status (cmd.response_id :: data))) o.after []) := by
    apply Yields.bind (brings_gate hgate)
    exact hattempt
  unfold Action.command
  apply Yields.bind (brings_commandLock rfl)
  apply Yields.andFinally_modify hbody
  intro b hb
  exact { hb with lock := rfl }

end Commands

/-- A bench at two rates, with nothing on its way. -/
structure Scene.Hushed (x : Scene) (b : Bench) : Prop where
  shows : x.Shows b
  queue : b.2.queue = []
  rates : x.scanner.baud ≠ x.scanner.device_baud.baud

section Silence

variable {contour : Contour} {status : StatusByte} {S : Session} {M : Scanner} {cmd : Command}

/-- At two rates nothing is emitted. -/
theorem Scene.Hushed.env (hstatus : Healthy status) {x : Scene} (hx : x.Sound status) {b b' : Bench}
    (h : x.Hushed b) (hmove : Bench.env contour b b') : x.Hushed b' ∧ b'.1.pending = b.1.pending := by
  obtain ⟨hshows, hsame⟩ := h.shows.env hstatus hx hmove
  refine ⟨⟨hshows, ?_, h.rates⟩, hsame⟩
  obtain ⟨d, s⟩ := b
  obtain ⟨input, hmove⟩ := hmove
  cases input with
  | tick elapsed =>
    cases hmove
    exact h.queue
  | begin =>
    cases hmove
    exact h.queue
  | read size =>
    unfold Bench.react at hmove
    dsimp only at hmove
    split at hmove
    · cases hmove
    · split at hmove
      · cases hmove
        exact h.queue
      · cases hmove
        change s.queue.drop size = []
        rw [h.queue, List.drop_nil]
  | produce =>
    unfold Bench.react at hmove
    dsimp only at hmove
    split at hmove
    · next hstreams =>
      have hscanner : s.toScanner = x.scanner := h.shows.scanner
      rw [hscanner] at hstreams
      exact absurd hstreams.2.2 h.rates
    · cases hmove

/-- A write at two rates reaches nobody. -/
theorem hushed_write (hstatus : Healthy status) {x : Scene} (hx : x.Sound status) (hrequests : x.requests = [])
    (hreply : x.reply = none) (telegram : Bytes) :
    Yields Bench.waits (Bench.env contour) 0 x.Hushed (Action.await (.write telegram)) (.ok ()) x.Hushed := by
  have hserve : ∀ t, x.Hushed t → t.2.serve = (some (.ok ()), t.2) := fun t ht =>
    Simulator.serve_done (ht.shows.reply.trans hreply) (ht.shows.requests.trans hrequests)
  apply Yields.suspended
  intro b hb
  refine ⟨(b.1, b.2.write telegram), rfl, ?_⟩
  have hstart : x.Hushed (b.1, b.2.write telegram) := by
    have hdiffer : b.2.baud ≠ b.2.device_baud.baud := by
      rw [show b.2.toScanner = x.scanner from hb.shows.scanner]
      exact hb.rates
    unfold Simulator.write
    rw [if_pos hdiffer]
    exact ⟨{ hb.shows with requests := hrequests.symm }, hb.queue, hb.rates⟩
  apply Attended.intro x.Hushed (fun _ => 0) hstart (fun t t' ht henv => (ht.env hstatus hx henv).1)
  · intro choice t t' ht hturn
    rw [resume_write, hserve t ht] at hturn
    cases hturn
  · intro t ht
    exact .inl ⟨.done, .ok (), t, by rw [resume_write, hserve t ht]⟩
  · intro choice t answer t' ht hturn
    rw [resume_write, hserve t ht] at hturn
    cases hturn
    exact ⟨rfl, ht⟩

/-- An attempt at two rates times out without an acknowledgement. -/
theorem hushed_awaitReply (h : Peers status S M) :
    Yields Bench.waits (Bench.env contour) 0 (Scene.busy S M []).Hushed (Action.awaitReply cmd)
      (.error (.timeout ("No ACK for " ++ cmd.name))) (Scene.busy S M []).Hushed := by
  have hsound : (Scene.busy S M []).Sound status := ⟨h.status, h.unit, h.address, Nat.zero_le 2⟩
  have hevents : ∀ t, (Scene.busy S M []).Hushed t → t.1.events = [] := by
    intro t ht
    obtain ⟨expected, -, -, hdue⟩ := ht.shows.coming
    exact List.map_eq_nil_iff.mp (List.append_eq_nil_iff.mp hdue).1
  intro b hb
  let p : Pending := ⟨cmd, false, b.1.now + b.1.settings.ack_timeout⟩
  have hlistens : (Scene.busy S M []).Hushed ({ b.1 with events := [], pending := some p }, b.2) := by
    obtain ⟨expected, hcoming, hplain, hdue⟩ := hb.shows.coming
    exact ⟨{ hb.shows with coming := ⟨expected, hcoming, hplain, (List.append_eq_nil_iff.mp hdue).2⟩ }, hb.queue, hb.rates⟩
  have henter : Bench.waits.enter 0 (.reply cmd) ({ b.1 with pending := some p }, b.2) =
      (none, { b.1 with events := [], pending := some p }, b.2) := by
    change ((Device.startListening { b.1 with pending := some p } cmd).1,
      (Device.startListening { b.1 with pending := some p } cmd).2, b.2) = _
    have hearly : ¬ p.deadline ≤ b.1.now := by
      change ¬ b.1.now + b.1.settings.ack_timeout ≤ b.1.now
      rw [show b.1.settings = S.settings from congrArg Session.settings hb.shows.session]
      exact not_le.mpr (lt_add_of_pos_right _ h.ack_timeout)
    unfold Device.startListening
    dsimp only
    rw [hevents b hb, Pending.listen, if_neg hearly]
  have hresume : ∀ choice t, (Scene.busy S M []).Hushed t → t.1.pending = some p → ∀ answer t',
      Bench.waits.resume 0 (.reply cmd) choice t = some (answer, t') →
        answer = some (.error (.timeout ("No ACK for " ++ cmd.name))) ∧ (Scene.busy S M []).Hushed t' := by
    intro choice t ht hpending answer t' hturn
    have hnever : t.1.goOnListening cmd = none := by
      unfold Device.goOnListening
      rw [hpending, hevents t ht]
    cases choice with
    | done =>
      change ((t.1.goOnListening cmd).map fun r => (r.1, r.2, t.2)) = _ at hturn
      rw [hnever] at hturn
      cases hturn
    | leased baud =>
      change ((t.1.goOnListening cmd).map fun r => (r.1, r.2, t.2)) = _ at hturn
      rw [hnever] at hturn
      cases hturn
    | raised e =>
      change (if t.2.queue = [] ∧ t.1.events = [] then t.1.stopListening.map fun r => (r.1, r.2, t.2) else none) = _ at hturn
      rw [if_pos ⟨ht.queue, hevents t ht⟩] at hturn
      unfold Device.stopListening at hturn
      rw [hpending] at hturn
      dsimp only at hturn
      split at hturn
      · cases hturn
        exact ⟨rfl, ⟨{ ht.shows with }, ht.queue, ht.rates⟩⟩
      · cases hturn
  have hwait : (Action.await (.reply cmd)).Served Bench.waits (Bench.env contour) 0
      (fun outcome t => outcome = .error (.timeout ("No ACK for " ++ cmd.name)) ∧ (Scene.busy S M []).Hushed t)
      ({ b.1 with pending := some p }, b.2) := by
    apply Served.request_later henter
    apply Attended.intro (fun t => (Scene.busy S M []).Hushed t ∧ t.1.pending = some p)
      (fun t => if p.deadline ≤ t.1.now then 0 else 1) ⟨hlistens, rfl⟩
    · intro t t' ht henv
      obtain ⟨hhushed, hsame⟩ := ht.1.env h.healthy hsound henv
      exact ⟨hhushed, hsame.trans ht.2⟩
    · intro choice t t' ht hturn
      cases (hresume choice t ht.1 ht.2 none t' hturn).1
    · intro t ht
      obtain ⟨hhushed, hpending⟩ := ht
      by_cases hdue : p.deadline ≤ t.1.now
      · refine .inl ⟨.raised p.expired, .error p.expired, ({ t.1 with pending := none }, t.2), ?_⟩
        change (if t.2.queue = [] ∧ t.1.events = [] then t.1.stopListening.map fun r => (r.1, r.2, t.2) else none) = _
        rw [if_pos ⟨hhushed.queue, hevents t hhushed⟩]
        unfold Device.stopListening
        rw [hpending]
        dsimp only
        rw [if_pos hdue]
        rfl
      · right
        obtain ⟨elapsed, hreached⟩ := exists_tick p.deadline t.1.now
        refine ⟨({ t.1 with now := t.1.now + elapsed }, t.2), .inl ⟨.tick elapsed, rfl⟩, ?_⟩
        rw [if_neg hdue]
        change (if p.deadline ≤ t.1.now + elapsed then 0 else 1) < 1
        rw [if_pos hreached]
        exact Nat.one_pos
    · intro choice t answer t' ht hturn
      obtain ⟨hanswer, hafter⟩ := hresume choice t ht.1 ht.2 (some answer) t' hturn
      exact ⟨Option.some.inj hanswer, hafter⟩
  apply hwait.bind
  · intro heard t ht
    cases ht.1
  · intro e t ht
    exact ⟨congrArg Except.error (Except.error.inj ht.1), ht.2⟩

/-- Every attempt at two rates times out. -/
theorem hushed_attempts (h : Peers status S M) (htelegram : ∃ telegram, cmd.telegram S.settings.address = .ok telegram)
    (remaining : ℕ) :
    Yields Bench.waits (Bench.env contour) 0 (Scene.busy S M []).Hushed (Action.attempts cmd (remaining + 1))
      (.error (.timeout ("No ACK for " ++ cmd.name)))
      (Scene.busy { S with wire := S.wire ++ List.replicate (remaining + 1) (.wrote cmd.payload) } M []).Hushed := by
  obtain ⟨telegram, htelegram⟩ := htelegram
  have hsend : ∀ S : Session, Peers status S M → cmd.telegram S.settings.address = .ok telegram →
      Yields Bench.waits (Bench.env contour) 0 (Scene.busy S M []).Hushed (Action.send cmd) (.ok ())
        (Scene.busy { S with wire := S.wire ++ [.wrote cmd.payload] } M []).Hushed := by
    intro S h htelegram
    unfold Action.send
    apply Yields.modify_bind (Q := (Scene.busy S M []).Hushed)
    · intro b hb
      obtain ⟨expected, hcoming, hplain, hdue⟩ := hb.shows.coming
      exact ⟨{ hb.shows with coming := ⟨expected, hcoming, hplain, (List.append_eq_nil_iff.mp hdue).2⟩ }, hb.queue, hb.rates⟩
    · apply Yields.get_bind (g := (do
        modify (Device.log · (.wrote cmd.payload))
        Action.await (.write telegram)))
      · intro b hb
        rw [show b.1.settings = S.settings from congrArg Session.settings hb.shows.session, htelegram]
        rfl
      · apply Yields.modify_bind (Q := (Scene.busy { S with wire := S.wire ++ [.wrote cmd.payload] } M []).Hushed)
        · intro b hb
          refine ⟨{ hb.shows with session := ?_ }, hb.queue, hb.rates⟩
          change ({ b.1.toSession with wire := b.1.toSession.wire ++ [.wrote cmd.payload] } : Session) = _
          rw [hb.shows.session]
          rfl
        · exact hushed_write h.healthy ⟨h.status, h.unit, h.address, by simp [Scene.busy]⟩ rfl rfl telegram
  induction remaining generalizing S with
  | zero =>
    have hlater : Peers status { S with wire := S.wire ++ [.wrote cmd.payload] } M := h.of_settings rfl rfl h.unit
    rw [Action.attempts]
    apply Yields.bind (hsend S h htelegram)
    apply Yields.attempt_bind (hushed_awaitReply hlater)
    apply Yields.modify_bind (Q := (Scene.busy { S with wire := S.wire ++ [.wrote cmd.payload] } M []).Hushed)
    · exact fun b hb => ⟨{ hb.shows with }, hb.queue, hb.rates⟩
    · rw [if_pos rfl]
      exact Yields.fails fun b hb => hb
  | succ remaining ih =>
    have hlater : Peers status { S with wire := S.wire ++ [.wrote cmd.payload] } M := h.of_settings rfl rfl h.unit
    have hsound : (Scene.busy { S with wire := S.wire ++ [.wrote cmd.payload] } M []).Sound status :=
      ⟨h.status, h.unit, h.address, Nat.zero_le 2⟩
    rw [Action.attempts]
    apply Yields.bind (hsend S h htelegram)
    apply Yields.attempt_bind (hushed_awaitReply hlater)
    apply Yields.modify_bind (Q := (Scene.busy { S with wire := S.wire ++ [.wrote cmd.payload] } M []).Hushed)
    · exact fun b hb => ⟨{ hb.shows with }, hb.queue, hb.rates⟩
    · rw [if_neg (Nat.succ_ne_zero remaining)]
      apply Yields.bind (yields_sleep (fun b b' hb henv => (hb.env h.healthy hsound henv).1) _)
      have hrest := ih hlater htelegram
      rw [List.append_assoc] at hrest
      exact hrest

/-- At two rates, a command which mutates nothing times out. -/
theorem hushed_command (h : Peers status S M) (htelegram : ∃ telegram, cmd.telegram S.settings.address = .ok telegram)
    (hattempts : 0 < cmd.attempts) (hmutates : cmd.mutates = false) :
    Yields Bench.waits (Bench.env contour) 0 (Scene.rest S M).Hushed (Action.command cmd)
      (.error (.timeout ("No ACK for " ++ cmd.name))) (Scene.rest (S.sent cmd cmd.attempts) M).Hushed := by
  obtain ⟨remaining, hremaining⟩ := Nat.exists_eq_succ_of_ne_zero hattempts.ne'
  have hbody : Yields Bench.waits (Bench.env contour) 0 (Scene.busy S M []).Hushed
      (do Action.gate cmd; Action.attempts cmd cmd.attempts) (.error (.timeout ("No ACK for " ++ cmd.name)))
      (Scene.busy (S.sent cmd cmd.attempts) M []).Hushed := by
    have hsent : S.sent cmd cmd.attempts =
        { S with wire := S.wire ++ List.replicate (remaining + 1) (.wrote cmd.payload) } := by
      rw [hremaining, Session.sent, hmutates, Bool.or_false]
    rw [hsent, hremaining]
    unfold Action.gate
    rw [hmutates, if_neg Bool.false_ne_true]
    exact hushed_attempts h htelegram remaining
  unfold Action.command
  apply Yields.bind (Q := (Scene.busy S M []).Hushed) (a := ())
  · apply Yields.at_once
    intro b hb
    have htake : b.1.takeCommandLock 0 = some { b.1 with command_lock := some 0 } := if_pos hb.shows.lock
    refine ⟨({ b.1 with command_lock := some 0 }, b.2), ?_, ⟨{ hb.shows with lock := rfl }, hb.queue, hb.rates⟩⟩
    change ((b.1.takeCommandLock 0).map fun _ => Except.ok (), (b.1.takeCommandLock 0).getD b.1, b.2) = _
    rw [htake]
    rfl
  · apply Yields.andFinally_modify hbody
    exact fun b hb => ⟨{ hb.shows with lock := rfl }, hb.queue, hb.rates⟩

end Silence

end Lms200
