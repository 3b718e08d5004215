import Lms200.Device.Completion
import Lms200.Device.Interference

/-!
# The attempts of a command

Each turn of the waiting loop extends what its attempt has taken, and leaves it undecided or
decides it; so does the whole wait, by induction on what arrives. The attempts follow one another
until one is decided by a reply or by an error which is not retried, or the budget is spent.
-/

namespace Lms200

open Coop

/-- A waiting loop goes on undecided, or the attempt was decided in time. -/
def Settled (cmd : Command) (settings : Settings) (round : Round) :
    Option (Except Error Heard) → Device → Prop
  | none, d => ∃ p, d.pending = some p ∧ Undecided cmd settings round.since round.taken p
  | some outcome, _ => Timely cmd settings round.since round.taken ∧ Decides cmd settings round outcome

/-- The command is built by one of the functions which change the scanner. -/
def Command.Mutation (cmd : Command) : Prop :=
  (∃ mode password, operating_mode mode password = .ok cmd) ∨ (∃ baud, baud_rate baud = .ok cmd) ∨
    (∃ angle resolution, variant angle resolution = .ok cmd) ∨ ∃ data, write_configuration data = .ok cmd

/-- What a call has done with its attempts, latest first. -/
structure Attempted (cmd : Command) (settings : Settings) (budget : ℕ) (rounds : List Round)
    (outcome : Except Error Response) : Prop where
  returned : ∀ r, outcome = .ok r ↔ ∃ round ∈ rounds.head?, Completes cmd settings round r
  bounded : rounds.length ≤ budget
  identical : ∀ round ∈ rounds, cmd.telegram settings.address = .ok round.telegram
  written : 0 < budget → (∃ telegram, cmd.telegram settings.address = .ok telegram) → rounds ≠ []
  timely : ∀ round ∈ rounds, Timely cmd settings round.since round.taken
  final : ∀ round ∈ rounds.tail, ¬ Refused cmd round

section Waiting

variable {cmd : Command} {settings : Settings} {telegram : Bytes} {since : ℚ}
  {taken : List (ℚ × Incoming)} {p : Pending} {d : Device} {earlier : List Round}

/-- An expired deadline decides. -/
theorem Undecided.expired (h : Undecided cmd settings since taken p) :
    Timely cmd settings since taken ∧
      Decides cmd settings ⟨telegram, since, taken⟩ (.error p.expired) :=
  ⟨h.timely, h.not_completes, h.not_refused⟩

/-- The loop over the queued events settles the attempt with what it has heard. -/
theorem listen_settles (telegram : Bytes) (h : Undecided cmd settings since taken p) (hsettings : d.settings = settings)
    (events : List (ℕ × Incoming)) :
    ∃ heard, events = heard ++ (p.listen cmd events d).2.events ∧
      Settled cmd settings ⟨telegram, since, taken ++ heard.map fun event => (d.now, event.2)⟩
        (p.listen cmd events d).1 (p.listen cmd events d).2 ∧
      (p.listen cmd events d).2.now = d.now ∧ (p.listen cmd events d).2.settings = settings := by
  induction events generalizing p d taken with
  | nil =>
    refine ⟨[], ?_⟩
    unfold Pending.listen
    split
    · exact ⟨rfl, by simpa [Settled] using h.expired, rfl, hsettings⟩
    · exact ⟨rfl, ⟨p, rfl, by simpa using h⟩, rfl, hsettings⟩
  | cons event rest ih =>
    unfold Pending.listen
    split
    · exact ⟨[], rfl, by simpa [Settled] using h.expired, rfl, hsettings⟩
    · next htime =>
      have hevent := hear_decides telegram h hsettings (not_le.mp htime) event
      generalize p.hear cmd d event = step at hevent
      obtain ⟨p' | outcome, d'⟩ := step
      · obtain ⟨hundecided, hnow, hkept⟩ := hevent
        obtain ⟨heard, hevents, hsettled, hthen, hsame⟩ := ih hundecided hkept
        refine ⟨event :: heard, congrArg (event :: ·) hevents, ?_, hthen.trans hnow, hsame⟩
        simpa [hnow] using hsettled
      · exact ⟨[event], rfl, ⟨hevent.1, hevent.2.1⟩, hevent.2.2⟩

/-- In time, a loop which an event wakes is the loop over all that is queued. -/
theorem wake_eq_listen {event : ℕ × Incoming} {rest : List (ℕ × Incoming)} (htime : d.now < p.deadline) :
    p.wake cmd event rest d = p.listen cmd (event :: rest) d := by
  rw [Pending.listen, if_neg (not_le.mpr htime)]
  rfl

namespace World

/-- The events which the queue has lost to a turn are the ones it has heard. -/
theorem takenBy_eq {before after : Device} {heard : List (ℕ × Incoming)}
    (h : before.events = heard ++ after.events) :
    takenBy before after = heard.map fun event => (before.now, event.2) := by
  simp [takenBy, h]

/-- Queueing leaves everything a waiting loop reads, but the queue. -/
theorem foldl_queue_fields (burst : List Incoming) (d : Device) :
    (burst.foldl Device.queue d).toSession = d.toSession ∧
      (burst.foldl Device.queue d).now = d.now ∧
      (burst.foldl Device.queue d).pending = d.pending := by
  induction burst generalizing d with
  | nil => exact ⟨rfl, rfl, rfl⟩
  | cons event rest ih =>
    obtain ⟨hsession, hnow, hpending⟩ := ih (d.queue event)
    have hqueue : (d.queue event).now = d.now ∧ (d.queue event).pending = d.pending := by
      unfold Device.queue
      split <;> exact ⟨rfl, rfl⟩
    exact ⟨hsession.trans (d.queue_session event), hnow.trans hqueue.1, hpending.trans hqueue.2⟩

theorem arrive_session (time : ℚ) (arrivals : List (ℚ × List Incoming)) (d : Device) :
    (arrive time arrivals d).2.toSession = d.toSession := by
  induction arrivals generalizing d with
  | nil => rfl
  | cons first rest ih =>
    obtain ⟨arrival, burst⟩ := first
    unfold arrive
    split
    · exact (ih _).trans (foldl_queue_fields burst d).1
    · rfl

/-- At its deadline the loop ends. -/
theorem fire_decides {s : Device × World} (h : Undecided cmd settings since taken p)
    (hpending : s.1.pending = some p) (hsettings : s.1.settings = settings)
    (hrounds : s.2.rounds = ⟨telegram, since, taken⟩ :: earlier) :
    ∃ taken', (fire s).2.2.rounds = ⟨telegram, since, taken'⟩ :: earlier ∧
      (Timely cmd settings since taken' ∧ Decides cmd settings ⟨telegram, since, taken'⟩ (fire s).1) ∧
      (fire s).2.1.settings = settings := by
  refine ⟨taken, ?_⟩
  simp only [fire, Device.stopListening, hpending, Option.map_some, Option.getD_some, le_max_right,
    if_true]
  exact ⟨hrounds, h.expired, hsettings⟩

/-- A waiting loop on an empty queue decides its attempt in the end. -/
theorem await_decides (arrivals : List (ℚ × List Incoming)) {s : Device × World}
    (h : Undecided cmd settings since taken p) (hpending : s.1.pending = some p)
    (hsettings : s.1.settings = settings) (hrounds : s.2.rounds = ⟨telegram, since, taken⟩ :: earlier) :
    ∃ taken', (await cmd arrivals s).2.2.rounds = ⟨telegram, since, taken'⟩ :: earlier ∧
      (Timely cmd settings since taken' ∧
        Decides cmd settings ⟨telegram, since, taken'⟩ (await cmd arrivals s).1) ∧
      (await cmd arrivals s).2.1.settings = settings := by
  induction arrivals generalizing s taken p with
  | nil => exact fire_decides h hpending hsettings hrounds
  | cons first rest ih =>
    obtain ⟨arrival, burst⟩ := first
    unfold await
    split
    · next hexists =>
      obtain ⟨p', hp', htime⟩ := hexists
      obtain rfl : p = p' := Option.some.inj (hpending.symm.trans hp')
      obtain ⟨hsession, hnow, hstill⟩ :=
        foldl_queue_fields burst { s.1 with now := max s.1.now arrival }
      dsimp only
      generalize burst.foldl Device.queue { s.1 with now := max s.1.now arrival } = d
        at hsession hnow hstill
      replace hstill : d.pending = some p := hstill.trans hpending
      have hkept : d.settings = settings := (congrArg Session.settings hsession).trans hsettings
      cases hevents : d.events with
      | nil =>
        have hgo : d.goOnListening cmd = none := by simp [Device.goOnListening, hstill, hevents]
        simp only [hgo]
        exact ih (s := (d, s.2)) h hstill hkept hrounds
      | cons event queued =>
        have hgo : d.goOnListening cmd = some (p.listen cmd (event :: queued) d) := by
          rw [← wake_eq_listen (by rw [hnow]; exact htime)]
          simp [Device.goOnListening, hstill, hevents]
        obtain ⟨heard, hheard, hsettled, -, hsame⟩ :=
          listen_settles telegram h hkept (event :: queued)
        simp only [hgo]
        generalize p.listen cmd (event :: queued) d = result at hheard hsettled hsame
        obtain ⟨answer, d'⟩ := result
        have htaken : takenBy d d' = heard.map fun event => (d.now, event.2) :=
          takenBy_eq (hevents.trans hheard)
        cases answer with
        | none =>
          obtain ⟨p', hp', hundecided⟩ := hsettled
          exact ih hundecided hp' hsame (by simp [World.take, hrounds, htaken])
        | some outcome => exact ⟨_, by simp [World.take, hrounds, htaken], hsettled, hsame⟩
    · exact fire_decides h hpending hsettings hrounds

/-- Time passes without touching the settings or the attempts. -/
theorem pass_fields (time : ℚ) (s : Device × World) :
    (pass time s).1.toSession = s.1.toSession ∧ (pass time s).2.rounds = s.2.rounds :=
  ⟨arrive_session time s.2.arrivals s.1, rfl⟩

/-- The wait for a reply decides a fresh attempt. -/
theorem answer_reply {w : World} (hpending : d.pending = some ⟨cmd, false, d.now + settings.ack_timeout⟩)
    (hsettings : d.settings = settings) (hrounds : w.rounds = ⟨telegram, since, []⟩ :: earlier) :
    ∃ taken', (answer (.reply cmd) (d, w)).2.2.rounds = ⟨telegram, d.now, taken'⟩ :: earlier ∧
      (Timely cmd settings d.now taken' ∧
        Decides cmd settings ⟨telegram, d.now, taken'⟩ (answer (.reply cmd) (d, w)).1) ∧
      (answer (.reply cmd) (d, w)).2.1.settings = settings := by
  have hstart : d.startListening cmd =
      Pending.listen cmd ⟨cmd, false, d.now + settings.ack_timeout⟩ d.events d := by
    simp [Device.startListening, hpending]
  obtain ⟨heard, hheard, hsettled, -, hsame⟩ :=
    listen_settles telegram (Undecided.nil d.now) hsettings d.events
  simp only [answer, hstart]
  generalize Pending.listen cmd ⟨cmd, false, d.now + settings.ack_timeout⟩ d.events d = result
    at hheard hsettled hsame
  obtain ⟨outcome, d'⟩ := result
  have htaken : takenBy d d' = heard.map fun event => (d.now, event.2) := takenBy_eq hheard
  cases outcome with
  | none =>
    obtain ⟨p, hp, hundecided⟩ := hsettled
    exact await_decides _ hundecided hp hsame (by simp [World.take, World.listen, hrounds, htaken])
  | some outcome =>
    exact ⟨_, by simp [World.take, World.listen, hrounds, htaken], hsettled, hsame⟩

/-- `awaitReply` passes the reply on, and waits a moment after a refusal. -/
theorem awaitReply_run {w : World} :
    (Action.awaitReply cmd).run answer (d, w) =
      match answer (.reply cmd)
        ({ d with pending := some ⟨cmd, false, d.now + d.settings.ack_timeout⟩ }, w) with
      | (.ok (.reply r), s) => (.ok r, s)
      | (.ok .nak, s) => (.error (.protocol "NAK"), pass (s.1.now + 3 / 100) s)
      | (.error e, s) => (.error e, s) := by
  unfold Action.awaitReply Action.await
  rw [Program.run_modify_bind, Program.run_bind, Program.run_request]
  dsimp only
  generalize answer (.reply cmd)
    ({ d with pending := some ⟨cmd, false, d.now + d.settings.ack_timeout⟩ }, w) = result
  match result with
  | (.ok (.reply r), s) => rfl
  | (.ok .nak, s) => rfl
  | (.error e, s) => rfl

/-- What `awaitReply` gives is what decides its attempt. -/
theorem awaitReply_decides (cmd : Command) {w : World} (hsettings : d.settings = settings)
    (hrounds : w.rounds = ⟨telegram, since, []⟩ :: earlier) :
    ∃ taken', ((Action.awaitReply cmd).run answer (d, w)).2.2.rounds =
        ⟨telegram, d.now, taken'⟩ :: earlier ∧
      (Timely cmd settings d.now taken' ∧ Decides cmd settings ⟨telegram, d.now, taken'⟩
        (((Action.awaitReply cmd).run answer (d, w)).1.map .reply)) ∧
      ((Action.awaitReply cmd).run answer (d, w)).2.1.settings = settings := by
  subst hsettings
  obtain ⟨taken', hrounds', ⟨htimely, hdecides⟩, hsame⟩ :=
    answer_reply (d := { d with pending := some ⟨cmd, false, d.now + d.settings.ack_timeout⟩ })
      rfl rfl hrounds
  refine ⟨taken', ?_⟩
  rw [awaitReply_run]
  generalize answer (.reply cmd)
    ({ d with pending := some ⟨cmd, false, d.now + d.settings.ack_timeout⟩ }, w) = result
    at hrounds' hdecides hsame
  match result with
  | (.ok (.reply r), s) => exact ⟨hrounds', ⟨htimely, hdecides⟩, hsame⟩
  | (.error e, s) => exact ⟨hrounds', ⟨htimely, hdecides⟩, hsame⟩
  | (.ok .nak, s) =>
    obtain ⟨hsession, hkept⟩ := pass_fields (s.1.now + 3 / 100) s
    exact ⟨hkept.trans hrounds', ⟨htimely, hdecides⟩, (congrArg Session.settings hsession).trans hsame⟩

/-- `send` hands an encoded request to the transport. -/
theorem send_run {w : World} :
    (Action.send cmd).run answer (d, w) =
      match cmd.telegram d.settings.address with
      | .error e => (.error e, { d with events := [], pending := some ⟨cmd, false, d.now⟩ }, w)
      | .ok telegram => answer (.write telegram)
        (Device.log { d with events := [], pending := some ⟨cmd, false, d.now⟩ } (.wrote cmd.payload), w) := by
  change (Action.lift (cmd.telegram d.settings.address) >>= fun telegram => do
    modify (Device.log · (.wrote cmd.payload))
    Action.await (.write telegram)).run answer
      ({ d with events := [], pending := some ⟨cmd, false, d.now⟩ }, w) = _
  rw [Program.run_bind, Action.lift, Program.run_ofExcept]
  cases cmd.telegram d.settings.address with
  | error e => rfl
  | ok telegram => exact (Program.run_modify_bind _ _).trans (Program.run_request _)

/-- Sending begins an attempt, unless the request cannot be encoded. -/
theorem send_begins (cmd : Command) {w : World} (hsettings : d.settings = settings) :
    ((Action.send cmd).run answer (d, w)).2.1.settings = settings ∧
      ((∃ e, cmd.telegram settings.address = .error e ∧
          ((Action.send cmd).run answer (d, w)).1 = .error e ∧
          ((Action.send cmd).run answer (d, w)).2.2.rounds = w.rounds) ∨
        ∃ telegram since, cmd.telegram settings.address = .ok telegram ∧
          ((Action.send cmd).run answer (d, w)).2.2.rounds = ⟨telegram, since, []⟩ :: w.rounds) := by
  subst hsettings
  rw [send_run]
  cases htelegram : cmd.telegram d.settings.address with
  | error e => exact ⟨rfl, .inl ⟨e, rfl, rfl, rfl⟩⟩
  | ok telegram =>
    obtain ⟨hsession, hrounds⟩ := pass_fields (d.now + (w.writes.headD (0, .ok ())).1)
      ((Device.log { d with events := [], pending := some ⟨cmd, false, d.now⟩ } (.wrote cmd.payload)),
        { w with writes := w.writes.tail, rounds := ⟨telegram, d.now, []⟩ :: w.rounds })
    have hsettings := congrArg Session.settings hsession
    exact ⟨hsettings, .inr ⟨telegram, d.now, rfl, hrounds⟩⟩

end World

end Waiting

namespace Attempted

variable {cmd : Command} {settings : Settings} {budget : ℕ} {rounds : List Round}
  {outcome : Except Error Response}

/-- A call which raises before it can write has no attempts. -/
theorem none {e : Error} (h : 0 < budget → ∀ telegram, cmd.telegram settings.address ≠ .ok telegram) :
    Attempted cmd settings budget [] (.error e) where
  returned := by simp
  bounded := Nat.zero_le _
  identical := by simp
  written := fun hbudget ⟨telegram, htelegram⟩ => absurd htelegram (h hbudget telegram)
  timely := by simp
  final := by simp

/-- The only attempt of a call decides it. -/
theorem single {round : Round} (htelegram : cmd.telegram settings.address = .ok round.telegram)
    (htimely : Timely cmd settings round.since round.taken)
    (hreturned : ∀ r, outcome = .ok r ↔ Completes cmd settings round r) :
    Attempted cmd settings (budget + 1) [round] outcome where
  returned := by simpa using hreturned
  bounded := by simp
  identical := by simpa using htelegram
  written := by simp
  timely := by simpa using htimely
  final := by simp

/-- An earlier attempt has neither completed nor met an error of the device. -/
theorem retried {round : Round} (h : Attempted cmd settings budget rounds outcome)
    (hbudget : 0 < budget) (htelegram : cmd.telegram settings.address = .ok round.telegram)
    (htimely : Timely cmd settings round.since round.taken) (hrefused : ¬ Refused cmd round) :
    Attempted cmd settings (budget + 1) (rounds ++ [round]) outcome := by
  obtain ⟨last, earlier, rfl⟩ :=
    List.exists_cons_of_ne_nil (h.written hbudget ⟨_, htelegram⟩)
  refine ⟨h.returned, by simpa using h.bounded, ?_, by simp, ?_, ?_⟩
  · exact List.forall_mem_append.mpr ⟨h.identical, by simpa using htelegram⟩
  · exact List.forall_mem_append.mpr ⟨h.timely, by simpa using htimely⟩
  · exact List.forall_mem_append.mpr ⟨h.final, by simpa using hrefused⟩

end Attempted

namespace World

variable {cmd : Command} {d : Device} {w : World}

/-- A sleep lets time pass. -/
theorem sleep_run (seconds : ℚ) (s : Device × World) :
    (Action.sleep seconds).run answer s = (.ok (), pass (s.1.now + seconds) s) := rfl

/-- After an attempt which may be retried, the budget decides. -/
theorem retry_attempted {settings : Settings} {round : Round} {earlier : List Round} {remaining : ℕ}
    {s : Device × World} (e : Error) (hsettings : s.1.settings = settings)
    (hrounds : s.2.rounds = round :: earlier)
    (htelegram : cmd.telegram settings.address = .ok round.telegram)
    (htimely : Timely cmd settings round.since round.taken)
    (hcompletes : ∀ r, ¬ Completes cmd settings round r) (hrefused : ¬ Refused cmd round)
    (ih : ∀ s : Device × World, s.1.settings = settings →
      ∃ rounds, ((Action.attempts cmd remaining).run answer s).2.2.rounds = rounds ++ s.2.rounds ∧
        Attempted cmd settings remaining rounds ((Action.attempts cmd remaining).run answer s).1) :
    ∃ rounds, ((if remaining = 0 then throw e else do
          Action.sleep (3 / 100)
          Action.attempts cmd remaining : Action Response).run answer s).2.2.rounds = rounds ++ earlier ∧
      Attempted cmd settings (remaining + 1) rounds ((if remaining = 0 then throw e else do
          Action.sleep (3 / 100)
          Action.attempts cmd remaining : Action Response).run answer s).1 := by
  split
  · exact ⟨[round], hrounds, .single htelegram htimely fun r => by simp [hcompletes r]⟩
  · next hremaining =>
    rw [Program.run_bind, sleep_run]
    obtain ⟨hsession, hkept⟩ := pass_fields (s.1.now + 3 / 100) s
    obtain ⟨rounds, hlater, hattempted⟩ :=
      ih (pass (s.1.now + 3 / 100) s) ((congrArg Session.settings hsession).trans hsettings)
    refine ⟨rounds ++ [round], ?_, hattempted.retried (Nat.pos_of_ne_zero hremaining) htelegram htimely
      hrefused⟩
    rw [hlater, hkept, hrounds, List.append_assoc, List.singleton_append]

/-- The attempts of a command, by induction on the budget. -/
theorem attempts_attempted {settings : Settings} (budget : ℕ) (s : Device × World)
    (hsettings : s.1.settings = settings) :
    ∃ rounds, ((Action.attempts cmd budget).run answer s).2.2.rounds = rounds ++ s.2.rounds ∧
      Attempted cmd settings budget rounds ((Action.attempts cmd budget).run answer s).1 := by
  induction budget generalizing s with
  | zero => exact ⟨[], rfl, Attempted.none (by simp)⟩
  | succ remaining ih =>
    unfold Action.attempts
    rw [Program.run_bind]
    obtain ⟨hkept, hsent⟩ := send_begins cmd (w := s.2) hsettings
    generalize (Action.send cmd).run answer (s.1, s.2) = sent at hkept hsent
    obtain ⟨outcome, d, w⟩ := sent
    rcases hsent with ⟨e, htelegram, rfl, hrounds⟩ | ⟨telegram, since, htelegram, hrounds⟩
    · exact ⟨[], hrounds, .none fun _ telegram h => by simp [htelegram] at h⟩
    cases outcome with
    | error e =>
      refine ⟨[⟨telegram, since, []⟩], hrounds, .single htelegram Timely.nil fun r => ?_⟩
      simpa using (Undecided.nil since).not_completes r
    | ok _ =>
      dsimp only at hkept hrounds ⊢
      rw [Program.run_bind, Program.run_attempt]
      obtain ⟨taken, hrounds', ⟨htimely, hdecides⟩, hsame⟩ :=
        awaitReply_decides cmd hkept hrounds
      generalize (Action.awaitReply cmd).run answer (d, w) = heard at hrounds' hdecides hsame
      obtain ⟨outcome, s'⟩ := heard
      match outcome with
      | .ok r =>
        refine ⟨[⟨telegram, d.now, taken⟩], hrounds', .single htelegram htimely fun r' => ?_⟩
        have hcompletes : Completes cmd settings ⟨telegram, d.now, taken⟩ r := hdecides
        exact ⟨fun h => Except.ok.inj h ▸ hcompletes, fun h => congrArg Except.ok (hcompletes.unique h)⟩
      | .error (.timeout m) =>
        exact retry_attempted (s := ({ s'.1 with counters.timeouts := s'.1.counters.timeouts + 1 }, s'.2))
          (.timeout m) hsame hrounds' htelegram htimely hdecides.1 hdecides.2 ih
      | .error (.protocol m) =>
        exact retry_attempted (.protocol m) hsame hrounds' htelegram htimely hdecides.1 hdecides.2 ih
      | .error (.device m) | .error (.value m) | .error (.eof m) | .error (.os m) =>
        refine ⟨[⟨telegram, d.now, taken⟩], hrounds', .single htelegram htimely fun r' => ?_⟩
        simpa using hdecides r'

/-- The consent gate raises, or notes that the scanner may be changed. -/
theorem gate_run :
    (Action.gate cmd).run answer (d, w) =
      if cmd.mutates = true then
        match d.settings.require_write with
        | .error e => (.error e, d, w)
        | .ok () => (.ok (), { d with changed := true }, w)
      else (.ok (), d, w) := by
  unfold Action.gate
  split
  · change (Action.lift d.settings.require_write >>= fun _ =>
      (modify fun d => { d with changed := true } : Action Unit)).run answer (d, w) = _
    rw [Program.run_bind, Action.lift, Program.run_ofExcept]
    cases d.settings.require_write with
    | error e => rfl
    | ok u => rfl
  · rfl

/-- A call passes the gate, then its attempts follow. -/
theorem call_eq (arrivals : List (ℚ × List Incoming)) (writes : List (ℚ≥0 × Except Error Unit)) :
    call cmd d arrivals writes =
      match (Action.gate cmd).run answer ({ d with command_lock := some 0 }, { arrivals, writes }) with
      | (.error e, s) => (.error e, s.2.rounds)
      | (.ok (), s) => (((Action.attempts cmd cmd.attempts).run answer s).1,
        ((Action.attempts cmd cmd.attempts).run answer s).2.2.rounds) := by
  have hcommand : (Action.command cmd).run answer (d, { arrivals, writes }) =
      (Program.andFinally (Action.gate cmd >>= fun _ => Action.attempts cmd cmd.attempts)
        (modify fun d => { d with command_lock := none, pending := none })).run answer
        ({ d with command_lock := some 0 }, { arrivals, writes }) := rfl
  rw [call, hcommand, Program.run_andFinally_modify, Program.run_bind]
  cases (Action.gate cmd).run answer ({ d with command_lock := some 0 }, { arrivals, writes }) with
  | mk outcome s => cases outcome <;> rfl

end World

/-- Every function which changes the scanner asks for a single attempt. -/
theorem Command.Mutation.attempts_eq {cmd : Command} (h : cmd.Mutation) : cmd.attempts = 1 := by
  rcases h with ⟨mode, password, h⟩ | ⟨baud, h⟩ | ⟨angle, resolution, h⟩ | ⟨data, h⟩
  · unfold operating_mode at h
    split at h
    · split at h <;> cases h
      rfl
    · cases h
      rfl
  · unfold baud_rate at h
    split at h <;> cases h
    rfl
  · unfold variant at h
    split at h <;> cases h
    rfl
  · unfold write_configuration at h
    split at h <;> cases h
    rfl

/-- A call of `command` returns exactly the reply which completes its latest attempt. It makes at
most as many attempts as the budget allows, with the same telegram, and at least one unless the
consent gate refuses it, there is no budget or the request cannot be encoded. Deadlines only
depend on the first acknowledgement, an error of the device ends the call, and what changes the
scanner is written once at most. -/
theorem command_completes_iff (cmd : Command) (d : Device) (arrivals : List (ℚ × List Incoming))
    (writes : List (ℚ≥0 × Except Error Unit)) :
    let outcome := (World.call cmd d arrivals writes).1
    let rounds := (World.call cmd d arrivals writes).2
    (∀ r, outcome = .ok r ↔ ∃ round ∈ rounds.head?, Completes cmd d.settings round r) ∧
      (∀ round ∈ rounds, Timely cmd d.settings round.since round.taken) ∧
      rounds.length ≤ cmd.attempts ∧
      (∀ round ∈ rounds, cmd.telegram d.settings.address = .ok round.telegram) ∧
      ((cmd.mutates = true → d.settings.require_write = .ok ()) → 0 < cmd.attempts →
        (∃ telegram, cmd.telegram d.settings.address = .ok telegram) → rounds ≠ []) ∧
      (∀ e, cmd.mutates = true → d.settings.require_write = .error e →
        outcome = .error e ∧ rounds = []) ∧
      (cmd.Mutation → rounds.length ≤ 1) ∧
      ∀ round ∈ rounds.tail, ¬ Refused cmd round := by
  intro outcome rounds
  have hcall : (Attempted cmd d.settings cmd.attempts rounds outcome ∧
        (cmd.mutates = true → d.settings.require_write = .ok ())) ∨
      ∃ e, cmd.mutates = true ∧ d.settings.require_write = .error e ∧
        outcome = .error e ∧ rounds = [] := by
    simp only [outcome, rounds, World.call_eq, World.gate_run]
    have hattempted (d' : Device) (hsettings : d'.settings = d.settings) :
        Attempted cmd d.settings cmd.attempts
          ((Action.attempts cmd cmd.attempts).run World.answer (d', { arrivals, writes })).2.2.rounds
          ((Action.attempts cmd cmd.attempts).run World.answer (d', { arrivals, writes })).1 := by
      obtain ⟨new, hnew, h⟩ := World.attempts_attempted cmd.attempts (d', { arrivals, writes }) hsettings
      rwa [hnew, List.append_nil]
    by_cases hmutates : cmd.mutates = true
    · simp only [if_pos hmutates]
      cases hgate : d.settings.require_write with
      | error e => exact .inr ⟨e, hmutates, rfl, rfl, rfl⟩
      | ok u => exact .inl ⟨hattempted _ rfl, fun _ => rfl⟩
    · simp only [if_neg hmutates]
      exact .inl ⟨hattempted _ rfl, fun h => absurd h hmutates⟩
  rcases hcall with ⟨h, hgate⟩ | ⟨e, hmutates, hgate, houtcome, hrounds⟩
  · refine ⟨h.returned, h.timely, h.bounded, h.identical, fun _ => h.written, fun e hmutates he => ?_,
      fun hmutation => hmutation.attempts_eq ▸ h.bounded, h.final⟩
    simp [hgate hmutates] at he
  · rw [houtcome, hrounds]
    refine ⟨by simp, by simp, by simp, by simp, fun h => ?_, fun e' _ he' => ?_, by simp, by simp⟩
    · simp [h hmutates] at hgate
    · rw [hgate] at he'
      cases he'
      exact ⟨rfl, rfl⟩

/-- A reply before the acknowledgement counts for nothing; one after it ends the call. -/
example :
    let reply : Response := ⟨0xBA, [], ⟨0x10, .ok, .lms_type_6, false, false, false⟩, ⟨0x80, [], []⟩⟩
    World.call type_request { settings := {} } [(1 / 10, [.reply reply, .control .ACK]),
      (2, [.control .ACK]), (3, [.reply reply])] [] =
      (.ok reply, [⟨[0x02, 0x00, 0x01, 0x00, 0x3A, 0x1E, 0x12], 0, [(1 / 10, .reply reply),
        (1 / 10, .control .ACK), (2, .control .ACK), (3, .reply reply)]⟩]) := by
  decide +kernel

/-- A mutating command is not written at all while writes are not enabled. -/
theorem read_only_writes_nothing :
    ∃ cmd d arrivals writes, Command.Mutation cmd ∧
      ¬ (1 ≤ (World.call cmd d arrivals writes).2.length ∧
        (World.call cmd d arrivals writes).2.length ≤ cmd.attempts) := by
  refine ⟨modeCommand .CONTINUOUS [Mode.CONTINUOUS.byte], { settings := { transport := .serial } }, [], [],
    .inl ⟨.CONTINUOUS, "SICK_LMS", rfl⟩, ?_⟩
  rw [World.call_eq, World.gate_run]
  decide

end Lms200
