import Lms200.Device.Exchange

/-!
# When a command completes

The waiting loop of `command` keeps a deadline which depends on the first acknowledgement only.
An attempt is undecided while nothing has refused it, broken it off or answered it after the
acknowledgement; the event which decides it is the last one it takes.

So a call returns a reply exactly when its latest attempt has taken, each in time, an
acknowledgement and then the first reply with the awaited code, with nothing in between which
refuses it, and when the reply confirms the request. The number of attempts is bounded by the
budget, and none follows an error of the device.
-/

namespace Lms200

open Coop

/-- The event is an acknowledgement or a reply: it neither refuses nor breaks an exchange off. -/
def Incoming.harmless : Incoming → Prop
  | .control .ACK => True
  | .control .NAK => False
  | .reply _ => True
  | .error _ => False

/-- The event is a reply with the awaited code. -/
def Incoming.answers (cmd : Command) : Incoming → Prop
  | .reply r => r.command = cmd.response_id
  | _ => False

/-- An acknowledgement has been taken. -/
def Acked (taken : List (ℚ × Incoming)) : Prop := ∃ e ∈ taken, e.2 = .control .ACK

/-- Until when the next event may be taken: the acknowledgement has its own time, and the first
one gives the reply its time. -/
def limit (cmd : Command) (settings : Settings) (since : ℚ) (taken : List (ℚ × Incoming)) : ℚ :=
  match taken.find? (·.2 = .control .ACK) with
  | none => since + settings.ack_timeout
  | some e => e.1 + cmd.timeout * settings.timeout_scale

/-- Every event was taken in time: nothing but the first acknowledgement moves the deadline. -/
def Timely (cmd : Command) (settings : Settings) (since : ℚ) (taken : List (ℚ × Incoming)) : Prop :=
  ∀ before e after, taken = before ++ e :: after → e.1 < limit cmd settings since before

/-- The attempt has taken an acknowledgement in time, then in time after the first one the first
reply with the awaited code, and nothing which refuses it; and the reply confirms the request. -/
inductive Completes (cmd : Command) (settings : Settings) (round : Round) (r : Response) : Prop
  | intro (early : List (ℚ × Incoming)) (acked : ℚ) (middle : List (ℚ × Incoming)) (arrived : ℚ)
      (taken : round.taken = early ++ (acked, .control .ACK) :: middle ++ [(arrived, .reply r)])
      (first : ¬ Acked early) (acked_in_time : acked < round.since + settings.ack_timeout)
      (harmless : ∀ e ∈ early ++ middle, e.2.harmless) (awaited : ∀ e ∈ middle, ¬ e.2.answers cmd)
      (answers : r.command = cmd.response_id)
      (arrived_in_time : arrived < acked + cmd.timeout * settings.timeout_scale)
      (confirmed : confirm r cmd.payload = .ok ())

/-- The attempt has met an error of the device: it was queued, or the reply does not confirm the
request. -/
def Refused (cmd : Command) (round : Round) : Prop :=
  (∃ time m, (time, .error (.device m)) ∈ round.taken) ∨
    ∃ before time r e, round.taken = before ++ [(time, .reply r)] ∧ Acked before ∧
      r.command = cmd.response_id ∧ confirm r cmd.payload = .error e

/-- Nothing has decided the attempt yet, and the locals of its loop say what was taken. -/
structure Undecided (cmd : Command) (settings : Settings) (since : ℚ) (taken : List (ℚ × Incoming))
    (p : Pending) : Prop where
  harmless : ∀ e ∈ taken, e.2.harmless
  awaited : ∀ before e after, taken = before ++ e :: after → Acked before → ¬ e.2.answers cmd
  ack : p.ack = true ↔ Acked taken
  deadline : p.deadline = limit cmd settings since taken
  timely : Timely cmd settings since taken

/-- What the outcome of a wait says about its attempt. -/
def Decides (cmd : Command) (settings : Settings) (round : Round) : Except Error Heard → Prop
  | .ok (.reply r) => Completes cmd settings round r
  | .ok .nak | .error (.timeout _) | .error (.protocol _) =>
    (∀ r, ¬ Completes cmd settings round r) ∧ ¬ Refused cmd round
  | .error _ => ∀ r, ¬ Completes cmd settings round r

section Loop

variable {cmd : Command} {settings : Settings} {since : ℚ} {taken : List (ℚ × Incoming)}
  {p : Pending} {d : Device}

theorem Acked.append_iff {more : List (ℚ × Incoming)} :
    Acked (taken ++ more) ↔ Acked taken ∨ Acked more := by
  simp [Acked, or_and_right, exists_or]

/-- The first acknowledgement, what came before it, and the deadline it gives. -/
theorem Acked.first (h : Acked taken) (cmd : Command) (settings : Settings) (since : ℚ) :
    ∃ early acked middle, taken = early ++ (acked, .control .ACK) :: middle ∧ ¬ Acked early ∧
      ∀ more, limit cmd settings since (taken ++ more) = acked + cmd.timeout * settings.timeout_scale := by
  cases hfind : taken.find? (·.2 = .control .ACK) with
  | none =>
    obtain ⟨e, he, hack⟩ := h
    exact absurd hack (by simpa using List.find?_eq_none.mp hfind e he)
  | some first =>
    obtain ⟨hack, early, middle, hsplit, hearly⟩ := List.find?_eq_some_iff_append.mp hfind
    obtain ⟨acked, event⟩ := first
    obtain rfl : event = .control .ACK := by simpa using hack
    refine ⟨early, acked, middle, hsplit, ?_, fun more => ?_⟩
    · rintro ⟨e, he, hacked⟩
      exact absurd hacked (by simpa using hearly e he)
    · simp [limit, List.find?_append, hfind]

/-- Without an acknowledgement its own time runs. -/
theorem limit_of_not_acked (cmd : Command) (h : ¬ Acked taken) :
    limit cmd settings since taken = since + settings.ack_timeout := by
  have hfind : taken.find? (·.2 = .control .ACK) = none := by
    refine List.find?_eq_none.mpr fun e he => ?_
    simpa using fun hack => h ⟨e, he, hack⟩
  simp [limit, hfind]

/-- Once it is acknowledged, nothing moves the deadline. -/
theorem limit_append_of_acked (h : Acked taken) (more : List (ℚ × Incoming)) :
    limit cmd settings since (taken ++ more) = limit cmd settings since taken := by
  obtain ⟨early, acked, middle, -, -, hlimit⟩ := h.first cmd settings since
  rw [hlimit more, ← hlimit [], List.append_nil]

/-- The first acknowledgement gives the reply its time. -/
theorem limit_append_ack (h : ¬ Acked taken) (time : ℚ) :
    limit cmd settings since (taken ++ [(time, .control .ACK)]) =
      time + cmd.timeout * settings.timeout_scale := by
  have hfind : taken.find? (·.2 = .control .ACK) = none := by
    refine List.find?_eq_none.mpr fun e he => ?_
    simpa using fun hack => h ⟨e, he, hack⟩
  simp [limit, List.find?_append, hfind]

theorem Timely.nil : Timely cmd settings since [] := by
  intro before e after h
  simp at h

theorem Timely.append {e : ℚ × Incoming} (h : Timely cmd settings since taken)
    (he : e.1 < limit cmd settings since taken) : Timely cmd settings since (taken ++ [e]) := by
  intro before e' after heq
  rcases List.eq_nil_or_concat after with rfl | ⟨after, last, rfl⟩
  · obtain ⟨rfl, h⟩ := List.append_inj' heq rfl
    cases h
    exact he
  · have : taken ++ [e] = (before ++ e' :: after) ++ [last] := by simpa using heq
    obtain ⟨htaken, -⟩ := List.append_inj' this rfl
    exact h before e' after htaken

/-- An attempt completes with its last event only. -/
theorem Completes.unique {round : Round} {r r' : Response} (h : Completes cmd settings round r)
    (h' : Completes cmd settings round r') : r = r' := by
  obtain ⟨_, _, _, _, htaken, -⟩ := h
  obtain ⟨_, _, _, _, htaken', -⟩ := h'
  obtain ⟨-, hlast⟩ := List.append_inj' (htaken.symm.trans htaken') rfl
  simp only [List.cons.injEq, Prod.mk.injEq, Incoming.reply.injEq] at hlast
  exact hlast.1.2

namespace Undecided

theorem nil (now : ℚ) :
    Undecided cmd settings now [] ⟨cmd, false, now + settings.ack_timeout⟩ where
  harmless := by simp
  awaited := by simp
  ack := by simp [Acked]
  deadline := rfl
  timely := Timely.nil

/-- An undecided attempt has no answer. -/
theorem not_completes {telegram : Bytes} (h : Undecided cmd settings since taken p) (r : Response) :
    ¬ Completes cmd settings ⟨telegram, since, taken⟩ r := by
  rintro ⟨early, acked, middle, arrived, htaken, -, -, -, -, hanswers, -⟩
  exact h.awaited _ _ [] htaken (Acked.append_iff.mpr (.inr ⟨_, List.mem_cons_self, rfl⟩)) hanswers

/-- It has met no error of the device either. -/
theorem not_refused {telegram : Bytes} (h : Undecided cmd settings since taken p) :
    ¬ Refused cmd ⟨telegram, since, taken⟩ := by
  rintro (⟨time, m, hmem⟩ | ⟨before, time, r, e, htaken, hacked, hanswers, -⟩)
  · exact h.harmless _ hmem
  · exact h.awaited before _ [] htaken hacked hanswers

/-- An event which decides nothing leaves the attempt undecided. -/
theorem append {e : ℚ × Incoming} {p' : Pending} (h : Undecided cmd settings since taken p)
    (htime : e.1 < p.deadline) (hharmless : e.2.harmless) (hawaited : Acked taken → ¬ e.2.answers cmd)
    (hack : p'.ack = true ↔ Acked (taken ++ [e]))
    (hdeadline : p'.deadline = limit cmd settings since (taken ++ [e])) :
    Undecided cmd settings since (taken ++ [e]) p' where
  harmless := by
    intro e' he'
    rcases List.mem_append.mp he' with hmem | hmem
    · exact h.harmless e' hmem
    · rwa [List.mem_singleton.mp hmem]
  awaited := by
    intro before e' after heq hacked
    rcases List.eq_nil_or_concat after with rfl | ⟨after, last, rfl⟩
    · obtain ⟨rfl, hlast⟩ := List.append_inj' heq rfl
      cases hlast
      exact hawaited hacked
    · have : taken ++ [e] = (before ++ e' :: after) ++ [last] := by simpa using heq
      obtain ⟨htaken, -⟩ := List.append_inj' this rfl
      exact h.awaited before e' after htaken hacked
  ack := hack
  deadline := hdeadline
  timely := h.timely.append (h.deadline ▸ htime)

/-- A confirmed reply with the awaited code completes an acknowledged attempt. -/
theorem completes {telegram : Bytes} {time : ℚ} {r : Response}
    (h : Undecided cmd settings since taken p) (htime : time < p.deadline) (hack : p.ack = true)
    (hanswers : r.command = cmd.response_id) (hconfirmed : confirm r cmd.payload = .ok ()) :
    Completes cmd settings ⟨telegram, since, taken ++ [(time, .reply r)]⟩ r := by
  obtain ⟨early, acked, middle, rfl, hfirst, hlimit⟩ :=
    (h.ack.mp hack).first cmd settings since
  refine ⟨early, acked, middle, time, rfl, hfirst, ?_, fun e he => ?_, fun e he => ?_, hanswers, ?_,
    hconfirmed⟩
  · rw [← limit_of_not_acked cmd hfirst]
    exact h.timely early _ middle rfl
  · refine h.harmless e ?_
    simp only [List.mem_append, List.mem_cons] at he ⊢
    tauto
  · obtain ⟨m₁, m₂, rfl⟩ := List.append_of_mem he
    refine h.awaited (early ++ (acked, .control .ACK) :: m₁) e m₂ (by simp) ?_
    exact Acked.append_iff.mpr (.inr ⟨_, List.mem_cons_self, rfl⟩)
  · have hdeadline := hlimit []
    rw [List.append_nil, ← h.deadline] at hdeadline
    rwa [← hdeadline]

end Undecided

/-- Confirming fails with an error of the device only. -/
theorem confirm_error {r : Response} {payload : Bytes} {e : Error}
    (h : confirm r payload = .error e) : ∃ m, e = .device m := by
  unfold confirm require_healthy at h
  simp only [bind, Except.bind, pure, Except.pure, throw, throwThe, MonadExceptOf.throw] at h
  grind

/-- An attempt which ends with another event than a reply has not completed. -/
theorem not_completes_of_last {telegram : Bytes} {time : ℚ} {event : Incoming}
    (hlast : ∀ r, event ≠ .reply r) (r : Response) :
    ¬ Completes cmd settings ⟨telegram, since, taken ++ [(time, event)]⟩ r := by
  rintro ⟨early, acked, middle, arrived, htaken, -⟩
  obtain ⟨-, h⟩ := List.append_inj' htaken rfl
  exact hlast r (Prod.mk.inj (List.cons.inj h).1).2

/-- Neither has it met an error of the device, unless the event is one. -/
theorem Undecided.not_refused_of_last {telegram : Bytes} {time : ℚ} {event : Incoming}
    (h : Undecided cmd settings since taken p) (hlast : ∀ r, event ≠ .reply r)
    (herror : ∀ m, event ≠ .error (.device m)) :
    ¬ Refused cmd ⟨telegram, since, taken ++ [(time, event)]⟩ := by
  rintro (⟨time', m, hmem⟩ | ⟨before, time', r, e, htaken, -⟩)
  · rcases List.mem_append.mp hmem with hmem | hmem
    · exact h.harmless _ hmem
    · exact herror m (Prod.mk.inj (List.mem_singleton.mp hmem)).2.symm
  · obtain ⟨-, h⟩ := List.append_inj' htaken rfl
    exact hlast r (Prod.mk.inj (List.cons.inj h).1).2

/-- One event leaves the attempt undecided or decides it. -/
theorem hear_decides (telegram : Bytes) (h : Undecided cmd settings since taken p)
    (hsettings : d.settings = settings) (htime : d.now < p.deadline) (event : ℕ × Incoming) :
    match p.hear cmd d event with
    | (.inl p', d') => Undecided cmd settings since (taken ++ [(d.now, event.2)]) p' ∧
      d'.now = d.now ∧ d'.settings = settings
    | (.inr outcome, d') => Timely cmd settings since (taken ++ [(d.now, event.2)]) ∧
      Decides cmd settings ⟨telegram, since, taken ++ [(d.now, event.2)]⟩ outcome ∧
      d'.now = d.now ∧ d'.settings = settings := by
  obtain ⟨number, incoming⟩ := event
  have htimely := h.timely.append (e := (d.now, incoming)) (h.deadline ▸ htime)
  cases incoming with
  | error e =>
    refine ⟨htimely, ?_, rfl, hsettings⟩
    have hnot (r : Response) :
        ¬ Completes cmd settings ⟨telegram, since, taken ++ [(d.now, .error e)]⟩ r :=
      not_completes_of_last (by simp) r
    cases e with
    | timeout m => exact ⟨hnot, h.not_refused_of_last (by simp) (by simp)⟩
    | protocol m => exact ⟨hnot, h.not_refused_of_last (by simp) (by simp)⟩
    | _ => exact hnot
  | control c =>
    cases c with
    | NAK =>
      exact ⟨htimely, ⟨not_completes_of_last (by simp), h.not_refused_of_last (by simp) (by simp)⟩,
        rfl, hsettings⟩
    | ACK =>
      have hacked : Acked (taken ++ [(d.now, .control .ACK)]) :=
        Acked.append_iff.mpr (.inr ⟨_, List.mem_cons_self, rfl⟩)
      have hnot : ¬ Incoming.answers cmd (.control .ACK) := id
      by_cases hack : p.ack = true
      · simp only [Pending.hear, if_pos hack]
        refine ⟨h.append htime trivial (fun _ => hnot) (iff_of_true hack hacked) ?_, trivial, hsettings⟩
        rw [h.deadline, limit_append_of_acked (h.ack.mp hack)]
      · simp only [Pending.hear, if_neg hack]
        refine ⟨h.append htime trivial (fun _ => hnot) (iff_of_true rfl hacked) ?_, trivial, hsettings⟩
        rw [limit_append_ack (mt h.ack.mpr hack), hsettings]
  | reply r =>
    by_cases hmatch : r.command = cmd.response_id ∧ p.ack = true
    · obtain ⟨hanswers, hack⟩ := hmatch
      cases hconfirm : confirm r cmd.payload with
      | error e =>
        obtain ⟨m, rfl⟩ := confirm_error hconfirm
        simp only [Pending.hear, hanswers, hack, and_self, if_true, hconfirm]
        refine ⟨htimely, fun r' hcompletes => ?_, trivial, hsettings⟩
        obtain ⟨early, acked, middle, arrived, hlast, -, -, -, -, -, -, hok⟩ := hcompletes
        obtain ⟨-, hlast⟩ := List.append_inj' hlast rfl
        simp only [List.cons.injEq, Prod.mk.injEq, Incoming.reply.injEq] at hlast
        rw [← hlast.1.2, hconfirm] at hok
        cases hok
      | ok u =>
        simp only [Pending.hear, hanswers, hack, and_self, if_true, hconfirm]
        exact ⟨htimely, h.completes htime hack hanswers hconfirm, rfl, hsettings⟩
    · simp only [Pending.hear, if_neg hmatch]
      refine ⟨h.append htime trivial (fun hacked hanswers => hmatch ⟨hanswers, h.ack.mpr hacked⟩) ?_ ?_,
        trivial, hsettings⟩
      · rw [h.ack, Acked.append_iff]
        simp [Acked]
      · rw [h.deadline]
        by_cases hacked : Acked taken
        · rw [limit_append_of_acked hacked]
        · rw [limit_of_not_acked _ hacked, limit_of_not_acked]
          rw [Acked.append_iff, not_or]
          exact ⟨hacked, by simp [Acked]⟩

end Loop

end Lms200
