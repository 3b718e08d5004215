import Lms200.Device.InitPlan

/-!
# The trace of an initialization

The call is followed along its plan: `Underway` says which segments its writes have run through,
and one command takes it through the next one. A failure leaves it `Stranded`, from where the
close adds the stop it owes.
-/

namespace Lms200

open Coop Traffic

variable {d : Device} {start_stream : Bool}

/-- The writes have run through some segments of the plan, and the others are still to come. -/
structure Underway (d : Device) (start_stream : Bool) (p : Plan) (done rest : List (Segment Bytes))
    (S : Session) : Prop where
  plan : p.For d start_stream
  pattern : p.pattern = done ++ rest
  fits : Fits done (payloads S.wire)
  settings : S.settings = d.settings
  replay : S.transport.replay = none
  unstopped : Wire.stopping ∉ S.wire
  opened : S.opened = true
  changed : S.changed = true ↔ Mutated S.wire
  read : Mutated S.wire → p.Read (seen S.wire)
  unstarted : startPayload ∉ payloads S.wire

/-- The call has failed before any close. -/
structure Stranded (d : Device) (start_stream : Bool) (S : Session) : Prop where
  traced : Traced d start_stream S.wire
  settings : S.settings = d.settings
  replay : S.transport.replay = none
  unstopped : Wire.stopping ∉ S.wire
  closed : S.opened = false → S.changed = false
  changed : S.changed = true ↔ Mutated S.wire

/-- A command belongs to a segment. -/
structure Command.Serves (cmd : Command) (segment : Segment Bytes) : Prop where
  payload : cmd.payload = segment.message
  least : segment.least = 1
  most : segment.most = cmd.attempts
  pos : 0 < cmd.attempts
  short : 1 ≤ cmd.payload.length ∧ cmd.payload.length ≤ MAX_PAYLOAD
  mutates : cmd.mutates = true ↔ Mutating cmd.payload

/-- Within a segment the log is as it may be. -/
theorem Underway.traced {p : Plan} {done rest : List (Segment Bytes)} {segment : Segment Bytes}
    {S : Session} (h : Underway d start_stream p done (segment :: rest) S) {wire : List Wire} {n : ℕ}
    (hn : n ≤ segment.most)
    (hpayloads : payloads wire = payloads S.wire ++ List.replicate n segment.message)
    (hunstopped : Wire.stopping ∉ wire) (hread : Mutated wire → p.Read (seen wire))
    (hstarted : startPayload ∈ payloads wire → p.Verified wire) : Traced d start_stream wire := by
  rw [Traced, beforeClose_of_notMem hunstopped, sinceClose_of_notMem hunstopped]
  refine ⟨⟨p, h.plan, ?_, hread, hstarted⟩, .inl rfl⟩
  rw [hpayloads, h.pattern]
  refine h.fits.begins_next hn fun s hs => p.sound s ?_
  rw [h.pattern]
  exact List.mem_append_right _ hs

/-- A command of the call can be encoded. -/
theorem Command.telegram_ok {cmd : Command} (h : 1 ≤ cmd.payload.length ∧
    cmd.payload.length ≤ MAX_PAYLOAD) (settings : Settings) :
    ∃ telegram, cmd.telegram settings.address = .ok telegram := by
  have haddress : settings.address ≤ 0x7F := settings.address_le
  have hbyte : settings.address ≤ 255 := haddress.trans (by decide)
  unfold Command.telegram encode
  rw [if_neg (by simpa using haddress), if_neg (by simp [hbyte, h.1, h.2])]
  exact ⟨_, rfl⟩

/-- Writes of one payload mutate when the payload does. -/
theorem mutated_sent {S : Session} {cmd : Command} {n : ℕ} (hn : 0 < n) :
    Mutated (S.sent cmd n).wire ↔ Mutated S.wire ∨ Mutating cmd.payload := by
  simp only [Mutated, Session.sent, payloads_append, payloads_wrote, List.mem_append,
    List.mem_replicate, or_and_right, exists_or]
  refine or_congr_right ⟨?_, fun h => ⟨cmd.payload, ⟨by omega, rfl⟩, h⟩⟩
  rintro ⟨payload, ⟨-, rfl⟩, h⟩
  exact h

@[simp] theorem payloads_accept (S : Session) (r : Response) :
    payloads (S.accept r).wire = payloads S.wire := by
  simp [Session.accept, payloads]

theorem mutated_accept {S : Session} {r : Response} : Mutated (S.accept r).wire ↔ Mutated S.wire := by
  simp [Mutated]

/-- Accepted replies do not change what was read once it is complete. -/
theorem Plan.Read.append {p : Plan} {wire : List Wire} (h : p.Read (seen wire)) (wire' : List Wire) :
    p.Read (seen (wire ++ wire')) := by
  rw [seen_frozen wire (by rw [h.configuration]; rfl)]
  exact h

/-- Some attempts of the next command: the log is as it may be, also once a reply is accepted. -/
theorem Underway.traced_sent {p : Plan} {done rest : List (Segment Bytes)}
    {segment : Segment Bytes} {S : Session} {cmd : Command}
    (h : Underway d start_stream p done (segment :: rest) S) (hserves : cmd.Serves segment)
    (hread : cmd.mutates = true → p.Read (seen S.wire))
    (hstart : cmd.payload = startPayload → p.Verified S.wire ∧ cmd.response_id ≠ 0xF4 ∧
      cmd.response_id ≠ 0xB1) {n : ℕ} (hn : n ≤ cmd.attempts) :
    Traced d start_stream (S.sent cmd n).wire ∧
      ∀ r, r.command = cmd.response_id → Traced d start_stream ((S.sent cmd n).accept r).wire := by
  have hpayloads : payloads (S.sent cmd n).wire =
      payloads S.wire ++ List.replicate n segment.message := by
    simp [Session.sent, hserves.payload]
  have hmost : n ≤ segment.most := hserves.most ▸ hn
  have hunstopped : Wire.stopping ∉ (S.sent cmd n).wire := by
    simp [Session.sent, h.unstopped, List.mem_replicate]
  have hseen : Mutated (S.sent cmd n).wire → p.Read (seen S.wire) := by
    intro hmutated
    rcases Nat.eq_zero_or_pos n with rfl | hpos
    · exact h.read (by simpa [Session.sent] using hmutated)
    · rcases (mutated_sent hpos).mp hmutated with hold | hnew
      · exact h.read hold
      · exact hread (hserves.mutates.mpr hnew)
  have hverified : startPayload ∈ payloads (S.sent cmd n).wire → cmd.payload = startPayload := by
    rw [hpayloads, ← hserves.payload, List.mem_append, List.mem_replicate]
    rintro (hold | ⟨-, hnew⟩)
    · exact absurd hold h.unstarted
    · exact hnew.symm
  have hlast : ∀ code, lastReply code (S.sent cmd n).wire = lastReply code S.wire := fun code =>
    lastReply_wrote S.wire code n cmd.payload
  refine ⟨h.traced hmost hpayloads hunstopped (fun hmutated => ?_) fun hmem => ?_, fun r hr => ?_⟩
  · exact (hseen hmutated).append _
  · obtain ⟨⟨hconfiguration, hstatus⟩, -⟩ := hstart (hverified hmem)
    exact ⟨by simpa only [hlast] using hconfiguration, by simpa only [hlast] using hstatus⟩
  · refine h.traced hmost ((payloads_accept _ r).trans hpayloads) ?_ (fun hmutated => ?_) fun hmem => ?_
    · simpa [Session.accept] using hunstopped
    · exact ((hseen (mutated_accept.mp hmutated)).append _).append _
    · rw [payloads_accept] at hmem
      obtain ⟨⟨hconfiguration, hstatus⟩, hne, hne'⟩ := hstart (hverified hmem)
      have hF4 := lastReply_accepted_of_ne (S.sent cmd n).wire (hr.symm ▸ hne : r.command ≠ 0xF4)
      have hB1 := lastReply_accepted_of_ne (S.sent cmd n).wire (hr.symm ▸ hne' : r.command ≠ 0xB1)
      rw [hlast] at hF4 hB1
      exact ⟨by simpa only [Session.accept, hF4] using hconfiguration,
        by simpa only [Session.accept, hB1] using hstatus⟩

/-- Some attempts of the next command complete its segment. -/
theorem Underway.sent {p : Plan} {done rest : List (Segment Bytes)} {segment : Segment Bytes}
    {S : Session} {cmd : Command} (h : Underway d start_stream p done (segment :: rest) S)
    (hserves : cmd.Serves segment) (hread : cmd.mutates = true → p.Read (seen S.wire))
    (hne : cmd.payload ≠ startPayload) {n : ℕ} (hpos : 0 < n) (hn : n ≤ cmd.attempts) :
    Underway d start_stream p (done ++ [segment]) rest (S.sent cmd n) where
  plan := h.plan
  pattern := by rw [h.pattern]; simp
  fits := by
    have hfits := h.fits.snoc (hserves.least ▸ hpos) (hserves.most ▸ hn)
    simpa [Session.sent, hserves.payload] using hfits
  settings := h.settings
  replay := h.replay
  unstopped := by simp [Session.sent, h.unstopped, List.mem_replicate]
  opened := h.opened
  changed := by
    rw [mutated_sent hpos, ← h.changed, ← hserves.mutates]
    simp [Session.sent]
  read := fun hmutated => by
    rcases (mutated_sent hpos).mp hmutated with hold | hnew
    · exact (h.read hold).append _
    · exact (hread (hserves.mutates.mpr hnew)).append _
  unstarted := by
    simpa [Session.sent, h.unstarted, List.mem_replicate] using fun _ => Ne.symm hne

/-- An accepted reply takes the call no further. -/
theorem Underway.accept {p : Plan} {done rest : List (Segment Bytes)} {S : Session}
    (h : Underway d start_stream p done rest S) (r : Response) :
    Underway d start_stream p done rest (S.accept r) where
  plan := h.plan
  pattern := h.pattern
  fits := (payloads_accept S r).symm ▸ h.fits
  settings := h.settings
  replay := h.replay
  unstopped := by simpa [Session.accept] using h.unstopped
  opened := h.opened
  changed := h.changed.trans mutated_accept.symm
  read := fun hmutated => (h.read (mutated_accept.mp hmutated)).append _
  unstarted := (payloads_accept S r).symm ▸ h.unstarted

/-- What is not about the trace may change. -/
theorem Underway.keep {p : Plan} {done rest : List (Segment Bytes)} {S T : Session}
    (h : Underway d start_stream p done rest S) (hwire : T.wire = S.wire)
    (hsettings : T.settings = S.settings) (hreplay : T.transport.replay = S.transport.replay)
    (hopened : T.opened = S.opened) (hchanged : T.changed = S.changed) :
    Underway d start_stream p done rest T where
  plan := h.plan
  pattern := h.pattern
  fits := hwire ▸ h.fits
  settings := hsettings.trans h.settings
  replay := hreplay.trans h.replay
  unstopped := hwire ▸ h.unstopped
  opened := hopened.trans h.opened
  changed := by rw [hchanged, hwire]; exact h.changed
  read := by rw [hwire]; exact h.read
  unstarted := hwire ▸ h.unstarted

/-- The call may fail wherever it is. -/
theorem Underway.stranded {p : Plan} {done rest : List (Segment Bytes)} {S : Session}
    (h : Underway d start_stream p done rest S) : Stranded d start_stream S where
  traced := by
    rw [Traced, beforeClose_of_notMem h.unstopped, sinceClose_of_notMem h.unstopped]
    refine ⟨⟨p, h.plan, ?_, h.read, fun hmem => absurd hmem h.unstarted⟩, .inl rfl⟩
    rw [h.pattern]
    refine h.fits.begins fun s hs => p.sound s ?_
    rw [h.pattern]
    exact List.mem_append_right _ hs
  settings := h.settings
  replay := h.replay
  unstopped := h.unstopped
  closed := fun hclosed => absurd (h.opened.symm.trans hclosed) Bool.true_eq_false.mp
  changed := h.changed

/-- A coroutine gets somewhere, or fails with the call stranded. -/
def Leads (d : Device) (start_stream : Bool) {α : Type} (p : Action α) (Q : α → Session → Prop)
    (S : Session) : Prop :=
  Traces (Traced d start_stream) p (fun
    | .ok a, T => Q a T
    | .error _, T => Stranded d start_stream T) S

theorem Leads.bind {α β : Type} {p : Action α} {f : α → Action β} {Q : α → Session → Prop}
    {Q' : β → Session → Prop} {S : Session} (h : Leads d start_stream p Q S)
    (hnext : ∀ a T, Q a T → Leads d start_stream (f a) Q' T) : Leads d start_stream (p >>= f) Q' S :=
  Traces.bind h hnext fun _ _ hstranded => hstranded

theorem Leads.lift_bind {α β : Type} {value : Except Error α} {f : α → Action β}
    {Q : β → Session → Prop} {S : Session}
    (h : ∀ a, value = .ok a → Leads d start_stream (f a) Q S)
    (hstranded : Stranded d start_stream S) : Leads d start_stream (Action.lift value >>= f) Q S :=
  Traces.lift_bind h fun _ _ => hstranded

/-- The next command of the plan. -/
theorem Underway.command {p : Plan} {done rest : List (Segment Bytes)} {segment : Segment Bytes}
    {S : Session} {cmd : Command} (h : Underway d start_stream p done (segment :: rest) S)
    (hserves : cmd.Serves segment) (hwritable : d.settings.require_write = .ok ())
    (hread : cmd.mutates = true → p.Read (seen S.wire)) (hne : cmd.payload ≠ startPayload) :
    Leads d start_stream (Action.command cmd) (fun r T => r.command = cmd.response_id ∧
      ∃ n, T = (S.sent cmd n).accept r ∧ Underway d start_stream p (done ++ [segment]) rest T) S := by
  have htraced := fun n (hn : n ≤ cmd.attempts) =>
    h.traced_sent hserves hread (fun heq => absurd heq hne) hn
  refine Traces.mono (Traces.command hserves.pos (Command.telegram_ok hserves.short _)
    (fun _ => h.settings ▸ hwritable) (fun n hn => (htraced n hn).1)
    fun n r hn hr => (htraced n hn).2 r hr) ?_
  rintro (e | r) T hT
  · obtain ⟨n, hpos, hn, rfl⟩ := hT
    exact (h.sent hserves hread hne hpos hn).stranded
  · obtain ⟨hcommand, -, n, hpos, hn, rfl⟩ := hT
    exact ⟨hcommand, n, rfl, (h.sent hserves hread hne hpos hn).accept r⟩

/-- The commands of the plan serve its segments. -/
theorem serves_query {cmd : Command} {payload : Bytes} (hpayload : cmd.payload = payload)
    (hattempts : cmd.attempts = 3) (hplain : cmd.mutates = false)
    (hread : payload = [0x31] ∨ payload = [0x3A] ∨ payload = [0x74]) :
    cmd.Serves (query payload) where
  payload := hpayload
  least := rfl
  most := hattempts.symm
  pos := hattempts ▸ Nat.succ_pos 2
  short := by rcases hread with rfl | rfl | rfl <;> rw [hpayload] <;> decide
  mutates := by
    rw [hplain, hpayload]
    refine iff_of_false Bool.false_ne_true ?_
    rcases hread with rfl | rfl | rfl <;> simp [Mutating]

theorem serves_once {cmd : Command} {first : UInt8} {payload : Bytes}
    (hpayload : cmd.payload = first :: payload) (hattempts : cmd.attempts = 1)
    (hmutates : cmd.mutates = true) (hfirst : first = 0x20 ∨ first = 0x3B ∨ first = 0x77)
    (hshort : payload.length < MAX_PAYLOAD) : cmd.Serves (once (first :: payload)) where
  payload := hpayload
  least := rfl
  most := hattempts.symm
  pos := hattempts ▸ Nat.one_pos
  short := by rw [hpayload]; exact ⟨Nat.succ_pos _, hshort⟩
  mutates := by
    rw [hmutates, hpayload]
    refine iff_of_true rfl ?_
    rcases hfirst with rfl | rfl | rfl <;> simp [Mutating]

theorem serves_status : status_request.Serves (query [0x31]) :=
  serves_query rfl rfl rfl (.inl rfl)

theorem serves_type : type_request.Serves (query [0x3A]) :=
  serves_query rfl rfl rfl (.inr (.inl rfl))

theorem serves_configuration : configuration_request.Serves (query [0x74]) :=
  serves_query rfl rfl rfl (.inr (.inr rfl))

/-- A status dialogue of the plan. -/
theorem Underway.status {p : Plan} {done rest : List (Segment Bytes)} {S : Session}
    (h : Underway d start_stream p done (query [0x31] :: rest) S)
    (hwritable : d.settings.require_write = .ok ()) :
    Leads d start_stream Action.status (fun info T => ∃ n r, r.command = 0xB1 ∧
      decode_status r = .ok info ∧
      T = { (S.sent status_request n).accept r with info := some info } ∧
      Underway d start_stream p (done ++ [query [0x31]]) rest T) S := by
  refine Traces.transition_bind (Leads.bind (h.command serves_status hwritable
    (fun h => absurd h Bool.false_ne_true) (by decide)) ?_)
  rintro r T ⟨hcommand, n, rfl, hnext⟩
  refine Traces.lift_bind (fun info hinfo => ?_) fun _ _ => hnext.stranded
  refine Traces.modify_bind (fun S => { S with info := some info }) (fun _ => rfl) (.inl rfl) ?_
  exact Traces.pure ⟨n, r, hcommand, hinfo, rfl, hnext.keep rfl rfl rfl rfl rfl⟩

/-- A configuration dialogue of the plan. -/
theorem Underway.readConfiguration {p : Plan} {done rest : List (Segment Bytes)} {S : Session}
    (h : Underway d start_stream p done (query [0x74] :: rest) S)
    (hwritable : d.settings.require_write = .ok ()) :
    Leads d start_stream Action.readConfiguration (fun configuration T => ∃ n r, r.command = 0xF4 ∧
      Configuration.ofRaw r.data = .ok configuration ∧
      T = { (S.sent configuration_request n).accept r with configuration := some configuration } ∧
      Underway d start_stream p (done ++ [query [0x74]]) rest T) S := by
  refine Leads.bind (h.command serves_configuration hwritable
    (fun h => absurd h Bool.false_ne_true) (by decide)) ?_
  rintro r T ⟨hcommand, n, rfl, hnext⟩
  refine Traces.lift_bind (fun configuration hconfiguration => ?_) fun _ _ => hnext.stranded
  refine Traces.modify_bind (fun S => { S with configuration := some configuration })
    (fun _ => rfl) (.inl rfl) ?_
  exact Traces.pure ⟨n, r, hcommand, hconfiguration, rfl, hnext.keep rfl rfl rfl rfl rfl⟩

/-- What a reply adds to what `connect` has read. -/
theorem seen_exchange {S : Session} {cmd : Command} {n : ℕ} {r : Response}
    (hunread : (seen S.wire).configuration = none) :
    seen ((S.sent cmd n).accept r).wire = (seen S.wire).read r := by
  rw [Session.accept, Session.sent, seen_append, seen_wrote]
  simp [Seen.note, hunread]

section Connecting

/-- A plan of the call which tries a number of rates. -/
def blankPlan (d : Device) (start_stream : Bool) (tried : ℕ) : Plan where
  settings := d.settings
  start_stream
  tried
  adapter := 0
  status := ⟨[], 0, 0, 0, 0, 0, .mm, 0, false, 0, []⟩
  configuration := ⟨List.replicate 32 0, .inl rfl⟩

/-- A number of rates have been tried, and nothing but their status has been asked for. -/
structure Connecting (d : Device) (start_stream : Bool) (k : ℕ) (S : Session) : Prop where
  underway : ∀ p : Plan, p.For d start_stream → k ≤ p.tried → Underway d start_stream p
    (List.replicate k (query [0x31])) (List.replicate (p.tried - k) (query [0x31]) ++
      ([query [0x3A], query [0x74]] ++ p.writing)) S
  unmutated : ¬ Mutated S.wire
  unread : (seen S.wire).configuration = none
  adapter : (seen S.wire).adapter = S.transport.baud
  le : k ≤ (Action.rates d).length

/-- Some rate is always tried. -/
theorem rates_pos (d : Device) : 0 < (Action.rates d).length := by
  unfold Action.rates
  split <;> simp

theorem blankPlan_for {k : ℕ} (hpos : 0 < k) (hle : k ≤ (Action.rates d).length) :
    (blankPlan d start_stream k).For d start_stream := ⟨rfl, rfl, hpos, hle⟩

variable {k : ℕ} {S : Session}

theorem Connecting.stranded (h : Connecting d start_stream k S) : Stranded d start_stream S :=
  (h.underway _ (blankPlan_for (k := max k 1) (by omega) (max_le h.le (rates_pos d)))
    (le_max_left k 1)).stranded

/-- The rate of the adapter changes while the call connects. -/
theorem Connecting.baud (h : Connecting d start_stream k S) (rate : ℕ) :
    Connecting d start_stream k
      { S with transport.baud := rate, wire := S.wire ++ [.baud rate] } := by
  have hpayloads : payloads (S.wire ++ [.baud rate]) = payloads S.wire := by simp [payloads]
  have hunmutated : ¬ Mutated (S.wire ++ [.baud rate]) := by
    simpa only [Mutated, hpayloads] using h.unmutated
  have hseen : seen (S.wire ++ [.baud rate]) = { seen S.wire with adapter := rate } := by
    simp [seen_append, Seen.note, h.unread]
  refine ⟨fun p hp hk => ?_, hunmutated, ?_, ?_, h.le⟩
  · have hold := h.underway p hp hk
    exact { hold with
      fits := by simpa only [hpayloads] using hold.fits
      unstopped := by simpa using hold.unstopped
      changed := hold.changed.trans (iff_of_false h.unmutated hunmutated)
      read := fun hmutated => absurd hmutated hunmutated
      unstarted := by simpa only [hpayloads] using hold.unstarted }
  · rw [hseen]
    exact h.unread
  · rw [hseen]

/-- Some attempts of the status request make one more rate tried. -/
theorem Connecting.sent (h : Connecting d start_stream k S) (hk : k < (Action.rates d).length) {n : ℕ}
    (hpos : 0 < n) (hn : n ≤ 3) : Connecting d start_stream (k + 1) (S.sent status_request n) := by
  refine ⟨fun p hp htried => ?_, ?_, ?_, ?_, hk⟩
  · have hnext := h.underway p hp (by omega)
    rw [show p.tried - k = p.tried - (k + 1) + 1 by omega, List.replicate_succ] at hnext
    rw [List.replicate_succ']
    exact hnext.sent serves_status (fun h => absurd h Bool.false_ne_true) (by decide) hpos hn
  · rw [mutated_sent hpos]
    rintro (hold | hnew)
    · exact h.unmutated hold
    · exact absurd (serves_status.mutates.mpr hnew) Bool.false_ne_true
  · simpa [Session.sent] using h.unread
  · simpa [Session.sent] using h.adapter

/-- The adapter and the missing configuration stay when a status is accepted. -/
theorem Connecting.accept (h : Connecting d start_stream k S) {r : Response} (hr : r.command = 0xB1) :
    Connecting d start_stream k (S.accept r) ∧
      (seen (S.accept r).wire).status = (decode_status r).toOption := by
  have hseen : seen (S.accept r).wire =
      { seen S.wire with status := (decode_status r).toOption } := by
    simp [Session.accept, seen_append, Seen.note, Seen.read, h.unread, hr]
  refine ⟨⟨fun p hp hk => (h.underway p hp hk).accept r, ?_, ?_, ?_, h.le⟩, ?_⟩
  · exact fun hmutated => h.unmutated (mutated_accept.mp hmutated)
  · rw [hseen]
    exact h.unread
  · rw [hseen]
    exact h.adapter
  · rw [hseen]

theorem Connecting.keep (h : Connecting d start_stream k S) (info : Option DeviceStatus) :
    Connecting d start_stream k { S with info } :=
  ⟨fun p hp hk => (h.underway p hp hk).keep rfl rfl rfl rfl rfl, h.unmutated, h.unread, h.adapter,
    h.le⟩

/-- A rate has answered. -/
structure Detected (d : Device) (start_stream : Bool) (k : ℕ) (S : Session) : Prop where
  connecting : Connecting d start_stream k S
  pos : 0 < k
  info : ∃ info, S.info = some info ∧ (seen S.wire).status = some info

/-- The status dialogue at one rate: it is answered, or the rate has been tried. -/
theorem Connecting.status (h : Connecting d start_stream k S) (hk : k < (Action.rates d).length) :
    Traces (Traced d start_stream) Action.status (fun
      | .ok _, T => Detected d start_stream (k + 1) T
      | .error _, T => Connecting d start_stream (k + 1) T) S := by
  have hnext := h.underway (blankPlan d start_stream (k + 1)) (blankPlan_for (Nat.succ_pos k) hk)
    (Nat.le_succ k)
  have hone : (blankPlan d start_stream (k + 1)).tried - k = 1 := Nat.add_sub_cancel_left k 1
  rw [hone] at hnext
  have htraced := fun n (hn : n ≤ 3) => hnext.traced_sent serves_status
    (fun h => absurd h Bool.false_ne_true) (fun h => absurd h (by decide)) hn
  refine Traces.transition_bind (Traces.bind (Traces.command (show 0 < status_request.attempts by decide)
    (Command.telegram_ok serves_status.short _) (fun h => absurd h Bool.false_ne_true)
    (fun n hn => (htraced n hn).1) fun n r hn hr => (htraced n hn).2 r hr) ?_ ?_)
  · rintro r T ⟨hcommand, -, n, hpos, hn, rfl⟩
    obtain ⟨hconnecting, hstatus⟩ := (h.sent hk hpos hn).accept hcommand
    refine Traces.lift_bind (fun info hinfo => ?_) fun e _ => hconnecting
    refine Traces.modify_bind (fun S => { S with info := some info }) (fun _ => rfl) (.inl rfl) ?_
    refine Traces.pure ⟨hconnecting.keep (some info), Nat.succ_pos k, info, rfl, ?_⟩
    rw [hinfo] at hstatus
    exact hstatus
  · rintro e T ⟨n, hpos, hn, rfl⟩
    exact h.sent hk hpos hn

/-- The loop over the rates ends with an answer, or stranded. -/
theorem Connecting.detect (rates : List ℕ) (h : Connecting d start_stream k S)
    (hrates : k + rates.length ≤ (Action.rates d).length) :
    Leads d start_stream (Action.detect rates)
      (fun _ T => ∃ k, Detected d start_stream k T) S := by
  induction rates generalizing k S with
  | nil => exact Traces.throw h.stranded
  | cons rate rates ih =>
    rw [List.length_cons] at hrates
    refine Traces.bind (Traces.setBaud (h.baud rate).stranded.traced) ?_ ?_
    · rintro _ T rfl
      refine Traces.keep_bind ?_ fun _ => rfl
      refine Traces.attempt_bind ((h.baud rate).status (by omega)) ?_
      intro outcome T hT
      match outcome with
      | .ok _ => exact Traces.pure ⟨_, hT⟩
      | .error (.timeout _) => exact ih hT (by omega)
      | .error (.protocol _) => exact ih hT (by omega)
      | .error (.device _) => exact ih hT (by omega)
      | .error (.value _) => exact Traces.throw hT.stranded
      | .error (.eof _) => exact Traces.throw hT.stranded
      | .error (.os _) => exact Traces.throw hT.stranded
    · rintro e T rfl
      exact h.stranded

/-- Everything `connect` reads has been read, and stands in the session. -/
structure Attached (d : Device) (start_stream : Bool) (p : Plan) (S : Session) : Prop where
  underway : Underway d start_stream p p.detecting p.writing S
  info : S.info = some p.status
  configuration : S.configuration = some p.configuration
  baud : S.transport.baud = p.adapter
  model : S.model = (seen S.wire).model
  seen_adapter : (seen S.wire).adapter = p.adapter
  seen_status : (seen S.wire).status = some p.status
  seen_configuration : (seen S.wire).configuration = some p.configuration

/-- While nothing mutating has been attempted, what the plan says was read is open. -/
theorem Underway.replan {p p' : Plan} (h : Underway d start_stream p p.detecting p.writing S)
    (hunmutated : ¬ Mutated S.wire) (hplan : p'.For d start_stream) (htried : p'.tried = p.tried) :
    Underway d start_stream p' p'.detecting p'.writing S :=
  { h with
    plan := hplan
    pattern := rfl
    fits := by
      have hfits := h.fits
      rw [Plan.detecting, ← htried] at hfits
      exact hfits
    read := fun hmutated => absurd hmutated hunmutated }

/-- A query does not mutate. -/
theorem unmutated_query {cmd : Command} {segment : Segment Bytes} (hserves : cmd.Serves segment)
    (hplain : cmd.mutates = false) {n : ℕ} {r : Response} (h : ¬ Mutated S.wire) :
    ¬ Mutated ((S.sent cmd n).accept r).wire := by
  intro hmutated
  rcases Nat.eq_zero_or_pos n with rfl | hpos
  · exact h (by simpa [Session.sent] using mutated_accept.mp hmutated)
  · rcases (mutated_sent hpos).mp (mutated_accept.mp hmutated) with hold | hnew
    · exact h hold
    · exact absurd (hserves.mutates.mpr hnew) (by simp [hplain])

/-- The identity and the configuration are read, or the call is stranded. -/
theorem Detected.identify (h : Detected d start_stream k S)
    (hwritable : d.settings.require_write = .ok ()) :
    Leads d start_stream Action.identify
      (fun _ T => ∃ p, Attached d start_stream p T) S := by
  obtain ⟨info, hinfo, hstatus⟩ := h.info
  have hconnecting := h.connecting
  have hunderway := hconnecting.underway _ (blankPlan_for h.pos hconnecting.le) le_rfl
  rw [show (blankPlan d start_stream k).tried - k = 0 from Nat.sub_self k] at hunderway
  refine Traces.get_bind fun e he => Traces.asserted_bind (he.symm ▸ hinfo) ?_
  refine Traces.get_bind fun e he => ?_
  split
  · exact Traces.throw hunderway.stranded
  refine Traces.transition_bind (Leads.bind (hunderway.command serves_type hwritable
    (fun h => absurd h Bool.false_ne_true) (by decide)) ?_)
  rintro identity T ⟨hidentity, n, rfl, hidentified⟩
  have hunmutated := unmutated_query serves_type rfl (n := n) (r := identity) hconnecting.unmutated
  have hseen : seen ((S.sent type_request n).accept identity).wire =
      { seen S.wire with model := asciiStrip identity.data } := by
    have hcommand : identity.command = 0xBA := hidentity
    simp [seen_exchange hconnecting.unread, Seen.read, hcommand]
  have hunread : (seen ((S.sent type_request n).accept identity).wire).configuration = none := by
    rw [hseen]
    exact hconnecting.unread
  cases hmodel : asciiStrip identity.data with
  | none => exact Traces.throw hidentified.stranded
  | some model =>
    refine Traces.modify_bind (fun S => { S with model := some model }) (fun _ => rfl) (.inl rfl) ?_
    refine Leads.bind (Underway.readConfiguration
      (hidentified.keep rfl rfl rfl rfl rfl) hwritable) ?_
    rintro configuration T ⟨n', reply, hreply, hconfiguration, rfl, hread⟩
    have hunmutated' := unmutated_query serves_configuration rfl (n := n') (r := reply) hunmutated
    have hseen' : seen ((((S.sent type_request n).accept identity).sent
        configuration_request n').accept reply).wire =
        { seen S.wire with model := some model, configuration := some configuration } := by
      simp [seen_exchange hunread, hseen, Seen.read, hreply, hconfiguration, hmodel, Except.toOption]
    let p : Plan := { blankPlan d start_stream k with
      adapter := S.transport.baud, status := info, configuration }
    rw [List.append_assoc] at hread
    refine Traces.transition ⟨p, ?_, hinfo, rfl, rfl, ?_, ?_, ?_, ?_⟩
    · exact Underway.replan hread hunmutated' ⟨rfl, rfl, h.pos, hconnecting.le⟩ rfl
    · exact (congrArg Seen.model hseen').symm
    · exact (congrArg Seen.adapter hseen').trans hconnecting.adapter
    · exact (congrArg Seen.status hseen').trans hstatus
    · exact congrArg Seen.configuration hseen'

/-- A session in which the call has done nothing yet. -/
structure Fresh (d : Device) (S : Session) : Prop where
  settings : S.settings = d.settings
  can_set_baud : S.transport.can_set_baud = d.transport.can_set_baud
  replay : S.transport.replay = none
  opened : S.opened = false
  changed : S.changed = false
  wire : S.wire = []

/-- The number of rates does not depend on the rate of the adapter. -/
theorem rates_length {d d' : Device} (hsettings : d'.settings = d.settings)
    (hcan : d'.transport.can_set_baud = d.transport.can_set_baud) :
    (Action.rates d').length = (Action.rates d).length := by
  unfold Action.rates
  rw [hsettings, hcan]
  split <;> rfl

/-- Nothing has been written. -/
theorem traced_nil : Traced d start_stream [] := by
  have hbegins := (show Fits [] ([] : List Bytes) from rfl).begins (blankPlan d start_stream 1).sound
  exact ⟨⟨_, blankPlan_for Nat.one_pos (rates_pos d), hbegins,
    fun ⟨_, hmem, _⟩ => absurd hmem List.not_mem_nil, fun hmem => absurd hmem List.not_mem_nil⟩,
    .inl rfl⟩

theorem Fresh.unmutated (h : Fresh d S) : ¬ Mutated S.wire := by
  rw [h.wire]
  exact fun ⟨_, hmem, _⟩ => absurd hmem List.not_mem_nil

theorem Fresh.stranded (h : Fresh d S) : Stranded d start_stream S where
  traced := h.wire.symm ▸ traced_nil
  settings := h.settings
  replay := h.replay
  unstopped := h.wire.symm ▸ List.not_mem_nil
  closed := fun _ => h.changed
  changed := iff_of_false (by simp [h.changed]) h.unmutated

/-- The transport has been opened. -/
theorem Fresh.connecting (h : Fresh d S) (baud : ℕ) :
    Connecting d start_stream 0 { S with
      transport.baud := baud, opened := true, wire := S.wire ++ [.opened baud] } := by
  have hpayloads : payloads (S.wire ++ [.opened baud]) = [] := by simp [payloads, h.wire]
  have hunmutated : ¬ Mutated (S.wire ++ [.opened baud]) := by simp [Mutated, hpayloads]
  have hseen : seen (S.wire ++ [.opened baud]) = { adapter := baud } := by
    rw [h.wire]
    rfl
  refine ⟨fun p hp _ => ?_, hunmutated, ?_, ?_, Nat.zero_le _⟩
  · refine ⟨hp, ?_, hpayloads, h.settings, h.replay, ?_, rfl, ?_, fun hm => absurd hm hunmutated, ?_⟩
    · rw [Plan.pattern, Plan.detecting, List.append_assoc]
      rfl
    · simp [h.wire]
    · exact iff_of_false (by simp [h.changed]) hunmutated
    · simp [hpayloads]
  · rw [hseen]
  · rw [hseen]

/-- Connecting reads everything, or strands the call. -/
theorem Fresh.connect (h : Fresh d S) (hwritable : d.settings.require_write = .ok ()) :
    Leads d start_stream Action.connect (fun _ T => ∃ p, Attached d start_stream p T) S := by
  refine Traces.get_bind fun e he => ?_
  rw [if_neg (by rw [he, h.opened]; exact Bool.false_ne_true)]
  refine Traces.keep_bind (Traces.transition_bind (Leads.bind (Q := fun _ T => T = S) ?_ ?_)) fun _ => rfl
  · refine Traces.get_bind fun e he => ?_
    dsimp only
    split
    · exact Traces.mono Traces.sleep fun outcome T hT => by
        obtain ⟨rfl, rfl⟩ := hT
        rfl
    · exact Traces.pure rfl
  rintro _ T rfl
  refine Traces.bind Traces.openTransport ?_ ?_
  · rintro _ T ⟨baud, rfl⟩
    have hconnecting : Connecting d start_stream 0 _ := h.connecting baud
    refine Traces.modify_bind
      (fun S => { S with opened := true, wire := S.wire ++ [.opened S.transport.baud] })
      (fun _ => rfl) (.inr hconnecting.stranded.traced) ?_
    refine Traces.get_bind fun e he => ?_
    rw [show e.transport.replay = none by rw [he]; exact h.replay]
    refine Traces.keep_bind (Traces.transition_bind (Traces.get_bind fun e he => ?_)) fun _ => rfl
    have hlength : (Action.rates e).length = (Action.rates d).length :=
      rates_length (by rw [he]; exact h.settings) (by rw [he]; exact h.can_set_baud)
    refine Leads.bind (hconnecting.detect (Action.rates e) (by omega)) ?_
    rintro _ T ⟨k, hdetected⟩
    exact hdetected.identify hwritable
  · rintro e T rfl
    exact h.stranded

end Connecting

section Writing

/-- The last reply of a kind, after an exchange. -/
theorem lastReply_exchange (code : UInt8) (S : Session) (cmd : Command) (n : ℕ) (r : Response) :
    lastReply code ((S.sent cmd n).accept r).wire =
      if r.command = code then some r else lastReply code S.wire := by
  split
  · next h => exact lastReply_accepted _ h
  · next h =>
    rw [Session.accept, lastReply_accepted_of_ne _ h]
    exact lastReply_wrote _ _ _ _

/-- A verification outlives exchanges of other kinds. -/
theorem Plan.Verified.exchange {p : Plan} {S : Session} (h : p.Verified S.wire) {cmd : Command}
    {n : ℕ} {r : Response} (hr : r.command = 0xA0) : p.Verified ((S.sent cmd n).accept r).wire where
  configuration := by
    simpa only [lastReply_exchange, if_neg (by rw [hr]; decide : r.command ≠ 0xF4)] using h.configuration
  status := by
    simpa only [lastReply_exchange, if_neg (by rw [hr]; decide : r.command ≠ 0xB1)] using h.status

/-- Everything has been read and passes the checks, so the call may write. -/
structure Writing (d : Device) (start_stream : Bool) (p : Plan) (done rest : List (Segment Bytes))
    (S : Session) : Prop where
  underway : Underway d start_stream p done rest S
  read : p.Read (seen S.wire)

variable {p : Plan} {done rest : List (Segment Bytes)} {segment : Segment Bytes} {S : Session}

theorem Writing.settings (h : Writing d start_stream p done rest S) : S.settings = p.settings :=
  h.underway.settings.trans h.underway.plan.settings.symm

/-- The next mutating command of the plan. -/
theorem Writing.command (h : Writing d start_stream p done (segment :: rest) S)
    (hwritable : d.settings.require_write = .ok ()) {cmd : Command} (hserves : cmd.Serves segment)
    (hne : cmd.payload ≠ startPayload) :
    Leads d start_stream (Action.command cmd) (fun r T => r.command = cmd.response_id ∧
      ∃ n, T = (S.sent cmd n).accept r ∧
        Writing d start_stream p (done ++ [segment]) rest T) S := by
  refine Traces.mono (h.underway.command hserves hwritable (fun _ => h.read) hne) ?_
  rintro (e | r) T hT
  · exact hT
  · obtain ⟨hr, n, rfl, hnext⟩ := hT
    exact ⟨hr, n, rfl, hnext, (h.read.append _).append _⟩

theorem serves_stop : (modeCommand .ON_REQUEST [0x25]).Serves (once stopPayload) :=
  serves_once rfl rfl rfl (.inl rfl) (by decide)

theorem serves_start : (modeCommand .CONTINUOUS [0x24]).Serves (once startPayload) :=
  serves_once rfl rfl rfl (.inl rfl) (by decide)

/-- A valid password makes the installation command of the plan. -/
theorem serves_installation {password : String} {cmd : Command}
    (h : operating_mode .INSTALLATION password = .ok cmd) :
    cmd.Serves (once (0x20 :: 0x00 :: asciiBytes password)) ∧ cmd.payload ≠ startPayload := by
  rw [operating_mode, if_pos rfl] at h
  split at h
  · next hvalid =>
    cases h
    simp only [validPassword, Bool.and_eq_true, beq_iff_eq] at hvalid
    refine ⟨serves_once rfl rfl rfl (.inl rfl) ?_, by simp [modeCommand, startPayload, Mode.byte]⟩
    simp [asciiBytes, hvalid.1, MAX_PAYLOAD]
  · cases h

/-- A supported rate makes the rate command of the plan. -/
theorem serves_baud {baud : ℕ} {cmd : Command} (h : baud_rate baud = .ok cmd) :
    cmd.Serves (once [0x20, (BAUD_CODES baud).getD 0]) ∧ cmd.payload ≠ startPayload := by
  unfold baud_rate at h
  cases hcode : BAUD_CODES baud with
  | none =>
    rw [hcode] at h
    cases h
  | some code =>
    rw [hcode] at h
    cases h
    refine ⟨serves_once rfl rfl rfl (.inl rfl) (by simp [MAX_PAYLOAD]), ?_⟩
    have hcodes : code ≠ 0x24 := by
      unfold BAUD_CODES at hcode
      split_ifs at hcode <;> cases hcode <;> decide
    simpa [startPayload] using hcodes

/-- A standard geometry makes the variant command of the plan. -/
theorem serves_variant {angle resolution : ℕ} {cmd : Command}
    (h : variant angle resolution = .ok cmd) :
    cmd.Serves (once (0x3B :: (toBytesLittle angle ++ toBytesLittle resolution))) ∧
      cmd.payload ≠ startPayload := by
  unfold variant at h
  split at h
  · cases h
  · cases h
    exact ⟨serves_once rfl rfl rfl (.inr (.inl rfl)) (by simp [toBytesLittle, MAX_PAYLOAD]),
      by simp [startPayload]⟩

/-- A documented length makes the configuration command of the plan. -/
theorem serves_write {data : Bytes} {cmd : Command} (h : write_configuration data = .ok cmd) :
    cmd.Serves (once (0x77 :: data)) ∧ cmd.payload ≠ startPayload := by
  unfold write_configuration at h
  split at h
  · cases h
  · next hlength =>
    cases h
    refine ⟨serves_once rfl rfl rfl (.inr (.inr rfl)) ?_, by simp [startPayload]⟩
    rcases not_not.mp hlength with hlength | hlength <;> rw [hlength] <;> decide

/-- Output on request is commanded. -/
theorem Writing.stop (h : Writing d start_stream p done (once stopPayload :: rest) S)
    (hwritable : d.settings.require_write = .ok ()) {β : Type} {next : Response → Action β}
    {Q : β → Session → Prop} (hnext : ∀ r n,
      r.command = 0xA0 → Writing d start_stream p (done ++ [once stopPayload]) rest
        ((S.sent (modeCommand .ON_REQUEST [0x25]) n).accept r) →
      Leads d start_stream (next r) Q ((S.sent (modeCommand .ON_REQUEST [0x25]) n).accept r)) :
    Leads d start_stream
      (do next (← Action.command (← Action.lift (operating_mode .ON_REQUEST)))) Q S := by
  refine Leads.lift_bind (fun cmd hcmd => ?_) h.underway.stranded
  obtain rfl : modeCommand .ON_REQUEST [0x25] = cmd := Except.ok.inj hcmd
  refine Leads.bind (h.command hwritable serves_stop (by decide)) ?_
  rintro r T ⟨hr, n, rfl, hwriting⟩
  exact hnext r n hr hwriting

/-- Installation mode is entered where the plan says so. -/
theorem Writing.enterInstallation (h : Writing d start_stream p done (p.installing ++ rest) S)
    (hwritable : d.settings.require_write = .ok ()) :
    Leads d start_stream (Action.enterInstallation p.changes) (fun _ T => ∃ done,
      Writing d start_stream p done rest T ∧ T.transport = S.transport) S := by
  unfold Action.enterInstallation
  unfold Plan.installing at h
  split
  · next hchanges =>
    rw [if_pos hchanges] at h
    refine Traces.transition_bind (Traces.get_bind fun e he => ?_)
    refine Leads.lift_bind (fun cmd hcmd => ?_) h.underway.stranded
    rw [he, h.settings] at hcmd
    obtain ⟨hserves, hne⟩ := serves_installation hcmd
    refine Leads.bind (h.command hwritable hserves hne) ?_
    rintro r T ⟨-, n, rfl, hnext⟩
    exact Traces.pure ⟨_, hnext, rfl⟩
  · next hchanges =>
    rw [if_neg hchanges] at h
    exact Traces.pure ⟨_, h, rfl⟩

/-- The rate of the adapter changes while the call writes. -/
theorem Writing.baud (h : Writing d start_stream p done rest S) (rate : ℕ) :
    Writing d start_stream p done rest
      { S with transport.baud := rate, wire := S.wire ++ [.baud rate] } := by
  have hpayloads : payloads (S.wire ++ [.baud rate]) = payloads S.wire := by simp [payloads]
  have hmutated : Mutated (S.wire ++ [.baud rate]) ↔ Mutated S.wire := by simp [Mutated, hpayloads]
  exact ⟨{ h.underway with
    fits := by simpa only [hpayloads] using h.underway.fits
    unstopped := by simpa using h.underway.unstopped
    changed := h.underway.changed.trans hmutated.symm
    read := fun _ => h.read.append _
    unstarted := by simpa only [hpayloads] using h.underway.unstarted }, h.read.append _⟩

/-- The rate is changed where the plan says so, and the status read again. -/
theorem Writing.switchBaud (h : Writing d start_stream p done (p.rebauding ++ rest) S)
    (hbaud : S.transport.baud = p.adapter) (hwritable : d.settings.require_write = .ok ()) :
    Leads d start_stream Action.switchBaud (fun _ T => ∃ done,
      Writing d start_stream p done rest T) S := by
  refine Traces.get_bind fun e he => ?_
  rw [he, h.settings, hbaud]
  unfold Plan.rebauding at h
  cases htarget : p.settings.target_baud with
  | none =>
    rw [htarget] at h
    exact Traces.pure ⟨_, h⟩
  | some target =>
    rw [htarget] at h
    dsimp only at h ⊢
    split
    · next hne =>
      rw [if_pos hne] at h
      refine Traces.transition_bind (Leads.lift_bind (fun cmd hcmd => ?_) h.underway.stranded)
      obtain ⟨hserves, hne⟩ := serves_baud hcmd
      refine Leads.bind (h.command hwritable hserves hne) ?_
      rintro r T ⟨-, n, rfl, hnext⟩
      refine Traces.bind (Traces.setBaud (hnext.baud target).underway.stranded.traced) ?_ ?_
      · rintro _ T rfl
        refine Leads.bind ((hnext.baud target).underway.status hwritable) ?_
        rintro info T ⟨n', r', -, -, rfl, hstatus⟩
        split
        · exact Traces.throw hstatus.stranded
        · exact Traces.pure ⟨_, hstatus, ((hnext.baud target).read.append _).append _⟩
      · rintro e T rfl
        exact hnext.underway.stranded
    · next hsame =>
      rw [if_neg hsame] at h
      exact Traces.pure ⟨_, h⟩

/-- The variant is written where the plan says so. -/
theorem Writing.writeVariant (h : Writing d start_stream p done (p.reshaping ++ rest) S)
    (hwritable : d.settings.require_write = .ok ()) :
    Leads d start_stream (Action.writeVariant p.changes) (fun _ T => ∃ done,
      Writing d start_stream p done rest T) S := by
  unfold Action.writeVariant
  unfold Plan.reshaping at h
  split
  · next hchanges =>
    rw [if_pos hchanges] at h
    refine Traces.get_bind fun e he => Leads.lift_bind (fun cmd hcmd => ?_) h.underway.stranded
    rw [he, h.settings] at hcmd
    obtain ⟨hserves, hne⟩ := serves_variant hcmd
    refine Leads.bind (h.command hwritable hserves hne) ?_
    rintro r T ⟨-, n, rfl, hnext⟩
    exact Traces.pure ⟨_, hnext⟩
  · next hchanges =>
    rw [if_neg hchanges] at h
    exact Traces.pure ⟨_, h⟩

/-- The configuration is written where the plan says so. -/
theorem Writing.writeConfiguration (h : Writing d start_stream p done (p.rewriting ++ rest) S)
    (hwritable : d.settings.require_write = .ok ()) :
    Leads d start_stream (Action.writeConfiguration p.changes) (fun _ T => ∃ done,
      Writing d start_stream p done rest T) S := by
  unfold Action.writeConfiguration
  unfold Plan.rewriting at h
  split
  · next hchanges =>
    rw [if_pos hchanges] at h
    refine Leads.lift_bind (fun cmd hcmd => ?_) h.underway.stranded
    obtain ⟨hserves, hne⟩ := serves_write hcmd
    refine Leads.bind (h.command hwritable hserves hne) ?_
    rintro r T ⟨-, n, rfl, hnext⟩
    exact Traces.pure ⟨_, hnext⟩
  · next hchanges =>
    rw [if_neg hchanges] at h
    exact Traces.pure ⟨_, h⟩

/-- What differs is written, in the order of the plan. -/
theorem Writing.configure (h : Writing d start_stream p done
      (p.installing ++ (p.rebauding ++ (p.reshaping ++ (p.rewriting ++ rest)))) S)
    (hbaud : S.transport.baud = p.adapter) (hwritable : d.settings.require_write = .ok ()) :
    Leads d start_stream (Action.configure p.changes) (fun _ T => ∃ done,
      Writing d start_stream p done rest T) S := by
  refine Leads.bind (h.enterInstallation hwritable) ?_
  rintro _ T ⟨done, hinstalled, htransport⟩
  refine Leads.bind (hinstalled.switchBaud (htransport ▸ hbaud) hwritable) ?_
  rintro _ T ⟨done, hswitched⟩
  refine Traces.transition_bind (Leads.bind (hswitched.writeVariant hwritable) ?_)
  rintro _ T ⟨done, hshaped⟩
  exact hshaped.writeConfiguration hwritable

/-- The readback agrees with what is desired. -/
theorem Writing.verify (h : Writing d start_stream p done (query [0x74] :: query [0x31] :: rest) S)
    (hwritable : d.settings.require_write = .ok ()) :
    Leads d start_stream (Action.verify p.changes.desired) (fun _ T => ∃ done,
      Writing d start_stream p done rest T ∧ p.Verified T.wire) S := by
  refine Traces.transition_bind (Leads.bind (h.underway.readConfiguration hwritable) ?_)
  rintro configuration T ⟨n, r, hr, hconfiguration, rfl, hread⟩
  refine Leads.bind (hread.status hwritable) ?_
  rintro info T ⟨n', r', hr', hinfo, rfl, hstatus⟩
  refine Traces.get_bind fun e he => ?_
  refine Traces.lift_bind (fun unit hunit => ?_) fun _ _ => hstatus.stranded
  have hsettings : e.settings = p.settings := by
    rw [he]
    exact h.settings
  split
  · exact Traces.throw hstatus.stranded
  · next hagree =>
    rw [hsettings] at hagree
    push Not at hagree
    obtain ⟨hraw, hangle, hresolution, hunit', hmode⟩ := hagree
    have hdata : r.data = p.changes.desired.raw := by
      unfold Configuration.ofRaw at hconfiguration
      split at hconfiguration
      · cases hconfiguration
        exact hraw
      · cases hconfiguration
    refine Traces.pure ⟨_, ⟨hstatus, (((h.read.append _).append _).append _).append _⟩, ?_, ?_⟩
    · refine ⟨r, ?_, hdata⟩
      exact ((lastReply_exchange 0xF4 _ status_request n' r').trans
        (if_neg (by rw [hr']; decide))).trans ((lastReply_exchange 0xF4 S
        configuration_request n r).trans (if_pos hr))
    · exact ⟨r', info, (lastReply_exchange 0xB1 _ status_request n' r').trans (if_pos hr'), hinfo,
        hangle, hresolution, hunit.trans (congrArg _ hunit'.symm), hmode⟩

/-- Attempts of the start leave the log as it may be. -/
theorem Writing.sent_start (h : Writing d start_stream p done [once startPayload] S)
    (hverified : p.Verified S.wire) {n : ℕ} (hn : n ≤ 1) :
    Traced d start_stream (S.sent (modeCommand .CONTINUOUS [0x24]) n).wire ∧
      ∀ r, r.command = 0xA0 →
        Traced d start_stream ((S.sent (modeCommand .CONTINUOUS [0x24]) n).accept r).wire :=
  h.underway.traced_sent serves_start (fun _ => h.read)
    (fun _ => ⟨hverified, by decide, by decide⟩) hn

/-- The stream is started, which completes the plan. -/
theorem Writing.startStream (h : Writing d start_stream p done [once startPayload] S)
    (hverified : p.Verified S.wire) (hwritable : d.settings.require_write = .ok ()) :
    Leads d start_stream Action.startStream (fun _ T => Completed d start_stream T.wire) S := by
  refine Traces.transition_bind (Leads.lift_bind (fun cmd hcmd => ?_) h.underway.stranded)
  obtain rfl : modeCommand .CONTINUOUS [0x24] = cmd := Except.ok.inj hcmd
  refine Traces.bind (Traces.command serves_start.pos
    (Command.telegram_ok serves_start.short _) (fun _ => h.underway.settings ▸ hwritable)
    (fun n hn => (h.sent_start hverified hn).1)
    fun n r hn hr => (h.sent_start hverified hn).2 r hr) ?_ ?_
  · rintro r T ⟨hr, -, n, hpos, hn, rfl⟩
    refine Traces.keep_bind (Traces.transition ⟨?_, p, h.underway.plan, ?_, ?_, ?_⟩) fun _ => rfl
    · simp [Session.accept, Session.sent, h.underway.unstopped, List.mem_replicate]
    · have hfits := h.underway.fits.snoc (show (once startPayload).least ≤ n from hpos) hn
      rw [h.underway.pattern]
      simpa [Session.accept, Session.sent, payloads, once, modeCommand, startPayload] using hfits
    · exact (h.read.append _).append _
    · exact hverified.exchange hr
  · rintro e T ⟨n, hpos, hn, rfl⟩
    refine ⟨(h.sent_start hverified hn).1, h.underway.settings, h.underway.replay, ?_, ?_, ?_⟩
    · simp [Session.sent, h.underway.unstopped, List.mem_replicate]
    · exact fun hclosed => absurd (h.underway.opened.symm.trans hclosed) Bool.true_eq_false.mp
    · rw [mutated_sent hpos, ← h.underway.changed, ← serves_start.mutates]
      simp [Session.sent]

end Writing

/-- What was read is vetted before anything is written. -/
theorem Attached.vet {p : Plan} {S : Session} (h : Attached d start_stream p S) :
    Leads d start_stream Action.vet (fun _ T => T = S ∧
      Writing d start_stream p p.detecting p.writing T) S := by
  refine Traces.get_bind fun e he => Traces.asserted_bind (he.symm ▸ h.info) ?_
  refine Traces.get_bind fun e he => Traces.asserted_bind (he.symm ▸ h.configuration) ?_
  split
  · exact Traces.throw h.underway.stranded
  · next hdefect =>
    refine Traces.get_bind fun e he => ?_
    rw [he]
    split
    · exact Traces.throw h.underway.stranded
    · next hmodel =>
      refine Traces.pure ⟨rfl, h.underway, h.seen_adapter, h.seen_status, h.seen_configuration, ?_,
        not_not.mp hdefect⟩
      rw [← h.model]
      exact not_not.mp hmodel

/-- What `initialize` does with a scanner goes through the whole plan. -/
theorem Attached.prepare {p : Plan} {S : Session} (h : Attached d start_stream p S)
    (hwritable : d.settings.require_write = .ok ()) :
    Leads d start_stream (Action.prepare start_stream)
      (fun _ T => Completed d start_stream T.wire) S := by
  refine Leads.bind h.vet ?_
  rintro _ T ⟨rfl, hwriting⟩
  refine hwriting.stop hwritable fun r n hr hstopped => ?_
  refine Traces.get_bind fun e he =>
    Traces.asserted_bind ((congrArg Session.info he).trans h.info) ?_
  refine Traces.get_bind fun e he =>
    Traces.asserted_bind ((congrArg Session.configuration he).trans h.configuration) ?_
  refine Traces.get_bind fun e he => ?_
  have hchanges : Action.changes e.settings p.status p.configuration = p.changes := by
    rw [he]
    exact congrArg (Action.changes · p.status p.configuration) hwriting.settings
  rw [hchanges]
  refine Leads.bind (hstopped.configure h.baud hwritable) ?_
  rintro _ T ⟨done, hconfigured⟩
  refine Leads.bind (hconfigured.verify hwritable) ?_
  rintro _ T ⟨done, hread, hverified⟩
  refine hread.stop hwritable fun r n hr hready => ?_
  have hwanted : p.start_stream = start_stream := h.underway.plan.start_stream
  have hstill : p.Verified ((T.sent (modeCommand .ON_REQUEST [0x25]) n).accept r).wire :=
    hverified.exchange hr
  rw [Plan.starting, hwanted] at hready
  cases start_stream with
  | true => exact hready.startStream hstill hwritable
  | false =>
    refine Traces.transition ⟨hready.underway.unstopped, p, h.underway.plan, ?_, hready.read, hstill⟩
    rw [hready.underway.pattern, if_neg Bool.false_ne_true, List.append_nil]
    exact hready.underway.fits

/-- The body of `initialize` completes the plan or strands the call. -/
theorem Fresh.establish {S : Session} (h : Fresh d S)
    (hwritable : d.settings.require_write = .ok ()) :
    Leads d start_stream (Action.establish start_stream)
      (fun _ T => Completed d start_stream T.wire) S := by
  refine Leads.bind (h.connect hwritable) ?_
  rintro _ T ⟨p, hattached⟩
  refine Traces.get_bind fun e he => ?_
  rw [he, hattached.underway.replay]
  exact hattached.prepare hwritable

section Close

variable {S : Session}

/-- A close which has added some writes to a stranded call. -/
theorem Stranded.closing (h : Stranded d start_stream S) {since : List Wire}
    (hsince : payloads since = [] ∨ payloads since = [stopPayload] ∧ Mutated S.wire) :
    Traced d start_stream (S.wire ++ .stopping :: since) := by
  have htraced := h.traced
  rw [Traced, beforeClose_of_notMem h.unstopped] at htraced
  rw [Traced, beforeClose_append_stopping h.unstopped, sinceClose_append_stopping h.unstopped]
  exact ⟨htraced.1, hsince⟩

/-- A close which has added the stop it owes. -/
theorem Stranded.abandoned (h : Stranded d start_stream S) {since : List Wire}
    (hsince : payloads since = if S.changed then [stopPayload] else []) :
    Abandoned d start_stream (S.wire ++ .stopping :: since) := by
  have hstop : payloads since = [stopPayload] ↔ Mutated S.wire := by
    rw [← h.changed, hsince]
    cases S.changed <;> simp [stopPayload]
  refine ⟨h.closing ?_, ?_⟩
  · cases hchanged : S.changed with
    | true => exact .inr ⟨by simp [hsince, hchanged], h.changed.mp hchanged⟩
    | false => exact .inl (by simp [hsince, hchanged])
  · rw [beforeClose_append_stopping h.unstopped, sinceClose_append_stopping h.unstopped]
    exact hstop

/-- The stop of a close is attempted once, if anything was changed. -/
theorem Stranded.stopScanner (h : Stranded d start_stream S)
    (hwritable : d.settings.require_write = .ok ()) :
    Traces (Traced d start_stream) Action.stopScanner (fun outcome T => outcome = .ok () ∧
      ∃ since, T = { S with wire := S.wire ++ .stopping :: since } ∧
        payloads since = if S.changed then [stopPayload] else [])
      { S with wire := S.wire ++ [.stopping] } := by
  refine Traces.get_bind fun e he => ?_
  rw [he, h.replay]
  dsimp only
  split
  · next hchanged =>
    rw [Option.isNone_none, Bool.and_true] at hchanged
    let cmd := modeCommand .ON_REQUEST [0x25]
    have hsent : ∀ n, ({ S with wire := S.wire ++ [.stopping] } : Session).sent cmd n =
        { S with wire := S.wire ++ .stopping :: List.replicate n (.wrote stopPayload) } := by
      intro n
      simp [Session.sent, hchanged, cmd, modeCommand, stopPayload]
    have htraced : ∀ n since, n ≤ 1 → payloads since = List.replicate n stopPayload →
        Traced d start_stream (S.wire ++ .stopping :: since) := by
      intro n since hn hsince
      refine h.closing ?_
      rcases Nat.le_one_iff_eq_zero_or_eq_one.mp hn with rfl | rfl
      · exact .inl hsince
      · exact .inr ⟨hsince, h.changed.mp hchanged⟩
    let stopped (_ : Except Error Response) (T : Session) : Prop := ∃ since,
      T = { S with wire := S.wire ++ .stopping :: since } ∧ payloads since = [stopPayload]
    refine Traces.attempt_bind (show Traces _ _ stopped _ from ?_) ?_
    · refine Traces.lift_bind (fun c hc => ?_) fun e he => by cases he
      obtain rfl : cmd = c := Except.ok.inj hc
      refine Traces.mono (Traces.command serves_stop.pos (Command.telegram_ok serves_stop.short _)
        (fun _ => h.settings ▸ hwritable) (fun n hn => ?_) fun n r hn _ => ?_) ?_
      · rw [hsent]
        exact htraced n _ hn (payloads_wrote n _)
      · rw [hsent, Session.accept, List.append_assoc]
        exact htraced n _ hn (by simp [payloads])
      · rintro (e | r) T hT
        · obtain ⟨n, hpos, hn, rfl⟩ := hT
          obtain rfl : n = 1 := le_antisymm hn hpos
          exact ⟨_, hsent 1, payloads_wrote 1 _⟩
        · obtain ⟨-, -, n, hpos, hn, rfl⟩ := hT
          obtain rfl : n = 1 := le_antisymm hn hpos
          refine ⟨[.wrote stopPayload, .accepted r], ?_, rfl⟩
          rw [hsent, Session.accept, List.append_assoc]
          rfl
    · rintro _ T ⟨since, rfl, hsince⟩
      exact Traces.pure ⟨rfl, since, rfl, by simp [hchanged, hsince]⟩
  · next hunchanged =>
    have hfalse : S.changed = false := by simpa using hunchanged
    exact Traces.pure ⟨rfl, [], rfl, by simp [hfalse, payloads]⟩

/-- Stopping the reader leaves the session alone. -/
theorem traces_stopReader {ok : List Wire → Prop} :
    Traces ok Action.stopReader (fun outcome T => outcome = .ok () ∧ T = S) S := by
  refine Traces.get_bind fun e he => ?_
  split
  · refine Traces.keep_bind (Traces.bind (Traces.silent silent_joinReader) ?_ ?_) fun _ => rfl
    · rintro _ T ⟨-, rfl⟩
      exact Traces.keep ⟨rfl, rfl⟩ fun _ => rfl
    · exact fun _ _ h => h
  · exact Traces.pure ⟨rfl, rfl⟩

/-- A close pays the stop which a stranded call owes, however it ends. -/
theorem Stranded.closeUnlocked (h : Stranded d start_stream S)
    (hwritable : d.settings.require_write = .ok ()) :
    Traces (Traced d start_stream) Action.closeUnlocked
      (fun _ T => Abandoned d start_stream T.wire) S := by
  refine Traces.get_bind fun e he => ?_
  rw [he]
  split
  · refine Traces.modify_bind (fun S => { S with wire := S.wire ++ [.stopping] }) (fun _ => rfl)
      (.inr (h.closing (.inl rfl))) (Traces.transition_bind ?_)
    refine Traces.bind (h.stopScanner hwritable) ?_ fun e T hT => nomatch hT.1
    rintro _ T ⟨-, since, rfl, hsince⟩
    refine Traces.bind traces_stopReader ?_ fun e T hT => nomatch hT.1
    rintro _ T ⟨-, rfl⟩
    have hclosing : ∀ changed, Abandoned d start_stream
        ((S.wire ++ .stopping :: since) ++ [.closing changed]) := by
      intro changed
      rw [List.append_assoc]
      exact h.abandoned (by simpa [payloads] using hsince)
    refine Traces.modify_bind (fun S => { S with wire := S.wire ++ [.closing S.changed] })
      (fun _ => rfl) (.inr (hclosing _).1) ?_
    refine Traces.bind (Traces.silent silent_closeTransport) ?_ ?_
    · rintro _ T ⟨-, rfl⟩
      refine Traces.modify_bind (fun S => { S with opened := false, changed := false })
        (fun _ => rfl) (.inl rfl) (Traces.transition (hclosing _))
    · rintro e T ⟨-, rfl⟩
      exact hclosing _
  · next hclosed =>
    have hopened : S.opened = false := by simpa using hclosed
    have hunmutated : ¬ Mutated S.wire := by
      rw [← h.changed, h.closed hopened]
      exact Bool.false_ne_true
    refine Traces.pure ⟨h.traced, ?_⟩
    rw [beforeClose_of_notMem h.unstopped, sinceClose_of_notMem h.unstopped]
    exact iff_of_false (by simp [payloads]) hunmutated

end Close

end Lms200
