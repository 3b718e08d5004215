import Lms200.Device.Reader
import Lms200.Protocol.Raising
import Lms200.Protocol.ScanExact

/-!
# The reader, with everything it may raise

`_handle` and the loops of `_read_loop` over the events of the framer, where every call may raise and
what is not caught ends the reader. Its callback is recorded with the scans it is called with.

Nothing is raised out of the handler, whatever is received, and only an accepted scan changes what the
device keeps of its scans.
-/

namespace Lms200

/-- The scan without the places of its points, in whole degrees and hundredths. -/
def PlacedScan.plain (scan : PlacedScan) : Scan :=
  { sequence := scan.sequence, status := scan.status, field_of_view := scan.field_of_view.toNat,
    resolution := ⌊scan.resolution * 100⌋.toNat, count := scan.count,
    starting_angle := ⌊scan.starting_angle⌋.toNat, unit := scan.unit,
    measuring_mode := scan.measuring_mode, scan_index := scan.scan_index,
    telegram_index := scan.telegram_index, points := scan.points.map (·.toPoint),
    raw_telegram := scan.raw_telegram }

/-- A device, and the scans its callback has been called with. -/
structure Reading where
  device : Device
  scans : List PlacedScan

/-- A computation of the reader; what it changed before it raises stays changed. -/
abbrev Handler := ExceptT Raised (StateM Reading)

namespace Handler

def change (f : Device → Device) : Handler Unit := modify fun r => { r with device := f r.device }

/-- `Queue.get_nowait` -/
def get_nowait : Handler Unit := do
  match (← get).device.events with
  | [] => throw .queue_empty
  | _ :: rest => change fun d => { d with events := rest }

/-- `Queue.put_nowait`, of a queue of 64 events. -/
def put_nowait (event : Incoming) : Handler Unit := do
  if 64 ≤ (← get).device.events.length then throw .queue_full
  change fun d => { d with events := d.events ++ [(d.queued, event)], queued := d.queued + 1 }

/-- `_queue` -/
def queue (event : Incoming) : Handler Unit := do
  if 64 ≤ (← get).device.events.length then
    get_nowait
    change fun d => { d with counters.unexpected := d.counters.unexpected + 1 }
  put_nowait event

/-- An accepted scan is kept, by assignments none of which may raise, and announced. -/
def keep (scan : PlacedScan) : Handler Unit := do
  change fun d => d.keep scan.plain
  modify fun r => { r with scans := r.scans ++ [scan] }

/-- A measurement telegram, decoded and then checked for the health of the scanner. -/
def measured (d : Device) (info : DeviceStatus) (configuration : Configuration) (reply : Response) :
    Except Raised PlacedScan := do
  let scan ← Raising.decode_scan reply info.angle (info.resolution / 100) configuration
    (d.counters.received_scans + 1)
  Raising.documented (require_healthy reply)
  return scan

/-- A measurement telegram. -/
def measure (reply : Response) : Handler Unit := do
  let d := (← get).device
  match d.configuration, d.info with
  | some configuration, some info =>
    match measured d info configuration reply with
    | .error (.error (.device m)) =>
      queue (.error (.device m))
      change fun d => d.fault m
    | .error (.error (.protocol _)) | .error (.error (.value _)) => change Device.malformed
    | .error raised => throw raised
    | .ok scan => keep scan
  | _, _ => pure ()

/-- `_handle` -/
def handle (event : Event) : Handler Unit := do
  match event with
  | .control c => queue (.control c)
  | .frame f =>
    let d := (← get).device
    match Raising.response f d.settings.address with
    | .error (.error (.device m)) => queue (.error (.device m))
    | .error (.error (.protocol _)) => change Device.malformed
    | .error raised => throw raised
    | .ok reply =>
      if reply.command = 0xB0 then measure reply
      else if reply.command = 0x90 ∨ reply.command = 0x91 then
        if d.state = .STREAMING then
          change fun d => d.fault "Scanner reset during streaming; reconnect required"
      else queue (.reply reply)

end Handler

/-- What the reader hands to the framer: bytes, or the expiry of what it has buffered. -/
inductive Arrival where
  | data (bytes : Bytes)
  | expiry
  deriving DecidableEq, Repr

namespace Handler

/-- The framer on an arrival. -/
def frame (framer : Framer) : Arrival → Except Raised (Emitted × Framer)
  | .data bytes => Raising.feed framer bytes
  | .expiry => Raising.expire framer

/-- Every event of an arrival is handled. -/
def receive (arrival : Arrival) : Handler Unit := do
  let (emitted, framer) ← frame (← get).device.framer arrival
  change fun d => { d with framer }
  emitted.events.forM fun event => handle event.2

/-- Arrivals one after the other. -/
def receiveAll (arrivals : List Arrival) : Handler Unit := arrivals.forM receive

/-- A computation raises nothing and turns one reading into another. -/
def Ends (p : Handler Unit) (r r' : Reading) : Prop := p.run.run r = (.ok (), r')

section Rules

variable {p : Handler Unit} {r r' r'' : Reading}

theorem Ends.bind {q : Handler Unit} (hp : Ends p r r') (hq : Ends q r' r'') :
    Ends (do p; q) r r'' := by
  unfold Ends at *
  change (match p.run.run r with | (a, r') => (ExceptT.bindCont (fun _ => q) a).run r') = _
  rw [hp]
  exact hq

/-- A computation which looks at the reading first. -/
theorem Ends.get {f : Reading → Handler Unit} (h : Ends (f r) r r') : Ends (do f (← MonadState.get)) r r' := h

theorem Ends.change (f : Device → Device) (r : Reading) :
    Ends (Handler.change f) r { r with device := f r.device } := rfl

/-- A computation without an exception. -/
theorem Ends.lift {α : Type} {x : Except Raised α} {a : α} {f : α → Handler Unit} (hx : x = .ok a)
    (h : Ends (f a) r r') : Ends (do f (← x)) r r' := by
  rw [hx]
  exact h

end Rules

theorem put_nowait_ends (event : Incoming) (r : Reading) (h : r.device.events.length < 64) :
    Ends (put_nowait event) r { r with device := { r.device with
      events := r.device.events ++ [(r.device.queued, event)], queued := r.device.queued + 1 } } := by
  refine Ends.get ?_
  rw [if_neg (Nat.not_le.mpr h)]
  exact Ends.change _ r

theorem get_nowait_ends (r : Reading) (h : 0 < r.device.events.length) :
    Ends get_nowait r { r with device := { r.device with events := r.device.events.drop 1 } } := by
  refine Ends.get ?_
  cases hevents : r.device.events with
  | nil => simp [hevents] at h
  | cons first rest => exact Ends.change _ r

/-- A queue of at most 64 events takes another one. -/
theorem queue_ends (event : Incoming) (r : Reading) (h : r.device.events.length ≤ 64) :
    Ends (queue event) r { r with device := r.device.queue event } := by
  refine Ends.get ?_
  unfold Device.queue
  dsimp only
  split
  · next hfull =>
    refine Ends.bind (get_nowait_ends r (by omega)) (Ends.bind (Ends.change _ _) ?_)
    refine put_nowait_ends event _ ?_
    dsimp only
    rw [List.length_drop]
    omega
  · next hfull => exact put_nowait_ends event r (Nat.lt_of_not_le hfull)

theorem keep_ends (scan : PlacedScan) (r : Reading) :
    Ends (keep scan) r ⟨r.device.keep scan.plain, r.scans ++ [scan]⟩ :=
  Ends.bind (Ends.change _ r) rfl

/-- The scan of a standard variant is found again below its places. -/
theorem plain_placed {reply : Response} {angle resolution sequence : ℕ} {config : Configuration}
    {unit : DistanceUnit} (h : validate_geometry angle resolution = .ok ()) :
    (Scan.ofReply reply angle resolution config sequence unit).placed.plain =
      Scan.ofReply reply angle resolution config sequence unit := by
  have hpoints (f : ℕ → Point → Placed) (hf : ∀ i p, (f i p).toPoint = p) (points : List Point) :
      (points.mapIdx f).map (·.toPoint) = points :=
    List.ext_getElem (by simp) fun i _ _ => by simp [hf]
  have hangle : ⌊(180 - (angle : ℚ)) / 2⌋.toNat = (180 - angle) / 2 := by
    obtain ⟨rfl | rfl, -⟩ := geometry_cases h
    · norm_num
      rfl
    · norm_num
  have hresolution : ⌊(resolution : ℚ) / 100 * 100⌋.toNat = resolution := by
    rw [div_mul_cancel₀ _ (by norm_num)]
    simp
  simp only [Scan.placed, PlacedScan.plain, Scan.ofReply]
  rw [hpoints _ fun _ _ => rfl, hangle, hresolution]
  rfl

/-- A measurement telegram raises nothing but documented exceptions. -/
theorem measured_eq_documented (d : Device) (info : DeviceStatus) (configuration : Configuration)
    (reply : Response) :
    measured d info configuration reply =
      Raising.documented ((d.scanOf info configuration reply).map Scan.placed) := by
  unfold measured Device.scanOf
  rw [Raising.decode_scan_hundredths]
  cases decode_scan reply info.angle info.resolution configuration (d.counters.received_scans + 1) with
  | error e => rfl
  | ok scan =>
    change Raising.documented (require_healthy reply) >>= _ =
      Raising.documented ((require_healthy reply >>= fun _ => .ok scan).map Scan.placed)
    cases require_healthy reply <;> rfl

end Handler

/-- The scan of a measurement telegram which is accepted. -/
def Device.measured (d : Device) (reply : Response) : Option Scan :=
  match d.configuration, d.info with
  | some configuration, some info => (d.scanOf info configuration reply).toOption
  | _, _ => none

/-- The scan of an event which is accepted. -/
def Device.scanned (d : Device) : Event → Option Scan
  | .control _ => none
  | .frame f =>
    match response f d.settings.address with
    | .error _ => none
    | .ok reply => if reply.command = 0xB0 then d.measured reply else none

namespace Handler

/-- A scan which is accepted is of a standard variant. -/
theorem plain_of_scanOf {d : Device} {info : DeviceStatus} {configuration : Configuration}
    {reply : Response} {scan : Scan} (h : d.scanOf info configuration reply = .ok scan) :
    scan.placed.plain = scan := by
  obtain ⟨decoded, hdecoded, hrest⟩ := bind_eq_ok.mp h
  obtain ⟨_, -, hsame⟩ := bind_eq_ok.mp hrest
  obtain ⟨unit, hscannable, rfl⟩ := decode_scan_eq_ok.mp hdecoded
  obtain rfl := Except.ok.inj hsame
  exact plain_placed hscannable.geometry

/-- A measurement telegram which is rejected is rejected with a protocol error, its subclass or a value
error. -/
theorem scanOf_error {d : Device} {info : DeviceStatus} {configuration : Configuration}
    {reply : Response} {e : Error} (h : d.scanOf info configuration reply = .error e) :
    (∃ m, e = .device m) ∨ (∃ m, e = .protocol m) ∨ ∃ m, e = .value m := by
  unfold Device.scanOf at h
  cases hdecode : decode_scan reply info.angle info.resolution configuration (d.counters.received_scans + 1) with
  | error e' =>
    rw [hdecode] at h
    obtain rfl := Except.error.inj h
    have hrejects := decode_scan_rejects _ _ _ _ _ _ hdecode
    cases e' with
    | protocol m => exact .inr (.inl ⟨m, rfl⟩)
    | value m => exact .inr (.inr ⟨m, rfl⟩)
    | _ => cases hrejects
  | ok scan =>
    rw [hdecode] at h
    change (require_healthy reply >>= fun _ => .ok scan) = .error e at h
    unfold require_healthy at h
    split at h
    · exact .inl ⟨_, (Except.error.inj h).symm⟩
    · cases h

/-- A measurement telegram raises nothing. -/
theorem measure_ends (reply : Response) (r : Reading) (h : r.device.events.length ≤ 64) :
    Ends (measure reply) r
      ⟨r.device.measure reply, r.scans ++ (r.device.measured reply).toList.map Scan.placed⟩ := by
  refine Ends.get ?_
  unfold Device.measure Device.measured
  dsimp only
  cases r.device.configuration with
  | none =>
    rw [Option.toList_none, List.map_nil, List.append_nil]
    rfl
  | some configuration =>
    cases r.device.info with
    | none =>
      rw [Option.toList_none, List.map_nil, List.append_nil]
      rfl
    | some info =>
      dsimp only
      rw [measured_eq_documented]
      cases hscan : r.device.scanOf info configuration reply with
      | ok scan =>
        have hkeep := keep_ends scan.placed r
        rw [plain_of_scanOf hscan] at hkeep
        exact hkeep
      | error e =>
        have hnone : ((.error e : Except Error Scan).toOption.toList.map Scan.placed) = [] := rfl
        rw [hnone, List.append_nil]
        obtain ⟨m, rfl⟩ | ⟨m, rfl⟩ | ⟨m, rfl⟩ := scanOf_error hscan
        · exact Ends.bind (queue_ends _ r h) (Ends.change _ _)
        · exact Ends.change _ r
        · exact Ends.change _ r

/-- The errors of a response. -/
theorem response_error {f : Frame} {address : ℕ} {e : Error} (h : response f address = .error e) :
    (∃ m, e = .device m) ∨ ∃ m, e = .protocol m := by
  unfold response at h
  split at h
  · exact .inr ⟨_, (Except.error.inj h).symm⟩
  split at h
  · exact .inr ⟨_, (Except.error.inj h).symm⟩
  split at h
  · next e' hstatus =>
    obtain rfl := Except.error.inj h
    unfold StatusByte.decode at hstatus
    split at hstatus
    · exact .inr ⟨_, (Except.error.inj hstatus).symm⟩
    · cases hstatus
  · split at h
    · exact .inl ⟨_, (Except.error.inj h).symm⟩
    · cases h

theorem response_command {f : Frame} {address : ℕ} {reply : Response} (h : response f address = .ok reply) :
    reply.command = f.command := by
  unfold response at h
  split at h
  · cases h
  split at h
  · cases h
  split at h
  · cases h
  · split at h
    · cases h
    · exact Except.ok.inj h ▸ rfl

/-- A device error is the rejection of a command. -/
theorem device_error_command {f : Frame} {address : ℕ} {m : String}
    (h : response f address = .error (.device m)) : f.command = 0x92 := by
  unfold response at h
  split at h
  · cases h
  split at h
  · cases h
  split at h
  · next e' hstatus =>
    obtain rfl := Except.error.inj h
    unfold StatusByte.decode at hstatus
    split at hstatus <;> cases hstatus
  · split at h
    · assumption
    · cases h

/-- Every event is handled, and nothing is raised. -/
theorem handle_ends (event : Event) (r : Reading) (h : r.device.events.length ≤ 64) :
    Ends (handle event) r
      ⟨r.device.handle event, r.scans ++ (r.device.scanned event).toList.map Scan.placed⟩ := by
  cases event with
  | control c =>
    rw [Device.scanned, Option.toList_none, List.map_nil, List.append_nil]
    exact queue_ends _ r h
  | frame f =>
    refine Ends.get ?_
    unfold Device.handle Device.scanned
    dsimp only
    rw [Raising.response_eq_documented]
    cases hreply : response f r.device.settings.address with
    | error e =>
      rw [Option.toList_none, List.map_nil, List.append_nil]
      obtain ⟨m, rfl⟩ | ⟨m, rfl⟩ := response_error hreply
      · exact queue_ends _ r h
      · exact Ends.change _ r
    | ok reply =>
      change Ends (if _ then _ else _) _ _
      dsimp only
      by_cases hcommand : reply.command = 0xB0
      · rw [if_pos hcommand, if_pos hcommand, if_pos hcommand]
        exact measure_ends reply r h
      · rw [if_neg hcommand, if_neg hcommand, if_neg hcommand, Option.toList_none, List.map_nil,
          List.append_nil]
        split_ifs
        · exact Ends.change _ r
        · exact rfl
        · exact queue_ends _ r h

end Handler

namespace Device

variable {d d' d'' : Device}

/-- What a device keeps of its scans. -/
structure SameScans (d d' : Device) : Prop where
  latest : d'.latest = d.latest
  received : d'.counters.received_scans = d.counters.received_scans
  dropped : d'.counters.dropped_scans = d.counters.dropped_scans
  last : d'.last_telegram_index = d.last_telegram_index
  times : d'.times = d.times

theorem SameScans.refl (d : Device) : SameScans d d := ⟨rfl, rfl, rfl, rfl, rfl⟩

theorem queue_sameScans (d : Device) (x : Incoming) : SameScans d (d.queue x) := by
  unfold queue
  dsimp only
  split <;> exact ⟨rfl, rfl, rfl, rfl, rfl⟩

/-- An event with no accepted scan leaves the scans alone. -/
theorem handle_sameScans {event : Event} (h : d.scanned event = none) : SameScans d (d.handle event) := by
  cases event with
  | control c => exact queue_sameScans d _
  | frame f =>
    unfold scanned at h
    unfold handle
    dsimp only at h ⊢
    cases hreply : response f d.settings.address with
    | error e =>
      cases e with
      | device m => exact queue_sameScans d _
      | _ => exact ⟨rfl, rfl, rfl, rfl, rfl⟩
    | ok reply =>
      rw [hreply] at h
      dsimp only at h ⊢
      by_cases hcommand : reply.command = 0xB0
      · rw [if_pos hcommand] at h ⊢
        unfold measured at h
        unfold measure
        cases hconfiguration : d.configuration with
        | none => exact .refl d
        | some configuration =>
          cases hinfo : d.info with
          | none => exact .refl d
          | some info =>
            rw [hconfiguration, hinfo] at h
            dsimp only at h ⊢
            cases hscan : d.scanOf info configuration reply with
            | ok scan => simp [hscan, Except.toOption] at h
            | error e =>
              cases e with
              | device m =>
                have hqueue := queue_sameScans d (.error (.device m))
                exact ⟨hqueue.latest, hqueue.received, hqueue.dropped, hqueue.last, hqueue.times⟩
              | _ => exact ⟨rfl, rfl, rfl, rfl, rfl⟩
      · rw [if_neg hcommand]
        split_ifs
        · exact ⟨rfl, rfl, rfl, rfl, rfl⟩
        · exact .refl d
        · exact queue_sameScans d _

/-- An event is accepted as a measurement telegram which passes every check of a healthy scanner. -/
theorem scanned_eq_some {event : Event} {scan : Scan} : d.scanned event = some scan ↔
    ∃ f reply info configuration, event = .frame f ∧ response f d.settings.address = .ok reply ∧
      reply.command = 0xB0 ∧ d.info = some info ∧ d.configuration = some configuration ∧
        d.scanOf info configuration reply = .ok scan := by
  constructor
  · intro h
    cases event with
    | control c => cases h
    | frame f =>
      unfold scanned at h
      dsimp only at h
      split at h
      · cases h
      next reply hreply =>
      split at h
      swap
      · cases h
      next hcommand =>
      unfold measured at h
      split at h
      swap
      · cases h
      next configuration info hconfiguration hinfo =>
      cases hscan : d.scanOf info configuration reply with
      | error e => simp [hscan, Except.toOption] at h
      | ok scan' =>
        rw [hscan] at h
        obtain rfl := Option.some.inj h
        exact ⟨f, reply, info, configuration, rfl, hreply, hcommand, hinfo, hconfiguration, hscan⟩
  · rintro ⟨f, reply, info, configuration, rfl, hreply, hcommand, hinfo, hconfiguration, hscan⟩
    simp [scanned, measured, hreply, hcommand, hinfo, hconfiguration, hscan, Except.toOption]

/-- An accepted scan is kept under the next number. -/
theorem handle_scanned {event : Event} {scan : Scan} (h : d.scanned event = some scan) :
    d.handle event = d.keep scan ∧ scan.sequence = d.counters.received_scans + 1 := by
  obtain ⟨f, reply, info, configuration, rfl, hreply, hcommand, hinfo, hconfiguration, hscan⟩ :=
    scanned_eq_some.mp h
  refine ⟨by simp [handle, measure, hreply, hcommand, hinfo, hconfiguration, hscan], ?_⟩
  obtain ⟨decoded, hdecoded, hrest⟩ := bind_eq_ok.mp hscan
  obtain ⟨_, -, hsame⟩ := bind_eq_ok.mp hrest
  obtain ⟨unit, -, rfl⟩ := decode_scan_eq_ok.mp hdecoded
  obtain rfl := Except.ok.inj hsame
  rfl

theorem queue_bounded (d : Device) (x : Incoming) (h : d.events.length ≤ 64) :
    (d.queue x).events.length ≤ 64 := by
  unfold queue
  dsimp only
  split
  · simp only [List.length_append, List.length_drop, List.length_cons, List.length_nil]
    omega
  · simp only [List.length_append, List.length_cons, List.length_nil]
    omega

/-- The queue never holds more than 64 events. -/
theorem handle_bounded (event : Event) (h : d.events.length ≤ 64) :
    (d.handle event).events.length ≤ 64 := by
  have hhandled := d.handled event
  generalize d.handle event = d' at hhandled
  cases hhandled with
  | queued x => exact queue_bounded d x h
  | complained m _ => exact queue_bounded d _ h
  | stopped m _ => exact h
  | noted _ halike => exact halike.events ▸ h

end Device

namespace Handler

/-- A measurement telegram which passes the checks of the response, of the scan and of the health. -/
def Accepts (d : Device) (event : Event) (scan : PlacedScan) : Prop :=
  ∃ f reply info configuration, event = .frame f ∧
    Raising.response f d.settings.address = .ok reply ∧ reply.command = 0xB0 ∧
      d.info = some info ∧ d.configuration = some configuration ∧
        Raising.decode_scan reply info.angle (info.resolution / 100) configuration
          (d.counters.received_scans + 1) = .ok scan ∧
            reply.status.severity ≠ .error ∧ reply.status.severity ≠ .fatal

/-- A measurement telegram which is no response, or no scan of the known configuration. -/
def Malformed (d : Device) (f : Frame) : Prop :=
  f.command = 0xB0 ∧
    ((∃ raised, Raising.response f d.settings.address = .error raised) ∨
      ∃ reply info configuration raised, Raising.response f d.settings.address = .ok reply ∧
        d.info = some info ∧ d.configuration = some configuration ∧
          Raising.decode_scan reply info.angle (info.resolution / 100) configuration
            (d.counters.received_scans + 1) = .error raised)

theorem scanOf_eq_ok {d : Device} {info : DeviceStatus} {configuration : Configuration}
    {reply : Response} {scan : Scan} : d.scanOf info configuration reply = .ok scan ↔
      decode_scan reply info.angle info.resolution configuration (d.counters.received_scans + 1) = .ok scan ∧
        reply.status.severity ≠ .error ∧ reply.status.severity ≠ .fatal := by
  unfold Device.scanOf
  rw [bind_eq_ok]
  unfold require_healthy
  constructor
  · rintro ⟨decoded, hdecoded, hrest⟩
    split at hrest
    · cases hrest
    · next hhealthy =>
      obtain rfl := Except.ok.inj hrest
      exact ⟨hdecoded, not_or.mp hhealthy⟩
  · rintro ⟨hdecoded, hhealthy⟩
    refine ⟨scan, hdecoded, ?_⟩
    rw [if_neg (not_or.mpr hhealthy)]
    rfl

theorem documented_map_eq_ok {α β : Type} {x : Except Error α} {f : α → β} {b : β} :
    Raising.documented (x.map f) = .ok b ↔ ∃ a, x = .ok a ∧ b = f a := by
  cases x with
  | error e => exact iff_of_false nofun (by rintro ⟨_, ⟨⟩, -⟩)
  | ok a =>
    constructor
    · exact fun h => ⟨a, rfl, (Except.ok.inj h).symm⟩
    · rintro ⟨_, ⟨⟩, rfl⟩
      rfl

/-- What is accepted in the terms of the source is what the device keeps. -/
theorem accepts_iff {d : Device} {event : Event} {scan : PlacedScan} :
    Accepts d event scan ↔ ∃ plain, d.scanned event = some plain ∧ scan = plain.placed := by
  unfold Accepts
  simp only [Device.scanned_eq_some, scanOf_eq_ok, Raising.response_eq_documented,
    Raising.decode_scan_hundredths, documented_map_eq_ok]
  simp only [Raising.documented_eq_ok]
  constructor
  · rintro ⟨f, reply, info, configuration, hevent, hreply, hcommand, hinfo, hconfiguration,
      ⟨plain, hplain, rfl⟩, hhealthy⟩
    exact ⟨plain, ⟨f, reply, info, configuration, hevent, hreply, hcommand, hinfo, hconfiguration,
      hplain, hhealthy⟩, rfl⟩
  · rintro ⟨plain, ⟨f, reply, info, configuration, hevent, hreply, hcommand, hinfo, hconfiguration,
      hplain, hhealthy⟩, rfl⟩
    exact ⟨f, reply, info, configuration, hevent, hreply, hcommand, hinfo, hconfiguration,
      ⟨plain, hplain, rfl⟩, hhealthy⟩

theorem not_accepts_iff {d : Device} {event : Event} :
    (¬ ∃ scan, Accepts d event scan) ↔ d.scanned event = none := by
  rw [Option.eq_none_iff_forall_not_mem]
  constructor
  · exact fun h plain hplain => h ⟨_, accepts_iff.mpr ⟨plain, hplain, rfl⟩⟩
  · rintro h ⟨scan, haccepts⟩
    obtain ⟨plain, hplain, -⟩ := accepts_iff.mp haccepts
    exact h plain hplain

/-- A malformed measurement telegram is counted. -/
theorem handle_malformed {d : Device} {f : Frame} (h : Malformed d f) :
    d.handle (.frame f) = d.malformed ∧ d.scanned (.frame f) = none := by
  obtain ⟨hcommand, ⟨raised, hraised⟩ | ⟨reply, info, configuration, raised, hreply, hinfo, hconfiguration,
    hraised⟩⟩ := h
  · rw [Raising.response_eq_documented] at hraised
    cases hresponse : response f d.settings.address with
    | ok reply =>
      rw [hresponse] at hraised
      cases hraised
    | error e =>
      refine ⟨?_, by rw [Device.scanned, hresponse]⟩
      unfold Device.handle
      dsimp only
      rw [hresponse]
      obtain ⟨m, rfl⟩ | ⟨m, rfl⟩ := response_error hresponse
      · rw [device_error_command hresponse] at hcommand
        exact absurd hcommand (by decide)
      · rfl
  · rw [Raising.response_eq_documented, Raising.documented_eq_ok] at hreply
    have hmeasure : reply.command = 0xB0 := (response_command hreply).trans hcommand
    rw [Raising.decode_scan_hundredths] at hraised
    cases hdecode : decode_scan reply info.angle info.resolution configuration (d.counters.received_scans + 1) with
    | ok scan =>
      rw [hdecode] at hraised
      cases hraised
    | error e =>
      have hscan : d.scanOf info configuration reply = .error e := by
        rw [Device.scanOf, hdecode]
        rfl
      have hrejects := decode_scan_rejects _ _ _ _ _ _ hdecode
      refine ⟨?_, by simp [Device.scanned, Device.measured, hreply, hmeasure, hinfo, hconfiguration, hscan,
        Except.toOption]⟩
      simp only [Device.handle, Device.measure, hreply, hmeasure, hinfo, hconfiguration, hscan, if_true]
      cases e with
      | device m => cases hrejects
      | _ => rfl

/-- A run of the reader: whatever was accepted was announced under consecutive numbers. -/
structure Follows (r r' : Reading) : Prop where
  bounded : r'.device.events.length ≤ 64
  accepted : ∃ accepted : List PlacedScan, r'.scans = r.scans ++ accepted ∧
    accepted.map (·.sequence) = List.range' (r.device.counters.received_scans + 1) accepted.length ∧
      r'.device.counters.received_scans = r.device.counters.received_scans + accepted.length

theorem Follows.refl {r : Reading} (h : r.device.events.length ≤ 64) : Follows r r :=
  ⟨h, [], by simp, rfl, rfl⟩

theorem Follows.trans {r r' r'' : Reading} (h : Follows r r') (h' : Follows r' r'') : Follows r r'' := by
  obtain ⟨first, hscans, hnumbers, hcount⟩ := h.accepted
  obtain ⟨second, hscans', hnumbers', hcount'⟩ := h'.accepted
  refine ⟨h'.bounded, first ++ second, by rw [hscans', hscans, List.append_assoc], ?_, ?_⟩
  · rw [List.map_append, hnumbers, hnumbers', hcount, List.length_append, ← List.range'_append_1]
    congr 2
    omega
  · rw [hcount', hcount, List.length_append, Nat.add_assoc]

/-- One event. -/
theorem handle_follows (event : Event) (r : Reading) (h : r.device.events.length ≤ 64) :
    Follows r ⟨r.device.handle event, r.scans ++ (r.device.scanned event).toList.map Scan.placed⟩ := by
  refine ⟨Device.handle_bounded event h, _, rfl, ?_, ?_⟩
  · cases hscanned : r.device.scanned event with
    | none => rfl
    | some scan =>
      have hsequence : scan.placed.sequence = r.device.counters.received_scans + 1 :=
        (Device.handle_scanned hscanned).2
      simp [hsequence]
  · cases hscanned : r.device.scanned event with
    | none => exact (Device.handle_sameScans hscanned).received
    | some scan => exact congrArg (·.counters.received_scans) (Device.handle_scanned hscanned).1

/-- The events of an arrival. -/
theorem forM_ends (events : List (ℕ × Event)) (r : Reading) (h : r.device.events.length ≤ 64) :
    ∃ r', Ends (events.forM fun event => handle event.2) r r' ∧ Follows r r' := by
  induction events generalizing r with
  | nil => exact ⟨r, rfl, .refl h⟩
  | cons event rest ih =>
    have hfirst := handle_follows event.2 r h
    obtain ⟨r', hends, hfollows⟩ := ih _ hfirst.bounded
    exact ⟨r', Ends.bind (handle_ends event.2 r h) hends, hfirst.trans hfollows⟩

/-- An arrival is framed without an exception. -/
theorem frame_eq_ok (framer : Framer) (arrival : Arrival) : ∃ fed, frame framer arrival = .ok fed := by
  cases arrival with
  | data bytes => exact ⟨_, Raising.feed_eq_ok framer bytes⟩
  | expiry => exact ⟨_, Raising.expire_eq_ok framer⟩

theorem receive_ends (arrival : Arrival) (r : Reading) (h : r.device.events.length ≤ 64) :
    ∃ r', Ends (receive arrival) r r' ∧ Follows r r' := by
  obtain ⟨⟨emitted, framer⟩, hfed⟩ := frame_eq_ok r.device.framer arrival
  obtain ⟨r', hends, hfollows⟩ := forM_ends emitted.events { r with device := { r.device with framer } } h
  exact ⟨r', Ends.get (Ends.lift hfed (Ends.bind (Ends.change _ r) hends)), hfollows.bounded, hfollows.accepted⟩

/-- Every run of the reader. -/
theorem receiveAll_ends (arrivals : List Arrival) (r : Reading) (h : r.device.events.length ≤ 64) :
    ∃ r', Ends (receiveAll arrivals) r r' ∧ Follows r r' := by
  induction arrivals generalizing r with
  | nil => exact ⟨r, rfl, .refl h⟩
  | cons arrival rest ih =>
    obtain ⟨r', hends, hfollows⟩ := receive_ends arrival r h
    obtain ⟨r'', hends', hfollows'⟩ := ih r' hfollows.bounded
    exact ⟨r'', Ends.bind hends hends', hfollows.trans hfollows'⟩

/-- What received bytes may do: every arrival is framed and handled without an exception, scans are
accepted under consecutive numbers, whatever is not accepted leaves the scans alone and is not announced,
and a malformed measurement telegram is counted and nothing else. -/
structure Survives (r : Reading) : Prop where
  run : ∀ arrivals, ∃ r', Ends (receiveAll arrivals) r r' ∧ Follows r r'
  rejected : ∀ event, (¬ ∃ scan, Accepts r.device event scan) →
    ∃ d', Ends (handle event) r ⟨d', r.scans⟩ ∧ r.device.SameScans d'
  accepted : ∀ event scan, Accepts r.device event scan →
    ∃ d', Ends (handle event) r ⟨d', r.scans ++ [scan]⟩ ∧
      scan.sequence = r.device.counters.received_scans + 1 ∧
        d'.counters.received_scans = r.device.counters.received_scans + 1
  malformed : ∀ f, Malformed r.device f → Ends (handle (.frame f)) r
    { r with device := { r.device with counters.malformed := r.device.counters.malformed + 1 } }

/-- No received bytes crash the reader of a device, whose queue holds at most 64 events. -/
theorem reader_survives (r : Reading) (h : r.device.events.length ≤ 64) : Survives r := by
  refine ⟨fun arrivals => receiveAll_ends arrivals r h, fun event hrejected => ?_,
    fun event scan haccepts => ?_, fun f hmalformed => ?_⟩
  · have hscanned := not_accepts_iff.mp hrejected
    have hends := handle_ends event r h
    rw [hscanned, Option.toList_none, List.map_nil, List.append_nil] at hends
    exact ⟨_, hends, Device.handle_sameScans hscanned⟩
  · obtain ⟨plain, hscanned, rfl⟩ := accepts_iff.mp haccepts
    obtain ⟨hkeep, hsequence⟩ := Device.handle_scanned hscanned
    have hends := handle_ends event r h
    rw [hscanned] at hends
    exact ⟨_, hends, hsequence, congrArg (·.counters.received_scans) hkeep⟩
  · obtain ⟨hhandle, hscanned⟩ := handle_malformed hmalformed
    have hends := handle_ends (.frame f) r h
    rw [hscanned, hhandle, Option.toList_none, List.map_nil, List.append_nil] at hends
    exact hends

/-- A reader which has received nothing yet, and half a telegram which expires. -/
theorem reader_survives_half :
    ∃ r', Ends (receiveAll [.data [0x02, 0x80], .expiry]) ⟨{ settings := {} }, []⟩ r' ∧
      Follows ⟨{ settings := {} }, []⟩ r' :=
  (reader_survives ⟨{ settings := {} }, []⟩ (Nat.zero_le 64)).run _

end Handler

end Lms200
