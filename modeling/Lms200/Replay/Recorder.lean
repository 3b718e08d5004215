import Lms200.Protocol.RoundTrip
import Lms200.Replay.Player

/-!
# Recordings

`Recorder.write` of `recording.py`: a recording is the telegrams of accepted scans one after
another, with an entry of the index for each. Which scan a telegram gives depends on the status,
the configuration and the address only, up to the number of the scan.
-/

namespace Lms200

open Resync

/-- The files a recorder writes. -/
structure Recorder where
  raw : Bytes := []
  index : List IndexEntry := []
  decoded : Option (List (String × Scan)) := some []
  count : ℕ := 0
  closed : Bool := false

namespace Recorder

/-- `write` -/
def write (r : Recorder) (timestamp : String) (scan : Scan) : Except Error Recorder :=
  if r.closed then .error (.value "Recording is closed")
  else .ok { r with
    raw := r.raw ++ scan.raw_telegram
    index := r.index ++ [⟨r.raw.length, scan.raw_telegram.length, timestamp, scan.sequence⟩]
    decoded := r.decoded.map (· ++ [(timestamp, scan)])
    count := r.count + 1 }

end Recorder

/-- A telegram of a scan, the scan which `_handle` made of it, and its time stamp. -/
structure Recorded where
  timestamp : String
  scan : Scan
  telegram : Telegram

namespace Recorded

/-- The telegram as the framer hands it out. -/
def frame (r : Recorded) : Frame := ⟨r.telegram.address, r.telegram.payload, r.telegram.wire⟩

/-- The scan was accepted by a device with the given address, status and configuration. -/
def Accepted (address : ℕ) (info : DeviceStatus) (configuration : Configuration) (r : Recorded) : Prop :=
  ∃ d : Device, d.settings.address = address ∧ d.info = some info ∧
    d.configuration = some configuration ∧ d.handed (.frame r.frame) = some r.scan

/-- What is written for the telegrams. -/
def bytes (recorded : List Recorded) : Bytes := recorded.flatMap fun r => r.telegram.wire

/-- The index of the telegrams, from an offset on. -/
def entries : ℕ → List Recorded → List IndexEntry
  | _, [] => []
  | offset, r :: rest =>
    ⟨offset, r.telegram.wire.length, r.timestamp, r.scan.sequence⟩ ::
      entries (offset + r.telegram.wire.length) rest

/-- The scans with their time stamps, numbered on from a number. -/
def renumbered : ℕ → List Recorded → List (Option String × Scan)
  | _, [] => []
  | n, r :: rest => (some r.timestamp, { r.scan with sequence := n + 1 }) :: renumbered (n + 1) rest

/-- The telegrams missing between two scans, by their telegram indices. -/
def gap (last : Option UInt8) (scan : Scan) : ℕ :=
  match scan.telegram_index, last with
  | some this, some last => (this - last - 1).toNat
  | _, _ => 0

/-- The telegrams missing in a recording, by the telegram indices. -/
def dropped : Option UInt8 → List Recorded → ℕ
  | _, [] => 0
  | last, r :: rest => gap last r.scan + dropped r.scan.telegram_index rest

section Accepting

variable {address : ℕ} {info : DeviceStatus} {configuration : Configuration} {r : Recorded}

/-- A response is made of its frame. -/
theorem response_frame {f : Frame} {reply : Response} (h : response f address = .ok reply) :
    reply.frame = f := by
  unfold response at h
  split at h
  · cases h
  split at h
  · cases h
  split at h
  · cases h
  split at h
  · cases h
  · rw [← Except.ok.inj h]

/-- What is handed on is a healthy scan of the checked telegram. -/
theorem handed_eq_some_iff {d : Device} {f : Frame} {scan : Scan} :
    d.handed (.frame f) = some scan ↔ ∃ reply configuration info unit,
      response f d.settings.address = .ok reply ∧ d.configuration = some configuration ∧
        d.info = some info ∧ reply.command = 0xB0 ∧
        Scannable reply info.angle info.resolution configuration unit ∧
        require_healthy reply = .ok () ∧
        scan = Scan.ofReply reply info.angle info.resolution configuration
          (d.counters.received_scans + 1) unit := by
  unfold Device.handed
  dsimp only
  constructor
  · intro h
    split at h
    · next reply configuration info hreply hconfiguration hinfo =>
      split at h
      · next hcommand =>
        cases hscan : d.scanOf info configuration reply with
        | error e =>
          rw [hscan] at h
          cases h
        | ok other =>
          rw [hscan] at h
          obtain rfl : other = scan := Option.some.inj h
          obtain ⟨decoded, hdecoded, hrest⟩ := bind_eq_ok.mp hscan
          obtain ⟨_, hhealthy, hsame⟩ := bind_eq_ok.mp hrest
          cases hsame
          obtain ⟨unit, hscannable, hof⟩ := decode_scan_eq_ok.mp hdecoded
          exact ⟨reply, configuration, info, unit, hreply, hconfiguration, hinfo, hcommand, hscannable,
            hhealthy, hof⟩
      · cases h
    · cases h
  · rintro ⟨reply, configuration, info, unit, hreply, hconfiguration, hinfo, hcommand, hscannable,
      hhealthy, rfl⟩
    have hscan : d.scanOf info configuration reply = .ok (Scan.ofReply reply info.angle info.resolution
        configuration (d.counters.received_scans + 1) unit) :=
      bind_eq_ok.mpr ⟨_, decode_scan_eq_ok.mpr ⟨unit, hscannable, rfl⟩,
        bind_eq_ok.mpr ⟨(), hhealthy, rfl⟩⟩
    simp only [hreply, hconfiguration, hinfo, if_pos hcommand, hscan]
    rfl

/-- An accepted scan carries its telegram. -/
theorem Accepted.raw (h : r.Accepted address info configuration) : r.scan.raw_telegram = r.telegram.wire := by
  obtain ⟨d, -, -, -, hhanded⟩ := h
  obtain ⟨reply, _, _, _, hreply, -, -, -, -, -, hscan⟩ := handed_eq_some_iff.mp hhanded
  have hframe := response_frame hreply
  rw [hscan, Scan.ofReply, hframe]
  rfl

/-- Every device with the same status and configuration hands on the same scan, under its own number. -/
theorem Accepted.handed (h : r.Accepted address info configuration) {d : Device}
    (haddress : d.settings.address = address) (hinfo : d.info = some info)
    (hconfiguration : d.configuration = some configuration) :
    d.handed (.frame r.frame) =
      some { r.scan with sequence := d.counters.received_scans + 1 } := by
  obtain ⟨first, haddress', hinfo', hconfiguration', hhanded⟩ := h
  obtain ⟨reply, configuration', info', unit, hreply, hc, hi, hcommand, hscannable, hhealthy, hscan⟩ :=
    handed_eq_some_iff.mp hhanded
  obtain rfl : configuration' = configuration := Option.some.inj (hc.symm.trans hconfiguration')
  obtain rfl : info' = info := Option.some.inj (hi.symm.trans hinfo')
  refine handed_eq_some_iff.mpr ⟨reply, configuration', info', unit, ?_, hconfiguration, hinfo, hcommand,
    hscannable, hhealthy, ?_⟩
  · rw [haddress, ← haddress']
    exact hreply
  · rw [hscan]
    rfl

end Accepting

section Writing

variable {address : ℕ} {info : DeviceStatus} {configuration : Configuration}

end Writing

end Recorded

end Lms200
