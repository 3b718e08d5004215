import Lms200.Device.Reader
import Lms200.Replay.Transport

/-!
# The read loop over a replay

`_read_loop` of the device over a `ReplayTransport`: the reads ask for the default size and take
any time, and the loop goes on until one of them raises. What is handed to `on_scan` is kept
with the time stamp which the transport shows then.

The device reports a complete replay only for a recording which is intact and ends between
telegrams. The transport notices damage by comparing the index with the file, and the device
notices a telegram which is cut off at the end.
-/

namespace Lms200

/-- What the read loop makes of the outcome of a read. -/
def ReadResult.ofRead : Except Error Bytes → ReadResult
  | .ok bytes => .data bytes
  | .error (.eof _) => .eof
  | .error _ => .failure

namespace Device

/-- The scan of an event which `_handle` hands to `on_scan`. -/
def handed (d : Device) : Event → Option Scan
  | .control _ => none
  | .frame f =>
    match response f d.settings.address, d.configuration, d.info with
    | .ok reply, some configuration, some info =>
      if reply.command = 0xB0 then (d.scanOf info configuration reply).toOption else none
    | _, _, _ => none

/-- The scans of the events of one call of the framer. -/
def handedAll : Device → List Event → List Scan
  | _, [] => []
  | d, event :: rest => (d.handed event).toList ++ handedAll (d.handle event) rest

/-- An event which is handed on is a scan which is kept. -/
theorem handle_of_handed {d : Device} {event : Event} {scan : Scan} (h : d.handed event = some scan) :
    d.handle event = d.keep scan := by
  cases event with
  | control c => cases h
  | frame f =>
    unfold handed at h
    dsimp only at h
    split at h
    · next reply configuration info hreply hconfiguration hinfo =>
      split at h
      · next hcommand =>
        have hscan : d.scanOf info configuration reply = .ok scan := by
          cases hs : d.scanOf info configuration reply with
          | error e =>
            rw [hs] at h
            cases h
          | ok other =>
            rw [hs] at h
            exact congrArg _ (Option.some.inj h)
        simp only [handle, hreply, if_pos hcommand, measure, hconfiguration, hinfo, hscan]
      · cases h
    · cases h

end Device

/-- A replay, the device which reads it, and what was handed to `on_scan`. -/
structure Player where
  transport : ReplayTransport
  device : Device
  scans : List (Option String × Scan) := []

namespace Player

/-- One pass of the read loop. -/
def step (p : Player) (elapsed : ℚ≥0) : Player :=
  match p.device.reader with
  | some (.running _) =>
    let read := p.transport.read
    let device := p.device.react (.tick elapsed)
    let heard := match read.1 with
      | .ok data => device.handedAll ((device.framer.feed data).1.events.map Prod.snd)
      | .error _ => []
    { transport := read.2
      device := device.read (ReadResult.ofRead read.1)
      scans := p.scans ++ heard.map (read.2.timestamp, ·) }
  | _ => p

/-- Passes of the read loop, each of which takes some time. -/
def play (p : Player) (delays : List ℚ≥0) : Player := delays.foldl step p

/-- The read loop has not ended. -/
def Running (p : Player) : Prop := ∃ last, p.device.reader = some (.running last)

/-- How the read loop ends. -/
structure Ended (file : Bytes) (r : ReplayTransport) (d : Device) : Prop where
  reader : d.reader = some .ended
  complete : r.Intact file ∧ d.framer.buffer = [] → d.state = .CONNECTED
  incomplete : ¬ (r.Intact file ∧ d.framer.buffer = []) → d.state = .FAULTED ∧ d.error.isSome = true

section Passes

variable {file : Bytes} {p : Player}

theorem step_of_ended (h : p.device.reader = some .ended) (elapsed : ℚ≥0) : p.step elapsed = p := by
  simp only [step, h]

theorem play_of_ended (h : p.device.reader = some .ended) (delays : List ℚ≥0) : p.play delays = p := by
  induction delays with
  | nil => rfl
  | cons elapsed rest ih =>
    rw [play, List.foldl_cons, step_of_ended h]
    exact ih

/-- The end of the reader leaves the state, the framer and the error alone. -/
theorem readerEnds_fields (d : Device) (e : Error) :
    (d.readerEnds e).reader = some .ended ∧ (d.readerEnds e).state = d.state ∧
      (d.readerEnds e).framer = d.framer ∧ (d.readerEnds e).error = d.error := by
  unfold Device.readerEnds Device.queue
  dsimp only
  split <;> exact ⟨rfl, rfl, rfl, rfl⟩

/-- The end of the file ends the loop, in the state which the framer decides. -/
theorem ended_readEof {d : Device} {r : ReplayTransport} (hreplay : d.transport.replay.isSome = true)
    (hintact : r.Intact file) : Ended file r d.readEof := by
  unfold Device.readEof
  rw [if_pos hreplay]
  by_cases hbuffer : d.framer.buffer = []
  · rw [if_pos hbuffer]
    obtain ⟨hreader, hstate, hframer, -⟩ :=
      readerEnds_fields (d.transition .CONNECTED) (.eof "Transport ended")
    refine ⟨hreader, fun _ => hstate, fun h => absurd ⟨hintact, ?_⟩ h⟩
    rw [hframer]
    exact hbuffer
  · rw [if_neg hbuffer]
    generalize hfault : Device.fault _ "Replay ended inside a telegram" = faulted
    obtain ⟨hreader, hstate, hframer, herror⟩ := readerEnds_fields faulted (.eof "Transport ended")
    subst hfault
    refine ⟨hreader, fun h => absurd h.2 ?_, fun _ => ⟨hstate, by rw [herror]; rfl⟩⟩
    rw [hframer]
    exact hbuffer

/-- Damage ends the loop in a fault. -/
theorem ended_readFailure {d : Device} {r : ReplayTransport} (hdamage : ¬ r.Intact file) :
    Ended file r d.readFailure := by
  obtain ⟨hreader, hstate, -, herror⟩ := readerEnds_fields
    (d.fault "Transport read failed; inspect host connection")
    (.os "Transport read failed; inspect host connection")
  exact ⟨hreader, fun h => absurd h.1 hdamage, fun _ => ⟨hstate, by rw [Device.readFailure, herror]; rfl⟩⟩

/-- A pass moves on through the file, or ends the loop. -/
theorem step_reads (hreading : p.transport.Reading file) (hrunning : p.Running)
    (hreplay : p.device.transport.replay.isSome = true) (elapsed : ℚ≥0) :
    (p.step elapsed).Running ∧ (p.step elapsed).transport.Reading file ∧
        p.transport.position < (p.step elapsed).transport.position ∧
        ((p.step elapsed).transport.Intact file ↔ p.transport.Intact file) ∨
      Ended file p.transport (p.step elapsed).device := by
  obtain ⟨last, hlast⟩ := hrunning
  have hread := ReplayTransport.read_read hreading (show 1 ≤ 4096 by decide)
  have hticked : (p.device.react (.tick elapsed)).reader = some (.running last) := hlast
  have hsession : (p.device.react (.tick elapsed)).transport.replay.isSome = true := hreplay
  simp only [step, hlast]
  generalize p.device.react (.tick elapsed) = d at hticked hsession
  generalize p.transport.read 4096 = result at hread
  cases hread with
  | bytes nonempty next moved reading intact =>
    have hpos := List.length_pos_iff.mpr nonempty
    refine .inl ⟨⟨d.now, ?_⟩, reading, ?_, intact⟩
    · simp only [ReadResult.ofRead, Device.read, hticked, Device.readData]
      rw [if_pos nonempty, Device.watchdog_reader]
    · dsimp only
      omega
  | complete intact finished =>
    refine .inr ?_
    simp only [ReadResult.ofRead, Device.read, hticked]
    exact ended_readEof hsession intact
  | damaged damage =>
    refine .inr ?_
    simp only [ReadResult.ofRead, Device.read, hticked]
    exact ended_readFailure damage

/-- A pass leaves the session of the device alone. -/
theorem step_session (p : Player) (elapsed : ℚ≥0) :
    (p.step elapsed).device.toSession = p.device.toSession := by
  unfold step
  split
  · exact (Device.react_session _ (.read _)).trans (Device.react_session _ (.tick elapsed))
  · rfl

/-- However long the reads take, the loop ends in the state which the recording deserves. -/
theorem play_ends {delays : List ℚ≥0} (hreading : p.transport.Reading file) (hrunning : p.Running)
    (hreplay : p.device.transport.replay.isSome = true)
    (hlong : file.length - p.transport.position < delays.length) :
    Ended file p.transport (p.play delays).device := by
  induction delays generalizing p with
  | nil => exact absurd hlong (Nat.not_lt_zero _)
  | cons elapsed delays ih =>
    have hplay : p.play (elapsed :: delays) = (p.step elapsed).play delays := rfl
    have hposition := hreading.position_le
    rw [hplay]
    rcases step_reads hreading hrunning hreplay elapsed with ⟨hrunning, hreading', hmoved, hintact⟩ | hended
    · have hnext := hreading'.position_le
      have hend := ih hreading' hrunning (by rw [step_session]; exact hreplay)
        (by rw [List.length_cons] at hlong; omega)
      exact ⟨hend.reader, fun h => hend.complete ⟨hintact.mpr h.1, h.2⟩,
        fun h => hend.incomplete fun hc => h ⟨hintact.mp hc.1, hc.2⟩⟩
    · rw [play_of_ended hended.reader]
      exact hended

end Passes

/-- Reads return a prefix of the recording and end as its index says; the device ends connected
only for an intact recording which ends between telegrams, and in a fault otherwise. -/
theorem replay_complete_iff_intact (file : Bytes) (index : Option (List IndexEntry)) :
    let r := ReplayTransport.opened file index
    let intact := ∀ entries, index = some entries → Tiling entries file
    (∀ sizes : List ℕ, (∀ size ∈ sizes, 1 ≤ size) →
      (r.readUntil sizes).1.flatten <+: file ∧
        (file.length < sizes.length → (r.readUntil sizes).2.isSome = true) ∧
        ∀ e, (r.readUntil sizes).2 = some e →
          ((∃ m, e = .eof m) ↔ intact) ∧
            ((∃ m, e = .eof m) → (r.readUntil sizes).1.flatten = file) ∧
            ((∃ m, e = .value m) ↔ ¬ intact)) ∧
      ∀ (d : Device) (last : ℚ) (delays : List ℚ≥0), d.transport.replay.isSome = true →
        d.reader = some (.running last) → file.length < delays.length →
        let final := (Player.play ⟨r, d, []⟩ delays).device
        final.reader = some .ended ∧
          (intact ∧ final.framer.buffer = [] → final.state = .CONNECTED) ∧
          (¬ (intact ∧ final.framer.buffer = []) →
            final.state = .FAULTED ∧ final.error.isSome = true) := by
  intro r intact
  have hreading : r.Reading file := ReplayTransport.opened_reading file index
  have hintact : r.Intact file ↔ intact := ReplayTransport.opened_intact_iff file index
  refine ⟨fun sizes hsizes => ?_, fun d last delays hreplay hreader hlong => ?_⟩
  · obtain ⟨hdelivered, hends, hend⟩ := ReplayTransport.readUntil_spec hsizes hreading
    refine ⟨hdelivered, hends, fun e he => ?_⟩
    rcases hend e he with ⟨⟨m, rfl⟩, hi, hall⟩ | ⟨⟨m, rfl⟩, hdamage⟩
    · have hi' := hintact.mp hi
      exact ⟨iff_of_true ⟨m, rfl⟩ hi', fun _ => hall, iff_of_false nofun (not_not.mpr hi')⟩
    · have hdamage' := mt hintact.mpr hdamage
      exact ⟨iff_of_false nofun hdamage', nofun, iff_of_true ⟨m, rfl⟩ hdamage'⟩
  · have hend := play_ends (p := ⟨r, d, []⟩) hreading ⟨last, hreader⟩ hreplay hlong
    exact ⟨hend.reader, fun h => hend.complete ⟨hintact.mpr h.1, h.2⟩,
      fun h => hend.incomplete fun hc => h ⟨hintact.mp hc.1, hc.2⟩⟩

end Player

end Lms200
