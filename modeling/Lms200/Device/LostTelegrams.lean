import Lms200.Device.Interference
import Lms200.Device.Raising

/-!
# Lost telegrams

The scanner numbers its measurement telegrams and puts the number modulo 256 in the telegram index. The
handler only sees the indices of the telegrams it accepts, and adds up their wrapped differences. While
no difference is more than a full turn of the index, the sum is the number of telegrams which were not
accepted between the first and the last accepted one.
-/

namespace Lms200

/-- The telegram index of a measurement telegram, the last byte before its status. -/
def Frame.telegramIndex (f : Frame) : UInt8 := f.payload.getD (f.payload.length - 2) 0

/-- The telegrams missing between some indices, each a byte. -/
def missing : Option UInt8 → List UInt8 → ℕ
  | _, [] => 0
  | none, index :: rest => missing (some index) rest
  | some last, index :: rest => (index - last - 1).toNat + missing (some index) rest

/-- The last index, or the one before if there is none. -/
def latestIndex (last : Option UInt8) (indices : List UInt8) : Option UInt8 := indices.getLast?.or last

theorem missing_append (last : Option UInt8) (indices later : List UInt8) :
    missing last (indices ++ later) = missing last indices + missing (latestIndex last indices) later := by
  induction indices generalizing last with
  | nil => simp [missing, latestIndex]
  | cons index rest ih =>
    have hlatest : latestIndex last (index :: rest) = latestIndex (some index) rest := by
      cases rest with
      | nil => rfl
      | cons next rest => simp [latestIndex, List.getLast?_eq_some_getLast]
    cases last with
    | none => rw [List.cons_append, missing, missing, ih, hlatest]
    | some last => rw [List.cons_append, missing, missing, ih, hlatest, Nat.add_assoc]

/-- A difference of at most a full turn of the index is found again, modulo 256. -/
theorem wrapped_gap {t t' : ℕ} (hlt : t < t') (hle : t' ≤ t + 256) :
    (UInt8.ofNat t' - UInt8.ofNat t - 1).toNat = t' - t - 1 := by
  simp only [UInt8.toNat_sub, UInt8.toNat_ofNat', UInt8.toNat_one, Nat.reducePow]
  omega

/-- Indices of increasing numbers which never skip a full turn add up to what is missing between the
numbers. -/
theorem missing_numbers (first : ℕ) (rest : List ℕ)
    (hgaps : (first :: rest).IsChain fun t t' => t < t' ∧ t' ≤ t + 256) :
    (missing (some (UInt8.ofNat first)) (rest.map UInt8.ofNat) : ℤ) =
      rest.getLastD first - first - rest.length := by
  induction rest generalizing first with
  | nil => simp [missing]
  | cons second rest ih =>
    obtain ⟨⟨hlt, hle⟩, hrest⟩ := List.isChain_cons_cons.mp hgaps
    have hsecond := ih second hrest
    rw [List.map_cons, missing, wrapped_gap hlt hle, Nat.cast_add, hsecond, List.getLastD_cons,
      List.length_cons]
    push_cast
    omega

namespace Device

variable {d d' : Device}

/-- The telegram of an event, if it is accepted. -/
def takes (d : Device) (event : Event) : List Frame :=
  match event, d.scanned event with
  | .frame f, some _ => [f]
  | _, _ => []

/-- The telegrams among some events which are accepted, in order. -/
def takesAll (d : Device) : List Event → List Frame
  | [] => []
  | event :: rest => d.takes event ++ (d.handle event).takesAll rest

/-- The telegrams of one call of the framer which are accepted. -/
def takesFrom (d : Device) (fed : Emitted × Framer) : List Frame :=
  { d with framer := fed.2 }.takesAll (fed.1.events.map Prod.snd)

/-- The telegrams which are accepted when something happens. -/
def received (d : Device) (input : Input) : List Frame :=
  match input, d.reader with
  | .read (.data bytes), some (.running last_bytes) =>
    if bytes ≠ [] then d.takesFrom (d.framer.feed bytes)
    else if d.framer.buffer ≠ [] ∧ 1 / 4 < d.now - last_bytes then d.takesFrom d.framer.expire
    else []
  | _, _ => []

/-- Telegrams are decoded with indices. -/
def Indexed (d : Device) : Prop := ∀ configuration ∈ d.configuration, configuration.indices = true

/-- A part of the life of a device with the telegrams it accepts there, between two resets of its
telegram index. Besides the reader, whatever leaves that index and the count alone may happen. -/
inductive Run (d : Device) : List Frame → Device → Prop
  | start : Run d [] d
  | reader {frames d'} (input : Input) : Run d frames d' → d'.Indexed →
      Run d (frames ++ d'.received input) (d'.react input)
  | elsewhere {frames d' d''} : Run d frames d' → d''.last_telegram_index = d'.last_telegram_index →
      d''.counters.dropped_scans = d'.counters.dropped_scans → Run d frames d''

/-- The count and the reference of a device which accepts telegrams. -/
structure Counts (d : Device) (frames : List Frame) (d' : Device) : Prop where
  dropped : d'.counters.dropped_scans =
    d.counters.dropped_scans + missing d.last_telegram_index (frames.map Frame.telegramIndex)
  last : d'.last_telegram_index = latestIndex d.last_telegram_index (frames.map Frame.telegramIndex)

theorem Counts.of_same (hdropped : d'.counters.dropped_scans = d.counters.dropped_scans)
    (hlast : d'.last_telegram_index = d.last_telegram_index) : Counts d [] d' where
  dropped := hdropped
  last := hlast

theorem Counts.trans {d'' : Device} {frames later : List Frame} (h : Counts d frames d')
    (h' : Counts d' later d'') : Counts d (frames ++ later) d'' where
  dropped := by rw [h'.dropped, h.dropped, h.last, List.map_append, missing_append, Nat.add_assoc]
  last := by
    rw [h'.last, h.last, List.map_append, latestIndex, latestIndex, latestIndex, List.getLast?_append,
      Option.or_assoc]

/-- The index of an accepted scan is the one on the wire. -/
theorem scanned_index {f : Frame} {scan : Scan} (hindexed : d.Indexed)
    (h : d.scanned (.frame f) = some scan) : scan.telegram_index = some f.telegramIndex := by
  obtain ⟨f', reply, info, configuration, hframe, hreply, -, -, hconfiguration, hscan⟩ := scanned_eq_some.mp h
  obtain rfl := Event.frame.inj hframe
  have hindices : configuration.indices = true := hindexed configuration hconfiguration
  obtain ⟨decoded, hdecoded, hrest⟩ := bind_eq_ok.mp hscan
  obtain ⟨_, -, hsame⟩ := bind_eq_ok.mp hrest
  obtain ⟨unit, hscannable, rfl⟩ := decode_scan_eq_ok.mp hdecoded
  obtain rfl := Except.ok.inj hsame
  have hdata : reply.data = (f.payload.drop 1).dropLast := by
    unfold response at hreply
    repeat' split at hreply
    all_goals first
      | exact (Except.ok.inj hreply) ▸ rfl
      | cases hreply
  have hsize := hscannable.size
  rw [if_pos hindices] at hsize
  have hlength : reply.data.length = f.payload.length - 2 := by
    rw [hdata, List.length_dropLast, List.length_drop]
    omega
  have hplace : 2 + unpackWord reply.data 0 % 0x400 * 2 + 1 = reply.data.length - 1 := by omega
  simp only [Scan.ofReply, hindices, if_true, Frame.telegramIndex, hplace]
  rw [hlength, hdata, List.getD_eq_getElem?_getD, List.getD_eq_getElem?_getD, List.getElem?_dropLast,
    List.getElem?_drop, if_pos (by rw [List.length_drop]; omega)]
  congr 3
  omega

/-- One event. -/
theorem handle_counts (hindexed : d.Indexed) (event : Event) : Counts d (d.takes event) (d.handle event) := by
  cases hscanned : d.scanned event with
  | none =>
    have hsame := handle_sameScans hscanned
    have hnone : d.takes event = [] := by
      cases event <;> simp [takes, hscanned]
    rw [hnone]
    exact .of_same hsame.dropped hsame.last
  | some scan =>
    cases event with
    | control c => cases hscanned
    | frame f =>
      have hone : d.takes (.frame f) = [f] := by simp [takes, hscanned]
      have hindex := scanned_index hindexed hscanned
      rw [hone, (handle_scanned hscanned).1]
      unfold keep
      rw [hindex]
      refine ⟨?_, rfl⟩
      cases d.last_telegram_index <;> rfl

theorem handle_indexed (h : d.Indexed) (event : Event) : (d.handle event).Indexed := by
  have hsame : (d.handle event).configuration = d.configuration :=
    congrArg Session.configuration (handle_session d event)
  unfold Indexed
  rw [hsame]
  exact h

/-- Some events. -/
theorem takesAll_counts (hindexed : d.Indexed) (events : List Event) :
    Counts d (d.takesAll events) (events.foldl handle d) := by
  induction events generalizing d with
  | nil => exact .of_same rfl rfl
  | cons event rest ih => exact (handle_counts hindexed event).trans (ih (handle_indexed hindexed event))

/-- The events of one call of the framer. -/
theorem takesFrom_counts (hindexed : d.Indexed) (fed : Emitted × Framer) :
    Counts d (d.takesFrom fed) (d.handleAll fed) := by
  have hcounts := takesAll_counts (d := { d with framer := fed.2 }) hindexed (fed.1.events.map Prod.snd)
  exact ⟨hcounts.dropped, hcounts.last⟩

/-- A step of the device leaves the count and the reference of its telegrams alone. -/
def SameCount (d d' : Device) : Prop :=
  d'.counters.dropped_scans = d.counters.dropped_scans ∧ d'.last_telegram_index = d.last_telegram_index

theorem Counts.then_same {frames : List Frame} {d'' : Device} (h : Counts d frames d') (hsame : SameCount d' d'') :
    Counts d frames d'' :=
  ⟨hsame.1.trans h.dropped, hsame.2.trans h.last⟩

theorem watchdog_same (d : Device) : SameCount d d.watchdog := by
  unfold watchdog
  split <;> exact ⟨rfl, rfl⟩

theorem readerEnds_same (d : Device) (e : Error) : SameCount d (d.readerEnds e) :=
  ⟨(queue_sameScans d (.error e)).dropped, (queue_sameScans d (.error e)).last⟩

theorem readEof_same (d : Device) : SameCount d d.readEof := by
  unfold readEof
  dsimp only
  split_ifs <;> exact readerEnds_same _ _

theorem readFailure_same (d : Device) : SameCount d d.readFailure := readerEnds_same _ _

/-- A read of the transport. -/
theorem readData_counts (hindexed : d.Indexed) (last_bytes : ℚ) (bytes : Bytes)
    (hreader : d.reader = some (.running last_bytes)) :
    Counts d (d.received (.read (.data bytes))) (d.readData last_bytes bytes) := by
  have hfed (fed : Emitted × Framer) :
      Counts d (d.takesFrom fed) ({ d.handleAll fed with reader := some (.running d.now) }).watchdog :=
    ((takesFrom_counts hindexed fed).then_same ⟨rfl, rfl⟩).then_same (watchdog_same _)
  unfold received readData
  rw [hreader]
  dsimp only
  split
  · exact hfed _
  · split
    · exact hfed _
    · exact .of_same (watchdog_same d).1 (watchdog_same d).2

/-- Whatever happens. -/
theorem react_counts (hindexed : d.Indexed) (input : Input) : Counts d (d.received input) (d.react input) := by
  have hsame {d' : Device} (h : SameCount d d') : Counts d [] d' := .of_same h.1 h.2
  cases input with
  | tick elapsed => exact hsame ⟨rfl, rfl⟩
  | «begin» =>
    change Counts d [] (if d.reader = some .created then { d with reader := some (.running d.now) } else d)
    split <;> exact .of_same rfl rfl
  | read result =>
    have hidle (hreader : ∀ last_bytes, d.reader ≠ some (.running last_bytes)) :
        Counts d (d.received (.read result)) (d.read result) := by
      cases hr : d.reader with
      | none => cases result <;> simpa [received, read, hr] using hsame ⟨rfl, rfl⟩
      | some reader =>
        cases reader with
        | running last_bytes => exact absurd hr (hreader last_bytes)
        | _ => cases result <;> simpa [received, read, hr] using hsame ⟨rfl, rfl⟩
    unfold react
    cases hreader : d.reader with
    | none => exact hidle fun last_bytes => by rw [hreader]; nofun
    | some reader =>
      cases reader with
      | running last_bytes =>
        unfold read
        rw [hreader]
        cases result with
        | data bytes => exact readData_counts hindexed last_bytes bytes hreader
        | eof => exact hsame (readEof_same d)
        | failure => exact hsame (readFailure_same d)
      | _ => exact hidle fun last_bytes => by rw [hreader]; nofun

/-- A whole run. -/
theorem Run.counts {frames : List Frame} (h : Run d frames d') : Counts d frames d' := by
  induction h with
  | start => exact .of_same rfl rfl
  | reader input _ hindexed ih => exact ih.trans (react_counts hindexed input)
  | elsewhere _ hlast hdropped ih => exact ih.then_same ⟨hdropped, hlast⟩

/-- Lost telegrams are counted exactly: whatever else is received and rejected, the count increases by
the telegrams which were not accepted between the first and the last accepted one. -/
theorem dropped_scans_exact {frames : List Frame} {numbers : List ℕ} (hreset : d.last_telegram_index = none)
    (hrun : Run d frames d') (hnumbered : frames.map Frame.telegramIndex = numbers.map UInt8.ofNat)
    (hgaps : numbers.IsChain fun t t' => t < t' ∧ t' ≤ t + 256) (hne : numbers ≠ []) :
    (d'.counters.dropped_scans : ℤ) - d.counters.dropped_scans =
      numbers.getLast hne - numbers.head hne - (numbers.length - 1) := by
  cases numbers with
  | nil => exact absurd rfl hne
  | cons first rest =>
    have hcounts := hrun.counts.dropped
    have hmissing := missing_numbers first rest hgaps
    rw [hreset, hnumbered, List.map_cons, missing] at hcounts
    rw [List.getLast_eq_getLastD, List.head_cons, List.length_cons, hcounts]
    push_cast
    omega

/-- A device which measures 100 degrees in steps of one, in millimetres with indices. -/
def indexing : Device where
  settings := .defaults
  info := some ⟨[], 0x25, 0, 100, 100, 9600, .mm, 0, false, 0, []⟩
  configuration := some ⟨[0, 0, 0, 0, 2, 0, 1] ++ List.replicate 25 0, by decide⟩
  state := .STREAMING
  reader := some (.running 0)

/-- A measurement telegram of that scanner, with its number modulo 256. -/
def measurement (number : ℕ) : Bytes :=
  (encode ([0xB0, 0x65, 0x40] ++ List.replicate 203 0 ++ [UInt8.ofNat number, 0x10]) 0x80).toOption.getD []

/-- The telegrams 5, 7 and 263 arrive, and number 8 with a damaged first byte. -/
def interrupted : Input :=
  .read (.data (measurement 5 ++ measurement 7 ++ 0xFF :: (measurement 8).drop 1 ++ measurement 263))

/-- A gap of one telegram and one of a full turn of the index. -/
theorem dropped_scans_exact_wrapped : (indexing.react interrupted).counters.dropped_scans = 256 := by
  have hreceived : ([] ++ indexing.received interrupted).map Frame.telegramIndex = [5, 7, 263].map UInt8.ofNat := by
    decide +kernel
  have hindexed : indexing.Indexed := fun configuration h => by
    obtain rfl := Option.some.inj h
    rfl
  have hexact := dropped_scans_exact rfl (Run.start.reader interrupted hindexed) hreceived (by decide)
    (by decide)
  change (_ : ℤ) - (0 : ℕ) = (263 : ℕ) - (5 : ℕ) - ((3 : ℕ) - 1) at hexact
  omega

end Device

end Lms200
