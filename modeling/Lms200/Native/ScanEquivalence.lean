import Lms200.Native.Scan

/-!
# Both decoders accept the same scans

A scan which Python accepts in three steps, reading the response, decoding it and checking the
health of the scanner, is a scan which the native decoder accepts in one, and the other way
round, whatever the telegram.
-/

namespace Lms200.Native

/-- The native frame of a telegram. -/
def ofTelegram (t : Telegram) (offset : ℕ) : Frame :=
  { offset, address := t.address, payload := t.payload, raw := t.wire
    crc_received := word t.wire (t.wire.length - 2)
    crc_calculated := crc16 (t.wire.take (t.wire.length - 2)) }

/-- The steps by which Python accepts a scan. -/
def acceptScan (frame : Lms200.Frame) (angle resolution : ℕ) (config : Configuration)
    (sequence : ℕ) : Except Error Scan := do
  let reply ← response frame 0
  let scan ← Lms200.decode_scan reply angle resolution config sequence
  require_healthy reply
  return scan

/-- The word a unit is reported by. -/
def unitText : DistanceUnit → String
  | .mm => "mm"
  | .cm => "cm"

/-- The checks on a response telegram which both sides make. -/
structure Responds (t : Telegram) : Prop where
  address : t.address = 0x80 ∨ t.address = 0x81
  length : 2 ≤ t.payload.length
  command : 0x80 ≤ t.payload.headD 0
  severity : t.payload.getLastD 0 &&& 7 ≤ 4
  accepted : t.payload.headD 0 ≠ 0x92

section Telegrams

variable (t : Telegram)

theorem wire_length : t.wire.length = t.payload.length + 6 := encode_length t.encode_eq

/-- The checksum bytes of a telegram are the checksum of the bytes before them. -/
theorem wire_crc : crc16 (t.wire.take (t.wire.length - 2)) = word t.wire (t.wire.length - 2) := by
  have hlength := wire_length t
  obtain ⟨-, hwire⟩ := (encode_eq_ok_iff _ _ _).mp t.encode_eq
  generalize hmessage : [STX, t.address] ++ toBytesLittle t.payload.length ++ t.payload = message at hwire
  have hsize : t.wire.length - 2 = message.length := by
    rw [hwire]
    simp [toBytesLittle]
  have hslice : slice t.wire message.length (message.length + 2) = toBytesLittle (Lms200.crc16 message) := by
    rw [slice, List.drop_take, show message.length + 2 - message.length = 2 by omega, hwire,
      List.drop_left]
    rfl
  rw [← UInt16.toNat_inj, crc16_toNat, word_toNat (by omega), hsize, hslice,
    fromBytesLittle_toBytesLittle (crc16_lt _)]
  conv_lhs => rw [hwire]
  rw [List.take_left]

/-- The status byte of a response telegram is its last payload byte. -/
theorem status_ofTelegram (offset : ℕ) (h : 2 ≤ t.payload.length) :
    (ofTelegram t offset).status = t.payload.getLastD 0 :=
  if_neg (not_lt.mpr h)

/-- A failed check is not passed. -/
theorem ok_check {c : Prop} [Decidable c] {failed rest : Validation} (h : failed.ok = false) :
    (if c then failed else rest).ok = true ↔ ¬ c ∧ rest.ok = true := by
  split
  · next hc => exact iff_of_false (by rw [h]; exact Bool.false_ne_true) fun hn => hn.1 hc
  · next hc => exact (and_iff_right hc).symm

/-- The native checks on a telegram are those on its payload. -/
theorem validate_response_ofTelegram (offset : ℕ) :
    (validate_response (ofTelegram t offset)).ok = true ↔ Responds t := by
  have hlength := wire_length t
  obtain ⟨hstx, haddress, hdeclared, hpayload⟩ := encode_prefix_header t.encode_eq (List.prefix_refl _)
  have hmax : t.payload.length ≤ 808 := t.legal.2
  have hpos : 1 ≤ t.payload.length := t.legal.1
  have hword : (word t.wire 2).toNat = t.payload.length := by
    rw [word_toNat (by omega)]
    exact hdeclared
  have hbody : (t.wire.drop 4).take t.payload.length = t.payload := by
    rw [slice, List.drop_take, Nat.add_sub_cancel] at hpayload
    exact hpayload
  have hfirst : t.wire.getD 0 0 = 0x02 := by
    rw [List.headD_eq_getD] at hstx
    exact hstx
  have hframed : ¬ (t.wire.length < 7 ∨ t.wire.getD 0 0 ≠ 0x02) := by
    rintro (h | h)
    · omega
    · exact h hfirst
  have hagrees : ¬ (t.wire.getD 1 0 ≠ t.address ∨ (word t.wire 2).toNat ≠ t.payload.length ∨
      t.wire.length ≠ t.payload.length + 6 ∨ t.payload.length > 808) := by
    rintro (h | h | h | h)
    · exact h haddress
    · exact h hword
    · omega
    · omega
  unfold validate_response
  rw [ok_check rfl, ok_check rfl, ok_check rfl, ok_check rfl, ok_check rfl, ok_check rfl,
    ok_check rfl, ok_check rfl]
  constructor
  · rintro ⟨-, haddressed, -, -, -, hresponse, hseverity, haccepted, -⟩
    have hlong : 2 ≤ t.payload.length := not_lt.mp (not_or.mp hresponse).1
    exact {
      address := or_iff_not_and_not.mpr haddressed
      length := hlong
      command := UInt8.not_lt.mp (not_or.mp hresponse).2
      severity := by
        rw [← status_ofTelegram t offset hlong]
        exact UInt8.not_lt.mp hseverity
      accepted := haccepted }
  · intro h
    refine ⟨hframed, or_iff_not_and_not.mp h.address, hagrees, not_not.mpr hbody,
      not_not.mpr (wire_crc t), not_or.mpr ⟨not_lt.mpr h.length, UInt8.not_lt.mpr h.command⟩,
      UInt8.not_lt.mpr ?_, h.accepted, rfl⟩
    rw [status_ofTelegram t offset h.length]
    exact h.severity

/-- The telegram as the Python framer hands it out. -/
def toFrame : Lms200.Frame := ⟨t.address, t.payload, t.wire⟩

/-- Exactly the assigned severity codes decode, and only the last two are unhealthy. -/
theorem statusByte_decode (raw : UInt8) :
    (raw &&& 7 ≤ 4 → ∃ s, StatusByte.decode raw = .ok s) ∧
      ∀ s, StatusByte.decode raw = .ok s →
        raw &&& 7 ≤ 4 ∧ (¬ (s.severity = .error ∨ s.severity = .fatal) ↔ raw &&& 7 < 3) := by
  unfold StatusByte.decode Severity.ofCode
  generalize raw &&& 7 = code
  constructor
  · intro h
    have hcode : code = 0 ∨ code = 1 ∨ code = 2 ∨ code = 3 ∨ code = 4 := by
      rw [UInt8.le_iff_toNat_le] at h
      simp only [← UInt8.toNat_inj]
      have h4 : code.toNat ≤ 4 := h
      change code.toNat = 0 ∨ code.toNat = 1 ∨ code.toNat = 2 ∨ code.toNat = 3 ∨ code.toNat = 4
      omega
    rcases hcode with rfl | rfl | rfl | rfl | rfl <;> exact ⟨_, rfl⟩
  · intro s hs
    split_ifs at hs
    all_goals
      subst code
      cases hs
      dsimp only
      decide

/-- Python reads a telegram as a response exactly when the checks pass. -/
theorem response_toFrame {reply : Response} :
    response (toFrame t) 0 = .ok reply ↔ Responds t ∧ ∃ s,
      StatusByte.decode (t.payload.getLastD 0) = .ok s ∧
        reply = ⟨t.payload.headD 0, (t.payload.drop 1).dropLast, s, toFrame t⟩ := by
  have haddress : (toFrame t).address.toNat ∈ expectedAddresses 0 ↔
      t.address = 0x80 ∨ t.address = 0x81 := by
    simp [expectedAddresses, toFrame, ← UInt8.toNat_inj]
  unfold response
  constructor
  · intro h
    split at h
    · exact absurd h nofun
    · next hlisted =>
      split at h
      · exact absurd h nofun
      · next hresponse =>
        split at h
        · exact absurd h nofun
        · next s hs =>
          split at h
          · exact absurd h nofun
          · next haccepted =>
            exact ⟨{
              address := haddress.mp (not_not.mp hlisted)
              length := not_lt.mp (not_or.mp hresponse).1
              command := UInt8.not_lt.mp (not_or.mp hresponse).2
              severity := ((statusByte_decode _).2 s hs).1
              accepted := haccepted }, s, hs, (Except.ok.inj h).symm⟩
  · rintro ⟨h, s, hs, rfl⟩
    have hresponse : ¬ ((toFrame t).payload.length < 2 ∨ (toFrame t).command < 0x80) :=
      not_or.mpr ⟨not_lt.mpr h.length, UInt8.not_lt.mpr h.command⟩
    have hs' : StatusByte.decode ((toFrame t).payload.getLastD 0) = .ok s := hs
    rw [if_neg (not_not.mpr (haddress.mpr h.address)), if_neg hresponse, hs']
    exact if_neg h.accepted

/-- The word both sides read is the same. -/
theorem header_eq (h : 4 ≤ t.payload.length) :
    unpackWord (t.payload.drop 1).dropLast 0 = (word t.payload 1).toNat := by
  rw [word_toNat (by omega)]
  unfold unpackWord slice
  rw [List.drop_zero, List.dropLast_eq_take, List.take_take, List.length_drop, List.drop_take,
    show min (0 + 2) (t.payload.length - 1 - 1) = 1 + 2 - 1 by omega]

end Telegrams

/-- A unit is read from a header code in the same words. -/
theorem scanUnit_text {code : ℕ} {unit : DistanceUnit} :
    scanUnit code = .ok unit ↔ code ≤ 1 ∧ (if code = 1 then "mm" else "cm") = unitText unit := by
  match code with
  | 0 => cases unit <;> decide
  | 1 => cases unit <;> decide
  | code + 2 => exact iff_of_false nofun fun h => by omega

/-- The standard variants, as both sides list them. -/
theorem validate_geometry_of_geometry {angle resolution : ℕ} (h : geometry angle resolution = true) :
    validate_geometry angle resolution = .ok () ∧ resolution ≠ 0 ∧
      angle * 100 / resolution + 1 ≤ 401 := by
  simp only [geometry, Bool.or_eq_true, Bool.and_eq_true, beq_iff_eq] at h
  rcases h with ⟨rfl, (rfl | rfl) | rfl⟩ | ⟨rfl, rfl | rfl⟩ <;> decide

section Statuses

variable {t : Telegram} (offset : ℕ) {status : StatusInfo} {config : Configuration}
  {unit : DistanceUnit} {sequence : ℕ}

/-- The scan Python accepts passes the native checks, with the configured indices. -/
theorem scannable_of_accepted (hgeometry : geometry status.angle_deg status.resolution_hundredths = true)
    (hconfig : config.unit = .ok unit) (htext : unitText unit = status.unit) {scan : Scan}
    (h : acceptScan (toFrame t) status.angle_deg status.resolution_hundredths config sequence = .ok scan) :
    Scannable (ofTelegram t offset) status ∧
      (t.payload.length = 4 + 2 * ((word t.payload 1).toNat % 0x400) + 2 ↔ config.indices = true) ∧
      scan.count = (word t.payload 1).toNat % 0x400 ∧ unitText scan.unit = status.unit := by
  simp only [acceptScan, bind_eq_ok] at h
  obtain ⟨reply, hreply, decoded, hdecoded, _, hhealthy, hscan⟩ := h
  cases hscan
  obtain ⟨hresponds, s, hs, rfl⟩ := (response_toFrame t).mp hreply
  obtain ⟨read, hchecks, rfl⟩ := decode_scan_eq_ok.mp hdecoded
  have hread : read = unit := Except.ok.inj (hchecks.configured.symm.trans hconfig)
  subst hread
  have hdata : ((t.payload.drop 1).dropLast).length = t.payload.length - 2 := by
    rw [List.length_dropLast, List.length_drop]
    omega
  have hlength : 4 ≤ t.payload.length := by
    have h2 : 2 ≤ ((t.payload.drop 1).dropLast).length := hchecks.length
    omega
  have hword := header_eq t hlength
  have hsize := hchecks.size
  have hcount := hchecks.count
  have hunit := scanUnit_text.mp hchecks.scanned
  have hheader := hchecks.header
  dsimp only at hsize hcount hunit hheader
  rw [hword] at hsize hcount hunit hheader
  rw [hdata] at hsize
  have hbound := (validate_geometry_of_geometry hgeometry).2.2
  refine ⟨{
    response := (validate_response_ofTelegram t offset).mpr hresponds
    command := hchecks.command
    length := hlength
    unit := hunit.1
    configured := hunit.2.trans htext
    header := hheader
    bounds := by
      change (word t.payload 1).toNat % 0x400 ≤ 401
      omega
    count := hcount
    size := by
      change t.payload.length = _ ∨ t.payload.length = _
      change _ = 4 + 2 * ((word t.payload 1).toNat % 0x400) ∨
        _ = 4 + 2 * ((word t.payload 1).toNat % 0x400) + 2
      split at hsize <;> omega
    healthy := ?_ }, ?_, ?_, htext⟩
  · rw [status_ofTelegram t offset hresponds.length]
    refine ((statusByte_decode _).2 s hs).2.mp fun hunhealthy => ?_
    rw [require_healthy, if_pos hunhealthy] at hhealthy
    exact absurd hhealthy nofun
  · cases hindices : config.indices <;> rw [hindices] at hsize <;> simp at hsize ⊢ <;> omega
  · exact congrArg (· % 0x400) hword

/-- A scan which passes the native checks, with the configured indices, is accepted by Python. -/
theorem accepted_of_scannable (hgeometry : geometry status.angle_deg status.resolution_hundredths = true)
    (hmode : config.mode = 0 ∨ config.mode = 1 ∨ config.mode = 2) (hconfig : config.unit = .ok unit)
    (htext : unitText unit = status.unit) (h : Scannable (ofTelegram t offset) status)
    (hindices : t.payload.length = 4 + 2 * ((word t.payload 1).toNat % 0x400) + 2 ↔
      config.indices = true) :
    ∃ scan, acceptScan (toFrame t) status.angle_deg status.resolution_hundredths config sequence =
      .ok scan := by
  have hresponds := (validate_response_ofTelegram t offset).mp h.response
  obtain ⟨s, hs⟩ := (statusByte_decode (t.payload.getLastD 0)).1 hresponds.severity
  have hreply := (response_toFrame t).mpr ⟨hresponds, s, hs, rfl⟩
  have hlength : 4 ≤ t.payload.length := h.length
  have hword := header_eq t hlength
  have hdata : ((t.payload.drop 1).dropLast).length = t.payload.length - 2 := by
    rw [List.length_dropLast, List.length_drop]
    omega
  have hchecks : Lms200.Scannable ⟨t.payload.headD 0, (t.payload.drop 1).dropLast, s, toFrame t⟩
      status.angle_deg status.resolution_hundredths config unit := {
    geometry := (validate_geometry_of_geometry hgeometry).1
    command := h.command
    length := by
      dsimp only
      omega
    mode := hmode
    header := (congrArg (· &&& 0x3C00) hword).trans h.header
    scanned := scanUnit_text.mpr (hword ▸ ⟨h.unit, h.configured.trans htext.symm⟩)
    configured := hconfig
    count := (congrArg (· % 0x400) hword).trans h.count
    size := by
      have hsize : t.payload.length = 4 + 2 * ((word t.payload 1).toNat % 0x400) ∨
        t.payload.length = 4 + 2 * ((word t.payload 1).toNat % 0x400) + 2 := h.size
      dsimp only
      rw [hdata, hword]
      split <;> simp_all <;> omega }
  have hhealthy : ¬ (s.severity = .error ∨ s.severity = .fatal) := by
    refine ((statusByte_decode _).2 s hs).2.mpr ?_
    have hnative := h.healthy
    rwa [status_ofTelegram t offset hresponds.length] at hnative
  refine ⟨_, bind_eq_ok.mpr ⟨_, hreply, bind_eq_ok.mpr ⟨_, decode_scan_eq_ok.mpr ⟨unit, hchecks, rfl⟩,
    bind_eq_ok.mpr ⟨(), if_neg hhealthy, rfl⟩⟩⟩⟩

end Statuses

/-- Both decoders accept the same scans, and read the same count and unit from them. -/
theorem decode_scan_equivalent (t : Telegram) (offset : ℕ) (source : Frame) (status : StatusInfo)
    (config : Configuration) (unit : DistanceUnit) (sequence : ℕ)
    (hsupported : (decode_status source).supported = true)
    (hstatus : status = decode_status source ∨
      status = { decode_status source with angle_deg := 100, resolution_hundredths := 100 })
    (hmode : config.mode = 0 ∨ config.mode = 1 ∨ config.mode = 2) (hconfig : config.unit = .ok unit)
    (htext : unitText unit = status.unit) :
    let accepted :=
      acceptScan (toFrame t) status.angle_deg status.resolution_hundredths config sequence
    let info := decode_scan (ofTelegram t offset) (some status)
    status.resolution_hundredths ≠ 0 ∧
      ((∃ scan, accepted = .ok scan) ↔ info.valid = true ∧ info.has_indices = config.indices) ∧
      ∀ scan, accepted = .ok scan → scan.count = info.sample_count ∧ unitText scan.unit = info.unit := by
  intro accepted info
  have hverified : status.supported = true ∧
      geometry status.angle_deg status.resolution_hundredths = true := by
    rcases hstatus with rfl | rfl
    · exact ⟨hsupported, (decode_status_supported hsupported).2.2.2⟩
    · exact ⟨hsupported, rfl⟩
  obtain ⟨hstatus, hgeometry⟩ := hverified
  refine ⟨(validate_geometry_of_geometry hgeometry).2.1, ⟨?_, ?_⟩, ?_⟩
  · rintro ⟨scan, hscan⟩
    obtain ⟨hs, hindices, -, -⟩ := scannable_of_accepted offset hgeometry hconfig htext hscan
    have hfields := (decode_scan_fields hs hstatus).2.2.trans hindices
    exact ⟨(decode_scan_valid_iff hstatus).mpr hs, Bool.eq_iff_iff.mpr hfields⟩
  · rintro ⟨hvalid, hindices⟩
    have hs := (decode_scan_valid_iff hstatus).mp hvalid
    have hfields := (decode_scan_fields hs hstatus).2.2
    exact accepted_of_scannable offset hgeometry hmode hconfig htext hs
      (hfields.symm.trans (Bool.eq_iff_iff.mp hindices))
  · intro scan hscan
    obtain ⟨hs, -, hcount, hunit⟩ := scannable_of_accepted offset hgeometry hconfig htext hscan
    obtain ⟨hinfo, hinfounit, -⟩ := decode_scan_fields hs hstatus
    exact ⟨hcount.trans hinfo.symm, hunit.trans hinfounit.symm⟩

/-- A status telegram of a scanner which measures 100 degrees in steps of one degree. -/
def degreeStatus : Telegram where
  address := 0x81
  payload := 0xB1 :: List.replicate 7 0x58 ++ [0x25, 0] ++ List.replicate 91 0 ++ [100, 0, 100, 0] ++
    List.replicate 5 0 ++ [0x67, 0x80] ++ List.replicate 4 0 ++ [1] ++ List.replicate 30 0 ++ [0x10]
  legal := by decide +kernel

/-- A scan of that scanner, without indices. -/
def degreeScan : Telegram where
  address := 0x81
  payload := [0xB0, 0x65, 0x40] ++ List.replicate 202 0 ++ [0x10]
  legal := by decide +kernel

/-- A configuration in millimetres without indices. -/
def plainConfiguration : Configuration where
  raw := List.replicate 6 0 ++ [1] ++ List.replicate 25 0
  documented := by decide

theorem decode_scan_equivalent_degree :
    let status := decode_status (ofTelegram degreeStatus 0)
    (∃ scan, acceptScan (toFrame degreeScan) status.angle_deg status.resolution_hundredths
      plainConfiguration 1 = .ok scan) ∧
      status.resolution_hundredths ≠ 0 := by
  intro status
  have h := decode_scan_equivalent degreeScan 0 (ofTelegram degreeStatus 0) status plainConfiguration .mm 1
    (by decide +kernel) (Or.inl rfl) (by decide) (by decide) (by decide +kernel)
  exact ⟨h.2.1.mpr (by decide +kernel), h.1⟩

end Lms200.Native
