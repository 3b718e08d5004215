import Lms200.Native.ScanEquivalence

/-!
# Both decoders read the same status

A status response which Python decodes is one which the native decoder supports, with the same fields,
when the firmware is printable. The longer of the two layouts is the shorter one with six reserved
bytes, which neither decoder looks at.
-/

namespace Lms200.Native

/-- A status as both sides report it; the firmware is compared without the blanks around it. -/
structure SameStatus (status : DeviceStatus) (info : StatusInfo) : Prop where
  operating_mode : status.operating_mode = info.operating_mode
  device_error : status.device_error = info.device_error
  angle : status.angle = info.angle_deg
  resolution : status.resolution = info.resolution_hundredths
  baud : status.baud = info.baud
  unit : unitText status.unit = info.unit
  measuring_mode : status.measuring_mode = info.measuring_mode
  firmware : asciiStrip info.firmware = some status.firmware

/-- The data of a telegram. -/
def dataOf (t : Telegram) : Bytes := (t.payload.drop 1).dropLast

/-- A printable character. -/
def printable (c : UInt8) : Bool := 0x20 ≤ c && c ≤ 0x7E

/-- Where the layout of some data is shifted. -/
def shiftOf (data : Bytes) : ℕ := if data.length = 152 then 6 else 0

/-- The checks on status data which both sides make. -/
structure StatusData (data : Bytes) (baud : ℕ) : Prop where
  length : data.length = 146 ∨ data.length = 152
  geometry : validate_geometry (unpackWord data (100 + shiftOf data)) (unpackWord data (102 + shiftOf data)) = .ok ()
  baud : STATUS_BAUD_CODES (unpackWord data (109 + shiftOf data)) = some baud
  unit : data.getD (115 + shiftOf data) 0 = 0 ∨ data.getD (115 + shiftOf data) 0 = 1

/-- The status of data which passes the checks. -/
def statusOf (data : Bytes) (baud : ℕ) (firmware : Bytes) : DeviceStatus :=
  { firmware, operating_mode := data.getD 7 0, device_error := data.getD 8 0
    angle := unpackWord data (100 + shiftOf data), resolution := unpackWord data (102 + shiftOf data)
    baud, unit := if data.getD (115 + shiftOf data) 0 = 1 then .mm else .cm
    measuring_mode := data.getD (95 + shiftOf data) 0
    permanent_baud := data.getD (112 + shiftOf data) 0 ≠ 0
    address := data.getD (113 + shiftOf data) 0, raw := data }

/-- Python decodes exactly the data which pass the checks, of an ASCII firmware. -/
theorem decode_status_eq_ok {reply : Response} {status : DeviceStatus} :
    Lms200.decode_status reply = .ok status ↔ reply.command = 0xB1 ∧
      ∃ baud firmware, StatusData reply.data baud ∧ asciiStrip (reply.data.take 7) = some firmware ∧
        status = statusOf reply.data baud firmware := by
  unfold Lms200.decode_status
  constructor
  · intro h
    split at h
    · cases h
    next hcommand =>
    dsimp only at h
    split at h
    · cases h
    next hlength =>
    generalize hshift : (if reply.data.length = 152 then 6 else 0) = shift at h
    split at h
    · next firmware baud hgeometry hfirmware hbaud =>
      split at h
      · cases h
      · next hunit =>
        subst hshift
        have hcode := or_iff_not_and_not.mpr hunit
        exact ⟨not_not.mp hcommand, baud, firmware, ⟨not_not.mp hlength, hgeometry, hbaud, hcode⟩, hfirmware,
          (Except.ok.inj h).symm⟩
    · cases h
  · rintro ⟨hcommand, baud, firmware, hdata, hfirmware, rfl⟩
    have hgeometry := hdata.geometry
    have hbaud := hdata.baud
    have hunit := or_iff_not_and_not.mp hdata.unit
    unfold shiftOf at hgeometry hbaud hunit
    rw [if_neg (not_not.mpr hcommand)]
    dsimp only
    rw [if_neg (not_not.mpr hdata.length)]
    simp only [hgeometry, hfirmware, hbaud]
    exact if_neg hunit

/-- The standard variants, as both sides list them. -/
theorem geometry_iff {angle resolution : ℕ} :
    geometry angle resolution = true ↔ validate_geometry angle resolution = .ok () := by
  refine ⟨fun h => (validate_geometry_of_geometry h).1, fun h => ?_⟩
  unfold validate_geometry at h
  split at h
  · cases h
  next hvariant =>
  split at h
  · cases h
  next hquarter =>
  simp only [geometry, Bool.or_eq_true, Bool.and_eq_true, beq_iff_eq]
  omega

theorem baudOfCode_eq (code : UInt16) : baudOfCode code = STATUS_BAUD_CODES code.toNat := by
  unfold baudOfCode STATUS_BAUD_CODES
  simp only [← UInt16.toNat_inj]
  rfl

/-- A word of the data, as both sides read it. -/
theorem word_data {data : Bytes} {position : ℕ} (h : position + 2 ≤ data.length) :
    (word data position).toNat = unpackWord data position := word_toNat h

/-- Every field lies within the data. -/
theorem shiftOf_fits {data : Bytes} (h : data.length = 146 ∨ data.length = 152) :
    117 + shiftOf data ≤ data.length := by
  unfold shiftOf
  split <;> omega

/-- The native decoder on the data of a valid status response. -/
def infoOf (status : UInt8) (data : Bytes) : StatusInfo :=
  let result : StatusInfo := { status_byte := status, profile_data_length := data.length }
  if data.length ≠ 146 ∧ data.length ≠ 152 then
    { result with
      reason := "Unsupported B1 layout: expected 146 or 152 data bytes; preserve raw for review" }
  else
    let shift := shiftOf data
    let result := { result with
      operating_mode := data.getD 7 0
      device_error := data.getD 8 0
      angle_deg := (word data (100 + shift)).toNat
      resolution_hundredths := (word data (102 + shift)).toNat
      measuring_mode := data.getD (95 + shift) 0
      firmware := data.take 7 }
    if result.firmware.all printable = false then
      { result with reason := "B1 firmware field is not printable ASCII" }
    else if geometry result.angle_deg result.resolution_hundredths = false then
      { result with
        reason := "B1 angle/resolution outside documented LMS200 standard variants" }
    else if data.getD (115 + shift) 0 > 1 then
      { result with reason := "Reserved B1 measurement unit" }
    else
      let result := { result with unit := if data.getD (115 + shift) 0 = 1 then "mm" else "cm" }
      match baudOfCode (word data (109 + shift)) with
      | none => { result with reason := "Unknown B1 baud code" }
      | some baud => { result with
          baud, supported := true
          reason := "Known B1 layout; scanner status: " ++ status_text result.status_byte }

/-- The native decoder looks at the data of valid status responses only. -/
theorem decode_status_eq (frame : Frame) : decode_status frame =
    if (validate_response frame).ok = false then
      { status_byte := frame.status, reason := (validate_response frame).reason }
    else if frame.command ≠ 0xB1 then
      { status_byte := frame.status, reason := "Expected B1 status response" }
    else infoOf frame.status (frame.payload.drop 1).dropLast := rfl

/-- What the native decoder says about data which pass the checks. -/
structure Supported (data : Bytes) (baud : ℕ) (info : StatusInfo) : Prop where
  supported : info.supported = true
  firmware : info.firmware = data.take 7
  operating_mode : info.operating_mode = data.getD 7 0
  device_error : info.device_error = data.getD 8 0
  angle_deg : info.angle_deg = unpackWord data (100 + shiftOf data)
  resolution_hundredths : info.resolution_hundredths = unpackWord data (102 + shiftOf data)
  unit : info.unit = if data.getD (115 + shiftOf data) 0 = 1 then "mm" else "cm"
  measuring_mode : info.measuring_mode = data.getD (95 + shiftOf data) 0
  baud : info.baud = baud

/-- Data which pass the checks, of a printable firmware, are supported. -/
theorem infoOf_supported (status : UInt8) {data : Bytes} {baud : ℕ} (h : StatusData data baud)
    (hfirmware : (data.take 7).all printable = true) : Supported data baud (infoOf status data) := by
  have hfits := shiftOf_fits h.length
  have hunit : ¬ data.getD (115 + shiftOf data) 0 > 1 := by
    rcases h.unit with hcode | hcode <;> rw [hcode] <;> decide
  have hgeometry := geometry_iff.mpr h.geometry
  have hbaud := h.baud
  rw [← word_data (by omega), ← word_data (by omega)] at hgeometry
  rw [← word_data (by omega), ← baudOfCode_eq] at hbaud
  unfold infoOf
  dsimp only
  rw [if_neg (or_iff_not_and_not.mp h.length), if_neg (by simp [hfirmware]), if_neg (by simp [hgeometry]),
    if_neg hunit, hbaud]
  exact ⟨rfl, rfl, rfl, rfl, word_data (by omega), word_data (by omega), rfl, rfl, rfl⟩

/-- Data which are supported pass the checks, and their firmware is printable. -/
theorem statusData_of_supported {status : UInt8} {data : Bytes} (h : (infoOf status data).supported = true) :
    (data.take 7).all printable = true ∧ ∃ baud, StatusData data baud := by
  unfold infoOf at h
  dsimp only at h
  split at h
  · cases h
  next hlength =>
  have hlength := or_iff_not_and_not.mpr hlength
  have hfits := shiftOf_fits hlength
  split at h
  · cases h
  next hfirmware =>
  split at h
  · cases h
  next hgeometry =>
  split at h
  · cases h
  next hunit =>
  split at h
  · cases h
  next baud hbaud =>
  rw [Bool.not_eq_false, word_data (by omega), word_data (by omega), geometry_iff] at hgeometry
  rw [baudOfCode_eq, word_data (by omega)] at hbaud
  refine ⟨Bool.eq_true_of_not_eq_false hfirmware, baud, hlength, hgeometry, hbaud, ?_⟩
  have hcode : (data.getD (115 + shiftOf data) 0).toNat ≤ 1 := Nat.le_of_not_lt hunit
  simp only [← UInt8.toNat_inj]
  change _ = 0 ∨ _ = 1
  omega

/-- A printable firmware is ASCII. -/
theorem asciiStrip_of_printable {firmware : Bytes} (h : firmware.all printable = true) :
    ∃ stripped, asciiStrip firmware = some stripped := by
  have hascii : firmware.all (· < 0x80) = true := by
    rw [List.all_eq_true] at h ⊢
    intro c hc
    have hprintable := h c hc
    simp only [printable, Bool.and_eq_true, decide_eq_true_eq, UInt8.le_iff_toNat_le] at hprintable
    have hlast : c.toNat ≤ 126 := hprintable.2
    rw [decide_eq_true_eq, UInt8.lt_iff_toNat_lt]
    exact Nat.lt_of_le_of_lt hlast (by decide)
  exact ⟨_, if_pos hascii⟩

/-- What Python makes of a telegram. -/
def pythonStatus (t : Telegram) : Except Error DeviceStatus :=
  response (toFrame t) 0 >>= Lms200.decode_status

/-- Python decodes the status responses whose data pass the checks. -/
theorem pythonStatus_eq_ok {t : Telegram} {status : DeviceStatus} : pythonStatus t = .ok status ↔
    Responds t ∧ t.payload.headD 0 = 0xB1 ∧ ∃ baud firmware, StatusData (dataOf t) baud ∧
      asciiStrip ((dataOf t).take 7) = some firmware ∧ status = statusOf (dataOf t) baud firmware := by
  unfold pythonStatus
  rw [bind_eq_ok]
  constructor
  · rintro ⟨reply, hreply, hstatus⟩
    obtain ⟨hresponds, s, -, rfl⟩ := (response_toFrame t).mp hreply
    exact ⟨hresponds, decode_status_eq_ok.mp hstatus⟩
  · rintro ⟨hresponds, hstatus⟩
    obtain ⟨s, hs⟩ := (statusByte_decode (t.payload.getLastD 0)).1 hresponds.severity
    exact ⟨_, (response_toFrame t).mpr ⟨hresponds, s, hs, rfl⟩, decode_status_eq_ok.mpr hstatus⟩

/-- The native decoder supports the status responses whose data are supported. -/
theorem decode_status_supported_iff {t : Telegram} {offset : ℕ} :
    (decode_status (ofTelegram t offset)).supported = true ↔ Responds t ∧ t.payload.headD 0 = 0xB1 ∧
      (infoOf (ofTelegram t offset).status (dataOf t)).supported = true := by
  rw [decode_status_eq, ← validate_response_ofTelegram t offset]
  have hpayload : ((ofTelegram t offset).payload.drop 1).dropLast = dataOf t := rfl
  have hcommand : (ofTelegram t offset).command = t.payload.headD 0 := rfl
  rw [hpayload, hcommand]
  split
  · next hbase => simp [hbase]
  · next hbase =>
    have hbase := Bool.eq_true_of_not_eq_false hbase
    split
    · next hother => exact iff_of_false Bool.false_ne_true fun h => hother h.2.1
    · next hsame => exact ⟨fun h => ⟨hbase, not_not.mp hsame, h⟩, fun h => h.2.2⟩

/-- Both sides decode the same statuses, and read the same fields from them. -/
theorem decode_status_equivalent {t : Telegram} {offset : ℕ}
    (hfirmware : 7 ≤ (dataOf t).length → ((dataOf t).take 7).all printable = true) :
    ((∃ status, pythonStatus t = .ok status) ↔ (decode_status (ofTelegram t offset)).supported = true) ∧
      ∀ status, pythonStatus t = .ok status → SameStatus status (decode_status (ofTelegram t offset)) := by
  have hagree {status : DeviceStatus} (h : pythonStatus t = .ok status) :
      (decode_status (ofTelegram t offset)).supported = true ∧
        SameStatus status (decode_status (ofTelegram t offset)) := by
    obtain ⟨hresponds, hcommand, baud, firmware, hdata, hstripped, rfl⟩ := pythonStatus_eq_ok.mp h
    have hlength := hdata.length
    have hsupported := infoOf_supported (ofTelegram t offset).status hdata (hfirmware (by omega))
    have hinfo : decode_status (ofTelegram t offset) = infoOf (ofTelegram t offset).status (dataOf t) := by
      rw [decode_status_eq, if_neg (by simp [(validate_response_ofTelegram t offset).mpr hresponds])]
      exact if_neg (not_not.mpr hcommand)
    rw [hinfo]
    refine ⟨hsupported.supported, hsupported.operating_mode.symm, hsupported.device_error.symm,
      hsupported.angle_deg.symm, hsupported.resolution_hundredths.symm, hsupported.baud.symm, ?_,
      hsupported.measuring_mode.symm, hsupported.firmware ▸ hstripped⟩
    rw [hsupported.unit, statusOf]
    split <;> rfl
  refine ⟨⟨fun ⟨status, h⟩ => (hagree h).1, fun h => ?_⟩, fun status h => (hagree h).2⟩
  obtain ⟨hresponds, hcommand, hinfo⟩ := decode_status_supported_iff.mp h
  obtain ⟨hprintable, baud, hdata⟩ := statusData_of_supported hinfo
  obtain ⟨firmware, hstripped⟩ := asciiStrip_of_printable hprintable
  exact ⟨_, pythonStatus_eq_ok.mpr ⟨hresponds, hcommand, baud, firmware, hdata, hstripped, rfl⟩⟩

/-- The data without the six reserved bytes of the longer layout. -/
def withoutReserved (data : Bytes) : Bytes := data.take 11 ++ data.drop 17

section Layouts

variable {data : Bytes}

theorem length_withoutReserved (h : data.length = 152) : (withoutReserved data).length = 146 := by
  simp [withoutReserved, h]

theorem getD_withoutReserved_low {i : ℕ} (hi : i < 11) (h : data.length = 152) :
    (withoutReserved data).getD i 0 = data.getD i 0 := by
  have htake : i < (data.take 11).length := by
    rw [List.length_take]
    omega
  rw [withoutReserved, List.getD_append _ _ _ _ htake, List.getD_eq_getElem?_getD, List.getElem?_take_of_lt hi,
    List.getD_eq_getElem?_getD]

theorem getD_withoutReserved_high {i : ℕ} (hi : 11 ≤ i) (h : data.length = 152) :
    (withoutReserved data).getD i 0 = data.getD (i + 6) 0 := by
  have htake : (data.take 11).length = 11 := by
    rw [List.length_take]
    omega
  rw [withoutReserved, List.getD_append_right _ _ _ _ (by omega), htake, List.getD_eq_getElem?_getD,
    List.getElem?_drop, List.getD_eq_getElem?_getD]
  congr 2
  omega

theorem take_withoutReserved (h : data.length = 152) : (withoutReserved data).take 7 = data.take 7 := by
  have htake : 7 ≤ (data.take 11).length := by
    rw [List.length_take]
    omega
  rw [withoutReserved, List.take_append_of_le_length htake, List.take_take]
  rfl

theorem word_withoutReserved {i : ℕ} (hi : 11 ≤ i) (h : data.length = 152) :
    word (withoutReserved data) i = word data (i + 6) := by
  rw [word, word, getD_withoutReserved_high hi h, getD_withoutReserved_high (by omega) h, Nat.add_right_comm]

theorem unpackWord_withoutReserved {i : ℕ} (hi : 11 ≤ i) (hlast : i + 2 ≤ 146) (h : data.length = 152) :
    unpackWord (withoutReserved data) i = unpackWord data (i + 6) := by
  rw [← word_data (by rw [length_withoutReserved h]; exact hlast), ← word_data (by omega),
    word_withoutReserved hi h]

/-- The shift of the longer layout is the number of its reserved bytes. -/
theorem shiftOf_withoutReserved (h : data.length = 152) :
    shiftOf (withoutReserved data) = 0 ∧ shiftOf data = 6 := by
  rw [shiftOf, shiftOf, length_withoutReserved h, h]
  exact ⟨rfl, rfl⟩

/-- The native decoder does not look at the reserved bytes. -/
theorem infoOf_withoutReserved (status : UInt8) (h : data.length = 152) :
    infoOf status (withoutReserved data) = { infoOf status data with profile_data_length := 146 } := by
  obtain ⟨hshort, hlong⟩ := shiftOf_withoutReserved h
  have hlow (i : ℕ) (hi : i < 11) := getD_withoutReserved_low hi h
  have hhigh (i : ℕ) (hi : 11 ≤ i) : (withoutReserved data).getD (i + 0) 0 = data.getD (i + 6) 0 :=
    getD_withoutReserved_high hi h
  have hword (i : ℕ) (hi : 11 ≤ i) : word (withoutReserved data) (i + 0) = word data (i + 6) :=
    word_withoutReserved hi h
  have hshortest : ¬ (146 ≠ 146 ∧ 146 ≠ 152) := by decide
  have hlongest : ¬ (152 ≠ 146 ∧ 152 ≠ 152) := by decide
  unfold infoOf
  dsimp only
  rw [hshort, hlong, length_withoutReserved h, h, if_neg hshortest, if_neg hlongest,
    hlow 7 (by decide), hlow 8 (by decide), hword 100 (by decide), hword 102 (by decide),
    hword 109 (by decide), hhigh 95 (by decide), hhigh 115 (by decide), take_withoutReserved h]
  cases baudOfCode (word data (109 + 6)) <;> split_ifs <;> rfl

/-- Nor does Python. -/
theorem decode_status_withoutReserved (reply : Response) (h : reply.data.length = 152) :
    (Lms200.decode_status { reply with data := withoutReserved reply.data }).map
        (fun status => { status with raw := [] }) =
      (Lms200.decode_status reply).map fun status => { status with raw := [] } := by
  have hlow (i : ℕ) (hi : i < 11) := getD_withoutReserved_low hi h
  have hhigh (i : ℕ) (hi : 11 ≤ i) : (withoutReserved reply.data).getD (i + 0) 0 = reply.data.getD (i + 6) 0 :=
    getD_withoutReserved_high hi h
  have hword (i : ℕ) (hi : 11 ≤ i) (hlast : i + 2 ≤ 146) :
      unpackWord (withoutReserved reply.data) (i + 0) = unpackWord reply.data (i + 6) :=
    unpackWord_withoutReserved hi hlast h
  have hshortest : ¬ ¬ (146 = 146 ∨ 146 = 152) := by decide
  have hlongest : ¬ ¬ (152 = 146 ∨ 152 = 152) := by decide
  have hnone : (if 146 = 152 then 6 else 0) = 0 := rfl
  unfold Lms200.decode_status
  dsimp only
  split
  · rfl
  rw [length_withoutReserved h, h, if_neg hshortest, if_neg hlongest, hnone, hlow 7 (by decide),
    hlow 8 (by decide), hword 100 (by decide) (by decide), hword 102 (by decide) (by decide),
    hword 109 (by decide) (by decide), hhigh 95 (by decide), hhigh 115 (by decide), hhigh 112 (by decide),
    hhigh 113 (by decide), take_withoutReserved h]
  split
  · split <;> rfl
  · rfl

end Layouts

theorem carrying_legal (command status : UInt8) {data : Bytes} (h : data.length ≤ 806) :
    1 ≤ (command :: (data ++ [status])).length ∧ (command :: (data ++ [status])).length ≤ MAX_PAYLOAD := by
  simp only [List.length_cons, List.length_append, List.length_nil, MAX_PAYLOAD]
  omega

/-- The telegram which carries a command, data and a status byte. -/
def carrying (address command : UInt8) (data : Bytes) (status : UInt8) (h : data.length ≤ 806) : Telegram :=
  { address, payload := command :: (data ++ [status])
    legal := carrying_legal command status h }

section Carrying

variable (address command status : UInt8) {data data' : Bytes} (h : data.length ≤ 806)
  (h' : data'.length ≤ 806)

theorem dataOf_carrying : dataOf (carrying address command data status h) = data := by
  simp [dataOf, carrying]

theorem last_carrying : (carrying address command data status h).payload.getLastD 0 = status := by
  have hlast : (command :: (data ++ [status])).getLast? = some status := by
    rw [← List.cons_append, List.getLast?_concat]
  rw [List.getLastD_eq_getLast?]
  exact congrArg (·.getD 0) hlast

/-- Whether a telegram is a response does not depend on its data. -/
theorem responds_carrying : Responds (carrying address command data status h) →
    Responds (carrying address command data' status h') := fun hresponds =>
  { address := hresponds.address
    length := by simp [carrying]
    command := hresponds.command
    severity := by
      have hseverity := hresponds.severity
      rw [last_carrying] at hseverity ⊢
      exact hseverity
    accepted := hresponds.accepted }

/-- A telegram which carries other data is read as the same response of them. -/
theorem response_carrying : response (toFrame (carrying address command data' status h')) 0 =
    (response (toFrame (carrying address command data status h)) 0).map fun reply =>
      { reply with data := data', frame := toFrame (carrying address command data' status h') } := by
  have hshort (d : Bytes) (hd : d.length ≤ 806) :
      ¬ (toFrame (carrying address command d status hd)).payload.length < 2 := by simp [toFrame, carrying]
  have hlast (d : Bytes) (hd : d.length ≤ 806) :
      (toFrame (carrying address command d status hd)).payload.getLastD 0 = status := last_carrying address command status hd
  have hdata (d : Bytes) (hd : d.length ≤ 806) :
      ((toFrame (carrying address command d status hd)).payload.drop 1).dropLast = d :=
    dataOf_carrying address command status hd
  have hcommand (d : Bytes) (hd : d.length ≤ 806) :
      (toFrame (carrying address command d status hd)).command = command := rfl
  have haddress (d : Bytes) (hd : d.length ≤ 806) :
      (toFrame (carrying address command d status hd)).address = address := rfl
  unfold response
  simp only [hshort, hlast, hdata, hcommand, haddress, false_or]
  split
  · rfl
  split
  · rfl
  split
  · rfl
  split <;> rfl

end Carrying

/-- The two decoders of a status response agree, and both layouts are one format. -/
theorem decode_status_agree :
    (∀ (t : Telegram) (offset : ℕ),
      (7 ≤ (dataOf t).length → ((dataOf t).take 7).all printable = true) →
        ((∃ status, pythonStatus t = .ok status) ↔
          (decode_status (ofTelegram t offset)).supported = true) ∧
        ∀ status, pythonStatus t = .ok status → SameStatus status (decode_status (ofTelegram t offset))) ∧
    ∀ (address command status : UInt8) (data : Bytes) (_ : data.length = 152)
      (h : data.length ≤ 806) (h' : (withoutReserved data).length ≤ 806) (offset : ℕ),
      (pythonStatus (carrying address command (withoutReserved data) status h')).map
          (fun s => { s with raw := [] }) =
        (pythonStatus (carrying address command data status h)).map (fun s => { s with raw := [] }) ∧
      { decode_status (ofTelegram (carrying address command (withoutReserved data) status h') offset) with
          profile_data_length := 0, reason := "" } =
        { decode_status (ofTelegram (carrying address command data status h) offset) with
          profile_data_length := 0, reason := "" } := by
  refine ⟨fun t offset hfirmware => decode_status_equivalent hfirmware, ?_⟩
  intro address command status data hlong h h' offset
  constructor
  · unfold pythonStatus
    rw [response_carrying address command status h h']
    cases hreply : response (toFrame (carrying address command data status h)) 0 with
    | error e => rfl
    | ok reply =>
      obtain ⟨-, s, -, rfl⟩ := (response_toFrame _).mp hreply
      have hdata : ((carrying address command data status h).payload.drop 1).dropLast = data :=
        dataOf_carrying address command status h
      rw [hdata]
      exact decode_status_withoutReserved ⟨command, data, s, _⟩ hlong
  · by_cases hresponds : Responds (carrying address command data status h)
    · have hbase (d : Bytes) (hd : d.length ≤ 806) :
          (validate_response (ofTelegram (carrying address command d status hd) offset)).ok = true :=
        (validate_response_ofTelegram _ offset).mpr (responds_carrying _ _ _ h hd hresponds)
      have hstatus (d : Bytes) (hd : d.length ≤ 806) :
          (ofTelegram (carrying address command d status hd) offset).status = status :=
        (status_ofTelegram _ offset (responds_carrying _ _ _ h hd hresponds).length).trans (last_carrying _ _ _ hd)
      have hdata (d : Bytes) (hd : d.length ≤ 806) :
          ((ofTelegram (carrying address command d status hd) offset).payload.drop 1).dropLast = d :=
        dataOf_carrying address command status hd
      have hcommand (d : Bytes) (hd : d.length ≤ 806) :
          (ofTelegram (carrying address command d status hd) offset).command = command := rfl
      simp only [decode_status_eq, hbase, hstatus, hdata, hcommand, Bool.true_eq_false, if_false]
      split
      · rfl
      · rw [infoOf_withoutReserved status hlong]
    · have hinvalid (d : Bytes) (hd : d.length ≤ 806) :
          (validate_response (ofTelegram (carrying address command d status hd) offset)).ok = false := by
        refine Bool.eq_false_iff.mpr fun hok => hresponds ?_
        exact responds_carrying _ _ _ hd h ((validate_response_ofTelegram _ offset).mp hok)
      have hlength (d : Bytes) (hd : d.length ≤ 806) :
          2 ≤ (carrying address command d status hd).payload.length := by simp [carrying]
      have hstatus (d : Bytes) (hd : d.length ≤ 806) :
          (ofTelegram (carrying address command d status hd) offset).status = status :=
        (status_ofTelegram _ offset (hlength d hd)).trans (last_carrying _ _ _ hd)
      simp only [decode_status_eq, hinvalid, hstatus, if_true]

end Lms200.Native
