import Lms200.Native.Decoder

/-!
# Checks on native responses

`tools/lms200_native/protocol.cpp`: what makes a decoded telegram an acceptable response, and
the status layout. Every check names the first condition which fails, in the source's words.

A `StatusInfo` is filled field by field and returned at the first failing check, so a
rejected status still carries what was read before.
-/

namespace Lms200.Native

/-- The angle and resolution pairs of the standard LMS200 variants. -/
def geometry (angle resolution : ℕ) : Bool :=
  (angle == 100 && (resolution == 25 || resolution == 50 || resolution == 100)) ||
    (angle == 180 && (resolution == 50 || resolution == 100))

/-- The outcome of a check. -/
structure Validation where
  ok : Bool := false
  reason : String := ""
  deriving DecidableEq, Repr

/-- The severity bits of a status byte. -/
def severity (status : UInt8) : UInt8 := status &&& 7

/-- The wire bytes, address, payload and checksum agree, and the payload is a response. -/
def validate_response (frame : Frame) : Validation :=
  if frame.raw.length < 7 ∨ frame.raw.getD 0 0 ≠ 0x02 then
    ⟨false, "Missing complete wire frame"⟩
  else if frame.address ≠ 0x80 ∧ frame.address ≠ 0x81 then
    ⟨false, "Unexpected address for broadcast request; expected 80 or 81"⟩
  else if frame.raw.getD 1 0 ≠ frame.address ∨ (word frame.raw 2).toNat ≠ frame.payload.length ∨
      frame.raw.length ≠ frame.payload.length + 6 ∨ frame.payload.length > 808 then
    ⟨false, "Frame metadata/length mismatch"⟩
  else if (frame.raw.drop 4).take frame.payload.length ≠ frame.payload then
    ⟨false, "Payload differs from preserved wire bytes"⟩
  else if crc16 (frame.raw.take (frame.raw.length - 2)) ≠
      word frame.raw (frame.raw.length - 2) then
    ⟨false, "Invalid wire CRC"⟩
  else if frame.payload.length < 2 ∨ frame.command < 0x80 then
    ⟨false, "Response must contain a response command and status byte"⟩
  else if severity frame.status > 4 then ⟨false, "Reserved scanner status severity"⟩
  else if frame.command = 0x92 then ⟨false, "Scanner sent framed rejection 92"⟩
  else ⟨true, ""⟩

/-- The severity, the source and the flags of a status byte, in words. -/
def status_text (status : UInt8) : String :=
  let severities := ["ok", "info", "warning", "error", "fatal", "reserved", "reserved", "reserved"]
  let source := (status >>> 3) &&& 3
  severities.getD (severity status).toNat "" ++ ", source=" ++
    (if source = 2 then "LMS type 6" else if source = 3 then "special device" else "reserved") ++
    (if status &&& 0x20 ≠ 0 then ", restart input high" else "") ++
    (if status &&& 0x40 ≠ 0 then ", implausible measured value" else "") ++
    (if status &&& 0x80 ≠ 0 then ", pollution" else "")

/-- A valid response whose severity is below error. -/
def healthy (frame : Frame) : Validation :=
  let base := validate_response frame
  if base.ok = false then base
  else if severity frame.status ≥ 3 then
    ⟨false, "Scanner status is " ++ status_text frame.status⟩
  else ⟨true, ""⟩

/-- The reply to an operating mode change. -/
def validate_a0 (frame : Frame) : Validation :=
  let base := healthy frame
  if base.ok = false then base
  else if frame.command ≠ 0xA0 then ⟨false, "Expected A0 operating-mode reply"⟩
  else if frame.payload.length ≠ 3 then ⟨false, "A0 must contain one result byte and status"⟩
  else if frame.payload.getD 1 0 ≠ 0x00 then ⟨false, "A0 reports rejected mode change"⟩
  else ⟨true, "A0 result 00 and acceptable scanner status"⟩

/-- The reply to the one requested variant, 100 degrees at 1 degree. -/
def validate_bb (frame : Frame) : Validation :=
  let base := healthy frame
  if base.ok = false then base
  else if frame.command ≠ 0xBB then ⟨false, "Expected BB variant reply"⟩
  else if frame.payload.length ≠ 7 then
    ⟨false, "BB must contain result, angle, resolution, status"⟩
  else if frame.payload.getD 1 0 ≠ 0x01 then ⟨false, "BB reports variant change aborted"⟩
  else if word frame.payload 2 ≠ 100 ∨ word frame.payload 4 ≠ 100 then
    ⟨false, "BB echo differs from requested 100 degrees / 1 degree"⟩
  else ⟨true, "BB result 01 and exact 100 degree / 1 degree echo"⟩

/-- What a status response says. -/
structure StatusInfo where
  supported : Bool := false
  reason : String := ""
  firmware : Bytes := []
  operating_mode : UInt8 := 0
  device_error : UInt8 := 0
  angle_deg : ℕ := 0
  resolution_hundredths : ℕ := 0
  unit : String := ""
  measuring_mode : UInt8 := 0
  status_byte : UInt8 := 0
  baud : ℕ := 0
  profile_data_length : ℕ := 0
  deriving DecidableEq, Repr

/-- The rate a status response's baud code stands for. -/
def baudOfCode (code : UInt16) : Option ℕ :=
  if code = 0x8067 then some 9600
  else if code = 0x8033 then some 19200
  else if code = 0x8019 then some 38400
  else if code = 0x8001 then some 500000
  else none

/-- The data of the longer layout is shifted by six reserved bytes before block E. -/
def decode_status (frame : Frame) : StatusInfo :=
  let result : StatusInfo := { status_byte := frame.status }
  let base := validate_response frame
  if base.ok = false then { result with reason := base.reason }
  else if frame.command ≠ 0xB1 then { result with reason := "Expected B1 status response" }
  else
    let data := (frame.payload.drop 1).dropLast
    let result := { result with profile_data_length := data.length }
    if data.length ≠ 146 ∧ data.length ≠ 152 then
      { result with
        reason := "Unsupported B1 layout: expected 146 or 152 data bytes; preserve raw for review" }
    else
      let shift := if data.length = 152 then 6 else 0
      let result := { result with
        operating_mode := data.getD 7 0
        device_error := data.getD 8 0
        angle_deg := (word data (100 + shift)).toNat
        resolution_hundredths := (word data (102 + shift)).toNat
        measuring_mode := data.getD (95 + shift) 0
        firmware := data.take 7 }
      if result.firmware.all (fun c => 0x20 ≤ c && c ≤ 0x7E) = false then
        { result with reason := "B1 firmware field is not printable ASCII" }
      else if geometry result.angle_deg result.resolution_hundredths = false then
        { result with
          reason := "B1 angle/resolution outside documented LMS200 standard variants" }
      else if data.getD (115 + shift) 0 > 1 then
        { result with reason := "Reserved B1 measurement unit" }
      else
        let result := { result with unit := if data.getD (115 + shift) 0 = 1 then "mm" else "cm" }
        match baudOfCode (word data (109 + shift)) with
        | none => { result with reason := "Unknown B1 baud code" }
        | some baud => { result with
            baud, supported := true
            reason := "Known B1 layout; scanner status: " ++ status_text result.status_byte }

/-- However far decoding gets, the status byte is the frame's. -/
theorem decode_status_status_byte (frame : Frame) :
    (decode_status frame).status_byte = frame.status := by
  unfold decode_status
  dsimp only
  generalize (frame.payload.drop 1).dropLast = data
  generalize (if data.length = 152 then 6 else 0) = shift
  repeat' split
  all_goals rfl

/-- A check which builds on `validate_response` accepts only valid responses. -/
theorem validate_response_of_healthy {frame : Frame} (h : (healthy frame).ok = true) :
    (validate_response frame).ok = true ∧ severity frame.status < 3 := by
  unfold healthy at h
  dsimp only at h
  split at h
  · next hbase => exact absurd h (by rw [hbase]; exact Bool.false_ne_true)
  · next hbase =>
    split at h
    · exact absurd h Bool.false_ne_true
    · next hseverity => exact ⟨Bool.eq_true_of_not_eq_false hbase, UInt8.not_le.mp hseverity⟩

/-- An accepted mode reply is a healthy three-byte A0 whose result byte is zero. -/
theorem validate_a0_ok_iff (frame : Frame) :
    (validate_a0 frame).ok = true ↔ (healthy frame).ok = true ∧ frame.command = 0xA0 ∧
      frame.payload.length = 3 ∧ frame.payload.getD 1 0 = 0 := by
  unfold validate_a0
  cases hbase : (healthy frame).ok <;> simp only [hbase, if_true, Bool.true_eq_false, if_false]
  · simp
  · split_ifs <;> simp_all

/-- An accepted variant reply is a healthy seven-byte BB which echoes the request. -/
theorem validate_bb_ok_iff (frame : Frame) :
    (validate_bb frame).ok = true ↔ (healthy frame).ok = true ∧ frame.command = 0xBB ∧
      frame.payload.length = 7 ∧ frame.payload.getD 1 0 = 1 ∧
      word frame.payload 2 = 100 ∧ word frame.payload 4 = 100 := by
  unfold validate_bb
  cases hbase : (healthy frame).ok <;> simp only [hbase, if_true, Bool.true_eq_false, if_false]
  · simp
  · split_ifs
    all_goals simp_all
    tauto

/-- A supported status is a valid B1 response of a standard variant in one of the two layouts. -/
theorem decode_status_supported {frame : Frame} (h : (decode_status frame).supported = true) :
    (validate_response frame).ok = true ∧ frame.command = 0xB1 ∧
      ((decode_status frame).profile_data_length = 146 ∨
        (decode_status frame).profile_data_length = 152) ∧
      geometry (decode_status frame).angle_deg (decode_status frame).resolution_hundredths = true := by
  unfold decode_status at h ⊢
  dsimp only at h ⊢
  by_cases hbase : (validate_response frame).ok = false
  · rw [if_pos hbase] at h
    exact absurd h Bool.false_ne_true
  rw [if_neg hbase] at h ⊢
  by_cases hcommand : frame.command ≠ 0xB1
  · rw [if_pos hcommand] at h
    exact absurd h Bool.false_ne_true
  rw [if_neg hcommand] at h ⊢
  generalize (frame.payload.drop 1).dropLast = data at h ⊢
  by_cases hlayout : data.length ≠ 146 ∧ data.length ≠ 152
  · rw [if_pos hlayout] at h
    exact absurd h Bool.false_ne_true
  rw [if_neg hlayout] at h ⊢
  have hlength : data.length = 146 ∨ data.length = 152 := by omega
  refine ⟨Bool.eq_true_of_not_eq_false hbase, not_not.mp hcommand, ?_⟩
  -- The remaining checks keep the length and, once passed, the geometry.
  generalize (if data.length = 152 then 6 else 0) = shift at h ⊢
  split at h
  · exact absurd h Bool.false_ne_true
  · next hfirmware =>
    rw [if_neg hfirmware]
    split at h
    · exact absurd h Bool.false_ne_true
    · next hgeometry =>
      rw [if_neg hgeometry]
      split at h
      · exact absurd h Bool.false_ne_true
      · next hunit =>
        rw [if_neg hunit]
        split at h
        · exact absurd h Bool.false_ne_true
        · exact ⟨hlength, Bool.eq_true_of_not_eq_false hgeometry⟩

end Lms200.Native
