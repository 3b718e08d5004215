import Lms200.Simulator.State
import Lms200.Protocol.RoundTrip
import Mathlib.Tactic.IntervalCases

/-!
# What the simulated scanner replies

The client reads back from every reply what the scanner has put into it: the status block is decoded
to the settings of the scanner, and the confirmations pass the checks of the client.
-/

namespace Lms200

/-- A reply of the scanner, as the client reads it. -/
def replyOf (status : StatusByte) (result : Bytes) : Response :=
  { command := result.headD 0
    data := result.drop 1
    status
    frame := ⟨0x81, result ++ [status.raw], ((encode (result ++ [status.raw]) 0x81).toOption).getD []⟩ }

section

variable (status : StatusByte) (command : UInt8) (data : Bytes)

@[simp] theorem replyOf_command : (replyOf status (command :: data)).command = command := rfl

@[simp] theorem replyOf_data : (replyOf status (command :: data)).data = data := rfl

@[simp] theorem replyOf_status : (replyOf status (command :: data)).status = status := rfl

end

/-- The status byte of a scanner which reports neither an error nor a fatal condition. -/
structure Healthy (status : StatusByte) : Prop where
  decoded : StatusByte.decode status.raw = .ok status
  not_error : status.severity ≠ .error
  not_fatal : status.severity ≠ .fatal

/-- A status byte of severity 0 to 2 is healthy. -/
theorem Healthy.of_severity {raw : UInt8} (h : raw &&& 7 ≤ 2) : ∃ status, status.raw = raw ∧ Healthy status := by
  have hcode : raw &&& 7 = 0 ∨ raw &&& 7 = 1 ∨ raw &&& 7 = 2 := by
    have hle : (raw &&& 7).toNat ≤ 2 := h
    have hcases : (raw &&& 7).toNat = 0 ∨ (raw &&& 7).toNat = 1 ∨ (raw &&& 7).toNat = 2 := by omega
    rcases hcases with h0 | h1 | h2
    · exact .inl (UInt8.toNat_inj.mp h0)
    · exact .inr (.inl (UInt8.toNat_inj.mp h1))
    · exact .inr (.inr (UInt8.toNat_inj.mp h2))
  have hsome : ∃ severity, Severity.ofCode (raw &&& 7) = some severity ∧ severity ≠ .error ∧ severity ≠ .fatal := by
    rcases hcode with h0 | h1 | h2
    · exact ⟨.ok, by rw [h0]; rfl, by simp, by simp⟩
    · exact ⟨.info, by rw [h1]; rfl, by simp, by simp⟩
    · exact ⟨.warning, by rw [h2]; rfl, by simp, by simp⟩
  obtain ⟨severity, hseverity, herror, hfatal⟩ := hsome
  have hdecode : ∃ status, StatusByte.decode raw = .ok status ∧ status.raw = raw ∧ status.severity = severity := by
    unfold StatusByte.decode
    rw [hseverity]
    exact ⟨_, rfl, rfl, rfl⟩
  obtain ⟨status, hok, hraw, hsame⟩ := hdecode
  exact ⟨status, hraw, ⟨by rw [hraw]; exact hok, hsame ▸ herror, hsame ▸ hfatal⟩⟩

section Replies

variable {status : StatusByte} (h : Healthy status)
include h

theorem Healthy.require {result : Bytes} : require_healthy (replyOf status result) = .ok () :=
  if_neg fun hbad => hbad.elim h.not_error h.not_fatal

/-- A reply is accepted from the scanner under either address. -/
theorem Healthy.response_eq {command : UInt8} {data wire : Bytes}
    (hwire : encode (command :: data ++ [status.raw]) 0x81 = .ok wire) (hcommand : ¬ command < 0x80)
    (hknown : command ≠ 0x92) {address : ℕ} (haddress : address ≤ 1) :
    response ⟨0x81, command :: data ++ [status.raw], wire⟩ address = .ok (replyOf status (command :: data)) := by
  have hexpected : (0x81 : UInt8).toNat ∈ expectedAddresses address := by
    have hcases : address = 0 ∨ address = 1 := by omega
    rcases hcases with rfl | rfl
    · exact List.mem_cons_of_mem _ List.mem_cons_self
    · exact List.mem_cons_self
  have hshort : ¬ (command :: data ++ [status.raw]).length < 2 := by simp
  have hlast : (command :: data ++ [status.raw]).getLastD 0 = status.raw := by
    rw [List.getLastD_eq_getLast?, List.getLast?_concat]
    rfl
  have hdata : ((command :: data ++ [status.raw]).drop 1).dropLast = data := by simp
  have hframe : (⟨0x81, command :: data ++ [status.raw], wire⟩ : Frame).command = command := rfl
  unfold response
  rw [if_neg (not_not.mpr hexpected), if_neg (not_or.mpr ⟨hshort, hframe ▸ hcommand⟩)]
  simp only [hlast, h.decoded, hdata, hframe]
  rw [if_neg hknown, replyOf, hwire]
  rfl

end Replies

/-- A geometry fits its words, and its scans fit a telegram. -/
theorem geometry_lt {angle resolution : ℕ} (h : validate_geometry angle resolution = .ok ()) :
    angle < 2 ^ 16 ∧ resolution < 2 ^ 16 ∧ angle * 100 / resolution + 1 ≤ 401 := by
  unfold validate_geometry at h
  split at h
  · cases h
  · next hvalues =>
    obtain ⟨hangle, hresolution⟩ := not_or.mp hvalues
    split at h
    · cases h
    · next hfine =>
      rcases not_not.mp hangle with rfl | rfl <;> rcases not_not.mp hresolution with rfl | rfl | rfl
      all_goals simp at hfine ⊢

theorem Rate.statusCode_lt (rate : Rate) : rate.statusCode < 2 ^ 16 := by
  unfold Rate.statusCode
  split_ifs <;> omega

/-- The status word of a rate stands for it. -/
theorem Rate.statusCode_decoded (rate : Rate) : STATUS_BAUD_CODES rate.statusCode = some rate.baud := by
  obtain ⟨baud, hknown⟩ := rate
  unfold BAUD_CODES at hknown
  unfold Rate.statusCode
  dsimp only
  split_ifs at hknown with h1 h2 h3 h4
  · subst h1; rfl
  · subst h2; rfl
  · subst h3; rfl
  · subst h4; rfl
  · cases hknown

/-- The request for a rate changes the scanner to it. -/
theorem Rate.ofCode_eq (rate : Rate) : ∃ code, BAUD_CODES rate.baud = some code ∧ Rate.ofCode code = some rate ∧
    code ≠ 0x00 ∧ code ≠ 0x24 ∧ code ≠ 0x25 := by
  obtain ⟨baud, hknown⟩ := rate
  have hcopy := hknown
  unfold BAUD_CODES at hcopy
  split_ifs at hcopy with h1 h2 h3 h4
  · subst h1; exact ⟨0x42, rfl, rfl, by decide⟩
  · subst h2; exact ⟨0x41, rfl, rfl, by decide⟩
  · subst h3; exact ⟨0x40, rfl, rfl, by decide⟩
  · subst h4; exact ⟨0x48, rfl, rfl, by decide⟩
  · cases hcopy

@[simp] theorem length_overwrite (data bytes : Bytes) (position : ℕ) :
    (overwrite data position bytes).length = data.length := by
  simp [overwrite]

/-- Overwritten bytes are the new ones, all others stay. -/
@[simp] theorem getElem_overwrite (data bytes : Bytes) (position i : ℕ)
    (h : i < (overwrite data position bytes).length) (hdata : i < data.length) :
    (overwrite data position bytes)[i] =
      if position ≤ i ∧ i < position + bytes.length then bytes.getD (i - position) 0 else data[i] := by
  simp [overwrite]

/-- A word by its bytes. -/
theorem unpackWord_eq {data : Bytes} {position : ℕ} (h : position + 2 ≤ data.length) :
    unpackWord data position = fromBytesLittle [data.getD position 0, data.getD (position + 1) 0] := by
  have hslice : slice data position (position + 2) = [data.getD position 0, data.getD (position + 1) 0] := by
    apply List.ext_getElem?
    intro i
    simp only [slice, List.getElem?_drop, List.getD_eq_getElem?_getD]
    rcases i with _ | _ | i
    · rw [List.getElem?_take_of_lt (by omega)]
      simp [List.getElem?_eq_getElem (show position < data.length by omega)]
    · rw [List.getElem?_take_of_lt (by omega)]
      simp [List.getElem?_eq_getElem (show position + 1 < data.length by omega)]
    · rw [List.getElem?_eq_none (by rw [List.length_take]; omega)]
      rfl
  rw [unpackWord, hslice]

namespace Scanner

/-- The status which the client decodes. -/
def deviceStatus (s : Scanner) (unit : DistanceUnit) : DeviceStatus :=
  { firmware := [0x56, 0x30, 0x32, 0x2E, 0x31, 0x30]
    operating_mode := s.mode
    device_error := if 3 ≤ s.status &&& 7 then 1 else 0
    angle := s.angle
    resolution := s.resolution
    baud := s.device_baud.baud
    unit
    measuring_mode := s.config.mode
    permanent_baud := false
    address := 0
    raw := s.statusBlock unit }

theorem length_statusBlock (s : Scanner) (unit : DistanceUnit) : (s.statusBlock unit).length = 152 := by
  simp [-List.reduceReplicate, statusBlock]

/-- The words and bytes of the status block which the client looks at. -/
theorem statusBlock_words (s : Scanner) (unit : DistanceUnit) :
    unpackWord (s.statusBlock unit) 106 = s.angle ∧ unpackWord (s.statusBlock unit) 108 = s.resolution ∧
      unpackWord (s.statusBlock unit) 115 = s.device_baud.statusCode := by
  obtain ⟨hangle, hresolution, -⟩ := geometry_lt s.geometry
  have hword : ∀ position value, value < 2 ^ 16 → (s.statusBlock unit).getD position 0 = UInt8.ofNat value →
      (s.statusBlock unit).getD (position + 1) 0 = UInt8.ofNat (value / 256) → position + 2 ≤ 152 →
      unpackWord (s.statusBlock unit) position = value := by
    intro position value hvalue hlow hhigh hfits
    rw [unpackWord_eq (by rw [s.length_statusBlock]; exact hfits), hlow, hhigh]
    exact fromBytesLittle_toBytesLittle hvalue
  refine ⟨?_, ?_, ?_⟩
  · apply hword 106 s.angle hangle
    all_goals simp [-List.reduceReplicate, statusBlock, toBytesLittle, simulatorFirmware]
  · apply hword 108 s.resolution hresolution
    all_goals simp [-List.reduceReplicate, statusBlock, toBytesLittle, simulatorFirmware]
  · apply hword 115 _ s.device_baud.statusCode_lt
    all_goals simp [-List.reduceReplicate, statusBlock, toBytesLittle, simulatorFirmware]

theorem statusBlock_bytes (s : Scanner) (unit : DistanceUnit) :
    (s.statusBlock unit).getD 7 0 = s.mode ∧
      (s.statusBlock unit).getD 8 0 = (if 3 ≤ s.status &&& 7 then 1 else 0) ∧
      (s.statusBlock unit).getD 101 0 = s.config.mode ∧ (s.statusBlock unit).getD 118 0 = 0 ∧
      (s.statusBlock unit).getD 119 0 = 0 ∧ (s.statusBlock unit).getD 121 0 = unitByte unit := by
  simp [-List.reduceReplicate, statusBlock, toBytesLittle, simulatorFirmware]

theorem statusBlock_firmware (s : Scanner) (unit : DistanceUnit) :
    (s.statusBlock unit).take 7 = simulatorFirmware := by
  apply List.ext_getElem
  · rw [List.length_take, s.length_statusBlock]
    rfl
  · intro i htake hfirmware
    have hi : i < 7 := hfirmware
    interval_cases i
    all_goals simp [-List.reduceReplicate, statusBlock, toBytesLittle, simulatorFirmware]

/-- The client decodes the status block to the settings of the scanner. -/
theorem decode_status_block (s : Scanner) (unit : DistanceUnit) (status : StatusByte) :
    decode_status (replyOf status (0xB1 :: s.statusBlock unit)) = .ok (s.deviceStatus unit) := by
  obtain ⟨hangle, hresolution, hrate⟩ := s.statusBlock_words unit
  obtain ⟨hmode, herror, hmeasuring, hpermanent, haddress, hunit⟩ := s.statusBlock_bytes unit
  have hfirmware : asciiStrip ((s.statusBlock unit).take 7) = some [0x56, 0x30, 0x32, 0x2E, 0x31, 0x30] := by
    rw [s.statusBlock_firmware]
    rfl
  have hbits : ¬ (unitByte unit ≠ 0 ∧ unitByte unit ≠ 1) := by cases unit <;> decide
  have hread : (if unitByte unit = 1 then DistanceUnit.mm else .cm) = unit := by cases unit <;> rfl
  unfold decode_status
  rw [replyOf_command, replyOf_data, if_neg (not_not.mpr rfl)]
  dsimp only
  rw [s.length_statusBlock unit, if_neg (not_not.mpr (.inr rfl)), if_pos rfl]
  rw [hangle, hresolution, hrate, s.geometry, hfirmware, s.device_baud.statusCode_decoded]
  dsimp only
  rw [hunit, if_neg hbits, hmode, herror, hmeasuring, hpermanent, haddress, hread]
  rfl

/-- The scanner behind a request, once the reply is sent. -/
def Outcome.after (o : Outcome) : Scanner := { o.scanner with device_baud := o.new_baud.getD o.scanner.device_baud }

/-- The scanner has taken a request. -/
def noted (s : Scanner) (payload : Bytes) : Scanner := { s with commands := s.commands ++ [payload] }

/-- The scanner answers a command with data which the client accepts. -/
structure Answers (status : StatusByte) (s : Scanner) (cmd : Command) (o : Outcome) (data : Bytes) : Prop where
  performed : (s.noted cmd.payload).perform cmd.payload = .ok o
  result : o.result = cmd.response_id :: data
  size : data.length ≤ 200
  confirmed : confirm (replyOf status (cmd.response_id :: data)) cmd.payload = .ok ()
  known : cmd.response_id ∈ [0xB1, 0xBA, 0xF4, 0xA0, 0xBB, 0xF7]
  status_kept : o.scanner.status = s.status
  adapter_kept : o.scanner.baud = s.baud
  unit_kept : (∃ unit, s.config.unit = .ok unit) → ∃ unit, o.scanner.config.unit = .ok unit

section Commands

variable {status : StatusByte} (s : Scanner)

theorem answers_status {unit : DistanceUnit} (hunit : s.config.unit = .ok unit) :
    Answers status s status_request ⟨s.noted [0x31], 0xB1 :: s.statusBlock unit, none⟩ (s.statusBlock unit) where
  performed := by
    have hdata : (s.noted [0x31]).status_data = .ok (s.statusBlock unit) := by
      unfold status_data
      rw [show (s.noted [0x31]).config.unit = .ok unit from hunit]
      rfl
    change perform (s.noted [0x31]) [0x31] = _
    unfold perform
    rw [if_pos rfl, hdata]
    rfl
  result := rfl
  size := by rw [s.length_statusBlock]; omega
  confirmed := rfl
  known := by simp [status_request]
  status_kept := rfl
  adapter_kept := rfl
  unit_kept := id

theorem answers_type :
    Answers status s type_request ⟨s.noted [0x3A], 0xBA :: simulatorType, none⟩ simulatorType where
  performed := rfl
  result := rfl
  size := by decide
  confirmed := rfl
  known := by simp [type_request]
  status_kept := rfl
  adapter_kept := rfl
  unit_kept := id

theorem answers_configuration :
    Answers status s configuration_request ⟨s.noted [0x74], 0xF4 :: s.config.raw, none⟩ s.config.raw where
  performed := rfl
  result := rfl
  size := by
    have := s.config.documented
    omega
  confirmed := rfl
  known := by simp [configuration_request]
  status_kept := rfl
  adapter_kept := rfl
  unit_kept := id

end Commands

section Confirmed

variable {status : StatusByte} (h : Healthy status) (s : Scanner)
include h

/-- An accepted mode or rate is confirmed. -/
theorem confirm_mode (payload : Bytes) : confirm (replyOf status [0xA0, 0x00]) payload = .ok () := by
  unfold confirm
  rw [h.require]
  rfl

/-- The modes without a password. -/
theorem answers_mode {mode : Mode} (hmode : mode ≠ .INSTALLATION) :
    Answers status s (modeCommand mode [mode.byte])
      ⟨{ s.noted [0x20, mode.byte] with mode := mode.byte }, [0xA0, 0x00], none⟩ [0x00] where
  performed := by
    cases mode with
    | INSTALLATION => exact absurd rfl hmode
    | CONTINUOUS => rfl
    | ON_REQUEST => rfl
  result := rfl
  size := by decide
  confirmed := confirm_mode h _
  known := by simp [modeCommand]
  status_kept := rfl
  adapter_kept := rfl
  unit_kept := id

/-- Installation mode, with the password of the scanner. -/
theorem answers_installation :
    Answers status s (modeCommand .INSTALLATION (Mode.INSTALLATION.byte :: asciiBytes "SICK_LMS"))
      ⟨{ s.noted (0x20 :: 0x00 :: simulatorPassword) with mode := 0 }, [0xA0, 0x00], none⟩ [0x00] where
  performed := rfl
  result := rfl
  size := by decide
  confirmed := confirm_mode h _
  known := by simp [modeCommand]
  status_kept := rfl
  adapter_kept := rfl
  unit_kept := id

/-- The command for a rate. -/
def rateCommand (code : UInt8) : Command :=
  { name := "baud rate", payload := [0x20, code], response_id := 0xA0, attempts := 1, mutates := true }

/-- The scanner changes its rate behind the confirmation. -/
theorem answers_rate {rate : Rate} {code : UInt8} (hcode : Rate.ofCode code = some rate)
    (hother : code ≠ 0x00 ∧ code ≠ 0x24 ∧ code ≠ 0x25) :
    Answers status s (rateCommand code) ⟨s.noted [0x20, code], [0xA0, 0x00], some rate⟩ [0x00] where
  performed := by
    simp [perform, setMode, rateCommand, hcode, hother]
  result := rfl
  size := by decide
  confirmed := confirm_mode h _
  known := by simp [rateCommand]
  status_kept := rfl
  adapter_kept := rfl
  unit_kept := id

/-- The command for a variant. -/
def variantCommand (angle resolution : ℕ) : Command :=
  { name := "scan variant", payload := 0x3B :: (toBytesLittle angle ++ toBytesLittle resolution),
    response_id := 0xBB, attempts := 1, mutates := true }

/-- The scanner takes a standard variant in installation mode. -/
theorem answers_variant {angle resolution : ℕ} (hvalid : validate_geometry angle resolution = .ok ())
    (hmode : s.mode = 0) :
    Answers status s (variantCommand angle resolution)
      ⟨{ s.noted (variantCommand angle resolution).payload with angle, resolution, geometry := hvalid },
        0xBB :: 0x01 :: (toBytesLittle angle ++ toBytesLittle resolution), none⟩
      (0x01 :: (toBytesLittle angle ++ toBytesLittle resolution)) where
  performed := by
    obtain ⟨hangle, hresolution, -⟩ := geometry_lt hvalid
    have hfirst : fromBytesLittle (slice (variantCommand angle resolution).payload 1 3) = angle :=
      fromBytesLittle_toBytesLittle hangle
    have hsecond : fromBytesLittle (slice (variantCommand angle resolution).payload 3 5) = resolution :=
      fromBytesLittle_toBytesLittle hresolution
    have hset : (s.noted (variantCommand angle resolution).payload).setVariant (variantCommand angle resolution).payload =
        ⟨{ s.noted (variantCommand angle resolution).payload with angle, resolution, geometry := hvalid },
          0xBB :: 0x01 :: (toBytesLittle angle ++ toBytesLittle resolution), none⟩ := by
      unfold setVariant
      simp only [hfirst, hsecond, hvalid, dite_true]
      rfl
    unfold perform
    rw [if_neg (by simp [variantCommand]), if_neg (by simp [variantCommand]), if_neg (by simp [variantCommand]),
      if_neg (by simp [variantCommand]), if_pos ⟨rfl, rfl, .inl hmode⟩, hset]
  result := rfl
  size := by simp [toBytesLittle]
  confirmed := by
    unfold confirm
    rw [h.require]
    simp [variantCommand, toBytesLittle]
  known := by simp [variantCommand]
  status_kept := rfl
  adapter_kept := rfl
  unit_kept := id

/-- The command for a configuration. -/
def configurationCommand (config : Configuration) : Command :=
  { name := "write configuration", payload := 0x77 :: config.raw, response_id := 0xF7, timeout := 8,
    attempts := 1, mutates := true }

/-- The scanner takes a configuration in installation mode. -/
theorem answers_write_configuration {config : Configuration} (hunit : ∃ unit, config.unit = .ok unit)
    (hmode : s.mode = 0) :
    Answers status s (configurationCommand config)
      ⟨{ s.noted (0x77 :: config.raw) with config }, 0xF7 :: 0x01 :: config.raw, none⟩ (0x01 :: config.raw) where
  performed := by
    have hof : Configuration.ofRaw config.raw = .ok config := dif_pos config.documented
    have hset : (s.noted (0x77 :: config.raw)).setConfig (0x77 :: config.raw) =
        .ok ⟨{ s.noted (0x77 :: config.raw) with config }, 0xF7 :: 0x01 :: config.raw, none⟩ := by
      unfold setConfig
      rw [show (0x77 :: config.raw).drop 1 = config.raw from rfl, hof]
      rfl
    have hlength : (configurationCommand config).payload.length = 33 ∨ (configurationCommand config).payload.length = 35 := by
      have := config.documented
      simp only [configurationCommand, List.length_cons]
      omega
    unfold perform
    rw [if_neg (by simp [configurationCommand]), if_neg (by simp [configurationCommand]),
      if_neg (by simp [configurationCommand]), if_neg (by simp [configurationCommand]),
      if_neg (by simp [configurationCommand]), if_pos ⟨rfl, hlength, hmode⟩]
    exact hset
  result := rfl
  size := by
    have := config.documented
    simp only [List.length_cons]
    omega
  confirmed := by
    unfold confirm
    rw [h.require]
    simp [configurationCommand]
  known := by simp [configurationCommand]
  status_kept := rfl
  adapter_kept := rfl
  unit_kept := fun _ => hunit

end Confirmed

end Scanner

end Lms200
