import Lms200.Native.DecoderEquivalence
import Lms200.Native.Responses
import Lms200.Protocol.Measurements
import Lms200.Protocol.RoundTrip

/-!
# The native scan decoder

`decode_scan` of `tools/lms200_native/protocol.cpp`, beside the Python one. Both look at the same
words of a telegram; the native checks come in another order, bound the count of samples, and
leave it to the caller to compare the indices with a configuration.
-/

namespace Lms200.Native

/-- What a measurement telegram says. -/
structure ScanInfo where
  valid : Bool := false
  reason : String := ""
  sample_count : ℕ := 0
  unit : String := ""
  status_byte : UInt8 := 0
  has_indices : Bool := false
  deriving DecidableEq, Repr

/-- The sample count which a status implies. -/
def StatusInfo.expected_count (status : StatusInfo) : ℕ :=
  status.angle_deg * 100 / status.resolution_hundredths + 1

/-- Decode a measurement telegram, against a supported status if there is one. -/
def decode_scan (frame : Frame) (expected : Option StatusInfo := none) : ScanInfo :=
  let result : ScanInfo := { status_byte := frame.status }
  let base := validate_response frame
  if base.ok = false then { result with reason := base.reason }
  else if frame.command ≠ 0xB0 ∨ frame.payload.length < 4 then
    { result with reason := "Expected B0 with sample-count word and status" }
  else
    let header := (word frame.payload 1).toNat
    let result := { result with sample_count := header % 0x400 }
    let unit := header / 0x4000
    if unit > 1 then { result with reason := "Reserved B0 measurement unit" }
    else
      let result := { result with unit := if unit = 1 then "mm" else "cm" }
      if header &&& 0x3C00 ≠ 0 then
        { result with reason := "Partial/interlaced or reserved B0 header unsupported" }
      else if result.sample_count = 0 ∨ result.sample_count > 401 then
        { result with reason := "B0 sample count outside LMS200 standard scan bounds" }
      else
        let without_indices := 4 + 2 * result.sample_count
        if frame.payload.length ≠ without_indices ∧ frame.payload.length ≠ without_indices + 2 then
          { result with
            reason := "B0 body size disagrees with sample count (optional two index bytes allowed)" }
        else
          let result := { result with has_indices := frame.payload.length = without_indices + 2 }
          let checked := expected.filter (·.supported)
          if checked.any (fun status => result.unit ≠ status.unit) then
            { result with reason := "B0 unit differs from B1 status" }
          else if checked.any (fun status => result.sample_count ≠ status.expected_count) then
            { result with reason := "B0 count differs from verified angle/resolution" }
          else if severity frame.status ≥ 3 then
            { result with reason := "B0 scanner status is " ++ status_text frame.status }
          else { result with
            valid := true
            reason := "Complete standard B0 scan; sample count and unit verified" }

/-- The checks on a measurement telegram, against a supported status. -/
structure Scannable (frame : Frame) (status : StatusInfo) : Prop where
  response : (validate_response frame).ok = true
  command : frame.command = 0xB0
  length : 4 ≤ frame.payload.length
  unit : (word frame.payload 1).toNat / 0x4000 ≤ 1
  configured : (if (word frame.payload 1).toNat / 0x4000 = 1 then "mm" else "cm") = status.unit
  header : (word frame.payload 1).toNat &&& 0x3C00 = 0
  bounds : (word frame.payload 1).toNat % 0x400 ≤ 401
  count : (word frame.payload 1).toNat % 0x400 = status.expected_count
  size : frame.payload.length = 4 + 2 * ((word frame.payload 1).toNat % 0x400) ∨
    frame.payload.length = 4 + 2 * ((word frame.payload 1).toNat % 0x400) + 2
  healthy : severity frame.status < 3

/-- A check whose failure leaves the result invalid. -/
theorem valid_check {c : Prop} [Decidable c] {failed rest : ScanInfo} (h : failed.valid = false) :
    (if c then failed else rest).valid = true ↔ ¬ c ∧ rest.valid = true := by
  split
  · next hc => exact iff_of_false (by rw [h]; exact Bool.false_ne_true) fun hn => hn.1 hc
  · next hc => exact (and_iff_right hc).symm

/-- Against a supported status a scan is valid exactly when it passes the checks. -/
theorem decode_scan_valid_iff {frame : Frame} {status : StatusInfo} (h : status.supported = true) :
    (decode_scan frame (some status)).valid = true ↔ Scannable frame status := by
  have hchecked : (some status).filter (·.supported) = some status := if_pos h
  unfold decode_scan
  rw [hchecked]
  dsimp only
  rw [valid_check rfl, valid_check rfl, valid_check rfl, valid_check rfl, valid_check rfl,
    valid_check rfl, valid_check rfl, valid_check rfl, valid_check rfl]
  simp only [Option.any_some, decide_eq_true_eq, not_not, ne_eq]
  constructor
  · rintro ⟨hresponse, hcommand, hunit, hheader, hbounds, hsize, hconfigured, hcount, hhealthy, -⟩
    exact {
      response := Bool.eq_true_of_not_eq_false hresponse
      command := not_not.mp (not_or.mp hcommand).1
      length := not_lt.mp (not_or.mp hcommand).2
      unit := not_lt.mp hunit
      configured := hconfigured
      header := hheader
      bounds := not_lt.mp (not_or.mp hbounds).2
      count := hcount
      size := or_iff_not_and_not.mpr hsize
      healthy := UInt8.not_le.mp hhealthy }
  · intro hs
    have hpos : (word frame.payload 1).toNat % 0x400 ≠ 0 := by
      rw [hs.count]
      exact Nat.succ_ne_zero _
    exact ⟨by rw [hs.response]; decide, not_or.mpr ⟨not_not.mpr hs.command, not_lt.mpr hs.length⟩,
      not_lt.mpr hs.unit, hs.header, not_or.mpr ⟨hpos, not_lt.mpr hs.bounds⟩,
      or_iff_not_and_not.mp hs.size, hs.configured, hs.count, UInt8.not_le.mpr hs.healthy, trivial⟩

/-- A valid result says what was read. -/
theorem decode_scan_fields {frame : Frame} {status : StatusInfo}
    (hs : Scannable frame status) (h : status.supported = true) :
    (decode_scan frame (some status)).sample_count = (word frame.payload 1).toNat % 0x400 ∧
      (decode_scan frame (some status)).unit = status.unit ∧
      ((decode_scan frame (some status)).has_indices = true ↔
        frame.payload.length = 4 + 2 * ((word frame.payload 1).toNat % 0x400) + 2) := by
  have hchecked : (some status).filter (·.supported) = some status := if_pos h
  have hpos : (word frame.payload 1).toNat % 0x400 ≠ 0 := by
    rw [hs.count]
    exact Nat.succ_ne_zero _
  unfold decode_scan
  rw [hchecked]
  dsimp only
  rw [if_neg (by rw [hs.response]; decide), if_neg (not_or.mpr ⟨not_not.mpr hs.command, not_lt.mpr hs.length⟩),
    if_neg (not_lt.mpr hs.unit), if_neg (not_not.mpr hs.header),
    if_neg (not_or.mpr ⟨hpos, not_lt.mpr hs.bounds⟩), if_neg (or_iff_not_and_not.mp hs.size),
    if_neg (by simp [hs.configured]), if_neg (by simp [hs.count]), if_neg (UInt8.not_le.mpr hs.healthy)]
  exact ⟨rfl, hs.configured, decide_eq_true_iff⟩

end Lms200.Native
