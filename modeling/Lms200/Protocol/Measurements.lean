import Lms200.Protocol.Responses

/-!
# Measurement telegrams

`decode_scan` of `protocol/measurements.py`: the checks of a B0 telegram against the verified
status and configuration, and the raw values of its points.

Metres, coordinates and the time stamp are left out; resolutions and the start angle are whole
numbers of hundredths of a degree and of degrees.
-/

namespace Lms200

/-- The special values of thirteen distance bits. -/
def OVERFLOW (distance : ℕ) : Option String :=
  if distance = 0x1FFF then some "invalid_no_return"
  else if distance = 0x1FFE then some "dazzling"
  else if distance = 0x1FFD then some "operation_overflow"
  else if distance = 0x1FFB then some "low_signal"
  else if distance = 0x1FFA then some "channel_error"
  else if distance = 0x1FF7 then some "above_maximum"
  else none

/-- One measured value. -/
structure Point where
  raw : ℕ
  distance_raw : ℕ
  flags : List String
  deriving DecidableEq, Repr

/-- A decoded scan. -/
structure Scan where
  sequence : ℕ
  status : StatusByte
  field_of_view : ℕ
  resolution : ℕ
  count : ℕ
  starting_angle : ℕ
  unit : DistanceUnit
  measuring_mode : UInt8
  scan_index : Option UInt8
  telegram_index : Option UInt8
  points : List Point
  raw_telegram : Bytes
  deriving DecidableEq, Repr

/-- The flag bits of a word, by measuring mode. -/
def fieldFlags (mode : UInt8) (raw : ℕ) : List String :=
  if mode = 0 ∨ mode = 2 then
    (if raw.testBit 13 then ["field_a"] else []) ++ (if raw.testBit 14 then ["field_b"] else []) ++
      (if raw.testBit 15 then [if mode = 0 then "dazzling" else "field_c"] else [])
  else ["reflector_level_" ++ toString (raw / 0x2000)]

/-- One word of a scan. -/
def Point.ofRaw (mode : UInt8) (raw : ℕ) : Point :=
  let distance := raw % 0x2000
  let special := match OVERFLOW distance with
    | some label => [label]
    | none => if 0x1FF7 ≤ distance then ["reserved_special_value"] else []
  { raw, distance_raw := distance, flags := fieldFlags mode raw ++ special }

/-- The unit code of a scan header. -/
def scanUnit (code : ℕ) : Except Error DistanceUnit :=
  if code = 0 then .ok .cm
  else if code = 1 then .ok .mm
  else .error (.protocol "Reserved scan unit")

/-- Decode a scan against the verified geometry and configuration. -/
def decode_scan (reply : Response) (angle resolution : ℕ) (config : Configuration) (sequence : ℕ) :
    Except Error Scan := do
  validate_geometry angle resolution
  if reply.command ≠ 0xB0 ∨ reply.data.length < 2 then
    throw (.protocol "Expected B0 measurement telegram")
  if ¬ (config.mode = 0 ∨ config.mode = 1 ∨ config.mode = 2) then
    throw (.protocol "Only documented 13-bit distance modes 00/01/02 are supported")
  let header := unpackWord reply.data 0
  if header &&& 0x3C00 ≠ 0 then
    throw (.protocol "Partial/interlaced or reserved scan header is unsupported")
  let unit ← scanUnit (header / 0x4000)
  let configured ← config.unit
  if unit ≠ configured then
    throw (.protocol "Scan unit disagrees with verified configuration")
  let count := header % 0x400
  if count ≠ angle * 100 / resolution + 1 then
    throw (.protocol "Scan count disagrees with verified geometry")
  let size := 2 + count * 2
  if reply.data.length ≠ size + (if config.indices then 2 else 0) then
    throw (.protocol "Measurement length or real-time index layout disagrees with configuration")
  return {
    sequence, status := reply.status, field_of_view := angle, resolution, count,
    starting_angle := (180 - angle) / 2, unit, measuring_mode := config.mode,
    scan_index := if config.indices then some (reply.data.getD size 0) else none,
    telegram_index := if config.indices then some (reply.data.getD (size + 1) 0) else none,
    points := (List.range count).map fun i =>
      Point.ofRaw config.mode (unpackWord reply.data (2 + i * 2)),
    raw_telegram := reply.frame.raw }

section Checks

variable {ε α β : Type}

/-- A sequence of computations succeeds when each of them does. -/
theorem bind_eq_ok {x : Except ε α} {next : α → Except ε β} {b : β} :
    (x >>= next) = .ok b ↔ ∃ a, x = .ok a ∧ next a = .ok b := by
  cases x with
  | error e => exact iff_of_false nofun nofun
  | ok a => exact ⟨fun h => ⟨a, rfl, h⟩, fun ⟨_, ha, h⟩ => by cases ha; exact h⟩

/-- A check which raises is passed when its condition fails. -/
theorem check_eq_ok {c : Prop} [Decidable c] {e : ε} {next : β → Except ε α}
    {rest : Except ε α} {a : α} :
    (if c then throw e >>= next else rest) = .ok a ↔ ¬ c ∧ rest = .ok a := by
  split
  · next h => exact iff_of_false nofun fun hc => hc.1 h
  · next h => exact (and_iff_right h).symm

/-- What a property of errors needs of a sequence of computations. -/
theorem bind_error {P : ε → Prop} {x : Except ε α} {next : α → Except ε β}
    (hx : ∀ e, x = .error e → P e) (hnext : ∀ a e, next a = .error e → P e) (e : ε)
    (h : (x >>= next) = .error e) : P e := by
  cases x with
  | error e' => exact hx e (congrArg Except.error (Except.error.inj h))
  | ok a => exact hnext a e h

/-- What a property of errors needs of a check which raises. -/
theorem check_error {P : ε → Prop} {c : Prop} [Decidable c] {e' : ε} {next : β → Except ε α}
    {rest : Except ε α} (he : P e') (hrest : ∀ e, rest = .error e → P e) (e : ε)
    (h : (if c then throw e' >>= next else rest) = .error e) : P e := by
  split at h
  · exact Except.error.inj h ▸ he
  · exact hrest e h

end Checks

/-- The scan of a telegram which passes the checks. -/
def Scan.ofReply (reply : Response) (angle resolution : ℕ) (config : Configuration)
    (sequence : ℕ) (unit : DistanceUnit) : Scan :=
  let count := unpackWord reply.data 0 % 0x400
  let size := 2 + count * 2
  { sequence, status := reply.status, field_of_view := angle, resolution, count
    starting_angle := (180 - angle) / 2, unit, measuring_mode := config.mode
    scan_index := if config.indices then some (reply.data.getD size 0) else none
    telegram_index := if config.indices then some (reply.data.getD (size + 1) 0) else none
    points := (List.range count).map fun i =>
      Point.ofRaw config.mode (unpackWord reply.data (2 + i * 2))
    raw_telegram := reply.frame.raw }

/-- The checks on a measurement telegram. -/
structure Scannable (reply : Response) (angle resolution : ℕ) (config : Configuration)
    (unit : DistanceUnit) : Prop where
  geometry : validate_geometry angle resolution = .ok ()
  command : reply.command = 0xB0
  length : 2 ≤ reply.data.length
  mode : config.mode = 0 ∨ config.mode = 1 ∨ config.mode = 2
  header : unpackWord reply.data 0 &&& 0x3C00 = 0
  scanned : scanUnit (unpackWord reply.data 0 / 0x4000) = .ok unit
  configured : config.unit = .ok unit
  count : unpackWord reply.data 0 % 0x400 = angle * 100 / resolution + 1
  size : reply.data.length =
    2 + unpackWord reply.data 0 % 0x400 * 2 + if config.indices then 2 else 0

/-- Decoding succeeds exactly on telegrams which pass the checks. -/
theorem decode_scan_eq_ok {reply : Response} {angle resolution : ℕ} {config : Configuration}
    {sequence : ℕ} {scan : Scan} :
    decode_scan reply angle resolution config sequence = .ok scan ↔
      ∃ unit, Scannable reply angle resolution config unit ∧
        scan = Scan.ofReply reply angle resolution config sequence unit := by
  unfold decode_scan
  simp only [bind_eq_ok, check_eq_ok]
  constructor
  · rintro ⟨_, hgeometry, hcommand, hmode, hheader, unit, hunit, configured, hconfigured, hagree,
      hcount, hsize, hscan⟩
    push Not at hcommand hmode hheader hagree hcount hsize
    subst hagree
    exact ⟨unit, ⟨hgeometry, hcommand.1, hcommand.2, hmode, hheader, hunit, hconfigured, hcount, hsize⟩,
      (Except.ok.inj hscan).symm⟩
  · rintro ⟨unit, h, rfl⟩
    exact ⟨(), h.geometry, not_or.mpr ⟨not_not.mpr h.command, not_lt.mpr h.length⟩,
      not_not.mpr h.mode, not_not.mpr h.header, unit, h.scanned, unit, h.configured,
      not_not.mpr rfl, not_not.mpr h.count, not_not.mpr h.size, rfl⟩

/-- The errors a measurement telegram is rejected with. -/
def Error.rejects : Error → Bool
  | .protocol _ | .value _ => true
  | _ => false

theorem validate_geometry_rejects (angle resolution : ℕ) (e : Error)
    (h : validate_geometry angle resolution = .error e) : e.rejects = true := by
  unfold validate_geometry at h
  repeat' split at h
  all_goals first
    | exact Except.error.inj h ▸ rfl
    | cases h

theorem scanUnit_rejects (code : ℕ) (e : Error) (h : scanUnit code = .error e) : e.rejects = true := by
  unfold scanUnit at h
  repeat' split at h
  all_goals first
    | exact Except.error.inj h ▸ rfl
    | cases h

theorem Configuration.unit_rejects (config : Configuration) (e : Error) (h : config.unit = .error e) :
    e.rejects = true := by
  unfold Configuration.unit at h
  repeat' split at h
  all_goals first
    | exact Except.error.inj h ▸ rfl
    | cases h

/-- Every check of a measurement telegram rejects it with a protocol or a value error. -/
theorem decode_scan_rejects (reply : Response) (angle resolution : ℕ) (config : Configuration)
    (sequence : ℕ) (e : Error) (h : decode_scan reply angle resolution config sequence = .error e) :
    e.rejects = true := by
  revert e
  unfold decode_scan
  refine bind_error (validate_geometry_rejects angle resolution) fun _ => ?_
  refine check_error rfl (check_error rfl (check_error rfl ?_))
  refine bind_error (scanUnit_rejects _) fun unit => ?_
  refine bind_error config.unit_rejects fun configured => ?_
  exact check_error rfl (check_error rfl (check_error rfl fun _ => nofun))

end Lms200
