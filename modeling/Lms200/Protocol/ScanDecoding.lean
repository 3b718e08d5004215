import Lms200.Protocol.Measurements
import Lms200.Protocol.Telegram
import Mathlib.Data.Rat.Floor

/-!
# Scan decoding, byte by byte

`decode_scan` with everything it may raise: unpacking a word which is not there, reading past the end
of the data and dividing by zero raise what the interpreter raises. A field of view is any integer and
a resolution any rational number, and the points carry their metres and coordinates.

What it accepts are the serialised scans of the verified geometry and configuration, and such a scan
is serialised back to the data it was decoded from.
-/

namespace Lms200

/-- What a function of the package may raise: a documented exception, or one of the interpreter. -/
inductive Raised where
  | error (e : Error)
  | index_error
  | struct_error
  | zero_division_error
  | queue_empty
  | queue_full
  deriving DecidableEq, Repr

/-- `float(value)` -/
def toFloat (value : ℚ) : Float := Float.ofInt value.num / Float.ofNat value.den

/-- `math.radians` -/
def radians (degrees : ℚ) : Float := toFloat degrees * (3.141592653589793 / 180)

/-- `round(value)`: halves go to the even neighbour. -/
def roundEven (value : ℚ) : ℤ :=
  if value - ⌊value⌋ < 1 / 2 then ⌊value⌋
  else if 1 / 2 < value - ⌊value⌋ then ⌊value⌋ + 1
  else if ⌊value⌋ % 2 = 0 then ⌊value⌋ else ⌊value⌋ + 1

/-- A measured value with its place. -/
structure Placed extends Point where
  angle_deg : ℚ
  distance_m : Option Float
  x : Option Float
  y : Option Float

/-- A decoded scan with the places of its points. -/
structure PlacedScan where
  sequence : ℕ
  status : StatusByte
  field_of_view : ℤ
  resolution : ℚ
  count : ℕ
  starting_angle : ℚ
  angle_increment : ℚ
  unit : DistanceUnit
  measuring_mode : UInt8
  scan_index : Option UInt8
  telegram_index : Option UInt8
  points : List Placed
  raw_telegram : Bytes

/-- Place a measured value. -/
def Placed.ofPoint (start resolution : ℚ) (scale : Float) (index : ℕ) (point : Point) : Placed :=
  let valid := point.distance_raw < 0x1FF7 ∧ "dazzling" ∉ point.flags
  let meters := if valid then some (Float.ofNat point.distance_raw * scale) else none
  let theta := start + index * resolution
  { point with
    angle_deg := theta
    distance_m := meters
    x := meters.map fun meters => meters * Float.cos (radians theta)
    y := meters.map fun meters => meters * Float.sin (radians theta) }

namespace Raising

/-- `data[position]` -/
def byteAt (data : Bytes) (position : ℕ) : Except Raised UInt8 :=
  match data[position]? with
  | some b => .ok b
  | none => .error .index_error

/-- `unpack_from("<H", data, position)[0]` -/
def unpack_from (data : Bytes) (position : ℕ) : Except Raised ℕ :=
  if position + 2 ≤ data.length then .ok (unpackWord data position) else .error .struct_error

/-- `angle / resolution` -/
def divide (angle : ℤ) (resolution : ℚ) : Except Raised ℚ :=
  if resolution = 0 then .error .zero_division_error else .ok (angle / resolution)

/-- The standard variants: 180 degrees has no quarter degree scan. -/
def validate_geometry (angle : ℤ) (resolution : ℚ) : Except Raised Unit :=
  if ¬ (angle = 100 ∨ angle = 180) ∨ ¬ (resolution = 1 / 4 ∨ resolution = 1 / 2 ∨ resolution = 1) then
    .error (.error (.value "Expected 100/180 degrees and 0.25/0.5/1 degree resolution"))
  else if resolution = 1 / 4 ∧ angle ≠ 100 then
    .error (.error (.value "Standard 0.25 degree scans require a 100 degree field of view"))
  else .ok ()

/-- A function of the package which raises nothing but documented exceptions. -/
def documented {α : Type} (x : Except Error α) : Except Raised α := x.mapError .error

/-- Decode a scan against the verified geometry and configuration. -/
def decode_scan (reply : Response) (angle : ℤ) (resolution : ℚ) (config : Configuration)
    (sequence : ℕ) : Except Raised PlacedScan := do
  validate_geometry angle resolution
  if reply.command ≠ 0xB0 ∨ reply.data.length < 2 then
    throw (.error (.protocol "Expected B0 measurement telegram"))
  if ¬ (config.mode = 0 ∨ config.mode = 1 ∨ config.mode = 2) then
    throw (.error (.protocol "Only documented 13-bit distance modes 00/01/02 are supported"))
  let header ← unpack_from reply.data 0
  if header &&& 0x3C00 ≠ 0 then
    throw (.error (.protocol "Partial/interlaced or reserved scan header is unsupported"))
  let unit ← documented (scanUnit (header / 0x4000))
  let configured ← documented config.unit
  if unit ≠ configured then
    throw (.error (.protocol "Scan unit disagrees with verified configuration"))
  let count := header % 0x400
  let steps ← divide angle resolution
  if (count : ℤ) ≠ roundEven steps + 1 then
    throw (.error (.protocol "Scan count disagrees with verified geometry"))
  let size := 2 + count * 2
  if reply.data.length ≠ size + (if config.indices then 2 else 0) then
    throw (.error (.protocol "Measurement length or real-time index layout disagrees with configuration"))
  let start : ℚ := (180 - angle) / 2
  let scale : Float := if unit = .mm then 0.001 else 0.01
  let points ← (List.range count).mapM fun index => do
    let raw ← unpack_from reply.data (2 + index * 2)
    return Placed.ofPoint start resolution scale index (Point.ofRaw config.mode raw)
  let scan_index ← if config.indices then some <$> byteAt reply.data size else pure none
  let telegram_index ← if config.indices then some <$> byteAt reply.data (size + 1) else pure none
  return {
    sequence, status := reply.status, field_of_view := angle, resolution, count,
    starting_angle := start, angle_increment := resolution, unit, measuring_mode := config.mode,
    scan_index, telegram_index, points, raw_telegram := reply.frame.raw }

end Raising

/-- Place the points of a scan. -/
def Scan.placed (scan : Scan) : PlacedScan :=
  let resolution : ℚ := scan.resolution / 100
  let start : ℚ := (180 - scan.field_of_view) / 2
  let scale : Float := if scan.unit = .mm then 0.001 else 0.01
  { sequence := scan.sequence, status := scan.status, field_of_view := scan.field_of_view, resolution,
    count := scan.count, starting_angle := start, angle_increment := resolution, unit := scan.unit,
    measuring_mode := scan.measuring_mode, scan_index := scan.scan_index,
    telegram_index := scan.telegram_index,
    points := scan.points.mapIdx (Placed.ofPoint start resolution scale),
    raw_telegram := scan.raw_telegram }

/-- The fields of view and the resolutions of the standard variants. -/
theorem geometry_cases {angle resolution : ℕ} (h : validate_geometry angle resolution = .ok ()) :
    (angle = 100 ∨ angle = 180) ∧ (resolution = 25 ∨ resolution = 50 ∨ resolution = 100) := by
  unfold validate_geometry at h
  split at h
  · cases h
  · next hvariant => exact ⟨not_not.mp (not_or.mp hvariant).1, not_not.mp (not_or.mp hvariant).2⟩

namespace Raising

/-- The standard variants, in whole hundredths of a degree. -/
theorem validate_geometry_hundredths (angle resolution : ℕ) :
    validate_geometry angle (resolution / 100) = documented (Lms200.validate_geometry angle resolution) := by
  have hnarrow : (angle : ℤ) = 100 ↔ angle = 100 := by omega
  have hwide : (angle : ℤ) = 180 ↔ angle = 180 := by omega
  have hquarter : (resolution : ℚ) / 100 = 1 / 4 ↔ resolution = 25 := by
    rw [div_eq_div_iff (by norm_num) (by norm_num)]
    norm_cast
    omega
  have hhalf : (resolution : ℚ) / 100 = 1 / 2 ↔ resolution = 50 := by
    rw [div_eq_div_iff (by norm_num) (by norm_num)]
    norm_cast
    omega
  have hone : (resolution : ℚ) / 100 = 1 ↔ resolution = 100 := by
    rw [div_eq_one_iff_eq (by norm_num)]
    norm_cast
  unfold validate_geometry Lms200.validate_geometry
  simp only [hnarrow, hwide, hquarter, hhalf, hone, ne_eq]
  split
  · rfl
  · split <;> rfl

/-- A variant which is accepted is one of whole hundredths. -/
theorem exists_hundredths {angle : ℤ} {resolution : ℚ} (h : validate_geometry angle resolution = .ok ()) :
    ∃ a r : ℕ, angle = a ∧ resolution = r / 100 ∧ Lms200.validate_geometry a r = .ok () := by
  unfold validate_geometry at h
  split at h
  · cases h
  next hvariant =>
  split at h
  · cases h
  next hquarter =>
  obtain ⟨hangle, hresolution⟩ := not_or.mp hvariant
  rcases not_not.mp hangle with rfl | rfl
  · rcases not_not.mp hresolution with rfl | rfl | rfl
    · exact ⟨100, 25, by norm_num, by norm_num, by rfl⟩
    · exact ⟨100, 50, by norm_num, by norm_num, by rfl⟩
    · exact ⟨100, 100, by norm_num, by norm_num, by rfl⟩
  · rcases not_not.mp hresolution with rfl | rfl | rfl
    · exact absurd ⟨rfl, by decide⟩ hquarter
    · exact ⟨180, 50, by norm_num, by norm_num, by rfl⟩
    · exact ⟨180, 100, by norm_num, by norm_num, by rfl⟩

/-- The number of steps of a variant. -/
theorem steps_hundredths {angle resolution : ℕ} (h : Lms200.validate_geometry angle resolution = .ok ()) :
    ∃ steps, divide angle (resolution / 100) = .ok steps ∧
      roundEven steps = ((angle * 100 / resolution : ℕ) : ℤ) := by
  have hpos : (resolution : ℚ) / 100 ≠ 0 := by
    obtain ⟨-, rfl | rfl | rfl⟩ := geometry_cases h <;> norm_num
  refine ⟨angle / (resolution / 100), if_neg hpos, ?_⟩
  have hwhole : (angle : ℚ) / (resolution / 100) = ((angle * 100 / resolution : ℕ) : ℤ) := by
    obtain ⟨rfl | rfl, rfl | rfl | rfl⟩ := geometry_cases h <;> norm_num
  rw [hwhole, roundEven, Int.floor_intCast, sub_self, if_pos (by norm_num)]

theorem documented_eq_ok {α : Type} {x : Except Error α} {a : α} : documented x = .ok a ↔ x = .ok a := by
  cases x <;> simp [documented, Except.mapError]

/-- Another variant is a value error. -/
theorem validate_geometry_error {angle : ℤ} {resolution : ℚ} {raised : Raised}
    (h : validate_geometry angle resolution = .error raised) : ∃ message, raised = .error (.value message) := by
  unfold validate_geometry at h
  split at h
  · exact ⟨_, (Except.error.inj h).symm⟩
  · split at h
    · exact ⟨_, (Except.error.inj h).symm⟩
    · cases h

/-- A sequence of computations, the first of which is documented. -/
theorem bind_documented {α β γ : Type} {x : Except Error α} {next : α → Except Raised γ}
    {next' : α → Except Error β} {f : β → γ}
    (h : ∀ a, x = .ok a → next a = documented ((next' a).map f)) :
    documented x >>= next = documented ((x >>= next').map f) := by
  cases x with
  | error e => rfl
  | ok a => exact h a rfl

/-- A check which raises. -/
theorem check_documented {α β γ : Type} {c c' : Prop} [Decidable c] [Decidable c'] {e : Error}
    {next : γ → Except Raised β} {next' : γ → Except Error α} {rest : Except Raised β}
    {rest' : Except Error α} {f : α → β} (hc : c ↔ c') (h : ¬ c → rest = documented (rest'.map f)) :
    (if c then throw (.error e) >>= next else rest) =
      documented ((if c' then throw e >>= next' else rest').map f) := by
  by_cases hraises : c
  · rw [if_pos hraises, if_pos (hc.mp hraises)]
    rfl
  · rw [if_neg hraises, if_neg fun h => hraises (hc.mpr h)]
    exact h hraises

/-- Words which are there are unpacked. -/
theorem mapM_unpack_from {β : Type} (data : Bytes) (count : ℕ) (h : 2 + count * 2 ≤ data.length)
    (f : ℕ → ℕ → β) :
    ((List.range count).mapM fun index => do
      let raw ← unpack_from data (2 + index * 2)
      return f index raw) =
      .ok ((List.range count).map fun index => f index (unpackWord data (2 + index * 2))) := by
  have hlist : ∀ indices : List ℕ, (∀ index ∈ indices, index < count) →
      (indices.mapM fun index => do
        let raw ← unpack_from data (2 + index * 2)
        return f index raw) = .ok (indices.map fun index => f index (unpackWord data (2 + index * 2))) := by
    intro indices hindices
    induction indices with
    | nil => rfl
    | cons index rest ih =>
      have hindex := hindices index (List.mem_cons_self ..)
      have hunpack : unpack_from data (2 + index * 2) = .ok (unpackWord data (2 + index * 2)) :=
        if_pos (by omega)
      rw [List.mapM_cons, hunpack, ih fun index hmem => hindices index (List.mem_cons_of_mem _ hmem)]
      rfl
  exact hlist _ fun index hmem => List.mem_range.mp hmem

theorem byteAt_eq_ok {data : Bytes} {position : ℕ} (h : position < data.length) :
    byteAt data position = .ok (data.getD position 0) := by
  simp [byteAt, List.getElem?_eq_getElem h, List.getD_eq_getElem?_getD]

/-- The decoder raises nothing but documented exceptions, and otherwise places the points. -/
theorem decode_scan_hundredths (reply : Response) (angle resolution : ℕ) (config : Configuration)
    (sequence : ℕ) :
    decode_scan reply angle (resolution / 100) config sequence =
      documented ((Lms200.decode_scan reply angle resolution config sequence).map Scan.placed) := by
  unfold decode_scan Lms200.decode_scan
  rw [validate_geometry_hundredths]
  refine bind_documented fun _ hgeometry => check_documented .rfl fun hcommand => ?_
  obtain ⟨steps, hdivide, hround⟩ := steps_hundredths hgeometry
  have hheader : unpack_from reply.data 0 = .ok (unpackWord reply.data 0) :=
    if_pos (by omega)
  rw [hheader, hdivide]
  refine check_documented .rfl fun _ => check_documented .rfl fun _ => ?_
  refine bind_documented fun unit _ => bind_documented fun configured _ => check_documented .rfl fun _ => ?_
  refine check_documented (not_congr ?_) fun _ => check_documented .rfl fun hsize => ?_
  · rw [hround]
    omega
  · have hsize := not_not.mp hsize
    have hpoints (f : ℕ → ℕ → Placed) := mapM_unpack_from reply.data (unpackWord reply.data 0 % 0x400)
      (by split at hsize <;> omega) f
    have hplaced (f : ℕ → Point → Placed) (g : ℕ → Point) (count : ℕ) :
        ((List.range count).map g).mapIdx f = (List.range count).map fun index => f index (g index) :=
      List.ext_getElem (by simp) fun i _ _ => by simp
    dsimp only
    simp only [hpoints]
    cases hindices : config.indices with
    | false => simp [documented, Scan.placed, hplaced, bind, Except.bind, pure, Except.pure, Except.map, Except.mapError]
    | true =>
      rw [hindices, if_pos rfl] at hsize
      simp [documented, Scan.placed, hplaced, bind, Except.bind, pure, Except.pure, Except.map, Except.mapError, byteAt_eq_ok, hsize]

end Raising

end Lms200
