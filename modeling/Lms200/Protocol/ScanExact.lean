import Lms200.Protocol.ScanDecoding

/-!
# Which scans are accepted

A measurement telegram is accepted when its data is a serialised scan of one of the standard variants,
in the configured unit and with the configured indices. Nothing of the data is lost: the decoded scan
is serialised back to it.
-/

namespace Lms200

/-- The bytes of a scan: the header, the words and the indices. -/
def serialise (count unit : ℕ) (words : List ℕ) (indices : Bytes) : Bytes :=
  toBytesLittle (count + 0x4000 * unit) ++ words.flatMap toBytesLittle ++ indices

/-- The unit code of a header or of a configuration. -/
def DistanceUnit.code : DistanceUnit → ℕ
  | .cm => 0
  | .mm => 1

/-- The five standard variants. -/
def standardVariants : List (ℤ × ℚ) := [(100, 1 / 4), (100, 1 / 2), (100, 1), (180, 1 / 2), (180, 1)]

/-- The documented measurement telegrams of a variant and a configuration. -/
structure Documented (reply : Response) (angle : ℤ) (resolution : ℚ) (config : Configuration) : Prop where
  variant : (angle, resolution) ∈ standardVariants
  command : reply.command = 0xB0
  mode : config.mode = 0 ∨ config.mode = 1 ∨ config.mode = 2
  unit : config.raw.getD 6 0 = 0 ∨ config.raw.getD 6 0 = 1
  data : ∃ (count : ℕ) (words : List ℕ) (indices : Bytes), (count : ℚ) = angle / resolution + 1 ∧
    words.length = count ∧ (∀ word ∈ words, word < 2 ^ 16) ∧
    indices.length = (if config.indices then 2 else 0) ∧
    reply.data = serialise count (config.raw.getD 6 0).toNat words indices

/-- A value without a distance: a special one, or a dazzled one. -/
def Placed.missing (point : Placed) (config : Configuration) : Prop :=
  0x1FF7 ≤ point.distance_raw ∨ config.mode = 0 ∧ point.raw.testBit 15

/-- What a scan keeps of the data it was decoded from. -/
structure PlacedScan.Lossless (scan : PlacedScan) (reply : Response) (angle : ℤ) (resolution : ℚ)
    (config : Configuration) : Prop where
  count : (scan.count : ℚ) = angle / resolution + 1
  points : scan.points.length = scan.count
  data : serialise scan.count scan.unit.code (scan.points.map (·.raw))
    (scan.scan_index.toList ++ scan.telegram_index.toList) = reply.data
  distance : ∀ point ∈ scan.points, point.distance_raw = point.raw % 8192
  meters : ∀ point ∈ scan.points, point.distance_m = none ↔ point.missing config
  x : ∀ point ∈ scan.points, point.x = none ↔ point.missing config
  y : ∀ point ∈ scan.points, point.y = none ↔ point.missing config

section Words

theorem slice_append {data : Bytes} {first second third : ℕ} (h₁ : first ≤ second) (h₂ : second ≤ third) :
    slice data first second ++ slice data second third = slice data first third := by
  have hfirst : slice data first second = (slice data first third).take (second - first) := by
    rw [slice, slice, List.drop_take, List.drop_take, List.take_take, min_eq_left (by omega)]
  have hsecond : slice data second third = (slice data first third).drop (second - first) := by
    rw [slice, slice, List.drop_drop, Nat.add_sub_cancel' h₁]
  rw [hfirst, hsecond, List.take_append_drop]

/-- A word of two bytes is spelled by them. -/
theorem toBytesLittle_unpackWord {data : Bytes} {position : ℕ} (h : position + 2 ≤ data.length) :
    toBytesLittle (unpackWord data position) = slice data position (position + 2) := by
  obtain ⟨low, high, hslice⟩ : ∃ low high, slice data position (position + 2) = [low, high] := by
    apply List.length_eq_two.mp
    rw [slice, List.length_drop, List.length_take]
    omega
  have hlow := low.toNat_lt
  have hhigh := high.toNat_lt
  rw [unpackWord, hslice]
  refine (toBytesLittle_eq_iff ?_ low high).mpr rfl
  simp only [fromBytesLittle]
  omega

theorem unpackWord_lt (data : Bytes) (position : ℕ) : unpackWord data position < 2 ^ 16 := by
  have hlength : (slice data position (position + 2)).length ≤ 2 := by
    rw [slice, List.length_drop, List.length_take]
    omega
  rw [unpackWord]
  generalize slice data position (position + 2) = word at hlength ⊢
  rcases word with _ | ⟨low, _ | ⟨high, _ | ⟨third, rest⟩⟩⟩
  · decide
  · have := low.toNat_lt
    simp only [fromBytesLittle]
    omega
  · have := low.toNat_lt
    have := high.toNat_lt
    simp only [fromBytesLittle]
    omega
  · simp only [List.length_cons] at hlength
    omega

/-- Consecutive words are spelled by consecutive bytes. -/
theorem flatMap_unpackWord (data : Bytes) (start count : ℕ) (h : start + count * 2 ≤ data.length) :
    ((List.range count).map fun i => unpackWord data (start + i * 2)).flatMap toBytesLittle =
      slice data start (start + count * 2) := by
  induction count with
  | zero => simp [slice]
  | succ count ih =>
    rw [List.range_succ, List.map_append, List.flatMap_append, ih (by omega)]
    simp only [List.map_cons, List.map_nil, List.flatMap_cons, List.flatMap_nil, List.append_nil]
    rw [toBytesLittle_unpackWord (by omega), slice_append (by omega) (by omega)]
    congr 1
    omega

theorem length_flatMap_toBytesLittle (words : List ℕ) :
    (words.flatMap toBytesLittle).length = words.length * 2 := by
  induction words with
  | nil => rfl
  | cons word words ih =>
    rw [List.flatMap_cons, List.length_append, ih, List.length_cons, toBytesLittle]
    simp only [List.length_cons, List.length_nil]
    omega

/-- The header of a serialised scan. -/
theorem unpackWord_serialise {count unit : ℕ} {words : List ℕ} {indices : Bytes}
    (h : count + 0x4000 * unit < 2 ^ 16) :
    unpackWord (serialise count unit words indices) 0 = count + 0x4000 * unit := by
  have hslice : slice (serialise count unit words indices) 0 (0 + 2) =
      toBytesLittle (count + 0x4000 * unit) := by
    simp [serialise, slice, toBytesLittle]
  rw [unpackWord, hslice, fromBytesLittle_toBytesLittle h]

theorem length_serialise (count unit : ℕ) (words : List ℕ) (indices : Bytes) :
    (serialise count unit words indices).length = 2 + words.length * 2 + indices.length := by
  simp only [serialise, List.length_append, length_flatMap_toBytesLittle]
  rfl

/-- The reserved bits of a header. -/
theorem reserved_eq_zero_iff (header : ℕ) : header &&& 0x3C00 = 0 ↔ header / 0x400 % 16 = 0 := by
  have hmask : header &&& 0x3C00 = (header / 2 ^ 10 % 2 ^ 4) * 2 ^ 10 := by
    refine Nat.eq_of_testBit_eq fun i => ?_
    have hconst : (0x3C00 : ℕ) = (2 ^ 4 - 1) * 2 ^ 10 := rfl
    rw [Nat.testBit_and, hconst, Nat.testBit_mul_two_pow, Nat.testBit_mul_two_pow, Nat.testBit_two_pow_sub_one,
      Nat.testBit_mod_two_pow, Nat.testBit_div_two_pow]
    by_cases hi : 10 ≤ i
    · simp [hi, Nat.sub_add_cancel hi, Bool.and_comm]
    · simp [hi]
  rw [hmask]
  omega

end Words

section Exact

theorem scanUnit_eq_ok {code : ℕ} {unit : DistanceUnit} : scanUnit code = .ok unit ↔ code = unit.code := by
  unfold scanUnit
  split
  · next hcode => cases unit <;> simp [hcode, DistanceUnit.code]
  · split
    · next hcode => cases unit <;> simp [hcode, DistanceUnit.code]
    · cases unit <;> simpa [DistanceUnit.code]

theorem Configuration.unit_eq_ok {config : Configuration} {unit : DistanceUnit} :
    config.unit = .ok unit ↔ (config.raw.getD 6 0).toNat = unit.code := by
  unfold Configuration.unit
  generalize config.raw.getD 6 0 = code
  have hzero : code = 0 ↔ code.toNat = 0 := UInt8.toNat_inj.symm
  have hone : code = 1 ↔ code.toNat = 1 := UInt8.toNat_inj.symm
  simp only [hzero, hone]
  split
  · next hcode => cases unit <;> simp [hcode, DistanceUnit.code]
  · split
    · next hcode => cases unit <;> simp [hcode, DistanceUnit.code]
    · cases unit <;> simpa [DistanceUnit.code]

/-- The flag bits of a word say that it was dazzled. -/
theorem dazzling_mem_fieldFlags (mode : UInt8) (raw : ℕ) :
    "dazzling" ∈ fieldFlags mode raw ↔ mode = 0 ∧ raw.testBit 15 = true := by
  unfold fieldFlags
  split
  · cases raw.testBit 13 <;> cases raw.testBit 14 <;> cases raw.testBit 15 <;>
      by_cases hmode : mode = 0 <;> simp [hmode]
  · next hmode =>
    refine iff_of_false (fun h => ?_) fun h => hmode (.inl h.1)
    have hlength := congrArg String.length (List.mem_singleton.mp h)
    rw [String.length_append] at hlength
    have : "dazzling".length = 8 := rfl
    have : "reflector_level_".length = 16 := rfl
    omega

/-- Special labels belong to special values. -/
theorem OVERFLOW_eq_none {distance : ℕ} (h : distance < 0x1FF7) : OVERFLOW distance = none := by
  unfold OVERFLOW
  simp only [if_neg (show ¬ distance = 0x1FFF by omega), if_neg (show ¬ distance = 0x1FFE by omega),
    if_neg (show ¬ distance = 0x1FFD by omega), if_neg (show ¬ distance = 0x1FFB by omega),
    if_neg (show ¬ distance = 0x1FFA by omega), if_neg (show ¬ distance = 0x1FF7 by omega)]

/-- A word without a distance is a special one, or a dazzled one. -/
theorem Point.valid_iff (mode : UInt8) (raw : ℕ) :
    ((Point.ofRaw mode raw).distance_raw < 0x1FF7 ∧ "dazzling" ∉ (Point.ofRaw mode raw).flags) ↔
      ¬ (0x1FF7 ≤ (Point.ofRaw mode raw).distance_raw ∨ mode = 0 ∧ raw.testBit 15 = true) := by
  rw [not_or, not_le]
  refine and_congr_right fun hdistance => not_congr ?_
  have hdistance : raw % 0x2000 < 0x1FF7 := hdistance
  rw [← dazzling_mem_fieldFlags]
  simp [Point.ofRaw, OVERFLOW_eq_none hdistance]

/-- A value without a distance has neither metres nor coordinates. -/
theorem Placed.missing_iff (start resolution : ℚ) (scale : Float) (index raw : ℕ) (config : Configuration) :
    let placed := Placed.ofPoint start resolution scale index (Point.ofRaw config.mode raw)
    (placed.distance_m = none ↔ placed.missing config) ∧ (placed.x = none ↔ placed.missing config) ∧
      (placed.y = none ↔ placed.missing config) := by
  have hmeters : (Placed.ofPoint start resolution scale index (Point.ofRaw config.mode raw)).distance_m = none ↔
      (Placed.ofPoint start resolution scale index (Point.ofRaw config.mode raw)).missing config := by
    have hvalid := Point.valid_iff config.mode raw
    simp only [Placed.ofPoint, ite_eq_right_iff, reduceCtorEq, imp_false]
    exact (not_congr hvalid).trans not_not
  refine ⟨hmeters, ?_, ?_⟩
  · exact Option.map_eq_none_iff.trans hmeters
  · exact Option.map_eq_none_iff.trans hmeters

/-- The standard variants are the ones which are validated. -/
theorem mem_standardVariants {angle : ℤ} {resolution : ℚ} :
    (angle, resolution) ∈ standardVariants ↔ Raising.validate_geometry angle resolution = .ok () := by
  constructor
  · intro h
    simp only [standardVariants, List.mem_cons, Prod.mk.injEq, List.not_mem_nil, or_false] at h
    rcases h with ⟨rfl, rfl⟩ | ⟨rfl, rfl⟩ | ⟨rfl, rfl⟩ | ⟨rfl, rfl⟩ | ⟨rfl, rfl⟩ <;>
      norm_num [Raising.validate_geometry]
  · intro h
    obtain ⟨a, r, rfl, rfl, hvalid⟩ := Raising.exists_hundredths h
    obtain ⟨rfl | rfl, rfl | rfl | rfl⟩ := geometry_cases hvalid
    · norm_num [standardVariants]
    · norm_num [standardVariants]
    · norm_num [standardVariants]
    · cases hvalid
    · norm_num [standardVariants]
    · norm_num [standardVariants]

/-- A variant has at most 401 points. -/
theorem count_lt {angle resolution : ℕ} (h : validate_geometry angle resolution = .ok ()) :
    angle * 100 / resolution + 1 < 0x400 ∧
      ((angle * 100 / resolution + 1 : ℕ) : ℚ) = (angle : ℤ) / (resolution / 100 : ℚ) + 1 := by
  obtain ⟨rfl | rfl, rfl | rfl | rfl⟩ := geometry_cases h
  · norm_num
  · norm_num
  · norm_num
  · cases h
  · norm_num
  · norm_num

/-- The data of a telegram which passes the checks is a serialised scan. -/
theorem Scannable.data {reply : Response} {angle resolution : ℕ} {config : Configuration}
    {unit : DistanceUnit} (h : Scannable reply angle resolution config unit) :
    reply.data = serialise (angle * 100 / resolution + 1) unit.code
      ((List.range (angle * 100 / resolution + 1)).map fun i => unpackWord reply.data (2 + i * 2))
      (reply.data.drop (2 + (angle * 100 / resolution + 1) * 2)) := by
  have hheader : unpackWord reply.data 0 = angle * 100 / resolution + 1 + 0x4000 * unit.code := by
    have hunit := scanUnit_eq_ok.mp h.scanned
    have hreserved := (reserved_eq_zero_iff _).mp h.header
    have hcount := h.count
    omega
  have hsize := h.size
  rw [h.count] at hsize
  rw [serialise, ← hheader, flatMap_unpackWord _ _ _ (by omega), toBytesLittle_unpackWord h.length,
    slice_append (by omega) (by omega), slice, List.drop_zero, List.take_append_drop]

/-- A documented unit byte is the code of a unit. -/
theorem exists_unit {config : Configuration} :
    (config.raw.getD 6 0 = 0 ∨ config.raw.getD 6 0 = 1) ↔
      ∃ unit : DistanceUnit, (config.raw.getD 6 0).toNat = unit.code := by
  rw [← UInt8.toNat_inj, ← UInt8.toNat_inj]
  constructor
  · rintro (h | h)
    · exact ⟨.cm, h⟩
    · exact ⟨.mm, h⟩
  · rintro ⟨_ | _, h⟩
    · exact .inr h
    · exact .inl h

/-- The telegrams which pass the checks are the documented ones. -/
theorem documented_iff_scannable {reply : Response} {angle resolution : ℕ} {config : Configuration} :
    Documented reply angle (resolution / 100) config ↔
      ∃ unit, Scannable reply angle resolution config unit := by
  have hvariant : ((angle : ℤ), (resolution / 100 : ℚ)) ∈ standardVariants ↔
      validate_geometry angle resolution = .ok () := by
    rw [mem_standardVariants, Raising.validate_geometry_hundredths, Raising.documented_eq_ok]
  constructor
  · intro h
    have hgeometry := hvariant.mp h.variant
    obtain ⟨count, words, indices, hcount, hwords, -, hindices, hdata⟩ := h.data
    obtain ⟨unit, hunit⟩ := exists_unit.mp h.unit
    obtain ⟨hlt, hsteps⟩ := count_lt hgeometry
    obtain rfl : count = angle * 100 / resolution + 1 := by
      rw [← hsteps] at hcount
      exact_mod_cast hcount
    have hcode : unit.code ≤ 1 := by cases unit <;> decide
    have hheader : unpackWord reply.data 0 = angle * 100 / resolution + 1 + 0x4000 * unit.code := by
      rw [hdata, hunit, unpackWord_serialise (by omega)]
    have hlength : reply.data.length = 2 + (angle * 100 / resolution + 1) * 2 + indices.length := by
      rw [hdata, length_serialise, hwords]
    have hreply : unpackWord reply.data 0 % 0x400 = angle * 100 / resolution + 1 := by omega
    refine ⟨unit, hgeometry, h.command, by omega, h.mode, (reserved_eq_zero_iff _).mpr (by omega),
      scanUnit_eq_ok.mpr (by omega), Configuration.unit_eq_ok.mpr hunit, hreply, ?_⟩
    rw [hlength, hreply, hindices]
  · rintro ⟨unit, h⟩
    have hunit := Configuration.unit_eq_ok.mp h.configured
    have hsize := h.size
    rw [h.count] at hsize
    refine ⟨hvariant.mpr h.geometry, h.command, h.mode, exists_unit.mpr ⟨unit, hunit⟩, _, _, _,
      (count_lt h.geometry).2, ?_, ?_, ?_, hunit ▸ h.data⟩
    · rw [List.length_map, List.length_range]
    · intro word hword
      obtain ⟨i, -, rfl⟩ := List.mem_map.mp hword
      exact unpackWord_lt _ _
    · rw [List.length_drop]
      omega

/-- What passes the checks is kept. -/
theorem Scannable.lossless {reply : Response} {angle resolution : ℕ} {config : Configuration}
    {unit : DistanceUnit} (h : Scannable reply angle resolution config unit) (sequence : ℕ) :
    (Scan.ofReply reply angle resolution config sequence unit).placed.Lossless reply angle
      (resolution / 100) config := by
  have hcount := h.count
  have hsize := h.size
  rw [hcount] at hsize
  have hpoint {point : Placed}
      (hmem : point ∈ (Scan.ofReply reply angle resolution config sequence unit).placed.points) :
      ∃ start resolution scale index raw,
        point = Placed.ofPoint start resolution scale index (Point.ofRaw config.mode raw) := by
    obtain ⟨index, hindex, rfl⟩ := List.getElem_of_mem hmem
    simp only [Scan.placed, Scan.ofReply, List.getElem_mapIdx, List.getElem_map]
    exact ⟨_, _, _, _, _, rfl⟩
  have hraw : (Scan.ofReply reply angle resolution config sequence unit).placed.points.map (·.raw) =
      (List.range (angle * 100 / resolution + 1)).map fun i => unpackWord reply.data (2 + i * 2) := by
    rw [← hcount]
    exact List.ext_getElem (by simp [Scan.placed, Scan.ofReply]) fun i _ _ => by
      simp [Scan.placed, Scan.ofReply, Placed.ofPoint, Point.ofRaw]
  have hindices : (Scan.ofReply reply angle resolution config sequence unit).placed.scan_index.toList ++
      (Scan.ofReply reply angle resolution config sequence unit).placed.telegram_index.toList =
        reply.data.drop (2 + (angle * 100 / resolution + 1) * 2) := by
    simp only [Scan.placed, Scan.ofReply, hcount]
    generalize 2 + (angle * 100 / resolution + 1) * 2 = start at hsize
    cases hconfig : config.indices with
    | false =>
      rw [hconfig] at hsize
      exact (List.drop_of_length_le hsize.le).symm
    | true =>
      rw [hconfig, if_pos rfl] at hsize
      have hlast : (reply.data.drop start).length = 2 := by
        rw [List.length_drop]
        omega
      obtain ⟨first, second, hdrop⟩ := List.length_eq_two.mp hlast
      have hget (i : ℕ) : reply.data.getD (start + i) 0 = (reply.data.drop start).getD i 0 := by
        simp [List.getD_eq_getElem?_getD]
      have hfirst : reply.data.getD start 0 = (reply.data.drop start).getD 0 0 := hget 0
      rw [if_pos rfl, if_pos rfl, hget 1, hfirst, hdrop]
      rfl
  refine ⟨?_, ?_, ?_, ?_, ?_, ?_, ?_⟩
  · change ((unpackWord reply.data 0 % 0x400 : ℕ) : ℚ) = _
    rw [hcount]
    exact (count_lt h.geometry).2
  · simp [Scan.placed, Scan.ofReply]
  · rw [hraw, hindices]
    change serialise (unpackWord reply.data 0 % 0x400) unit.code _ _ = _
    rw [hcount]
    exact h.data.symm
  · intro point hmem
    obtain ⟨start, resolution, scale, index, raw, rfl⟩ := hpoint hmem
    rfl
  · intro point hmem
    obtain ⟨start, resolution, scale, index, raw, rfl⟩ := hpoint hmem
    exact (Placed.missing_iff _ _ _ _ _ _).1
  · intro point hmem
    obtain ⟨start, resolution, scale, index, raw, rfl⟩ := hpoint hmem
    exact (Placed.missing_iff _ _ _ _ _ _).2.1
  · intro point hmem
    obtain ⟨start, resolution, scale, index, raw, rfl⟩ := hpoint hmem
    exact (Placed.missing_iff _ _ _ _ _ _).2.2

/-- Decoding succeeds exactly on the documented telegrams and otherwise raises a protocol or a value
error, and a decoded scan is serialised back to the data of its telegram. -/
theorem decode_scan_exact (reply : Response) (angle : ℤ) (resolution : ℚ) (config : Configuration)
    (sequence : ℕ) :
    ((∃ scan, Raising.decode_scan reply angle resolution config sequence = .ok scan) ↔
      Documented reply angle resolution config) ∧
    (∀ raised, Raising.decode_scan reply angle resolution config sequence = .error raised →
      ∃ message, raised = .error (.protocol message) ∨ raised = .error (.value message)) ∧
    ∀ scan, Raising.decode_scan reply angle resolution config sequence = .ok scan →
      scan.Lossless reply angle resolution config := by
  cases hgeometry : Raising.validate_geometry angle resolution with
  | error raised =>
    have hraises : Raising.decode_scan reply angle resolution config sequence = .error raised := by
      unfold Raising.decode_scan
      rw [hgeometry]
      rfl
    have hvalue := Raising.validate_geometry_error hgeometry
    rw [hraises]
    refine ⟨iff_of_false (by rintro ⟨_, ⟨⟩⟩) fun h => ?_, ?_, by rintro _ ⟨⟩⟩
    · have hvalid := mem_standardVariants.mp h.variant
      rw [hgeometry] at hvalid
      cases hvalid
    · rintro _ ⟨⟩
      obtain ⟨message, rfl⟩ := hvalue
      exact ⟨message, .inr rfl⟩
  | ok _ =>
    obtain ⟨a, r, rfl, rfl, -⟩ := Raising.exists_hundredths hgeometry
    rw [Raising.decode_scan_hundredths, documented_iff_scannable]
    cases hscan : decode_scan reply a r config sequence with
    | error e =>
      have hrejects := decode_scan_rejects _ _ _ _ _ _ hscan
      refine ⟨iff_of_false (by rintro ⟨_, ⟨⟩⟩) fun ⟨unit, h⟩ => ?_, ?_, by rintro _ ⟨⟩⟩
      · have hok : decode_scan reply a r config sequence = .ok _ := decode_scan_eq_ok.mpr ⟨unit, h, rfl⟩
        rw [hscan] at hok
        cases hok
      · rintro _ ⟨⟩
        cases e with
        | protocol message => exact ⟨message, .inl rfl⟩
        | value message => exact ⟨message, .inr rfl⟩
        | _ => cases hrejects
    | ok scan =>
      obtain ⟨unit, h, rfl⟩ := decode_scan_eq_ok.mp hscan
      refine ⟨iff_of_true ⟨_, rfl⟩ ⟨unit, h⟩, by rintro _ ⟨⟩, ?_⟩
      rintro _ ⟨⟩
      exact h.lossless sequence

end Exact

end Lms200
