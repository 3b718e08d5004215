import Lms200.Protocol.FramerLexer

/-!
# Wire telegrams and the framer's acceptance rule

`telegramAt` asks whether a stream starts with the encoding of some payload and address.
The framing loop decides the same question from the header, the declared length and the
checksum, so its decisions can be read as decisions about encoded telegrams.
-/

namespace Lms200

open Resync

theorem fromBytesLittle_toBytesLittle {value : ℕ} (h : value < 2 ^ 16) :
    fromBytesLittle (toBytesLittle value) = value := by
  simp only [toBytesLittle, fromBytesLittle, UInt8.toNat_ofNat']
  omega

/-- Two bytes are determined by the word they spell. -/
theorem toBytesLittle_eq_iff {value : ℕ} (h : value < 2 ^ 16) (low high : UInt8) :
    toBytesLittle value = [low, high] ↔ value = fromBytesLittle [low, high] := by
  constructor
  · intro heq
    rw [← heq, fromBytesLittle_toBytesLittle h]
  · rintro rfl
    have hlow := low.toNat_lt
    have hhigh := high.toNat_lt
    simp only [fromBytesLittle, toBytesLittle, List.cons.injEq, and_true]
    refine ⟨UInt8.toNat_inj.mp ?_, UInt8.toNat_inj.mp ?_⟩
    · rw [UInt8.toNat_ofNat']
      omega
    · rw [UInt8.toNat_ofNat']
      omega

/-- A successful encoding is header, payload and checksum of a payload of legal length. -/
theorem encode_eq_ok_iff (payload : Bytes) (address : UInt8) (wire : Bytes) :
    encode payload address.toNat = .ok wire ↔
      (1 ≤ payload.length ∧ payload.length ≤ MAX_PAYLOAD) ∧
        wire = ([STX, address] ++ toBytesLittle payload.length ++ payload) ++
          toBytesLittle (crc16 ([STX, address] ++ toBytesLittle payload.length ++ payload)) := by
  have haddress : address.toNat ≤ 255 := Nat.lt_succ_iff.mp address.toNat_lt
  by_cases h : 1 ≤ payload.length ∧ payload.length ≤ MAX_PAYLOAD
  · rw [encode, if_neg (by simp [haddress, h])]
    simp only [UInt8.ofNat_toNat, Except.ok.injEq, h, and_self, true_and]
    exact eq_comm
  · rw [encode, if_pos (Or.inr h)]
    simp [h]

/-- An encoded telegram is six bytes longer than its payload. -/
theorem encode_length {payload : Bytes} {address : UInt8} {wire : Bytes}
    (h : encode payload address.toNat = .ok wire) : wire.length = payload.length + 6 := by
  obtain ⟨-, rfl⟩ := (encode_eq_ok_iff _ _ _).mp h
  simp [toBytesLittle]

/-- The frame encoded at the front of a stream, if there is one. -/
def telegramAt (stream : Bytes) : Option Frame :=
  let address := stream.getD 1 0
  let payload := slice stream 4 (declaredLength stream + 4)
  match encode payload address.toNat with
  | .ok wire => if wire <+: stream then some ⟨address, payload, wire⟩ else none
  | .error _ => none

/-- The header of an encoded telegram declares its payload and address. -/
theorem encode_prefix_header {payload : Bytes} {address : UInt8} {wire stream : Bytes}
    (h : encode payload address.toNat = .ok wire) (hstart : wire <+: stream) :
    stream.headD 0 = STX ∧ stream.getD 1 0 = address ∧ declaredLength stream = payload.length ∧
      slice stream 4 (payload.length + 4) = payload := by
  obtain ⟨rest, rfl⟩ := hstart
  obtain ⟨hlength, rfl⟩ := (encode_eq_ok_iff _ _ _).mp h
  have hword : payload.length < 2 ^ 16 := by
    have := hlength.2
    simp only [MAX_PAYLOAD] at this
    omega
  refine ⟨rfl, rfl, ?_, ?_⟩
  · simpa [declaredLength, slice, toBytesLittle] using fromBytesLittle_toBytesLittle hword
  · simp [slice, toBytesLittle]

/-- `telegramAt` finds exactly the encodings at the front of the stream. -/
theorem telegramAt_eq_some_iff (stream : Bytes) (f : Frame) :
    telegramAt stream = some f ↔ encode f.payload f.address.toNat = .ok f.raw ∧ f.raw <+: stream := by
  constructor
  · intro h
    simp only [telegramAt] at h
    split at h
    · next wire hwire =>
      split at h
      · next hstart =>
        cases h
        exact ⟨hwire, hstart⟩
      · cases h
    · cases h
  · rintro ⟨hwire, hstart⟩
    obtain ⟨-, haddress, hlength, hpayload⟩ := encode_prefix_header hwire hstart
    simp only [telegramAt, haddress, hlength, hpayload, hwire, if_pos hstart]

/-- The acceptance rule on a candidate with a complete declared telegram. -/
theorem crc_valid_iff_encode {stream : Bytes} (hstx : stream.headD 0 = STX)
    (hlength : 1 ≤ declaredLength stream ∧ declaredLength stream ≤ MAX_PAYLOAD)
    (htotal : declaredLength stream + 6 ≤ stream.length) :
    let raw := stream.take (declaredLength stream + 6)
    (FrameCandidate.ofRaw 0 raw).crc_valid = true ↔
      encode (Frame.ofRaw raw).payload (Frame.ofRaw raw).address.toNat = .ok raw := by
  obtain ⟨first, address, low, high, body, rfl⟩ :
      ∃ first address low high body, stream = first :: address :: low :: high :: body := by
    match stream, htotal with
    | first :: address :: low :: high :: body, _ => exact ⟨first, address, low, high, body, rfl⟩
  obtain rfl : first = STX := hstx
  have hdeclared : declaredLength (STX :: address :: low :: high :: body) =
      fromBytesLittle [low, high] := rfl
  rw [hdeclared] at hlength htotal ⊢
  have hlow := low.toNat_lt
  have hhigh := high.toNat_lt
  generalize hn : fromBytesLittle [low, high] = n at hlength htotal ⊢
  have hword : n < 2 ^ 16 := by
    rw [← hn]
    simp only [fromBytesLittle]
    omega
  have hbody : n + 2 ≤ body.length := by
    simp only [List.length_cons] at htotal
    omega
  obtain ⟨payload, tail, rfl, hpayload⟩ : ∃ payload tail, body = payload ++ tail ∧ payload.length = n :=
    ⟨body.take n, body.drop n, (List.take_append_drop n body).symm, by simp; omega⟩
  obtain ⟨c₀, c₁, rest, rfl⟩ : ∃ c₀ c₁ rest, tail = c₀ :: c₁ :: rest := by
    rw [List.length_append, hpayload] at hbody
    match tail, hbody with
    | c₀ :: c₁ :: rest, _ => exact ⟨c₀, c₁, rest, rfl⟩
    | [_], h => simp at h
    | [], h => simp only [List.length_nil] at h; omega
  have hraw : (STX :: address :: low :: high :: (payload ++ c₀ :: c₁ :: rest)).take (n + 6) =
      ([STX, address, low, high] ++ payload) ++ [c₀, c₁] := by
    have htake : (payload ++ c₀ :: c₁ :: rest).take (n + 2) = payload ++ [c₀, c₁] := by
      rw [← hpayload, List.take_append, List.take_of_length_le (by omega)]
      simp
    simpa using htake
  simp only [hraw]
  have hheader : ([STX, address] ++ toBytesLittle n) = [STX, address, low, high] := by
    rw [(toBytesLittle_eq_iff hword low high).mpr hn.symm]
    rfl
  have hsize : (([STX, address, low, high] ++ payload) ++ [c₀, c₁]).length - 2 =
      ([STX, address, low, high] ++ payload).length := by simp
  have hframe : Frame.ofRaw (([STX, address, low, high] ++ payload) ++ [c₀, c₁]) =
      ⟨address, payload, ([STX, address, low, high] ++ payload) ++ [c₀, c₁]⟩ := by
    simp only [Frame.ofRaw, slice, hsize, List.take_left]
    simp
  rw [hframe, encode_eq_ok_iff, hpayload, hheader, List.append_cancel_left_eq, eq_comm (a := [c₀, c₁]),
    toBytesLittle_eq_iff (crc16_lt _)]
  simp only [FrameCandidate.crc_valid, FrameCandidate.ofRaw, hsize, List.take_left, List.drop_left,
    beq_iff_eq, hlength, and_self, true_and]

/-- A frame encoded in a stream is read back from its own wire bytes. -/
theorem telegramAt_ofRaw {stream : Bytes} {f : Frame} (h : telegramAt stream = some f) :
    Frame.ofRaw f.raw = f := by
  obtain ⟨hwire, -⟩ := (telegramAt_eq_some_iff _ _).mp h
  obtain ⟨-, haddress, -, hpayload⟩ := encode_prefix_header hwire (List.prefix_refl _)
  have hsize : f.raw.length - 2 = f.payload.length + 4 := by
    rw [encode_length hwire]
    omega
  simp only [Frame.ofRaw, haddress, hsize, hpayload]

/-- What a telegram at the front of a stream says about its header. -/
theorem telegramAt_header {stream : Bytes} {f : Frame} (h : telegramAt stream = some f) :
    stream.headD 0 = STX ∧ (1 ≤ declaredLength stream ∧ declaredLength stream ≤ MAX_PAYLOAD) ∧
      declaredLength stream + 6 ≤ stream.length ∧
      stream.take (declaredLength stream + 6) = f.raw := by
  obtain ⟨hwire, hstart⟩ := (telegramAt_eq_some_iff _ _).mp h
  obtain ⟨hstx, -, hlength, -⟩ := encode_prefix_header hwire hstart
  have hsize := encode_length hwire
  rw [hlength, ← hsize]
  exact ⟨hstx, ((encode_eq_ok_iff _ _ _).mp hwire).1, hstart.length_le,
    (List.prefix_iff_eq_take.mp hstart).symm⟩

/-- The loop accepts a candidate exactly where a telegram is encoded. -/
theorem candidateFront_eq_frame_iff {stream : Bytes} (hstx : stream.headD 0 = STX) (extra : ℕ)
    (raw : Bytes) : candidateFront stream = .consume extra (.frame raw) ↔
      telegramAt stream = some (Frame.ofRaw raw) ∧ raw.length = extra + 1 := by
  constructor
  · intro h
    unfold candidateFront at h
    split at h
    · cases h
    split at h
    · cases h
    next hlength =>
    split at h
    · cases h
    next htotal =>
    split at h
    · cases h
    next hcrc =>
    obtain ⟨rfl, hraw⟩ := Verdict.consume.inj h
    obtain rfl := Finding.frame.inj hraw
    have hlength := not_not.mp hlength
    have htotal := not_lt.mp htotal
    have hencode := (crc_valid_iff_encode hstx hlength htotal).mp (by simpa using hcrc)
    refine ⟨(telegramAt_eq_some_iff _ _).mpr ⟨hencode, List.take_prefix _ _⟩, ?_⟩
    rw [List.length_take, min_eq_left htotal]
  · rintro ⟨h, hsize⟩
    obtain ⟨-, hlength, htotal, hraw⟩ := telegramAt_header h
    have hencode := ((telegramAt_eq_some_iff _ _).mp h).1
    have hcrc := (crc_valid_iff_encode hstx hlength htotal).mpr (by rw [hraw]; exact hencode)
    have hextra : extra = declaredLength stream + 5 := by
      have : (Frame.ofRaw raw).raw.length = declaredLength stream + 6 := by
        rw [← hraw, List.length_take, min_eq_left htotal]
      have hrfl : (Frame.ofRaw raw).raw = raw := rfl
      rw [hrfl] at this
      omega
    rw [candidateFront, if_neg (by omega), if_neg (not_not.mpr hlength), if_neg (by omega),
      if_neg (by simp [hcrc]), hextra, hraw]
    rfl

/-- The first byte of a telegram is not a control. -/
theorem ofByte_STX : Control.ofByte STX = none := by decide

/-- The framing loop emits a frame exactly where a telegram is encoded. -/
theorem telegramFront_eq_frame_iff (stream : Bytes) (extra : ℕ) (raw : Bytes) :
    telegramFront stream = .consume extra (.frame raw) ↔
      telegramAt stream = some (Frame.ofRaw raw) ∧ raw.length = extra + 1 := by
  cases stream with
  | nil =>
    refine iff_of_false (by simp [telegramFront]) fun h => ?_
    have := (telegramAt_header h.1).2.2.1
    simp at this
  | cons first rest =>
    by_cases hstx : first = STX
    · have hfirst : (first :: rest).headD 0 = STX := hstx
      rw [← candidateFront_eq_frame_iff hfirst]
      simp [telegramFront, hstx, ofByte_STX]
    · refine iff_of_false ?_ fun h => hstx (telegramAt_header h.1).1
      simp only [telegramFront, if_pos hstx]
      cases Control.ofByte first <;> simp

end Lms200
