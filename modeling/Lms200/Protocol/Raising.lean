import Lms200.Protocol.ScanDecoding

/-!
# Framing and responses, byte by byte

`Framer.feed`, `Framer.expire` and `response` with everything they may raise. Their reads are all
guarded, so they are the functions of `Protocol.Framing` and `Protocol.Responses`.
-/

namespace Lms200

namespace Raising

/-- `Control(value)` -/
def control (value : UInt8) : Except Raised Control :=
  match Control.ofByte value with
  | some c => .ok c
  | none => .error (.error (.value (toString value ++ " is not a valid Control")))

/-- `Frame(raw[1], raw[4:-2], raw)` -/
def frame (raw : Bytes) : Except Raised Frame := do
  let address ← byteAt raw 1
  return ⟨address, slice raw 4 (raw.length - 2), raw⟩

/-- The loop of `feed`. -/
def loop : ℕ → Framer → Except Raised (Emitted × Framer)
  | 0, f => return ({}, f)
  | fuel + 1, f =>
    if f.buffer = [] then return ({}, f)
    else do
      let first ← byteAt f.buffer 0
      if first = Control.ACK.byte ∨ first = Control.NAK.byte then
        let c ← control first
        let rest ← loop fuel (f.discard 1)
        return (Emitted.append { events := [(f.offset, .control c)] } rest.1, rest.2)
      else if first ≠ STX then
        loop fuel ({ f with stats.noise_bytes := f.stats.noise_bytes + 1 }.discard 1)
      else if f.buffer.length < 4 then return ({}, f)
      else
        let length := fromBytesLittle (slice f.buffer 2 4)
        if ¬ (1 ≤ length ∧ length ≤ MAX_PAYLOAD) then
          loop fuel ({ f with stats.invalid_lengths := f.stats.invalid_lengths + 1 }.discard 1)
        else
          let total := length + 6
          if f.buffer.length < total then return ({}, f)
          else
            let raw := f.buffer.take total
            let candidate := FrameCandidate.ofRaw f.offset raw
            if candidate.crc_valid = false then
              let rest ← loop fuel ({ f with stats.crc_errors := f.stats.crc_errors + 1 }.discard 1)
              return (Emitted.append { candidates := [candidate] } rest.1, rest.2)
            else
              let telegram ← frame raw
              let rest ← loop fuel ({ f with stats.frames := f.stats.frames + 1 }.discard total)
              return (Emitted.append
                { events := [(f.offset, .frame telegram)], candidates := [candidate] } rest.1, rest.2)

/-- Buffer new data and scan it. -/
def feed (f : Framer) (data : Bytes) : Except Raised (Emitted × Framer) :=
  let f := { f with buffer := f.buffer ++ data }
  loop f.buffer.length f

/-- Caller detected a stale incomplete frame; recover any valid frames behind it. -/
def expire (f : Framer) : Except Raised (Emitted × Framer) :=
  if f.buffer = [] then return ({}, f)
  else feed ({ f with stats.truncated_frames := f.stats.truncated_frames + 1 }.discard 1) []

/-- Read a telegram as a response. -/
def response (frame : Frame) (address : ℕ) : Except Raised Response := do
  if frame.address.toNat ∉ expectedAddresses address then
    throw (.error (.protocol "Unexpected response address"))
  let short ← if frame.payload.length < 2 then pure true
    else (fun command => decide (command < 0x80)) <$> byteAt frame.payload 0
  if short = true then throw (.error (.protocol "Invalid response payload"))
  let command ← byteAt frame.payload 0
  let last ← byteAt frame.payload (frame.payload.length - 1)
  let status ← documented (StatusByte.decode last)
  if command = 0x92 then
    throw (.error (.device "Scanner rejected the command or its operating-state sequence (92h)"))
  return ⟨command, slice frame.payload 1 (frame.payload.length - 1), status, frame⟩

/-- Reading a byte which is there. -/
theorem byteAt_cons_zero (b : UInt8) (rest : Bytes) : byteAt (b :: rest) 0 = .ok b := rfl

theorem control_eq_ok {b : UInt8} {c : Control} (h : Control.ofByte b = some c) : control b = .ok c := by
  rw [control, h]

/-- The controls are the bytes the loop looks for. -/
theorem isControl_iff {b : UInt8} :
    (b = Control.ACK.byte ∨ b = Control.NAK.byte) ↔ ∃ c, Control.ofByte b = some c := by
  constructor
  · rintro (rfl | rfl)
    · exact ⟨.ACK, rfl⟩
    · exact ⟨.NAK, rfl⟩
  · rintro ⟨c, hc⟩
    by_contra h
    have hack : ¬ b = 0x06 := (not_or.mp h).1
    have hnak : ¬ b = 0x15 := (not_or.mp h).2
    rw [Control.ofByte, if_neg hack, if_neg hnak] at hc
    cases hc

/-- The header of a candidate is there. -/
theorem frame_eq_ok {raw : Bytes} (h : 1 < raw.length) : frame raw = .ok (Frame.ofRaw raw) := by
  rw [frame, byteAt_eq_ok h]
  rfl

/-- The loop raises nothing. -/
theorem loop_eq_ok (fuel : ℕ) (f : Framer) : loop fuel f = .ok (Framer.loop fuel f) := by
  induction fuel generalizing f with
  | zero => rfl
  | succ fuel ih =>
    unfold loop Framer.loop
    cases hbuffer : f.buffer with
    | nil => rfl
    | cons first rest =>
      rw [if_neg (List.cons_ne_nil _ _), byteAt_cons_zero]
      change (if _ then _ else _) = _
      dsimp only
      cases hcontrol : Control.ofByte first with
      | some c =>
        rw [if_pos (isControl_iff.mpr ⟨c, hcontrol⟩), control_eq_ok hcontrol, ih]
        rfl
      | none =>
        have hplain : ¬ ∃ c, Control.ofByte first = some c := by simp [hcontrol]
        rw [if_neg (isControl_iff.not.mpr hplain)]
        dsimp only
        split_ifs with hnoise hheader hlength htotal hcrc
        · exact ih _
        · rfl
        · rfl
        · rw [ih]
          rfl
        · have htake : 1 < ((first :: rest).take (fromBytesLittle (slice (first :: rest) 2 4) + 6)).length := by
            rw [List.length_take]
            omega
          rw [frame_eq_ok htake, ih]
          rfl
        · exact ih _

theorem feed_eq_ok (f : Framer) (data : Bytes) : feed f data = .ok (f.feed data) := loop_eq_ok _ _

theorem expire_eq_ok (f : Framer) : expire f = .ok f.expire := by
  unfold expire Framer.expire
  split
  · rfl
  · exact feed_eq_ok _ _

/-- Reading a telegram as a response raises nothing but documented exceptions. -/
theorem response_eq_documented (frame : Frame) (address : ℕ) :
    response frame address = documented (Lms200.response frame address) := by
  obtain ⟨address', payload, raw⟩ := frame
  unfold response Lms200.response
  by_cases haddress : address'.toNat ∉ expectedAddresses address
  · rw [if_pos haddress, if_pos haddress]
    rfl
  rw [if_neg haddress, if_neg haddress]
  match payload with
  | [] => rfl
  | [command] => rfl
  | command :: second :: rest =>
    have hlast : byteAt (command :: second :: rest) ((command :: second :: rest).length - 1) =
        .ok ((command :: second :: rest).getLastD 0) := by
      rw [byteAt_eq_ok (by simp), List.getLastD_eq_getLast?, List.getLast?_eq_getElem?,
        List.getD_eq_getElem?_getD]
    have hdata : slice (command :: second :: rest) 1 ((command :: second :: rest).length - 1) =
        ((command :: second :: rest).drop 1).dropLast := by
      rw [slice, ← List.dropLast_eq_take]
      rfl
    have hlong : ¬ (command :: second :: rest).length < 2 := by simp
    have hcode : (⟨address', command :: second :: rest, raw⟩ : Frame).command = command := rfl
    simp only [hcode, hlong, hlast, hdata, byteAt_cons_zero, if_false, false_or]
    change (if decide (command < 0x80) = true then _ else _) = _
    simp only [decide_eq_true_eq]
    split
    · rfl
    · change documented (StatusByte.decode ((command :: second :: rest).getLastD 0)) >>= _ = _
      cases StatusByte.decode ((command :: second :: rest).getLastD 0) with
      | error e => rfl
      | ok status =>
        change (if command = 0x92 then _ else _) = documented (if command = 0x92 then _ else _)
        split <;> rfl

end Raising

end Lms200
