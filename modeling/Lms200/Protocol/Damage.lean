import Lms200.Protocol.OfflineScan
import Lms200.Protocol.RoundTrip

/-!
# Damaged telegrams

One altered byte always changes the checksum: the shift of `crc16` is linear in exclusive or and
loses nothing, so the difference of two checksums never vanishes again. A telegram with an
altered payload or checksum byte is therefore not accepted, and the framer goes on behind its
first byte, where it reads the bytes of the damaged telegram as if they were a stream.

Which control bytes it then surfaces depends on what shields them: telegrams inside the damaged
one, and candidates which it never completes.
-/

namespace Lms200

open Resync

/-- The shift of `crc16`, with its conditional reduction. -/
def crcShift (result : ℕ) : ℕ :=
  ((result <<< 1) ^^^ (if result &&& 0x8000 ≠ 0 then 0x8005 else 0)) &&& 0xFFFF

/-- The bit which leaves the word. -/
theorem carry_iff (result : ℕ) : result &&& 0x8000 ≠ 0 ↔ result.testBit 15 = true := by
  rw [show (0x8000 : ℕ) = 2 ^ 15 from rfl, Nat.and_two_pow]
  cases result.testBit 15 <;> simp

/-- The shift is linear in exclusive or. -/
theorem crcShift_xor (a b : ℕ) : crcShift (a ^^^ b) = crcShift a ^^^ crcShift b := by
  have hcancel : ∀ c d p : ℕ, c ^^^ d = (c ^^^ p) ^^^ (d ^^^ p) := fun c d p => by
    rw [Nat.xor_assoc c p, Nat.xor_comm d p, ← Nat.xor_assoc p p, Nat.xor_self, Nat.zero_xor]
  simp only [crcShift, carry_iff, Nat.testBit_xor, Nat.shiftLeft_xor_distrib, ← Nat.and_xor_distrib_right]
  congr 1
  cases a.testBit 15 <;> cases b.testBit 15
  · simp
  · simpa using Nat.xor_assoc _ _ _
  · simpa using Nat.xor_right_comm _ _ _
  · simpa using hcancel _ _ _

theorem crcShift_of_small {d : ℕ} (h : d < 2 ^ 15) : crcShift d = 2 * d := by
  have hbit : d.testBit 15 = false := Nat.testBit_lt_two_pow h
  rw [crcShift, if_neg (by rw [carry_iff, hbit]; exact Bool.false_ne_true), Nat.xor_zero,
    Nat.shiftLeft_eq, show (0xFFFF : ℕ) = 2 ^ 16 - 1 from rfl, Nat.and_two_pow_sub_one_eq_mod]
  omega

theorem crcShift_ne_zero {d : ℕ} (hd : d < 2 ^ 16) (h : d ≠ 0) : crcShift d ≠ 0 := by
  by_cases hbit : d.testBit 15 = true
  · intro hzero
    have hlow : (crcShift d).testBit 0 = true := by
      rw [crcShift, if_pos ((carry_iff d).mpr hbit), Nat.testBit_and, Nat.testBit_xor,
        Nat.testBit_shiftLeft]
      rfl
    rw [hzero, Nat.zero_testBit] at hlow
    exact Bool.false_ne_true hlow
  · rw [Nat.testBit_eq_decide_div_mod_eq, decide_eq_true_eq] at hbit
    rw [crcShift_of_small (by omega)]
    omega

/-- Joining two bytes into a word is an exclusive or. -/
theorem join_eq_xor (previous : ℕ) (current : UInt8) :
    (previous <<< 8) ||| current.toNat = (previous <<< 8) ^^^ current.toNat := by
  refine Nat.eq_of_testBit_eq fun i => ?_
  rw [Nat.testBit_or, Nat.testBit_xor, Nat.testBit_shiftLeft]
  by_cases h : 8 ≤ i
  · have hbit : current.toNat.testBit i = false :=
      Nat.testBit_lt_two_pow (current.toNat_lt.trans_le (Nat.pow_le_pow_right (by decide) h))
    simp [hbit]
  · simp [h]

/-- How a difference between two states goes through one byte. -/
theorem crcStep_diff (r s p q : ℕ) (current other : UInt8) :
    (crcStep (r, p) current).1 ^^^ (crcStep (s, q) other).1 =
      crcShift (r ^^^ s) ^^^ ((p ^^^ q) <<< 8) ^^^ (current.toNat ^^^ other.toNat) := by
  have hstep : ∀ (r p : ℕ) (b : UInt8),
      (crcStep (r, p) b).1 = crcShift r ^^^ ((p <<< 8) ||| b.toNat) := fun _ _ _ => rfl
  rw [hstep, hstep, join_eq_xor, join_eq_xor, crcShift_xor, Nat.shiftLeft_xor_distrib]
  ac_rfl

/-- Two checksums which differ after the same byte stay different. -/
theorem foldl_crcStep_ne {r s p : ℕ} (hr : r < 2 ^ 16) (hs : s < 2 ^ 16) (hp : p < 2 ^ 8) (hne : r ≠ s)
    (rest : Bytes) : (rest.foldl crcStep (r, p)).1 ≠ (rest.foldl crcStep (s, p)).1 := by
  induction rest generalizing r s p with
  | nil => exact hne
  | cons current rest ih =>
    refine ih (crcStep_lt (r, p) current hp).1 (crcStep_lt (s, p) current hp).1 current.toNat_lt
      fun heq => ?_
    have hdiff := crcStep_diff r s p p current current
    have hsame : (crcStep (r, p) current).1 = (crcStep (s, p) current).1 := heq
    rw [hsame, Nat.xor_self, Nat.xor_self, Nat.xor_self, Nat.zero_shiftLeft, Nat.xor_zero,
      Nat.xor_zero] at hdiff
    exact crcShift_ne_zero (Nat.xor_lt_two_pow hr hs) (Nat.xor_ne_zero_iff.mpr hne) hdiff.symm

/-- Two checksums of messages which differ in one byte are different. -/
theorem crc16_ne_of_byte (before rest : Bytes) {x y : UInt8} (h : x ≠ y) :
    crc16 (before ++ x :: rest) ≠ crc16 (before ++ y :: rest) := by
  rw [crc16, crc16, List.foldl_append, List.foldl_append, List.foldl_cons, List.foldl_cons]
  obtain ⟨r, p⟩ := before.foldl crcStep (0, 0)
  set d := x.toNat ^^^ y.toNat with hd
  have hsmall : d < 2 ^ 8 := Nat.xor_lt_two_pow x.toNat_lt y.toNat_lt
  have hpos : d ≠ 0 := Nat.xor_ne_zero_iff.mpr (UInt8.toNat_inj.ne.mpr h)
  have hfirst : (crcStep (r, p) x).1 ^^^ (crcStep (r, p) y).1 = d := by
    rw [crcStep_diff, Nat.xor_self, Nat.xor_self]
    simp [crcShift, hd]
  cases rest with
  | nil => exact Nat.xor_ne_zero_iff.mp (hfirst ▸ hpos)
  | cons z rest =>
    rw [List.foldl_cons, List.foldl_cons]
    refine foldl_crcStep_ne (crcStep_lt (crcStep (r, p) x) z x.toNat_lt).1
      (crcStep_lt (crcStep (r, p) y) z y.toNat_lt).1 z.toNat_lt
      (Nat.xor_ne_zero_iff.mp ?_) rest
    have hdiff := crcStep_diff (crcStep (r, p) x).1 (crcStep (r, p) y).1 x.toNat y.toNat z z
    rw [hfirst, ← hd, Nat.xor_self, Nat.xor_zero, crcShift_of_small (by omega), Nat.shiftLeft_eq] at hdiff
    refine ne_of_eq_of_ne hdiff (Nat.xor_ne_zero_iff.mpr ?_)
    omega

/-- One altered byte of the payload or of the checksum of a telegram. -/
structure Damage (t : Telegram) where
  position : ℕ
  inside : 4 ≤ position ∧ position < t.wire.length
  byte : UInt8
  altered : byte ≠ t.wire.getD position 0

/-- The telegram with that byte altered. -/
def Damage.wire {t : Telegram} (d : Damage t) : Bytes := t.wire.set d.position d.byte

section Damaged

variable {t : Telegram} (d : Damage t)

theorem Damage.wire_length : d.wire.length = t.payload.length + 6 :=
  (List.length_set ..).trans (encode_length t.encode_eq)

/-- The header is undamaged. -/
theorem Damage.wire_header :
    d.wire.take 4 = [STX, t.address] ++ toBytesLittle t.payload.length := by
  obtain ⟨-, hwire⟩ := (encode_eq_ok_iff _ _ _).mp t.encode_eq
  rw [Damage.wire, List.take_set_of_le d.inside.1, hwire]
  simp [toBytesLittle]

theorem Damage.wire_declaredLength : declaredLength d.wire = t.payload.length := by
  have hmax := t.legal.2
  rw [declaredLength, slice, d.wire_header]
  refine fromBytesLittle_toBytesLittle ?_
  simp only [MAX_PAYLOAD] at hmax
  omega

/-- The checksum of a damaged telegram does not fit its bytes. -/
theorem Damage.crc_invalid (offset : ℕ) : (FrameCandidate.ofRaw offset d.wire).crc_valid = false := by
  obtain ⟨-, hwire⟩ := (encode_eq_ok_iff _ _ _).mp t.encode_eq
  generalize hmessage : [STX, t.address] ++ toBytesLittle t.payload.length ++ t.payload = message at hwire
  have hsize : t.wire.length - 2 = message.length := by
    rw [hwire]
    simp [toBytesLittle]
  have hlength : d.wire.length - 2 = message.length := by
    rw [Damage.wire, List.length_set]
    exact hsize
  rw [FrameCandidate.crc_valid, FrameCandidate.ofRaw, beq_eq_false_iff_ne]
  dsimp only
  rw [hlength]
  have haltered := d.altered
  have hinside := d.inside.2
  unfold Damage.wire
  by_cases hposition : d.position < message.length
  · -- The checksum bytes are those of the undamaged message.
    have htail : (t.wire.set d.position d.byte).drop message.length = toBytesLittle (crc16 message) := by
      rw [List.drop_set_of_lt hposition, hwire, List.drop_left]
    have hfront : (t.wire.set d.position d.byte).take message.length = message.set d.position d.byte := by
      rw [List.take_set, hwire, List.take_left]
    have hbyte : d.byte ≠ message[d.position] := by
      rw [hwire, List.getD_append _ _ _ _ hposition, List.getD_eq_getElem _ _ hposition] at haltered
      exact haltered
    rw [htail, hfront, fromBytesLittle_toBytesLittle (crc16_lt _),
      List.set_eq_take_append_cons_drop, if_pos hposition]
    conv_rhs => rw [← List.take_append_drop d.position message, List.drop_eq_getElem_cons hposition]
    exact crc16_ne_of_byte _ _ hbyte
  · -- The message is undamaged, and its checksum bytes are not.
    obtain ⟨shift, hshift⟩ : ∃ shift, d.position = message.length + shift :=
      ⟨d.position - message.length, by omega⟩
    have hend : shift < 2 := by omega
    have hfront : (t.wire.set d.position d.byte).take message.length = message := by
      rw [List.take_set_of_le (by omega), hwire, List.take_left]
    have htail : (t.wire.set d.position d.byte).drop message.length =
        (toBytesLittle (crc16 message)).set shift d.byte := by
      rw [List.drop_set, if_neg hposition, hwire, List.drop_left, hshift, Nat.add_sub_cancel_left]
    have hbyte : d.byte ≠ (toBytesLittle (crc16 message)).getD shift 0 := by
      rw [hwire, hshift, List.getD_append_right _ _ _ _ (Nat.le_add_right _ _),
        Nat.add_sub_cancel_left] at haltered
      exact haltered
    rw [hfront, htail]
    intro heq
    have hword := fun low high => (toBytesLittle_eq_iff (crc16_lt message) low high).mpr
    obtain rfl | rfl := Nat.le_one_iff_eq_zero_or_eq_one.mp (Nat.le_of_lt_succ hend)
    · exact hbyte (List.cons.inj (hword _ _ heq)).1.symm
    · exact hbyte (List.cons.inj (List.cons.inj (hword _ _ heq)).2).1.symm

/-- The framer discards the first byte of a damaged telegram. -/
theorem Damage.front : telegramFront d.wire = .consume 0 (.badCrc d.wire) := by
  have hlength := d.wire_length
  have hdeclared := d.wire_declaredLength
  have hlegal := t.legal
  obtain ⟨rest, hrest⟩ : ∃ rest, d.wire = STX :: rest := by
    have hheader := d.wire_header
    match hwire : d.wire with
    | [] => simp [hwire] at hlength
    | first :: rest =>
      rw [hwire] at hheader
      exact ⟨rest, by rw [(List.cons.inj hheader).1]⟩
  have hcandidate : telegramFront d.wire = candidateFront d.wire := by
    rw [hrest]
    rfl
  have htake : d.wire.take (t.payload.length + 6) = d.wire := List.take_of_length_le hlength.le
  rw [hcandidate, candidateFront, hdeclared, htake, if_neg (by omega), if_neg (not_not.mpr hlegal),
    if_neg (by omega), if_pos (d.crc_invalid 0)]

end Damaged

/-- The stretch starts with a candidate which ends behind it. -/
def unfinished (stretch : Bytes) : Prop :=
  stretch.headD 0 = STX ∧ (stretch.length < 4 ∨
    (1 ≤ declaredLength stretch ∧ declaredLength stretch ≤ MAX_PAYLOAD) ∧
      stretch.length < declaredLength stretch + 6)

/-- Every control byte of a stretch is inside one of the telegrams which tile it together with
single bytes, or behind an unfinished candidate. -/
inductive Covered : Bytes → Prop
  | nil : Covered []
  | unfinished {stretch : Bytes} (h : unfinished stretch) : Covered stretch
  | telegram {stretch : Bytes} {f : Frame} (h : telegramAt stretch = some f)
      (rest : Covered (stretch.drop f.raw.length)) : Covered stretch
  | byte {first : UInt8} {rest : Bytes} (hbyte : Control.ofByte first = none)
      (hnone : telegramAt (first :: rest) = none) (hrest : Covered rest) : Covered (first :: rest)

/-- The framer waits exactly at the end and at unfinished candidates. -/
theorem telegramFront_eq_undecided_iff (stretch : Bytes) :
    telegramFront stretch = .undecided ↔ stretch = [] ∨ unfinished stretch := by
  cases stretch with
  | nil => simp [telegramFront]
  | cons first rest =>
    have hfirst : (first :: rest).headD 0 = first := rfl
    by_cases hstx : first = STX
    · subst hstx
      have hfront : telegramFront (STX :: rest) = candidateFront (STX :: rest) := rfl
      have hne : STX :: rest ≠ [] := List.cons_ne_nil _ _
      rw [hfront]
      generalize STX :: rest = stretch at hfirst hne
      unfold candidateFront unfinished
      split_ifs with hheader hlength htotal hcrc
      · exact iff_of_true rfl (.inr ⟨hfirst, .inl hheader⟩)
      · exact iff_of_true rfl (.inr ⟨hfirst, .inr ⟨hlength, htotal⟩⟩)
      · simp [hne, hheader, htotal]
      · simp [hne, hheader, htotal]
      · simp [hne, hheader, hlength]
    · simp only [List.cons_ne_nil, false_or, unfinished, hfirst]
      rw [telegramFront]
      cases Control.ofByte first <;> simp [hstx]

namespace Framer

end Framer

end Lms200
