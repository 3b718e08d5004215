import Mathlib.Data.Nat.Bitwise

/-!
# The LMS2xx telegram checksum

`protocol/crc.py` shifts a 16-bit word once per byte and exclusive-ors the previous and the
current byte into it. Python integers are unbounded, so the mask `0xFFFF` is part of the
computation; the result always fits the two bytes of the telegram's CRC field.
-/

namespace Lms200

/-- Received and transmitted bytes. -/
abbrev Bytes := List UInt8

/-- One byte of `crc16`: the running result and the byte before this one. -/
def crcStep (state : ℕ × ℕ) (current : UInt8) : ℕ × ℕ :=
  let (result, previous) := state
  let shifted := ((result <<< 1) ^^^ (if result &&& 0x8000 ≠ 0 then 0x8005 else 0)) &&& 0xFFFF
  (shifted ^^^ ((previous <<< 8) ||| current.toNat), current.toNat)

/-- One shift per byte, XOR previous/current word; init=0, no final XOR. -/
def crc16 (data : Bytes) : ℕ := (data.foldl crcStep (0, 0)).1

/-- One byte keeps the result in 16 bits and the remembered byte in 8. -/
theorem crcStep_lt (state : ℕ × ℕ) (current : UInt8) (h : state.2 < 2 ^ 8) :
    (crcStep state current).1 < 2 ^ 16 ∧ (crcStep state current).2 < 2 ^ 8 := by
  have hmask : ∀ n : ℕ, n &&& 0xFFFF < 2 ^ 16 := fun n =>
    Nat.lt_of_le_of_lt Nat.and_le_right (by decide)
  have hcurrent : current.toNat < 2 ^ 8 := current.toNat_lt
  have hprevious : state.2 <<< 8 < 2 ^ 16 := by rw [Nat.shiftLeft_eq]; omega
  have hword : (state.2 <<< 8) ||| current.toNat < 2 ^ 16 :=
    Nat.or_lt_two_pow hprevious (hcurrent.trans (by decide))
  exact ⟨Nat.xor_lt_two_pow (hmask _) hword, hcurrent⟩

/-- The checksum always fits its two bytes. -/
theorem crc16_lt (data : Bytes) : crc16 data < 2 ^ 16 := by
  have hfold : ∀ state : ℕ × ℕ, state.1 < 2 ^ 16 → state.2 < 2 ^ 8 →
      (data.foldl crcStep state).1 < 2 ^ 16 := by
    induction data with
    | nil => exact fun _ h _ => h
    | cons current rest ih =>
      intro state _ hprevious
      have hstep := crcStep_lt state current hprevious
      exact ih _ hstep.1 hstep.2
  exact hfold (0, 0) (by decide) (by decide)

example : crc16 [0x02, 0x00, 0x01, 0x00, 0x31] = 0x1215 := by decide

end Lms200
