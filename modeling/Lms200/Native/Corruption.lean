import Lms200.Native.DecoderEquivalence
import Lms200.Protocol.Damage
import Lms200.Protocol.Evidence

/-!
# One corrupted byte is always noticed

A telegram with one byte altered outside its length field is no telegram: an altered message has
another checksum, an altered checksum is not that of the message. Neither decoder emits a frame where
the telegram started, however the bytes are cut and whatever follows them.
-/

namespace Lms200

open Resync Native

/-- Two messages of one length whose checksummed forms differ at most at one position are the same. -/
theorem checksummed_eq_of_set {message other : Bytes} {i : ℕ} {b : UInt8} (hlength : other.length = message.length)
    (hi : i < (message ++ toBytesLittle (crc16 message)).length)
    (hset : other ++ toBytesLittle (crc16 other) = (message ++ toBytesLittle (crc16 message)).set i b) :
    (message ++ toBytesLittle (crc16 message)).getD i 0 = b := by
  rw [List.set_append] at hset
  by_cases hinside : i < message.length
  · -- The checksum bytes are the same, so no byte of the message can differ.
    rw [if_pos hinside] at hset
    have hsize : other.length = (message.set i b).length := by rw [hlength, List.length_set]
    obtain ⟨hother, hbytes⟩ := List.append_inj hset hsize
    have hcrc : crc16 (message.set i b) = crc16 message := by
      rw [← hother, ← fromBytesLittle_toBytesLittle (crc16_lt other), hbytes,
        fromBytesLittle_toBytesLittle (crc16_lt message)]
    rw [List.getD_append _ _ _ _ hinside, List.getD_eq_getElem _ _ hinside]
    by_contra hne
    have hmessage : message = message.take i ++ message[i] :: message.drop (i + 1) := by
      rw [← List.drop_eq_getElem_cons hinside, List.take_append_drop]
    have haltered : message.set i b = message.take i ++ b :: message.drop (i + 1) := by
      rw [List.set_eq_take_append_cons_drop, if_pos hinside]
    rw [haltered] at hcrc
    nth_rewrite 3 [hmessage] at hcrc
    exact crc16_ne_of_byte _ _ (Ne.symm hne) hcrc
  · -- The messages are the same, and so are their checksums.
    rw [if_neg hinside] at hset
    obtain ⟨rfl, hbytes⟩ := List.append_inj hset hlength
    have hbound : i - other.length < (toBytesLittle (crc16 other)).length := by
      rw [List.length_append] at hi
      omega
    rw [List.getD_append_right _ _ _ _ (Nat.not_lt.mp hinside), hbytes, List.getD_eq_getElem _ _ (by simpa using hbound)]
    exact List.getElem_set_self _

/-- One altered byte of a telegram outside its length field. -/
structure Corruption (t : Telegram) where
  position : ℕ
  inside : position < t.wire.length
  outside : position ≠ 2 ∧ position ≠ 3
  byte : UInt8
  altered : byte ≠ t.wire.getD position 0

/-- The telegram with that byte altered. -/
def Corruption.wire {t : Telegram} (c : Corruption t) : Bytes := t.wire.set c.position c.byte

/-- The declared length is unaltered. -/
theorem Corruption.declaredLength_eq {t : Telegram} (c : Corruption t) (later : Bytes) :
    declaredLength (c.wire ++ later) = t.payload.length := by
  obtain ⟨hlegal, hwire⟩ := (encode_eq_ok_iff _ _ _).mp t.encode_eq
  obtain ⟨address, low, high, rest, hbytes⟩ :
      ∃ address low high rest, t.wire = STX :: address :: low :: high :: rest := by
    rw [hwire]
    exact ⟨_, _, _, _, rfl⟩
  have hdeclared : declaredLength t.wire = t.payload.length :=
    (encode_prefix_header t.encode_eq (List.prefix_refl _)).2.2.1
  have hsame : declaredLength (c.wire ++ later) = declaredLength t.wire := by
    obtain ⟨htwo, hthree⟩ := c.outside
    rw [Corruption.wire, hbytes]
    match c.position, htwo, hthree with
    | 0, _, _ => rfl
    | 1, _, _ => rfl
    | position + 4, _, _ => rfl
  exact hsame.trans hdeclared

/-- A corrupted telegram is no telegram. -/
theorem Corruption.telegramAt_eq_none {t : Telegram} (c : Corruption t) (later : Bytes) :
    telegramAt (c.wire ++ later) = none := by
  rw [Option.eq_none_iff_forall_ne_some]
  intro f hf
  obtain ⟨-, -, -, hraw⟩ := telegramAt_header hf
  have hsize : c.wire.length = t.payload.length + 6 := by
    rw [Corruption.wire, List.length_set, encode_length t.encode_eq]
  rw [c.declaredLength_eq later, ← hsize, List.take_left] at hraw
  obtain ⟨-, hwire⟩ := (encode_eq_ok_iff _ _ _).mp t.encode_eq
  have hencode := ((telegramAt_eq_some_iff _ _).mp hf).1
  have hlength : f.payload.length = t.payload.length := by
    have := encode_length hencode
    rw [← hraw] at this
    omega
  obtain ⟨-, hother⟩ := (encode_eq_ok_iff _ _ _).mp hencode
  rw [← hraw, Corruption.wire, hwire] at hother
  have hinside := c.inside
  rw [hwire] at hinside
  have hbyte := checksummed_eq_of_set (by simp [toBytesLittle, hlength]) hinside hother.symm
  apply c.altered
  rw [hwire]
  exact hbyte.symm

/-- The framer emits no frame where a corrupted telegram starts. -/
theorem Corruption.scan_ne {t : Telegram} (c : Corruption t) (later : Bytes) (f : Frame) :
    (0, Event.frame f) ∉ scan (c.wire ++ later) := by
  intro h
  have hat := scan_frame h
  rw [List.drop_zero, c.telegramAt_eq_none] at hat
  cases hat

namespace Native

/-- A native frame is a frame of the scan, at the same offset. -/
theorem feedAll_frame {chunks : List Bytes} {e : Event} (h : e ∈ (({} : Decoder).feedAll chunks).1)
    (hkind : e.kind = .Frame) : ∃ f, (e.offset, Lms200.Event.frame f) ∈ scan chunks.flatten := by
  obtain ⟨hevents, -, -⟩ := feedAll_follows {} {} chunks ⟨rfl, rfl, rfl⟩
  have hfeed : telegramLexer.feedAll ({} : Decoder).cursor chunks = telegramLexer.run ⟨0, chunks.flatten⟩ := by
    have hsettled : telegramLexer.Settled ({} : Decoder).cursor := telegramLexer.front_nil
    rw [telegramLexer.feedAll_eq_feed _ hsettled]
    rfl
  have hsighting : e.sighting = some ⟨e.offset, e.raw, .frame ⟨e.frame.address, e.frame.payload, e.frame.raw⟩⟩ := by
    rw [Event.sighting, hkind]
  have hmem := List.mem_filterMap.mpr ⟨e, h, hsighting⟩
  rw [hevents, hfeed] at hmem
  obtain ⟨⟨offset, event⟩, hevent, hsame⟩ := List.mem_map.mp hmem
  cases event with
  | control k => simp [framerSighting] at hsame
  | frame f =>
    simp only [framerSighting, Sighting.mk.injEq] at hsame
    refine ⟨f, ?_⟩
    rw [scan, Framer.feed_eq, ← hsame.1]
    exact hevent

end Native

/-- Whatever byte of a telegram is altered outside its length field, neither decoder emits a frame where
it started, and one altered byte of a message alters its checksum in both implementations. -/
theorem corruption_rejected :
    (∀ (t : Telegram) (c : Corruption t) (chunks : List Bytes) (later : Bytes), chunks.flatten = c.wire ++ later →
      (∀ f, (0, Event.frame f) ∉ (({} : Framer).feedAll chunks).1.events) ∧
        ∀ e ∈ (({} : Decoder).feedAll chunks).1, e.kind = .Frame → e.offset ≠ 0) ∧
      ∀ (before rest : Bytes) (x y : UInt8), x ≠ y →
        crc16 (before ++ x :: rest) ≠ crc16 (before ++ y :: rest) ∧
          Native.crc16 (before ++ x :: rest) ≠ Native.crc16 (before ++ y :: rest) := by
  refine ⟨fun t c chunks later hchunks => ⟨fun f hf => ?_, fun e he hkind hoffset => ?_⟩, ?_⟩
  · rw [Framer.feedAll_eq_feed, hchunks] at hf
    exact c.scan_ne later f hf
  · obtain ⟨f, hf⟩ := Native.feedAll_frame he hkind
    rw [hoffset, hchunks] at hf
    exact c.scan_ne later f hf
  · intro before rest x y hne
    have hcrc := crc16_ne_of_byte before rest hne
    refine ⟨hcrc, fun heq => hcrc ?_⟩
    rw [← Native.crc16_toNat, ← Native.crc16_toNat, heq]

/-- The mode response with its address altered. -/
def alteredAddress : Corruption modeResponse := ⟨1, by decide, by decide, 0x80, by decide⟩

/-- An altered address, cut inside the header, with a telegram behind it. -/
theorem corruption_rejected_address :
    (∀ f, (0, Event.frame f) ∉
        (({} : Framer).feedAll [[0x02, 0x80, 0x03], [0x00, 0xA0, 0x00, 0x10, 0x36, 0x1A, 0x06]]).1.events) ∧
      crc16 ([0x02] ++ 0x81 :: [0x03, 0x00]) ≠ crc16 ([0x02] ++ 0x80 :: [0x03, 0x00]) :=
  ⟨(corruption_rejected.1 modeResponse alteredAddress
      [[0x02, 0x80, 0x03], [0x00, 0xA0, 0x00, 0x10, 0x36, 0x1A, 0x06]] [0x06] (by decide)).1,
    (corruption_rejected.2 [0x02] [0x03, 0x00] 0x81 0x80 (by decide)).1⟩

end Lms200
