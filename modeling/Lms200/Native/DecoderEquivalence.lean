import Lms200.Native.Decoder
import Lms200.Protocol.OfflineScan

/-!
# The two decoders see the same stream

The native decoder rejects noise in runs and recovers stuck candidates inside one terminal
parse; the Python framer discards noise byte by byte and is expired repeatedly. Both follow
the decisions of the same lexer, so their controls and frames, the offsets of these and
their counts agree for every stream and every two ways of cutting it.
-/

namespace Lms200.Native

open Resync

/-- Joining two bytes into a word loses nothing. -/
theorem join_toNat (low high : UInt8) :
    (low.toUInt16 ||| (high.toUInt16 <<< 8)).toNat = low.toNat ||| (high.toNat <<< 8) := by
  have hhigh := high.toNat_lt
  have hfits : high.toNat <<< 8 < 2 ^ 16 := by
    rw [Nat.shiftLeft_eq]
    omega
  rw [UInt16.toNat_or, UInt8.toNat_toUInt16, UInt16.toNat_shiftLeft, UInt8.toNat_toUInt16,
    show (8 : UInt16).toNat % 16 = 8 from rfl, Nat.mod_eq_of_lt hfits]

/-- One byte of the native checksum is one byte of the Python checksum. -/
theorem crcStep_toNat (state : UInt16 × UInt8) (byte : UInt8) :
    Lms200.crcStep (state.1.toNat, state.2.toNat) byte =
      ((crcStep state byte).1.toNat, (crcStep state byte).2.toNat) := by
  obtain ⟨crc, previous⟩ := state
  have hcarry : (crc &&& 0x8000 ≠ 0) ↔ (crc.toNat &&& 0x8000 ≠ 0) := by
    rw [← UInt16.toNat_inj.ne]
    simp
  have hshift : (crc <<< 1).toNat = (crc.toNat <<< 1) % 2 ^ 16 := by simp
  have hword : ((previous.toUInt16 <<< 8) ||| byte.toUInt16).toNat =
      (previous.toNat <<< 8) ||| byte.toNat := by
    rw [UInt16.or_comm, join_toNat, Nat.or_comm]
  have hmask : ∀ n : ℕ, n &&& 0xFFFF = n % 2 ^ 16 := fun n => Nat.and_two_pow_sub_one_eq_mod n 16
  simp only [Lms200.crcStep, crcStep, hmask, UInt16.toNat_xor, hword, Prod.mk.injEq, and_true]
  congr 1
  by_cases h : crc &&& 0x8000 ≠ 0
  · rw [if_pos h, if_pos (hcarry.mp h), UInt16.toNat_xor, hshift, Nat.xor_mod_two_pow]
    rfl
  · rw [if_neg h, if_neg (mt hcarry.mpr h), hshift, Nat.xor_zero]

/-- The two checksums are the same number. -/
theorem crc16_toNat (data : Bytes) : (crc16 data).toNat = Lms200.crc16 data := by
  have hfold : ∀ state : UInt16 × UInt8,
      data.foldl Lms200.crcStep (state.1.toNat, state.2.toNat) =
        ((data.foldl crcStep state).1.toNat, (data.foldl crcStep state).2.toNat) := by
    induction data with
    | nil => exact fun _ => rfl
    | cons byte rest ih =>
      intro state
      rw [List.foldl_cons, List.foldl_cons, crcStep_toNat]
      exact ih _
  exact (congrArg Prod.fst (hfold (0, 0))).symm

/-- A native word is the little-endian number of its two bytes. -/
theorem word_toNat {bytes : Bytes} {position : ℕ} (h : position + 2 ≤ bytes.length) :
    (word bytes position).toNat = fromBytesLittle (slice bytes position (position + 2)) := by
  have hslice : slice bytes position (position + 2) =
      [bytes.getD position 0, bytes.getD (position + 1) 0] := by
    have hlow : position < bytes.length := by omega
    have hhigh : position + 1 < bytes.length := by omega
    rw [slice, List.drop_take, show position + 2 - position = 2 by omega,
      List.drop_eq_getElem_cons hlow, List.drop_eq_getElem_cons hhigh,
      List.getD_eq_getElem _ _ hlow, List.getD_eq_getElem _ _ hhigh]
    rfl
  have hlow := (bytes.getD position 0).toNat_lt
  rw [hslice, word, join_toNat, Nat.or_comm, ← Nat.shiftLeft_add_eq_or_of_lt hlow, Nat.shiftLeft_eq]
  simp only [fromBytesLittle]
  omega

/-- What both decoders can be asked about: where, which bytes, and the control or frame. -/
structure Sighting where
  offset : ℕ
  raw : Bytes
  event : Lms200.Event
  deriving DecidableEq, Repr

/-- The sighting of a Python event at its offset. -/
def framerSighting : ℕ × Lms200.Event → Sighting
  | (offset, .control c) => ⟨offset, [c.byte], .control c⟩
  | (offset, .frame f) => ⟨offset, f.raw, .frame f⟩

/-- The sighting of a native event; rejections are dropped. -/
def Event.sighting (e : Event) : Option Sighting :=
  match e.kind with
  | .Ack => some ⟨e.offset, e.raw, .control .ACK⟩
  | .Nak => some ⟨e.offset, e.raw, .control .NAK⟩
  | .Frame => some ⟨e.offset, e.raw, .frame ⟨e.frame.address, e.frame.payload, e.frame.raw⟩⟩
  | .Rejected => none

/-- The counters which mean the same on both sides. -/
def Agree (stats : FrameStats) (native : DecoderStats) : Prop :=
  stats.frames = native.valid_frames ∧ stats.crc_errors = native.crc_failures ∧
    stats.noise_bytes = native.noise

/-- The pending bytes and where they start. -/
def Decoder.cursor (d : Decoder) : Cursor UInt8 := ⟨d.offset, d.buffer⟩

/-- A native result follows the lexer's parse from the given cursor and counters. -/
structure Follows (final : Bool) (c : Cursor UInt8) (stats : FrameStats)
    (result : List Event × Decoder) : Prop where
  events : result.1.filterMap Event.sighting =
    (emittedBy (telegramLexer.parse final c).1).events.map framerSighting
  cursor : result.2.cursor = (telegramLexer.parse final c).2
  stats : Agree (stats.recordAll (telegramLexer.parse final c).1) result.2.stats

variable {final : Bool} {c : Cursor UInt8} {stats : FrameStats} {result : List Event × Decoder}

/-- One decision of the lexer, reported by one native event. -/
theorem Follows.consume {extra : ℕ} {finding : Finding} {event : Event}
    (hfront : telegramFront c.buffer = .consume extra finding)
    (hevent : event.sighting.toList = (finding.emitted c.offset).events.map framerSighting)
    (h : Follows final (c.skip (extra + 1)) (stats.record finding) result) :
    Follows final c stats (event :: result.1, result.2) := by
  have hparse := telegramLexer.parse_of_consume final (c := c) hfront
  refine ⟨?_, ?_, ?_⟩
  · rw [hparse, emittedBy, Emitted.append, List.map_append, ← h.events, ← hevent]
    cases hs : event.sighting <;> simp [hs]
  · rw [hparse]
    exact h.cursor
  · rw [hparse]
    exact h.stats

/-- A silent native event changes nothing that is compared. -/
theorem Follows.silent {event : Event} (hevent : event.sighting = none)
    (h : Follows final c stats result) : Follows final c stats (event :: result.1, result.2) :=
  ⟨by rw [← h.events]; simp [hevent], h.cursor, h.stats⟩

/-- The lexer drops one byte of noise. -/
theorem telegramFront_noise {b : UInt8} {rest : Bytes} (hb : isNoise b = true) :
    telegramFront (b :: rest) = .consume 0 .noise := by
  simp only [isNoise, Bool.not_eq_true', Bool.or_eq_false_iff, beq_eq_false_iff_ne] at hb
  have hcontrol : Control.ofByte b = none := by
    rw [Control.ofByte, if_neg hb.1.2, if_neg hb.2]
  simp [telegramFront, hcontrol, STX, hb.1.1]

/-- Noise bytes are consumed one by one by the lexer. -/
theorem Follows.noise {offset : ℕ} (noise rest : Bytes) (hnoise : ∀ b ∈ noise, isNoise b = true)
    (h : Follows final ⟨offset + noise.length, rest⟩
      { stats with noise_bytes := stats.noise_bytes + noise.length } result) :
    Follows final ⟨offset, noise ++ rest⟩ stats result := by
  induction noise generalizing offset stats with
  | nil => exact h
  | cons b more ih =>
    have hfront : telegramFront (b :: (more ++ rest)) = _ := telegramFront_noise (hnoise b List.mem_cons_self)
    have hrest : Follows final ⟨offset + 1, more ++ rest⟩ (stats.record .noise) result := by
      refine ih (fun x hx => hnoise x (List.mem_cons_of_mem _ hx)) ?_
      simpa only [List.length_cons, FrameStats.record, Nat.add_assoc, Nat.add_comm 1] using h
    have hparse := telegramLexer.parse_of_consume final (c := ⟨offset, b :: (more ++ rest)⟩) hfront
    refine ⟨?_, ?_, ?_⟩
    · rw [List.cons_append, hparse]
      exact hrest.events
    · rw [List.cons_append, hparse]
      exact hrest.cursor
    · rw [List.cons_append, hparse]
      exact hrest.stats

/-- A terminal parse gives up one byte where the lexer waits. -/
theorem Follows.giveUp {event : Event} (hfront : telegramFront c.buffer = .undecided)
    (hne : c.buffer ≠ []) (hevent : event.sighting = none)
    (h : Follows true (c.skip 1) (stats.record .truncated) result) :
    Follows true c stats (event :: result.1, result.2) := by
  have hparse := telegramLexer.parse_of_giveUp (c := c) hfront hne
  refine ⟨?_, ?_, ?_⟩
  · rw [hparse, List.filterMap_cons, hevent]
    exact h.events
  · rw [hparse]
    exact h.cursor
  · rw [hparse]
    exact h.stats

/-- A parse which is not terminal stops where the lexer waits. -/
theorem Follows.wait {d : Decoder} (hfront : telegramFront d.buffer = .undecided)
    (hstats : Agree stats d.stats) : Follows false d.cursor stats ([], d) := by
  have hparse := telegramLexer.parse_of_undecided (c := d.cursor) hfront
  exact ⟨by rw [hparse]; rfl, by rw [hparse], by rw [hparse]; exact hstats⟩

/-- A parse of nothing reports nothing. -/
theorem Follows.nil {d : Decoder} (hnil : d.buffer = []) (hstats : Agree stats d.stats) :
    Follows final d.cursor stats ([], d) := by
  have hparse := telegramLexer.parse_of_nil final (c := d.cursor) hnil
  exact ⟨by rw [hparse]; rfl, by rw [hparse], by rw [hparse]; exact hstats⟩

/-- The native payload length is the declared length. -/
theorem payload_size_eq {buffer : Bytes} (h : 4 ≤ buffer.length) :
    (word buffer 2).toNat = declaredLength buffer :=
  word_toNat h

/-- The native comparison of checksums is the framer's. -/
theorem received_ne_calculated_iff (buffer : Bytes) (total : ℕ) (htwo : 2 ≤ total)
    (htotal : total ≤ buffer.length) :
    word buffer (total - 2) ≠ crc16 (buffer.take (total - 2)) ↔
      (FrameCandidate.ofRaw 0 (buffer.take total)).crc_valid = false := by
  have hraw : (buffer.take total).length = total := by rw [List.length_take, min_eq_left htotal]
  have hreceived : (word buffer (total - 2)).toNat =
      fromBytesLittle ((buffer.take total).drop (total - 2)) := by
    rw [word_toNat (by omega), slice, show total - 2 + 2 = total by omega]
  have hcalculated : (crc16 (buffer.take (total - 2))).toNat =
      Lms200.crc16 ((buffer.take total).take (total - 2)) := by
    rw [crc16_toNat, List.take_take, min_eq_left (by omega)]
  simp only [FrameCandidate.crc_valid, FrameCandidate.ofRaw, hraw, beq_eq_false_iff_ne, ne_eq]
  rw [← hreceived, ← hcalculated, UInt16.toNat_inj, eq_comm]

/-- An accepted native telegram is the frame of its wire bytes. -/
theorem accept_sighting (d : Decoder) (recovering : Bool) {size : ℕ} (received calculated : UInt16)
    (htotal : size + 6 ≤ d.buffer.length) :
    (d.accept recovering size received calculated).sighting =
      some ⟨d.offset, d.buffer.take (size + 6), .frame (Frame.ofRaw (d.buffer.take (size + 6)))⟩ := by
  have hraw : (d.buffer.take (size + 6)).length = size + 6 := by
    rw [List.length_take, min_eq_left htotal]
  have haddress : (d.buffer.take (size + 6)).getD 1 0 = d.buffer.getD 1 0 := by
    simp
  have hpayload : slice (d.buffer.take (size + 6)) 4 (size + 6 - 2) = (d.buffer.drop 4).take size := by
    rw [slice, List.take_take, List.drop_take, min_eq_left (by omega),
      show size + 6 - 2 - 4 = size from rfl]
  simp only [Decoder.accept, Event.sighting, Frame.ofRaw, hraw, haddress, hpayload]

/-- What one pass of the loop may do: stop, or report an event, be recovering or not from then on,
and leave a shorter buffer. -/
inductive Pass (final recovering : Bool) (d : Decoder) : Option (Event × Bool × Decoder) → Prop
  | empty (h : d.buffer = []) : Pass final recovering d none
  | wait (hfinal : final = false) (h : telegramFront d.buffer = .undecided) :
      Pass final recovering d none
  | control (c : Control) (h : telegramFront d.buffer = .consume 0 (.control c)) :
      Pass final recovering d
        (some (d.control recovering c.byte, recovering, (d.countControl c.byte).consume 1))
  | noise (run : Bytes) (hrun : d.buffer = run ++ d.buffer.drop run.length) (hpos : 0 < run.length)
      (hall : ∀ b ∈ run, isNoise b = true) :
      Pass final recovering d
        (some (d.rejection run "Unclassified bytes outside a telegram", recovering,
          { d.reject with stats.noise := d.stats.noise + run.length }.consume run.length))
  | giveUp (reason : String) (hfinal : final = true) (hne : d.buffer ≠ [])
      (h : telegramFront d.buffer = .undecided) :
      Pass final recovering d
        (some (d.rejection d.buffer reason, true,
          { d.reject with ambiguous_controls := true }.consume 1))
  | invalidLength (h : telegramFront d.buffer = .consume 0 .invalidLength) :
      Pass final recovering d
        (some (d.rejection (d.buffer.take 4)
          "Invalid length; payload must be 1..808 bytes (total at most 814)", recovering,
          { d.reject with ambiguous_controls := true }.consume 1))
  | badCrc (size : ℕ) (h : telegramFront d.buffer = .consume 0 (.badCrc (d.buffer.take (size + 6)))) :
      Pass final recovering d
        (some (d.crcMismatch (size + 6) (word d.buffer (size + 4)) (crc16 (d.buffer.take (size + 4))),
          recovering, { d.reject with
            stats.crc_failures := d.stats.crc_failures + 1, ambiguous_controls := true }.consume 1))
  | frame (size : ℕ) (hsize : size + 6 ≤ d.buffer.length)
      (h : telegramFront d.buffer = .consume (size + 5) (.frame (d.buffer.take (size + 6)))) :
      Pass final recovering d
        (some (d.accept recovering size (word d.buffer (size + 4)) (crc16 (d.buffer.take (size + 4))),
          recovering, { Decoder.consume { d with
            stats.valid_frames := d.stats.valid_frames + 1 } (size + 6) with
            ambiguous_controls := false }))

/-- Go round the loop again after a pass which has reported an event. -/
def proceed (final : Bool) (fuel : ℕ) (d : Decoder) :
    Option (Event × Bool × Decoder) → List Event × Decoder
  | none => ([], d)
  | some (event, recovering, next) =>
    (event :: (next.loop final fuel recovering).1, (next.loop final fuel recovering).2)

/-- Every pass of the loop is one of these, decided where the lexer decides. -/
theorem loop_pass (final : Bool) (fuel : ℕ) (recovering : Bool) (d : Decoder) :
    ∃ outcome, Pass final recovering d outcome ∧
      d.loop final (fuel + 1) recovering = proceed final fuel d outcome := by
  obtain ⟨buffer, offset, stats, ambiguous⟩ := d
  rw [Decoder.loop]
  dsimp only
  cases buffer with
  | nil => exact ⟨_, .empty rfl, rfl⟩
  | cons first rest =>
    -- Where the lexer waits, a terminal pass rejects one byte and any other stops.
    have hwait : ∀ reason, telegramFront (first :: rest) = .undecided →
        ∃ outcome, Pass final recovering ⟨first :: rest, offset, stats, ambiguous⟩ outcome ∧
          (if final = true then
            (Decoder.rejection ⟨first :: rest, offset, stats, ambiguous⟩ (first :: rest) reason ::
              (({ Decoder.reject ⟨first :: rest, offset, stats, ambiguous⟩ with
                ambiguous_controls := true }.consume 1).loop final fuel true).1,
              (({ Decoder.reject ⟨first :: rest, offset, stats, ambiguous⟩ with
                ambiguous_controls := true }.consume 1).loop final fuel true).2)
            else ([], ⟨first :: rest, offset, stats, ambiguous⟩)) =
          proceed final fuel ⟨first :: rest, offset, stats, ambiguous⟩ outcome := by
      intro reason hfront
      by_cases hfinal : final = true
      · rw [if_pos hfinal]
        exact ⟨_, .giveUp reason hfinal (List.cons_ne_nil _ _) hfront, rfl⟩
      · rw [if_neg hfinal]
        exact ⟨_, .wait (Bool.not_eq_true _ ▸ hfinal) hfront, rfl⟩
    dsimp only
    by_cases hcontrol : first = 0x06 ∨ first = 0x15
    · rw [if_pos hcontrol]
      rcases hcontrol with rfl | rfl
      · exact ⟨_, .control .ACK rfl, rfl⟩
      · exact ⟨_, .control .NAK rfl, rfl⟩
    rw [if_neg hcontrol]
    by_cases hstx : first ≠ 0x02
    · rw [if_pos hstx]
      have hfirst : isNoise first = true := by
        simpa [isNoise, and_assoc] using ⟨hstx, not_or.mp hcontrol⟩
      have hdrop : (first :: rest).drop ((first :: rest).takeWhile isNoise).length =
          (first :: rest).dropWhile isNoise := by
        nth_rewrite 2 [← List.takeWhile_append_dropWhile (p := isNoise) (l := first :: rest)]
        exact List.drop_left
      refine ⟨_, .noise ((first :: rest).takeWhile isNoise) ?_ ?_
        (List.all_eq_true.mp List.all_takeWhile), rfl⟩
      · rw [hdrop, List.takeWhile_append_dropWhile]
      · rw [List.takeWhile_cons_of_pos hfirst]
        exact Nat.succ_pos _
    rw [if_neg hstx]
    obtain rfl : first = STX := not_not.mp hstx
    have hfront : telegramFront (STX :: rest) = candidateFront (STX :: rest) := by
      simp [telegramFront, ofByte_STX]
    rw [candidateFront] at hfront
    by_cases hheader : (STX :: rest).length < 4
    · rw [if_pos hheader] at hfront ⊢
      exact hwait _ hfront
    have hlen := payload_size_eq (not_lt.mp hheader)
    rw [if_neg hheader] at hfront ⊢
    rw [hlen]
    by_cases hlength : 1 ≤ declaredLength (STX :: rest) ∧ declaredLength (STX :: rest) ≤ MAX_PAYLOAD
    swap
    · rw [if_pos hlength] at hfront
      rw [if_pos (by simp only [MAX_PAYLOAD] at hlength; omega)]
      exact ⟨_, .invalidLength hfront, rfl⟩
    rw [if_neg (not_not.mpr hlength)] at hfront
    rw [if_neg (by simp only [MAX_PAYLOAD] at hlength; omega)]
    by_cases htotal : (STX :: rest).length < declaredLength (STX :: rest) + 6
    · rw [if_pos htotal] at hfront ⊢
      exact hwait _ hfront
    have hchecksum := received_ne_calculated_iff (STX :: rest)
      (declaredLength (STX :: rest) + 6) (by omega) (not_lt.mp htotal)
    rw [if_neg htotal] at hfront ⊢
    by_cases hvalid : (FrameCandidate.ofRaw 0
        ((STX :: rest).take (declaredLength (STX :: rest) + 6))).crc_valid = false
    · rw [if_pos hvalid] at hfront
      rw [if_pos (hchecksum.mpr hvalid)]
      exact ⟨_, .badCrc _ hfront, rfl⟩
    · rw [if_neg hvalid] at hfront
      rw [if_neg (mt hchecksum.mp hvalid)]
      exact ⟨_, .frame _ (not_lt.mp htotal) hfront, rfl⟩

@[simp] theorem Decoder.cursor_consume (d : Decoder) (count : ℕ) :
    (d.consume count).cursor = d.cursor.skip count := rfl

@[simp] theorem Decoder.cursor_countControl (d : Decoder) (byte : UInt8) :
    (d.countControl byte).cursor = d.cursor := by
  unfold Decoder.countControl
  split <;> rfl

/-- A pass which goes on has consumed some of the pending bytes and counts no received ones. -/
theorem Pass.consumes {recovering recovering' : Bool} {d d' : Decoder} {event : Event}
    (h : Pass final recovering d (some (event, recovering', d'))) :
    ∃ count, 0 < count ∧ count ≤ d.buffer.length ∧ d'.cursor = d.cursor.skip count ∧
      d'.stats.raw_bytes = d.stats.raw_bytes := by
  cases h with
  | control c hfront =>
    refine ⟨1, Nat.one_pos, Nat.succ_le_of_lt (telegramFront_fits hfront), by simp, ?_⟩
    simp only [Decoder.consume, Decoder.countControl]
    split <;> rfl
  | noise run hrun hpos hall =>
    refine ⟨run.length, hpos, ?_, rfl, rfl⟩
    rw [hrun, List.length_append]
    exact Nat.le_add_right _ _
  | giveUp reason hfinal hne hfront => exact ⟨1, Nat.one_pos, List.length_pos_of_ne_nil hne, rfl, rfl⟩
  | invalidLength hfront => exact ⟨1, Nat.one_pos, telegramFront_fits hfront, rfl, rfl⟩
  | badCrc size hfront => exact ⟨1, Nat.one_pos, telegramFront_fits hfront, rfl, rfl⟩
  | frame size hsize hfront => exact ⟨size + 6, Nat.succ_pos _, hsize, rfl, rfl⟩

/-- A pass which goes on leaves a shorter buffer. -/
theorem Pass.shorter {recovering recovering' : Bool} {d d' : Decoder} {event : Event}
    (h : Pass final recovering d (some (event, recovering', d'))) :
    d'.buffer.length < d.buffer.length := by
  obtain ⟨count, hpos, hle, hcursor, -⟩ := h.consumes
  rw [show d'.buffer = d.buffer.drop count from congrArg Cursor.buffer hcursor, List.length_drop]
  omega

/-- The native loop follows the lexer, whatever it has already rejected. -/
theorem loop_follows (final : Bool) (fuel : ℕ) (recovering : Bool) (d : Decoder) (stats : FrameStats)
    (hfuel : d.buffer.length ≤ fuel) (hstats : Agree stats d.stats) :
    Follows final d.cursor stats (d.loop final fuel recovering) := by
  induction fuel generalizing recovering d stats with
  | zero => exact Follows.nil (List.length_eq_zero_iff.mp (Nat.le_zero.mp hfuel)) hstats
  | succ fuel ih =>
    obtain ⟨outcome, hpass, hloop⟩ := loop_pass final fuel recovering d
    obtain ⟨hframes, hcrc, hnoise⟩ := hstats
    rw [hloop]
    have hnext : ∀ {event recovering' d'} (stats' : FrameStats),
        outcome = some (event, recovering', d') → Agree stats' d'.stats →
        Follows final d'.cursor stats' (d'.loop final fuel recovering') := by
      rintro event recovering' d' stats' rfl hagree
      exact ih recovering' d' stats' (by have := hpass.shorter; omega) hagree
    cases hpass with
    | empty hnil => exact Follows.nil hnil ⟨hframes, hcrc, hnoise⟩
    | wait hfinal hfront =>
      subst hfinal
      exact Follows.wait hfront ⟨hframes, hcrc, hnoise⟩
    | control c hfront =>
      have hrest := hnext stats rfl (by cases c <;> exact ⟨hframes, hcrc, hnoise⟩)
      rw [Decoder.cursor_consume, Decoder.cursor_countControl] at hrest
      refine Follows.consume hfront ?_ hrest
      cases c <;> rfl
    | noise run hrun hpos hall =>
      -- The native decoder takes the whole run of noise in one pass.
      have hrest := hnext { stats with noise_bytes := stats.noise_bytes + run.length } rfl
        ⟨hframes, hcrc, congrArg (· + run.length) hnoise⟩
      have hfollows := Follows.noise run (d.buffer.drop run.length) hall hrest
      rw [← hrun] at hfollows
      exact Follows.silent rfl hfollows
    | giveUp reason hfinal hne hfront =>
      subst hfinal
      exact Follows.giveUp hfront hne rfl (hnext _ rfl ⟨hframes, hcrc, hnoise⟩)
    | invalidLength hfront =>
      exact Follows.consume hfront rfl (hnext _ rfl ⟨hframes, hcrc, hnoise⟩)
    | badCrc size hfront =>
      exact Follows.consume hfront rfl (hnext _ rfl ⟨hframes, congrArg (· + 1) hcrc, hnoise⟩)
    | frame size hsize hfront =>
      refine Follows.consume hfront ?_ (hnext _ rfl ⟨congrArg (· + 1) hframes, hcrc, hnoise⟩)
      rw [accept_sighting _ _ _ _ hsize]
      rfl

/-- Receiving a chunk follows the lexer. -/
theorem feed_follows (d : Decoder) (stats : FrameStats) (chunk : Bytes)
    (hstats : Agree stats d.stats) : Follows false (d.cursor.push chunk) stats (d.feed chunk) :=
  loop_follows false _ false { d with
    stats.raw_bytes := d.stats.raw_bytes + chunk.length, buffer := d.buffer ++ chunk } stats le_rfl hstats

/-- Receiving chunks follows the lexer. -/
theorem feedAll_follows (d : Decoder) (stats : FrameStats) (chunks : List Bytes)
    (hstats : Agree stats d.stats) :
    let parsed := telegramLexer.feedAll d.cursor chunks
    let received := d.feedAll chunks
    received.1.filterMap Event.sighting = (emittedBy parsed.1).events.map framerSighting ∧
      received.2.cursor = parsed.2 ∧ Agree (stats.recordAll parsed.1) received.2.stats := by
  induction chunks generalizing d stats with
  | nil => exact ⟨rfl, rfl, hstats⟩
  | cons chunk rest ih =>
    have hnow := feed_follows d stats chunk hstats
    obtain ⟨hevents, hcursor, hlater⟩ := ih (d.feed chunk).2 _ hnow.stats
    have hfeed : (d.feed chunk).2.cursor = (telegramLexer.feed d.cursor chunk).2 := hnow.cursor
    rw [hfeed] at hevents hcursor hlater
    refine ⟨?_, hcursor, ?_⟩
    · simp only [Decoder.feedAll, Lexer.feedAll, List.filterMap_append, emittedBy_append,
        Emitted.append, List.map_append, hevents]
      exact congrArg (· ++ _) hnow.events
    · simp only [Decoder.feedAll, Lexer.feedAll, FrameStats.recordAll_append]
      exact hlater

/-- Feeding chunks and finishing is one terminal parse of the whole stream. -/
theorem feedAll_finish_follows (chunks : List Bytes) :
    let received := ({} : Decoder).feedAll chunks
    let finished := received.2.finish
    let tokens := telegramLexer.finish ⟨0, chunks.flatten⟩
    (received.1 ++ finished.1).filterMap Event.sighting =
        (emittedBy tokens).events.map framerSighting ∧
      finished.2.buffer = [] ∧
      Agree (({} : FrameStats).recordAll tokens) finished.2.stats := by
  have hsettled : telegramLexer.Settled ({} : Decoder).cursor := telegramLexer.front_nil
  obtain ⟨hevents, hcursor, hstats⟩ := feedAll_follows {} {} chunks ⟨rfl, rfl, rfl⟩
  have hfinish := loop_follows true _ false (({} : Decoder).feedAll chunks).2 _ le_rfl hstats
  have htotal := telegramLexer.feedAll_finish _ hsettled chunks
  have hpush : ({} : Decoder).cursor.push chunks.flatten = ⟨0, chunks.flatten⟩ := by
    simp [Decoder.cursor, Cursor.push]
  rw [hpush] at htotal
  have hparse : ∀ c, telegramLexer.parse true c =
      (telegramLexer.finish c, ⟨c.offset + c.buffer.length, []⟩) := fun c => rfl
  obtain ⟨hfinishEvents, hfinishCursor, hfinishStats⟩ := hfinish
  rw [hparse] at hfinishEvents hfinishCursor hfinishStats
  refine ⟨?_, ?_, ?_⟩
  · rw [List.filterMap_append, hevents, ← htotal, emittedBy_append, Emitted.append, List.map_append,
      ← hcursor]
    exact congrArg (_ ++ ·) hfinishEvents
  · exact congrArg Cursor.buffer hfinishCursor
  · rw [← htotal, FrameStats.recordAll_append, ← hcursor]
    exact hfinishStats

/-- The Python framer, drained, and the native decoder, finished, report the same controls and
frames at the same offsets and count the same frames, checksum failures and noise bytes. -/
theorem framer_decoder_equivalent (pythonChunks nativeChunks : List Bytes)
    (h : pythonChunks.flatten = nativeChunks.flatten) :
    let fed := ({} : Framer).feedAll pythonChunks
    let drained := fed.2.drain
    let received := ({} : Decoder).feedAll nativeChunks
    let finished := received.2.finish
    (fed.1.events ++ drained.1.events).map framerSighting =
        (received.1 ++ finished.1).filterMap Event.sighting ∧
      drained.2.buffer = [] ∧ finished.2.buffer = [] ∧
      drained.2.stats.frames = finished.2.stats.valid_frames ∧
      drained.2.stats.crc_errors = finished.2.stats.crc_failures ∧
      drained.2.stats.noise_bytes = finished.2.stats.noise := by
  obtain ⟨hemitted, hframer⟩ := Prod.mk.inj (Framer.feedAll_drain pythonChunks)
  obtain ⟨hevents, hbuffer, hstats⟩ := feedAll_finish_follows nativeChunks
  rw [h] at hemitted hframer
  refine ⟨?_, by rw [hframer]; rfl, hbuffer, ?_⟩
  · rw [hevents, ← hemitted]
    rfl
  · rw [hframer]
    exact hstats

/-- A truncated false header before an ACK and a status request, cut differently on the two sides. -/
theorem framer_decoder_equivalent_truncated :
    (({} : Framer).feedAll [[0x02, 0x06], [0x02, 0x00, 0x01, 0x00, 0x31, 0x15, 0x12]]).2.drain.2.buffer =
        [] ∧
      ((({} : Decoder).feedAll [[0x02], [0x06, 0x02, 0x00, 0x01, 0x00, 0x31, 0x15, 0x12]]).2.finish).2.buffer =
        [] :=
  ⟨(framer_decoder_equivalent [[0x02, 0x06], [0x02, 0x00, 0x01, 0x00, 0x31, 0x15, 0x12]]
      [[0x02], [0x06, 0x02, 0x00, 0x01, 0x00, 0x31, 0x15, 0x12]] (by decide)).2.1,
    (framer_decoder_equivalent [[0x02, 0x06], [0x02, 0x00, 0x01, 0x00, 0x31, 0x15, 0x12]]
      [[0x02], [0x06, 0x02, 0x00, 0x01, 0x00, 0x31, 0x15, 0x12]] (by decide)).2.2.1⟩

end Lms200.Native
