import Lms200.Native.DecoderEquivalence
import Lms200.Native.Handshake

/-!
# Certain controls

The decoder marks a control byte as uncertain while the last candidate it met was rejected:
the byte may belong to a corrupted telegram. The mark is a flag which lives across feeds, so
the events of the feeds are read off the tokens of the lexer with that flag carried along.
A terminal parse begins by giving up a candidate and marks everything it recovers.
-/

namespace Lms200.Native

open Resync

/-- Controls and frames; rejected stretches depend on where the stream was cut. -/
def Event.reported (e : Event) : Bool := e.kind ≠ .Rejected

/-- A rejected stretch which starts with `STX` is a candidate with a bad length or checksum. -/
def Event.rejectsCandidate (e : Event) : Prop := e.kind = .Rejected ∧ e.raw.head? = some STX

/-- A candidate was rejected and no frame has been accepted since. -/
def Uncertain (events : List Event) : Prop :=
  ∃ earlier e later, events = earlier ++ e :: later ∧ e.rejectsCandidate ∧
    ∀ f ∈ later, f.kind ≠ .Frame

/-- Every received byte is consumed or pending. -/
def Decoder.Balanced (d : Decoder) : Prop := d.offset + d.buffer.length = d.stats.raw_bytes

/-! ## The events as a function of the lexer's tokens -/

/-- The ambiguity left behind by a finding. -/
def ambiguousAfter (flag : Bool) : Finding → Bool
  | .control _ | .noise => flag
  | .frame _ => false
  | .invalidLength | .badCrc _ | .truncated => true

/-- The event of a frame on the wire. -/
def frameEvent (offset : ℕ) (raw : Bytes) : Event :=
  { kind := .Frame, offset, raw,
    frame :=
      { offset, address := raw.getD 1 0, payload := slice raw 4 (raw.length - 2), raw,
        crc_received := word raw (raw.length - 2),
        crc_calculated := crc16 (raw.take (raw.length - 2)) } }

/-- The event reported for a finding, given the ambiguity before it. -/
def report (flag : Bool) (offset : ℕ) : Finding → List Event
  | .control c => [({ offset, ambiguous_controls := flag } : Decoder).control false c.byte]
  | .frame raw => [frameEvent offset raw]
  | .noise | .invalidLength | .badCrc _ | .truncated => []

/-- The ambiguity left behind by tokens. -/
def ambiguousAfterAll (flag : Bool) (tokens : List (Token Finding)) : Bool :=
  tokens.foldl (fun flag t => ambiguousAfter flag t.finding) flag

/-- The events reported for tokens, given the ambiguity before them. -/
def reportedBy : Bool → List (Token Finding) → List Event
  | _, [] => []
  | flag, t :: rest => report flag t.offset t.finding ++ reportedBy (ambiguousAfter flag t.finding) rest

theorem reportedBy_append (flag : Bool) (left right : List (Token Finding)) :
    reportedBy flag (left ++ right) =
      reportedBy flag left ++ reportedBy (ambiguousAfterAll flag left) right := by
  induction left generalizing flag with
  | nil => rfl
  | cons t rest ih =>
    rw [List.cons_append, reportedBy, reportedBy, ih, List.append_assoc]
    rfl

theorem ambiguousAfterAll_append (flag : Bool) (left right : List (Token Finding)) :
    ambiguousAfterAll flag (left ++ right) = ambiguousAfterAll (ambiguousAfterAll flag left) right :=
  List.foldl_append

/-- A native result reports the lexer's tokens from the given cursor and ambiguity. -/
structure Reports (flag : Bool) (run : List (Token Finding) × Cursor UInt8)
    (result : List Event × Decoder) : Prop where
  events : result.1.filter Event.reported = reportedBy flag run.1
  ambiguity : result.2.ambiguous_controls = ambiguousAfterAll flag run.1
  cursor : result.2.cursor = run.2

variable {flag : Bool} {c : Cursor UInt8} {result : List Event × Decoder}

/-- One decision of the lexer, reported by one native event or by none. -/
theorem Reports.consume {extra : ℕ} {finding : Finding} {event : Event}
    (hfront : telegramFront c.buffer = .consume extra finding)
    (hevent : [event].filter Event.reported = report flag c.offset finding)
    (h : Reports (ambiguousAfter flag finding) (telegramLexer.run (c.skip (extra + 1))) result) :
    Reports flag (telegramLexer.run c) (event :: result.1, result.2) := by
  rw [telegramLexer.run_of_consume hfront]
  refine ⟨?_, h.ambiguity, h.cursor⟩
  rw [reportedBy, ← h.events, ← hevent, ← List.filter_append]
  rfl

/-- Noise bytes are consumed one by one by the lexer and change nothing. -/
theorem Reports.noise {offset : ℕ} (event : Event) (noise rest : Bytes)
    (hnoise : ∀ b ∈ noise, isNoise b = true) (hevent : event.kind = .Rejected)
    (h : Reports flag (telegramLexer.run ⟨offset + noise.length, rest⟩) result) :
    Reports flag (telegramLexer.run ⟨offset, noise ++ rest⟩) (event :: result.1, result.2) := by
  have hsilent : (event :: result.1).filter Event.reported = result.1.filter Event.reported := by
    simp [Event.reported, hevent]
  suffices Reports flag (telegramLexer.run ⟨offset, noise ++ rest⟩) result from
    ⟨hsilent.trans this.events, this.ambiguity, this.cursor⟩
  induction noise generalizing offset with
  | nil => exact h
  | cons b more ih =>
    have hfront : telegramFront (b :: (more ++ rest)) = _ := telegramFront_noise (hnoise b List.mem_cons_self)
    have hmore := @ih (offset + 1) (fun b hb => hnoise b (List.mem_cons_of_mem _ hb))
      (by rwa [List.length_cons, Nat.add_comm _ 1, ← Nat.add_assoc] at h)
    rw [List.cons_append, telegramLexer.run_of_consume (c := ⟨offset, b :: (more ++ rest)⟩) hfront]
    exact ⟨hmore.events, hmore.ambiguity, hmore.cursor⟩

/-- The event of an accepted telegram is read off its wire bytes. -/
theorem accept_eq_frameEvent (d : Decoder) {size : ℕ} (hsize : size + 6 ≤ d.buffer.length) :
    d.accept false size (word d.buffer (size + 4)) (crc16 (d.buffer.take (size + 4))) =
      frameEvent d.offset (d.buffer.take (size + 6)) := by
  have hraw : (d.buffer.take (size + 6)).length = size + 6 := by
    rw [List.length_take, min_eq_left hsize]
  have haddress : (d.buffer.take (size + 6)).getD 1 0 = d.buffer.getD 1 0 := by simp
  have hpayload : slice (d.buffer.take (size + 6)) 4 (size + 4) = (d.buffer.drop 4).take size := by
    rw [slice, List.take_take, List.drop_take, min_eq_left (by omega), Nat.add_sub_cancel]
  have hreceived : word (d.buffer.take (size + 6)) (size + 4) = word d.buffer (size + 4) := by
    simp [word, List.getD_eq_getElem?_getD]
  have hcalculated : (d.buffer.take (size + 6)).take (size + 4) = d.buffer.take (size + 4) := by
    rw [List.take_take, min_eq_left (by omega)]
  simp only [Decoder.accept, frameEvent, hraw,
    show size + 6 - 2 = size + 4 from rfl, haddress, hpayload, hreceived, hcalculated,
    Bool.false_eq_true, if_false]

/-- A parse which is not terminal reports the lexer's run. -/
theorem loop_reports (fuel : ℕ) (d : Decoder) (hfuel : d.buffer.length ≤ fuel) :
    Reports d.ambiguous_controls (telegramLexer.run d.cursor) (d.loop false fuel false) := by
  have hstop : ∀ d : Decoder, telegramFront d.buffer = .undecided →
      Reports d.ambiguous_controls (telegramLexer.run d.cursor) ([], d) := by
    intro d hfront
    rw [telegramLexer.run_of_undecided (c := d.cursor) hfront]
    exact ⟨rfl, rfl, rfl⟩
  induction fuel generalizing d with
  | zero =>
    have hnil : d.buffer = [] := List.length_eq_zero_iff.mp (Nat.le_zero.mp hfuel)
    exact hstop d (by rw [hnil]; rfl)
  | succ fuel ih =>
    obtain ⟨outcome, hpass, hloop⟩ := loop_pass false fuel false d
    rw [hloop]
    have hnext : ∀ {event recovering d'}, outcome = some (event, recovering, d') →
        Reports d'.ambiguous_controls (telegramLexer.run d'.cursor) (d'.loop false fuel false) := by
      rintro event recovering d' rfl
      exact ih d' (by have := hpass.shorter; omega)
    cases hpass with
    | empty hnil => exact hstop d (by rw [hnil]; rfl)
    | wait hfinal hfront => exact hstop d hfront
    | control c hfront =>
      have hrest := hnext rfl
      rw [Decoder.cursor_consume, Decoder.cursor_countControl] at hrest
      refine Reports.consume hfront ?_ ?_
      · cases c <;> rfl
      · cases c <;> exact hrest
    | noise run hrun hpos hall =>
      have hreports := Reports.noise (d.rejection run "Unclassified bytes outside a telegram") run
        (d.buffer.drop run.length) hall rfl (hnext rfl)
      rw [← hrun] at hreports
      exact hreports
    | giveUp reason hfinal hne hfront => cases hfinal
    | invalidLength hfront => exact Reports.consume hfront rfl (hnext rfl)
    | badCrc size hfront => exact Reports.consume hfront rfl (hnext rfl)
    | frame size hsize hfront =>
      refine Reports.consume hfront ?_ (hnext rfl)
      rw [accept_eq_frameEvent d hsize]
      rfl

/-- Receiving chunks reports the lexer's tokens. -/
theorem feedAll_reports (d : Decoder) (chunks : List Bytes) :
    Reports d.ambiguous_controls (telegramLexer.feedAll d.cursor chunks) (d.feedAll chunks) := by
  induction chunks generalizing d with
  | nil => exact ⟨rfl, rfl, rfl⟩
  | cons chunk rest ih =>
    have hnow := loop_reports _ { d with
      stats.raw_bytes := d.stats.raw_bytes + chunk.length, buffer := d.buffer ++ chunk } le_rfl
    have hlater := ih (d.feed chunk).2
    have hcursor : (d.feed chunk).2.cursor = (telegramLexer.feed d.cursor chunk).2 := hnow.cursor
    have hflag : (d.feed chunk).2.ambiguous_controls =
        ambiguousAfterAll d.ambiguous_controls (telegramLexer.feed d.cursor chunk).1 := hnow.ambiguity
    rw [hcursor, hflag] at hlater
    refine ⟨?_, ?_, hlater.cursor⟩
    · simp only [Decoder.feedAll, Lexer.feedAll, List.filter_append, reportedBy_append, hlater.events]
      exact congrArg (· ++ _) hnow.events
    · rw [Lexer.feedAll, ambiguousAfterAll_append]
      exact hlater.ambiguity

/-- The controls and frames of the feeds do not depend on the chunking. -/
theorem feedAll_reported (chunks : List Bytes) :
    (({} : Decoder).feedAll chunks).1.filter Event.reported =
      reportedBy false (telegramLexer.run ⟨0, chunks.flatten⟩).1 := by
  have hsettled : telegramLexer.Settled ({} : Decoder).cursor := telegramLexer.front_nil
  have hpush : ({} : Decoder).cursor.push chunks.flatten = ⟨0, chunks.flatten⟩ := by
    simp [Decoder.cursor, Cursor.push]
  rw [(feedAll_reports {} chunks).events, telegramLexer.feedAll_eq_feed _ hsettled, Lexer.feed, hpush]

/-! ## Which controls are certain -/

/-- Events whose controls are marked exactly while a rejected candidate is the last one met, with
the flag before and after them. -/
inductive Marked : Bool → List Event → Bool → Prop
  | nil (flag : Bool) : Marked flag [] flag
  | control {flag flag' : Bool} {e : Event} {rest : List Event} (hkind : e.kind = .Ack ∨ e.kind = .Nak)
      (hreason : e.reason = "" ↔ flag = false) (h : Marked flag rest flag') :
      Marked flag (e :: rest) flag'
  | frame {flag flag' : Bool} {e : Event} {rest : List Event} (hkind : e.kind = .Frame)
      (hreason : e.reason = "") (h : Marked false rest flag') : Marked flag (e :: rest) flag'
  | noise {flag flag' : Bool} {e : Event} {rest : List Event} (hkind : e.kind = .Rejected)
      (hraw : ¬ e.rejectsCandidate) (h : Marked flag rest flag') : Marked flag (e :: rest) flag'
  | candidate {flag flag' : Bool} {e : Event} {rest : List Event} (hraw : e.rejectsCandidate)
      (h : Marked true rest flag') : Marked flag (e :: rest) flag'

namespace Marked

variable {flag middle flag' : Bool} {events later : List Event}

theorem append (h : Marked flag events middle) (hlater : Marked middle later flag') :
    Marked flag (events ++ later) flag' := by
  induction h with
  | nil => exact hlater
  | control hkind hreason _ ih => exact .control hkind hreason (ih hlater)
  | frame hkind hreason _ ih => exact .frame hkind hreason (ih hlater)
  | noise hkind hraw _ ih => exact .noise hkind hraw (ih hlater)
  | candidate hraw _ ih => exact .candidate hraw (ih hlater)

theorem split (events : List Event) (h : Marked flag (events ++ later) flag') :
    ∃ middle, Marked flag events middle ∧ Marked middle later flag' := by
  induction events generalizing flag with
  | nil => exact ⟨flag, .nil flag, h⟩
  | cons e rest ih =>
    cases h with
    | control hkind hreason h =>
      obtain ⟨middle, hrest, hlater⟩ := ih h
      exact ⟨middle, .control hkind hreason hrest, hlater⟩
    | frame hkind hreason h =>
      obtain ⟨middle, hrest, hlater⟩ := ih h
      exact ⟨middle, .frame hkind hreason hrest, hlater⟩
    | noise hkind hraw h =>
      obtain ⟨middle, hrest, hlater⟩ := ih h
      exact ⟨middle, .noise hkind hraw hrest, hlater⟩
    | candidate hraw h =>
      obtain ⟨middle, hrest, hlater⟩ := ih h
      exact ⟨middle, .candidate hraw hrest, hlater⟩

end Marked

/-- Uncertainty looks at the first event, or is already there behind it. -/
theorem uncertain_cons (e : Event) (rest : List Event) :
    Uncertain (e :: rest) ↔
      (e.rejectsCandidate ∧ ∀ f ∈ rest, f.kind ≠ .Frame) ∨ Uncertain rest := by
  constructor
  · rintro ⟨earlier, candidate, later, hsplit, hraw, hlater⟩
    cases earlier with
    | nil =>
      obtain ⟨rfl, rfl⟩ := List.cons.inj hsplit
      exact .inl ⟨hraw, hlater⟩
    | cons first more =>
      obtain ⟨rfl, rfl⟩ := List.cons.inj hsplit
      exact .inr ⟨more, candidate, later, rfl, hraw, hlater⟩
  · rintro (⟨hraw, hlater⟩ | ⟨earlier, candidate, later, rfl, hraw, hlater⟩)
    · exact ⟨[], e, rest, rfl, hraw, hlater⟩
    · exact ⟨e :: earlier, candidate, later, rfl, hraw, hlater⟩

/-- The flag behind marked events says whether they leave uncertainty. -/
theorem Marked.flag_iff {flag flag' : Bool} {events : List Event} (h : Marked flag events flag') :
    flag' = true ↔ Uncertain events ∨ (flag = true ∧ ∀ f ∈ events, f.kind ≠ .Frame) := by
  induction h with
  | nil flag =>
    have hnone : ¬ Uncertain [] := by
      rintro ⟨earlier, candidate, later, hsplit, -⟩
      exact List.append_ne_nil_of_right_ne_nil earlier (List.cons_ne_nil _ _) hsplit.symm
    simp [hnone]
  | @control flag flag' e rest hkind hreason _ ih =>
    have hframe : e.kind ≠ .Frame := by rcases hkind with h | h <;> simp [h]
    have hraw : ¬ e.rejectsCandidate := by rcases hkind with h | h <;> simp [Event.rejectsCandidate, h]
    simp [ih, uncertain_cons, hframe, hraw]
  | @frame flag flag' e rest hkind hreason _ ih =>
    have hraw : ¬ e.rejectsCandidate := by simp [Event.rejectsCandidate, hkind]
    simp [ih, uncertain_cons, hkind, hraw]
  | noise hkind hraw _ ih => simp [ih, uncertain_cons, hkind, hraw]
  | @candidate flag flag' e rest hraw _ ih =>
    rw [ih, uncertain_cons, List.forall_mem_cons]
    constructor
    · rintro (h | ⟨-, h⟩)
      · exact .inl (.inr h)
      · exact .inl (.inl ⟨hraw, h⟩)
    · rintro ((⟨-, h⟩ | h) | ⟨-, -, h⟩)
      · exact .inr ⟨rfl, h⟩
      · exact .inl h
      · exact .inr ⟨rfl, h⟩

/-- Among marked events a control is certain unless what precedes it leaves uncertainty. -/
theorem Marked.control_reason {flag' : Bool} {before after : List Event} {e : Event}
    (h : Marked false (before ++ e :: after) flag') (hkind : e.kind = .Ack ∨ e.kind = .Nak) :
    e.reason = "" ↔ ¬ Uncertain before := by
  obtain ⟨middle, hbefore, hlater⟩ := h.split
  have hflag : middle = true ↔ Uncertain before := by simpa using hbefore.flag_iff
  cases hlater with
  | control _ hreason _ => rw [hreason, ← hflag, Bool.not_eq_true]
  | frame hframe _ _ => rcases hkind with h | h <;> simp [h] at hframe
  | noise hrejected _ _ => rcases hkind with h | h <;> simp [h] at hrejected
  | candidate hraw _ => rcases hkind with h | h <;> simp [Event.rejectsCandidate, h] at hraw

/-- Among marked events frames have no reason. -/
theorem Marked.frame_reason {flag flag' : Bool} {events : List Event} (h : Marked flag events flag')
    {e : Event} (he : e ∈ events) (hkind : e.kind = .Frame) : e.reason = "" := by
  obtain ⟨before, after, rfl⟩ := List.append_of_mem he
  obtain ⟨middle, -, hlater⟩ := h.split
  cases hlater with
  | control hcontrol _ _ => rcases hcontrol with h | h <;> simp [hkind] at h
  | frame _ hreason _ => exact hreason
  | noise hrejected _ _ => simp [hkind] at hrejected
  | candidate hraw _ => simp [Event.rejectsCandidate, hkind] at hraw

/-- The lexer rejects only candidates and noise. -/
theorem telegramFront_stx {buffer : Bytes} {extra : ℕ} {finding : Finding}
    (h : telegramFront buffer = .consume extra finding) (hcontrol : ∀ c, finding ≠ .control c)
    (hnoise : finding ≠ .noise) : ∃ rest, buffer = STX :: rest := by
  cases buffer with
  | nil => cases h
  | cons first rest =>
    simp only [telegramFront] at h
    cases hc : Control.ofByte first with
    | some c =>
      rw [hc] at h
      exact absurd (Verdict.consume.inj h).2.symm (hcontrol c)
    | none =>
      by_cases hfirst : first = STX
      · exact ⟨rest, hfirst ▸ rfl⟩
      · simp only [hc, if_pos hfirst] at h
        exact absurd (Verdict.consume.inj h).2.symm hnoise

/-- A parse which is not terminal marks its events. -/
theorem loop_marked (fuel : ℕ) (d : Decoder) :
    Marked d.ambiguous_controls (d.loop false fuel false).1
      (d.loop false fuel false).2.ambiguous_controls := by
  induction fuel generalizing d with
  | zero => exact .nil _
  | succ fuel ih =>
    obtain ⟨outcome, hpass, hloop⟩ := loop_pass false fuel false d
    rw [hloop]
    have hnext : ∀ {event recovering} {d' : Decoder}, outcome = some (event, recovering, d') →
        Marked d'.ambiguous_controls (d'.loop false fuel false).1
          (d'.loop false fuel false).2.ambiguous_controls :=
      fun {_ _ d'} _ => ih d'
    cases hpass with
    | empty hnil => exact .nil _
    | wait hfinal hfront => exact .nil _
    | control c hfront =>
      have hrest := hnext rfl
      have hflag : ((d.countControl c.byte).consume 1).ambiguous_controls = d.ambiguous_controls := by
        cases c <;> rfl
      rw [hflag] at hrest
      refine .control ?_ ?_ hrest
      · cases c <;> simp [Decoder.control, Control.byte]
      · cases hambiguous : d.ambiguous_controls <;> simp [Decoder.control, hambiguous]
    | noise run hrun hpos hall =>
      refine .noise rfl ?_ (hnext rfl)
      rintro ⟨-, hraw⟩
      have hmem : STX ∈ run := List.mem_of_mem_head? hraw
      exact absurd (hall _ hmem) (by decide)
    | giveUp reason hfinal hne hfront => cases hfinal
    | invalidLength hfront =>
      obtain ⟨rest, hstx⟩ := telegramFront_stx hfront (fun _ => by simp) (by simp)
      exact .candidate ⟨rfl, by simp [Decoder.rejection, hstx]⟩ (hnext rfl)
    | badCrc size hfront =>
      obtain ⟨rest, hstx⟩ := telegramFront_stx hfront (fun _ => by simp) (by simp)
      exact .candidate ⟨rfl, by simp [Decoder.crcMismatch, hstx]⟩ (hnext rfl)
    | frame size hsize hfront => exact .frame rfl rfl (hnext rfl)

/-- Receiving chunks marks the events of all of them. -/
theorem feedAll_marked (d : Decoder) (chunks : List Bytes) :
    Marked d.ambiguous_controls (d.feedAll chunks).1 (d.feedAll chunks).2.ambiguous_controls := by
  induction chunks generalizing d with
  | nil => exact .nil _
  | cons chunk rest ih =>
    have hnow : Marked d.ambiguous_controls (d.feed chunk).1 (d.feed chunk).2.ambiguous_controls :=
      loop_marked _ { d with
        stats.raw_bytes := d.stats.raw_bytes + chunk.length, buffer := d.buffer ++ chunk }
    exact hnow.append (ih (d.feed chunk).2)

/-! ## Terminal recovery -/

/-- Once a terminal parse is recovering, every control and frame carries a reason. -/
theorem loop_recovering (fuel : ℕ) (d : Decoder) :
    ∀ e ∈ (d.loop true fuel true).1, e.kind ≠ .Rejected → e.reason ≠ "" := by
  induction fuel generalizing d with
  | zero => simp [Decoder.loop]
  | succ fuel ih =>
    obtain ⟨outcome, hpass, hloop⟩ := loop_pass true fuel true d
    rw [hloop]
    cases hpass with
    | empty hnil => simp [proceed]
    | wait hfinal hfront => cases hfinal
    | control c hfront =>
      refine List.forall_mem_cons.mpr ⟨fun _ => ?_, ih _⟩
      simp [Decoder.control]
    | noise run hrun hpos hall => exact List.forall_mem_cons.mpr ⟨fun h => absurd rfl h, ih _⟩
    | giveUp reason hfinal hne hfront => exact List.forall_mem_cons.mpr ⟨fun h => absurd rfl h, ih _⟩
    | invalidLength hfront => exact List.forall_mem_cons.mpr ⟨fun h => absurd rfl h, ih _⟩
    | badCrc size hfront => exact List.forall_mem_cons.mpr ⟨fun h => absurd rfl h, ih _⟩
    | frame size hsize hfront =>
      refine List.forall_mem_cons.mpr ⟨fun _ => ?_, ih _⟩
      simp [Decoder.accept]

/-- A terminal parse of a settled buffer begins by giving up a candidate. -/
theorem finish_recovering (d : Decoder) (hsettled : telegramFront d.buffer = .undecided) :
    ∀ e ∈ d.finish.1, e.kind ≠ .Rejected → e.reason ≠ "" := by
  rw [Decoder.finish, Decoder.parse]
  cases hlength : d.buffer.length with
  | zero => simp [Decoder.loop]
  | succ fuel =>
    obtain ⟨outcome, hpass, hloop⟩ := loop_pass true fuel false d
    rw [hloop]
    cases hpass with
    | empty hnil => simp [proceed]
    | wait hfinal hfront => cases hfinal
    | giveUp reason hfinal hne hfront =>
      exact List.forall_mem_cons.mpr ⟨fun h => absurd rfl h, loop_recovering _ _⟩
    | control c hfront | invalidLength hfront | badCrc size hfront | frame size hsize hfront =>
      rw [hsettled] at hfront
      cases hfront
    | noise run hrun hpos hall =>
      obtain ⟨b, more, rfl⟩ := List.exists_cons_of_length_pos hpos
      rw [hrun, List.cons_append, telegramFront_noise (hall b List.mem_cons_self)] at hsettled
      cases hsettled

/-- A handshake ignores rejected stretches and everything with a reason. -/
theorem Handshake.observe_of_reason (h : Handshake) {e : Event}
    (he : e.kind ≠ .Rejected → e.reason ≠ "") : h.observe e = h := by
  by_cases hreason : e.reason = ""
  · have hkind : e.kind = .Rejected := not_not.mp fun hne => he hne hreason
    simp [Handshake.observe, hkind]
  · rw [Handshake.observe, if_pos (.inr hreason)]

/-! ## Accounting -/

/-- A parse keeps the account of received bytes. -/
theorem loop_balanced (final : Bool) (fuel : ℕ) (recovering : Bool) (d : Decoder) (h : d.Balanced) :
    (d.loop final fuel recovering).2.Balanced := by
  induction fuel generalizing recovering d with
  | zero => exact h
  | succ fuel ih =>
    obtain ⟨outcome, hpass, hloop⟩ := loop_pass final fuel recovering d
    rw [hloop]
    rcases outcome with _ | ⟨event, recovering', next⟩
    · exact h
    · obtain ⟨count, -, hcount, hcursor, hraw⟩ := hpass.consumes
      refine ih recovering' next ?_
      have hoffset : next.offset = d.offset + count := congrArg Cursor.offset hcursor
      have hbuffer : next.buffer = d.buffer.drop count := congrArg Cursor.buffer hcursor
      rw [Decoder.Balanced] at h ⊢
      rw [hoffset, hbuffer, hraw, List.length_drop]
      omega

theorem feed_balanced (d : Decoder) (chunk : Bytes) (h : d.Balanced) : (d.feed chunk).2.Balanced := by
  refine loop_balanced _ _ _ _ ?_
  simp only [Decoder.Balanced, List.length_append] at h ⊢
  omega

theorem feedAll_balanced (d : Decoder) (chunks : List Bytes) (h : d.Balanced) :
    (d.feedAll chunks).2.Balanced := by
  induction chunks generalizing d with
  | nil => exact h
  | cons chunk rest ih => exact ih _ (feed_balanced d chunk h)

theorem finish_balanced (d : Decoder) (h : d.Balanced) : d.finish.2.Balanced :=
  loop_balanced _ _ _ _ h

/-- A terminal parse leaves nothing pending, so a second one reports nothing. -/
theorem finish_finish (d : Decoder) : d.finish.2.finish.1 = [] := by
  have hfollows := loop_follows true _ false d
    { frames := d.stats.valid_frames, crc_errors := d.stats.crc_failures,
      noise_bytes := d.stats.noise } le_rfl ⟨rfl, rfl, rfl⟩
  have hbuffer : d.finish.2.buffer = [] := congrArg Cursor.buffer hfollows.cursor
  rw [Decoder.finish, Decoder.parse, hbuffer]
  rfl

/-- Whatever the chunks: what the feeds report is the report of the whole stream received at once;
its frames have no reason and its controls have one exactly behind a rejected candidate which no
frame has followed. What the terminal parse recovers always has a reason, so no handshake takes it
into account; repeating it reports nothing; and consumed and pending bytes are the received ones. -/
theorem Decoder.reports_certainty (chunks : List Bytes) :
    let fed := ({} : Decoder).feedAll chunks
    let finished := fed.2.finish
    (∀ other : List Bytes, other.flatten = chunks.flatten →
      (({} : Decoder).feedAll other).1.filter Event.reported = fed.1.filter Event.reported) ∧
    (∀ e ∈ fed.1, e.kind = .Frame → e.reason = "") ∧
    (∀ before e after, fed.1 = before ++ e :: after → e.kind = .Ack ∨ e.kind = .Nak →
      (e.reason = "" ↔ ¬ Uncertain before)) ∧
    (∀ e ∈ finished.1, e.kind ≠ .Rejected → e.reason ≠ "") ∧
    (∀ e ∈ finished.1, ∀ h : Handshake, h.observe e = h) ∧
    finished.2.finish.1 = [] ∧
    fed.2.Balanced ∧ finished.2.Balanced ∧ finished.2.finish.2.Balanced := by
  have hmarked := feedAll_marked {} chunks
  have hsettled : telegramFront (({} : Decoder).feedAll chunks).2.buffer = .undecided := by
    have hcursor := congrArg Cursor.buffer (feedAll_reports {} chunks).cursor
    have hstart : telegramLexer.Settled ({} : Decoder).cursor := telegramLexer.front_nil
    rw [telegramLexer.feedAll_eq_feed _ hstart] at hcursor
    rw [show (({} : Decoder).feedAll chunks).2.buffer = _ from hcursor]
    exact telegramLexer.run_settled _
  have hbalanced := feedAll_balanced {} chunks rfl
  have hrecovered := finish_recovering _ hsettled
  refine ⟨?_, fun e he => hmarked.frame_reason he, ?_, hrecovered, ?_, finish_finish _, hbalanced,
    finish_balanced _ hbalanced, finish_balanced _ (finish_balanced _ hbalanced)⟩
  · intro other hflatten
    rw [feedAll_reported, feedAll_reported, hflatten]
  · intro before e after hsplit hkind
    rw [hsplit] at hmarked
    exact hmarked.control_reason hkind
  · exact fun e he h => h.observe_of_reason (hrecovered e he)

end Lms200.Native
