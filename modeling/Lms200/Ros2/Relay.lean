import Lms200.Json.Loads
import Lms200.Protocol.Crc

/-!
# The relay to the pseudo terminal

`tools/ros2_status/pty_relay.py`: lines of JSON from the parent are taken apart and the bytes in
them are written to the pseudo terminal. Lines come in pieces of any size, and the terminal may
take a part of what it is offered or nothing.
-/

namespace Lms200.Ros2

open Json

/-! ## Lines -/

/-- `bytes.hex` -/
def hex (data : Bytes) : Text := data.flatMap fun b => [hexDigit (b.toNat / 16), hexDigit (b.toNat % 16)]

/-- `str.upper` of a hexadecimal digit. -/
def upper (c : ℕ) : ℕ := if 'a'.toNat ≤ c ∧ c ≤ 'z'.toNat then c - 32 else c

/-- `bytes.fromhex`, which passes over white space between two bytes. -/
def fromhex : Text → Option Bytes
  | [] => some []
  | [c] => if c = 32 ∨ 9 ≤ c ∧ c ≤ 13 then some [] else none
  | a :: b :: rest =>
    if a = 32 ∨ 9 ≤ a ∧ a ≤ 13 then fromhex (b :: rest)
    else do
      let high ← hexValue a
      let low ← hexValue b
      let data ← fromhex rest
      some ((high * 16 + low).toUInt8 :: data)

/-- What ends the relay with an error. -/
inductive Failure where
  | value (message : String)
  | line
  | os
  deriving DecidableEq

/-- The bytes which a line of the parent hands on. -/
def payload (line : Bytes) : Except Failure Bytes :=
  match loads line with
  | none => .error .line
  | some message =>
    match message.get? (points "event") with
    | none => .error .line
    | some event =>
      match event with
      | some (.string name) =>
        if name = points "serial_rx" then
          match message.get? (points "hex") with
          | some (some (.string digits)) =>
            match fromhex digits with
            | some data => .ok data
            | none => .error .line
          | _ => .error .line
        else .error (.value "Unexpected parent event")
      | _ => .error (.value "Unexpected parent event")

/-- `line, _, remaining = incoming.partition(b"\n")`, if there is a line end. -/
def partition (incoming : Bytes) : Option (Bytes × Bytes) :=
  if 10 ∈ incoming then some (incoming.takeWhile (· ≠ 10), (incoming.dropWhile (· ≠ 10)).tail) else none

/-! ## The loop -/

/-- The errors of a descriptor which the relay tells apart. -/
inductive Errno where
  | eio
  | again
  | other
  deriving DecidableEq

/-- What `os.read` gives. -/
inductive Read where
  | data (data : Bytes)
  | error (errno : Errno)

/-- What `os.write` gives. -/
inductive Write where
  | count (count : ℕ)
  | error (errno : Errno)

/-- A descriptor which `select` reports, with what is read from it. -/
inductive Ready where
  | pty (read : Read)
  | parent (read : Read)

/-- What one turn of the loop meets. -/
structure Round where
  expired : Bool := false
  cancelled : Bool := false
  ready : List Ready := []
  write : Write := .error .again
  poll : Option ℤ := none
  last : Read := .error .again

/-- The lines of the relay to its parent. -/
inductive Emission where
  | node_tx (hex : Text) (count : ℕ)
  | node_exit (returncode : ℤ)
  | relay_cancelled_or_deadline
  | relay_error (error : Failure)
  deriving DecidableEq

/-- The relay, with what it has written to the terminal and to its parent. -/
structure Relay where
  incoming : Bytes := []
  pending : Bytes := []
  written : Bytes := []
  emitted : List Emission := []
  deriving DecidableEq

/-- The relay goes on, or has returned. -/
inductive Outcome where
  | running (relay : Relay)
  | ended (code : ℤ) (relay : Relay)
  deriving DecidableEq

def Outcome.andThen : Outcome → (Relay → Outcome) → Outcome
  | .running relay, next => next relay
  | .ended code relay, _ => .ended code relay

namespace Relay

def emit (relay : Relay) (emission : Emission) : Relay := { relay with emitted := relay.emitted ++ [emission] }

def raise (relay : Relay) (failure : Failure) : Outcome := .ended 3 (relay.emit (.relay_error failure))

/-- Bytes of the node are reported, if there are any. -/
def nodeTx (relay : Relay) (data : Bytes) : Relay :=
  if data = [] then relay else relay.emit (.node_tx ((hex data).map upper) data.length)

/-- The loop over the lines of `incoming`. Each takes its end away, so the fuel is enough. -/
def takeLines : ℕ → Relay → Outcome
  | 0, relay => .running relay
  | fuel + 1, relay =>
    match partition relay.incoming with
    | none => .running relay
    | some (line, remaining) =>
      match payload line with
      | .ok data => takeLines fuel { relay with incoming := remaining, pending := relay.pending ++ data }
      | .error failure => { relay with incoming := remaining }.raise failure

def readParent (relay : Relay) : Read → Outcome
  | .data data =>
    if data = [] then .ended 2 relay
    else
      let incoming := relay.incoming ++ data
      if 131072 < incoming.length then { relay with incoming }.raise (.value "Oversized parent message")
      else takeLines incoming.length { relay with incoming }
  | .error _ => relay.raise .os

def readPty (relay : Relay) : Read → Outcome
  | .data data => .running (relay.nodeTx data)
  | .error .eio => .running relay
  | .error _ => relay.raise .os

def serve : List Ready → Relay → Outcome
  | [], relay => .running relay
  | .pty read :: rest, relay => (relay.readPty read).andThen (serve rest)
  | .parent read :: rest, relay => (relay.readParent read).andThen (serve rest)

def backlog (relay : Relay) : Outcome :=
  if 1048576 < relay.pending.length then relay.raise (.value "PTY receive backlog exceeded limit")
  else .running relay

/-- `os.write(master, pending)` and `del pending[:count]` -/
def writePending (relay : Relay) (write : Write) : Outcome :=
  if relay.pending = [] then .running relay
  else match write with
    | .count count =>
      { relay with pending := relay.pending.drop count, written := relay.written ++ relay.pending.take count }.backlog
    | .error .again => relay.backlog
    | .error _ => relay.raise .os

/-- The final read of the terminal once the node has exited. -/
def poll (relay : Relay) (last : Read) : Option ℤ → Outcome
  | none => .running relay
  | some returncode =>
    match last with
    | .data data => .ended returncode ((relay.nodeTx data).emit (.node_exit returncode))
    | .error .again => .ended returncode (relay.emit (.node_exit returncode))
    | .error _ => relay.raise .os

/-- One turn of the loop. -/
def turn (relay : Relay) (round : Round) : Outcome :=
  if round.expired ∨ round.cancelled then .ended 2 (relay.emit .relay_cancelled_or_deadline)
  else ((serve round.ready relay).andThen (·.writePending round.write)).andThen (·.poll round.last round.poll)

/-- The relay after these turns. -/
def run : List Round → Relay → Outcome
  | [], relay => .running relay
  | round :: rest, relay => (relay.turn round).andThen (run rest)

end Relay

/-! ## What a line carries -/

/-- The digits of a byte read back as the byte. -/
theorem fromhex_hex (data : Bytes) : fromhex (hex data) = some data := by
  have hdigit : ∀ n < 16, ¬(hexDigit n = 32 ∨ 9 ≤ hexDigit n ∧ hexDigit n ≤ 13) ∧
      hexValue (hexDigit n) = some n := by decide
  induction data with
  | nil => rfl
  | cons b rest ih =>
    have hb : b.toNat < 256 := b.toNat_lt
    obtain ⟨hspace, hhigh⟩ := hdigit (b.toNat / 16) (by omega)
    have hlow := (hdigit (b.toNat % 16) (Nat.mod_lt _ (by decide))).2
    have hbyte : (b.toNat / 16 * 16 + b.toNat % 16).toUInt8 = b := by
      rw [Nat.div_add_mod']
      exact UInt8.ofNat_toNat
    have hcons : hex (b :: rest) = hexDigit (b.toNat / 16) :: hexDigit (b.toNat % 16) :: hex rest := rfl
    rw [hcons, fromhex, if_neg hspace, hhigh, hlow, ih]
    simp only [Option.bind_eq_bind, Option.bind_some, hbyte]

/-- A line which the relay reads, and the bytes it carries. -/
structure Line where
  text : Bytes
  data : Bytes
  reads : payload text = .ok data
  whole : 10 ∉ text

/-- A line with its end. -/
def Line.bytes (line : Line) : Bytes := line.text ++ [10]

/-- Lines one after another. -/
def stream (lines : List Line) : Bytes := lines.flatMap Line.bytes

/-- What lines carry. -/
def carried (lines : List Line) : Bytes := lines.flatMap Line.data

/-- The message about received bytes. -/
def serialRx (received : Bytes) : List (Text × Text) :=
  [(points "event", points "serial_rx"), (points "hex", hex received)]

theorem serialRx_plain (received : Bytes) : ∀ m ∈ serialRx received, Plain m.1 ∧ Plain m.2 := by
  have hdigit : ∀ n < 16, 32 ≤ hexDigit n ∧ hexDigit n ≤ 126 ∧ hexDigit n ≠ '"'.toNat ∧
      hexDigit n ≠ '\\'.toNat := by decide
  have hevent : Plain (points "event") := by unfold Plain; decide
  have hname : Plain (points "serial_rx") := by unfold Plain; decide
  have hkey : Plain (points "hex") := by unfold Plain; decide
  have hhex : Plain (hex received) := by
    intro c hc
    obtain ⟨b, -, hc⟩ := List.mem_flatMap.mp hc
    have hb : b.toNat < 256 := b.toNat_lt
    rw [List.mem_cons, List.mem_singleton] at hc
    rcases hc with rfl | rfl
    · exact hdigit _ (by omega)
    · exact hdigit _ (Nat.mod_lt _ (by decide))
  intro m hm
  rw [serialRx, List.mem_cons, List.mem_singleton] at hm
  rcases hm with rfl | rfl
  · exact ⟨hevent, hname⟩
  · exact ⟨hkey, hhex⟩

theorem payload_serialRx (received : Bytes) {space : Text} (hspace : ∀ c ∈ space, isSpace c) :
    payload ((dumps (serialRx received) ++ space).map Nat.toUInt8) = .ok received := by
  have hread := loads_dumps _ _ (serialRx_plain received) hspace
  have hevent : (Value.object (stringMembers (serialRx received))).get? (points "event") =
      some (some (.string (points "serial_rx"))) := rfl
  have hhex : (Value.object (stringMembers (serialRx received))).get? (points "hex") =
      some (some (.string (hex received))) := rfl
  rw [payload, serialRx, hread, ← serialRx]
  simp only [hevent, hhex, if_true, fromhex_hex]

theorem serialRx_reads (received : Bytes) :
    payload ((dumps (Ros2.serialRx received) ++ points "\r").map Nat.toUInt8) = .ok received :=
  payload_serialRx received (by decide)

theorem serialRx_whole (received : Bytes) :
    10 ∉ (dumps (Ros2.serialRx received) ++ points "\r").map Nat.toUInt8 := by
  intro hmem
  obtain ⟨c, hc, hbyte⟩ := List.mem_map.mp hmem
  have hnot : ∀ c < 0x80, c ≠ 10 → c.toUInt8 ≠ 10 := by decide
  have hprintable := dumpsMembers_printable (serialRx_plain received)
  rw [List.mem_append, dumps, List.mem_cons] at hc
  rcases hc with (rfl | hc) | hc
  · exact absurd hbyte (by decide)
  · obtain ⟨hlow, hhigh⟩ := hprintable c hc
    exact hnot c hhigh (by omega) hbyte
  · have hreturn : ∀ c ∈ points "\r", c.toUInt8 ≠ 10 := by decide
    exact hreturn c hc hbyte

/-- The line which the experiment writes: its text file puts a carriage return before the line end. -/
def Line.serialRx (received : Bytes) : Line where
  text := (dumps (Ros2.serialRx received) ++ points "\r").map Nat.toUInt8
  data := received
  reads := serialRx_reads received
  whole := serialRx_whole received

/-! ## Bytes are handed on as they come -/

/-- What the reads of a turn bring from the parent. -/
def Ready.received : Ready → Bytes
  | .parent (.data data) => data
  | _ => []

/-- What was received from the parent in these turns. -/
def received (rounds : List Round) : Bytes := rounds.flatMap fun round => round.ready.flatMap Ready.received

/-- Of lines some are through, and what came of the next ones waits: `written` and `pending` hold what
the former carry. -/
def Relay.Forwards (lines : List Line) (seen : Bytes) (relay : Relay) : Prop :=
  ∃ done rest, lines = done ++ rest ∧ seen = stream done ++ relay.incoming ∧
    relay.incoming <+: stream rest ∧ relay.written ++ relay.pending = carried done

/-- No line is complete in `incoming`. -/
def Relay.Settled (relay : Relay) : Prop := 10 ∉ relay.incoming

/-- The relay did not stumble over a line. -/
def Relay.Understood (relay : Relay) : Prop :=
  .relay_error .line ∉ relay.emitted ∧ .relay_error (.value "Unexpected parent event") ∉ relay.emitted

/-- The first of several lines is taken from what came of them, if its end came. -/
theorem partition_stream {line : Line} {rest : List Line} {incoming : Bytes}
    (h : incoming <+: stream (line :: rest)) (hend : 10 ∈ incoming) :
    ∃ remaining, partition incoming = some (line.text, remaining) ∧ incoming = line.bytes ++ remaining ∧
      remaining <+: stream rest := by
  have hstream : stream (line :: rest) = line.bytes ++ stream rest := rfl
  rw [hstream] at h
  have hwhole : line.bytes <+: incoming := by
    rcases List.prefix_or_prefix_of_prefix h (List.prefix_append line.bytes (stream rest)) with hle | hle
    · rcases List.prefix_concat_iff.mp hle with heq | hle
      · exact heq ▸ List.prefix_refl _
      · exact absurd (hle.subset hend) line.whole
    · exact hle
  obtain ⟨remaining, rfl⟩ := hwhole
  have htake : ∀ x ∈ line.text, decide (x ≠ (10 : UInt8)) = true := by
    intro x hx
    rw [decide_eq_true_eq]
    rintro rfl
    exact line.whole hx
  refine ⟨remaining, ?_, rfl, (List.prefix_append_right_inj _).mp h⟩
  rw [partition, if_pos hend, Line.bytes, List.append_assoc, List.takeWhile_append_of_pos htake,
    List.dropWhile_append_of_pos htake]
  simp

/-- The relay goes on in a state of the one kind, or has returned in one of the other. -/
def Outcome.Sat (going gone : Relay → Prop) : Outcome → Prop
  | .running relay => going relay
  | .ended _ relay => gone relay

theorem Outcome.Sat.andThen {going going' gone : Relay → Prop} {outcome : Outcome} {next : Relay → Outcome}
    (h : outcome.Sat going gone) (hnext : ∀ relay, going relay → (next relay).Sat going' gone) :
    (outcome.andThen next).Sat going' gone := by
  cases outcome with
  | running relay => exact hnext relay h
  | ended code relay => exact h

namespace Relay

/-- What holds between two steps of the loop. -/
structure Faithful (lines : List Line) (seen : Bytes) (relay : Relay) : Prop where
  forwards : relay.Forwards lines seen
  settled : relay.Settled
  understood : relay.Understood

theorem Understood.emit {relay : Relay} (h : relay.Understood) {emission : Emission}
    (hline : emission ≠ .relay_error .line) (hevent : emission ≠ .relay_error (.value "Unexpected parent event")) :
    (relay.emit emission).Understood := by
  constructor
  · rw [Relay.emit, List.mem_append, List.mem_singleton]
    exact not_or.mpr ⟨h.1, hline.symm⟩
  · rw [Relay.emit, List.mem_append, List.mem_singleton]
    exact not_or.mpr ⟨h.2, hevent.symm⟩

theorem Understood.nodeTx {relay : Relay} (h : relay.Understood) (data : Bytes) : (relay.nodeTx data).Understood := by
  by_cases hdata : data = []
  · rw [Relay.nodeTx, if_pos hdata]
    exact h
  · rw [Relay.nodeTx, if_neg hdata]
    apply h.emit <;> nofun

theorem Faithful.nodeTx {lines : List Line} {seen : Bytes} {relay : Relay} (h : relay.Faithful lines seen)
    (data : Bytes) : (relay.nodeTx data).Faithful lines seen := by
  by_cases hdata : data = []
  · rw [Relay.nodeTx, if_pos hdata]
    exact h
  · have hunderstood := h.understood.nodeTx data
    rw [Relay.nodeTx, if_neg hdata] at hunderstood ⊢
    exact ⟨h.forwards, h.settled, hunderstood⟩

/-- The complete lines are taken out of `incoming`, and what they carry is put behind `pending`. -/
theorem takeLines_faithful {lines : List Line} {seen : Bytes} {relay : Relay} {fuel : ℕ}
    (h : relay.Forwards lines seen) (hunderstood : relay.Understood) (hfuel : relay.incoming.length ≤ fuel) :
    (takeLines fuel relay).Sat (Faithful lines seen) Understood := by
  induction fuel generalizing relay with
  | zero =>
    have hempty : relay.incoming = [] := List.eq_nil_of_length_eq_zero (Nat.le_zero.mp hfuel)
    have hsettled : relay.Settled := by
      rw [Settled, hempty]
      exact List.not_mem_nil
    exact ⟨h, hsettled, hunderstood⟩
  | succ fuel ih =>
    by_cases hend : 10 ∈ relay.incoming
    · obtain ⟨done, rest, rfl, rfl, hfront, hcarried⟩ := h
      cases rest with
      | nil => exact absurd (hfront.subset hend) List.not_mem_nil
      | cons line rest =>
        obtain ⟨remaining, hpartition, hincoming, hremaining⟩ := partition_stream hfront hend
        rw [takeLines, hpartition]
        simp only [line.reads]
        apply ih
        · refine ⟨done ++ [line], rest, List.append_cons .., ?_, hremaining, ?_⟩
          · simp only [hincoming, stream, List.flatMap_append, List.flatMap_singleton, List.append_assoc]
          · simp only [← List.append_assoc, hcarried, carried, List.flatMap_append, List.flatMap_singleton]
        · exact hunderstood
        · rw [hincoming, List.length_append, Line.bytes, List.length_append, List.length_singleton] at hfuel
          show remaining.length ≤ fuel
          omega
    · rw [takeLines, partition, if_neg hend]
      exact ⟨h, hend, hunderstood⟩

/-- More bytes from the parent. -/
theorem Forwards.receive {lines : List Line} {seen data : Bytes} {relay : Relay} (h : relay.Forwards lines seen)
    (hseen : seen ++ data <+: stream lines) :
    Forwards lines (seen ++ data) { relay with incoming := relay.incoming ++ data } := by
  obtain ⟨done, rest, rfl, rfl, -, hcarried⟩ := h
  have hstream : stream (done ++ rest) = stream done ++ stream rest := List.flatMap_append
  rw [hstream, List.append_assoc, List.prefix_append_right_inj] at hseen
  exact ⟨done, rest, rfl, List.append_assoc .., hseen, hcarried⟩

theorem readParent_faithful {lines : List Line} {seen : Bytes} {relay : Relay} (h : relay.Faithful lines seen)
    (read : Read) (hseen : seen ++ (Ready.parent read).received <+: stream lines) :
    (relay.readParent read).Sat (Faithful lines (seen ++ (Ready.parent read).received)) Understood := by
  cases read with
  | error errno =>
    apply h.understood.emit <;> decide
  | data data =>
    rw [readParent]
    by_cases hdata : data = []
    · rw [if_pos hdata]
      exact h.understood
    · rw [if_neg hdata]
      by_cases hlong : 131072 < (relay.incoming ++ data).length
      · rw [if_pos hlong]
        apply Understood.emit
        · exact h.understood
        · decide
        · decide
      · rw [if_neg hlong]
        exact takeLines_faithful (h.forwards.receive hseen) h.understood (Nat.le_refl _)

theorem readPty_faithful {lines : List Line} {seen : Bytes} {relay : Relay} (h : relay.Faithful lines seen)
    (read : Read) : (relay.readPty read).Sat (Faithful lines seen) Understood := by
  cases read with
  | data data => exact h.nodeTx data
  | error errno =>
    cases errno with
    | eio => exact h
    | again => apply h.understood.emit <;> decide
    | other => apply h.understood.emit <;> decide

/-- All descriptors which a turn found ready. -/
theorem serve_faithful {lines : List Line} {seen : Bytes} {relay : Relay} (h : relay.Faithful lines seen)
    (ready : List Ready) (hseen : seen ++ ready.flatMap Ready.received <+: stream lines) :
    (serve ready relay).Sat (Faithful lines (seen ++ ready.flatMap Ready.received)) Understood := by
  induction ready generalizing relay seen with
  | nil =>
    rw [List.flatMap_nil, List.append_nil]
    exact h
  | cons first rest ih =>
    rw [List.flatMap_cons, ← List.append_assoc] at hseen ⊢
    cases first with
    | pty read =>
      have hnothing : (Ready.pty read).received = [] := by cases read <;> rfl
      rw [hnothing, List.append_nil] at hseen ⊢
      apply (readPty_faithful h read).andThen
      intro relay' h'
      exact ih h' hseen
    | parent read =>
      apply (readParent_faithful h read ((List.prefix_append _ _).trans hseen)).andThen
      intro relay' h'
      exact ih h' hseen

theorem backlog_faithful {lines : List Line} {seen : Bytes} {relay : Relay} (h : relay.Faithful lines seen) :
    relay.backlog.Sat (Faithful lines seen) Understood := by
  rw [backlog]
  by_cases hlong : 1048576 < relay.pending.length
  · rw [if_pos hlong]
    apply h.understood.emit <;> decide
  · rw [if_neg hlong]
    exact h

/-- What the terminal takes moves from the front of `pending` to the end of `written`. -/
theorem writePending_faithful {lines : List Line} {seen : Bytes} {relay : Relay} (h : relay.Faithful lines seen)
    (write : Write) : (relay.writePending write).Sat (Faithful lines seen) Understood := by
  by_cases hpending : relay.pending = []
  · rw [writePending.eq_def, if_pos hpending]
    exact h
  · rw [writePending.eq_def, if_neg hpending]
    cases write with
    | count count =>
      apply backlog_faithful
      obtain ⟨done, rest, hlines, hseen, hfront, hcarried⟩ := h.forwards
      refine ⟨⟨done, rest, hlines, hseen, hfront, ?_⟩, h.settled, h.understood⟩
      rw [← hcarried, List.append_assoc, List.take_append_drop]
    | error errno =>
      cases errno with
      | again => exact backlog_faithful h
      | eio => apply h.understood.emit <;> decide
      | other => apply h.understood.emit <;> decide

theorem poll_faithful {lines : List Line} {seen : Bytes} {relay : Relay} (h : relay.Faithful lines seen)
    (last : Read) (returncode : Option ℤ) : (relay.poll last returncode).Sat (Faithful lines seen) Understood := by
  cases returncode with
  | none => exact h
  | some returncode =>
    cases last with
    | data data => apply (h.understood.nodeTx data).emit <;> nofun
    | error errno =>
      cases errno with
      | again => apply h.understood.emit <;> nofun
      | eio => apply h.understood.emit <;> decide
      | other => apply h.understood.emit <;> decide

/-- One turn keeps the bytes in order, whatever it meets. -/
theorem turn_faithful {lines : List Line} {seen : Bytes} {relay : Relay} (h : relay.Faithful lines seen)
    (round : Round) (hseen : seen ++ round.ready.flatMap Ready.received <+: stream lines) :
    (relay.turn round).Sat (Faithful lines (seen ++ round.ready.flatMap Ready.received)) Understood := by
  rw [turn]
  split
  · apply h.understood.emit <;> nofun
  · apply Outcome.Sat.andThen
    · apply (serve_faithful h round.ready hseen).andThen
      intro relay' h'
      exact writePending_faithful h' round.write
    · intro relay' h'
      exact poll_faithful h' round.last round.poll

/-- Any number of turns keeps the bytes in order. -/
theorem run_faithful {lines : List Line} {seen : Bytes} {relay : Relay} (h : relay.Faithful lines seen)
    (rounds : List Round) (hseen : seen ++ received rounds <+: stream lines) :
    (run rounds relay).Sat (Faithful lines (seen ++ received rounds)) Understood := by
  induction rounds generalizing relay seen with
  | nil =>
    rw [received, List.flatMap_nil, List.append_nil]
    exact h
  | cons round rest ih =>
    rw [received, List.flatMap_cons, ← List.append_assoc] at hseen ⊢
    apply (turn_faithful h round ((List.prefix_append _ _).trans hseen)).andThen
    intro relay' h'
    exact ih h' hseen

theorem faithful_start (lines : List Line) : Faithful lines [] {} := by
  refine ⟨⟨[], lines, rfl, rfl, List.nil_prefix, rfl⟩, ?_, ?_, ?_⟩
  · exact List.not_mem_nil
  · exact List.not_mem_nil
  · exact List.not_mem_nil

end Relay

/-- While lines of the parent come in pieces of any size, and the terminal takes what it likes, the
relay goes on with nothing lost, doubled or out of order: what is written and then `pending` is what
the lines carry which came whole, and `incoming` is what came of the next ones, less than a line. The
relay does not end for a line it could not read. -/
theorem relay_lossless (lines : List Line) (rounds : List Round) (hseen : received rounds <+: stream lines) :
    (∀ relay, Relay.run rounds {} = .running relay → ∃ done rest, lines = done ++ rest ∧
      received rounds = stream done ++ relay.incoming ∧ relay.incoming <+: stream rest ∧ 10 ∉ relay.incoming ∧
      relay.written ++ relay.pending = carried done ∧
      relay.written ++ relay.pending ++ carried rest = carried lines) ∧
    ∀ code relay, Relay.run rounds {} = .ended code relay → .relay_error .line ∉ relay.emitted ∧
      .relay_error (.value "Unexpected parent event") ∉ relay.emitted := by
  have hrun := Relay.run_faithful (Relay.faithful_start lines) rounds hseen
  constructor
  · intro relay hend
    rw [hend] at hrun
    obtain ⟨done, rest, hlines, hreceived, hfront, hcarried⟩ := hrun.forwards
    refine ⟨done, rest, hlines, hreceived, hfront, hrun.settled, hcarried, ?_⟩
    rw [hcarried, hlines, carried, carried, carried, List.flatMap_append]
  · intro code relay hend
    rw [hend] at hrun
    exact hrun

/-- Two lines which come in two reads, the first of them in both; the terminal takes one byte of three. -/
def piecemeal : List Round :=
  let bytes := stream [.serialRx [2, 177], .serialRx [3]]
  [{ ready := [.parent (.data (bytes.take 20))] },
    { ready := [.pty (.data [5]), .parent (.data (bytes.drop 20))], write := .count 1 }, {}]

theorem relay_lossless_piecemeal : ∃ relay rest, Relay.run piecemeal {} = .running relay ∧
    relay.written ++ relay.pending ++ carried rest = [2, 177, 3] := by
  have hseen : received piecemeal = stream [.serialRx [2, 177], .serialRx [3]] := by decide +kernel
  have hrun : Relay.run piecemeal {} = .running ⟨[], [177, 3], [2], [.node_tx (points "05") 1]⟩ := by decide +kernel
  obtain ⟨done, rest, -, -, -, -, -, hall⟩ :=
    (relay_lossless [.serialRx [2, 177], .serialRx [3]] piecemeal (hseen ▸ List.prefix_refl _)).1 _ hrun
  exact ⟨_, rest, hrun, hall⟩

end Lms200.Ros2
