import Mathlib.Data.List.Basic
import Mathlib.Data.List.Flatten
import Mathlib.Data.Nat.Basic
import Mathlib.Algebra.GroupWithZero.Nat

/-!
# Resynchronising lexers over a growing buffer

A lexer looks at the front of a pending buffer and either waits for more symbols or
consumes a positive number of them. Its decisions are stable: symbols which arrive later
never revise one. That alone makes every report independent of how the stream is cut into
chunks. A terminal pass gives up one symbol wherever the lexer would wait, so it covers the
whole stream; every position is then either looked at or strictly inside one longer token.

The alphabet, the findings and the decision procedure are parameters.
-/

namespace Lms200.Resync

/-- The decision at the front of a buffer: wait, or consume `extra + 1` symbols. -/
inductive Verdict (β : Type*) where
  | undecided
  | consume (extra : ℕ) (finding : β)

/-- A decision procedure which consumes only symbols it has and never revises a decision. -/
structure Lexer (α β : Type*) where
  front : List α → Verdict β
  giveUp : List α → β
  fits : ∀ {buffer extra finding}, front buffer = .consume extra finding → extra < buffer.length
  stable : ∀ {buffer extra finding} (later : List α),
    front buffer = .consume extra finding → front (buffer ++ later) = .consume extra finding

/-- The pending suffix of a stream and the stream offset of its first symbol. -/
structure Cursor (α : Type*) where
  offset : ℕ
  buffer : List α

/-- One consumed stretch of the stream, with what was found there. -/
structure Token (β : Type*) where
  offset : ℕ
  width : ℕ
  finding : β

/-- Move the cursor over consumed symbols. -/
def Cursor.skip {α : Type*} (c : Cursor α) (count : ℕ) : Cursor α :=
  ⟨c.offset + count, c.buffer.drop count⟩

/-- Append newly received symbols. -/
def Cursor.push {α : Type*} (c : Cursor α) (chunk : List α) : Cursor α :=
  ⟨c.offset, c.buffer ++ chunk⟩

@[simp] theorem Cursor.push_nil {α : Type*} (c : Cursor α) : c.push [] = c := by
  simp [Cursor.push]

@[simp] theorem Cursor.push_push {α : Type*} (c : Cursor α) (left right : List α) :
    (c.push left).push right = c.push (left ++ right) := by
  simp [Cursor.push]

/-- Skipping buffered symbols is unaffected by symbols received later. -/
theorem Cursor.skip_push {α : Type*} (c : Cursor α) (count : ℕ) (later : List α)
    (h : count ≤ c.buffer.length) : (c.push later).skip count = (c.skip count).push later := by
  simp [Cursor.skip, Cursor.push, List.drop_append_of_le_length h]

namespace Lexer

variable {α β : Type*} (L : Lexer α β)

/-- Report decisions until the front of the buffer is undecided. -/
def run (c : Cursor α) : List (Token β) × Cursor α :=
  match h : L.front c.buffer with
  | .undecided => ([], c)
  | .consume extra finding =>
    let rest := run (c.skip (extra + 1))
    (⟨c.offset, extra + 1, finding⟩ :: rest.1, rest.2)
termination_by c.buffer.length
decreasing_by
  have := L.fits h
  simp only [Cursor.skip, List.length_drop]
  omega

/-- Receive one chunk. -/
def feed (c : Cursor α) (chunk : List α) : List (Token β) × Cursor α := L.run (c.push chunk)

/-- Receive chunks in order, keeping all reports. -/
def feedAll : Cursor α → List (List α) → List (Token β) × Cursor α
  | c, [] => ([], c)
  | c, chunk :: rest =>
    let now := L.feed c chunk
    let later := feedAll now.2 rest
    (now.1 ++ later.1, later.2)

/-- The terminal pass: give up one symbol wherever the lexer would wait. -/
def finish (c : Cursor α) : List (Token β) :=
  match h : L.front c.buffer with
  | .consume extra finding => ⟨c.offset, extra + 1, finding⟩ :: finish (c.skip (extra + 1))
  | .undecided =>
    match _hb : c.buffer with
    | [] => []
    | _ :: _ => ⟨c.offset, 1, L.giveUp c.buffer⟩ :: finish (c.skip 1)
termination_by c.buffer.length
decreasing_by
  · have := L.fits h
    simp only [Cursor.skip, List.length_drop]
    omega
  · simp [Cursor.skip, *]

/-- A cursor is settled when the lexer waits at its front. -/
def Settled (c : Cursor α) : Prop := L.front c.buffer = .undecided

theorem front_nil : L.front [] = .undecided := by
  cases h : L.front [] with
  | undecided => rfl
  | consume extra finding => exact absurd (L.fits h) (Nat.not_lt_zero _)

theorem run_of_undecided {c : Cursor α} (h : L.front c.buffer = .undecided) :
    L.run c = ([], c) := by
  rw [run]
  split
  · rfl
  · simp_all

theorem run_of_consume {c : Cursor α} {extra : ℕ} {finding : β}
    (h : L.front c.buffer = .consume extra finding) :
    L.run c = (⟨c.offset, extra + 1, finding⟩ :: (L.run (c.skip (extra + 1))).1,
      (L.run (c.skip (extra + 1))).2) := by
  rw [run]
  split
  · simp_all
  · next extra' finding' h' =>
    rw [h, Verdict.consume.injEq] at h'
    obtain ⟨rfl, rfl⟩ := h'
    rfl

theorem finish_of_consume {c : Cursor α} {extra : ℕ} {finding : β}
    (h : L.front c.buffer = .consume extra finding) :
    L.finish c = ⟨c.offset, extra + 1, finding⟩ :: L.finish (c.skip (extra + 1)) := by
  rw [finish]
  split
  · next extra' finding' h' =>
    rw [h, Verdict.consume.injEq] at h'
    obtain ⟨rfl, rfl⟩ := h'
    rfl
  · simp_all

theorem finish_of_nil {c : Cursor α} (h : c.buffer = []) : L.finish c = [] := by
  rw [finish]
  split
  · next h' => rw [h, L.front_nil] at h'; cases h'
  · split
    · rfl
    · simp_all

theorem finish_of_undecided {c : Cursor α} (h : L.front c.buffer = .undecided)
    (hne : c.buffer ≠ []) :
    L.finish c = ⟨c.offset, 1, L.giveUp c.buffer⟩ :: L.finish (c.skip 1) := by
  rw [finish]
  split
  · simp_all
  · split
    · next hb => exact absurd hb hne
    · rfl

/-- Induction along the decisions of `run`. -/
theorem run_induction {motive : Cursor α → Prop}
    (wait : ∀ c, L.front c.buffer = .undecided → motive c)
    (step : ∀ c extra finding, L.front c.buffer = .consume extra finding →
      motive (c.skip (extra + 1)) → motive c) (c : Cursor α) : motive c := by
  induction hn : c.buffer.length using Nat.strongRecOn generalizing c with
  | ind n ih =>
    cases h : L.front c.buffer with
    | undecided => exact wait c h
    | consume extra finding =>
      have hfit := L.fits h
      refine step c extra finding h (ih _ ?_ _ rfl)
      simp only [Cursor.skip, List.length_drop]
      omega

/-- Running stops only where the lexer waits. -/
theorem run_settled (c : Cursor α) : L.Settled (L.run c).2 := by
  induction c using L.run_induction with
  | wait c h => rwa [L.run_of_undecided h]
  | step c extra finding h ih => rwa [L.run_of_consume h]

/-- Symbols which arrive later extend a run without changing what it has reported. -/
theorem run_push (c : Cursor α) (later : List α) :
    L.run (c.push later) =
      ((L.run c).1 ++ (L.run ((L.run c).2.push later)).1, (L.run ((L.run c).2.push later)).2) := by
  induction c using L.run_induction with
  | wait c h => simp [L.run_of_undecided h]
  | step c extra finding h ih =>
    have hfit := L.fits h
    have hlater : L.front (c.push later).buffer = .consume extra finding := L.stable later h
    rw [L.run_of_consume hlater, L.run_of_consume h, Cursor.skip_push c _ later hfit, ih]
    rfl

/-- Chunks are received exactly as their concatenation. -/
theorem feedAll_eq_feed (c : Cursor α) (hc : L.Settled c) (chunks : List (List α)) :
    L.feedAll c chunks = L.feed c chunks.flatten := by
  induction chunks generalizing c with
  | nil => simp [feedAll, feed, L.run_of_undecided hc]
  | cons chunk rest ih =>
    have hsettled : L.Settled (L.feed c chunk).2 := L.run_settled _
    simp only [feedAll, ih _ hsettled]
    simp only [feed, List.flatten_cons, ← Cursor.push_push]
    rw [L.run_push (c.push chunk) rest.flatten]

/-- The terminal pass repeats the decisions already taken and then works on what is pending. -/
theorem finish_eq_run (c : Cursor α) : L.finish c = (L.run c).1 ++ L.finish (L.run c).2 := by
  induction c using L.run_induction with
  | wait c h => simp [L.run_of_undecided h]
  | step c extra finding h ih =>
    rw [L.finish_of_consume h, L.run_of_consume h, ih]
    rfl

/-- Whatever the chunks, feeding and then finishing is one terminal pass over the stream. -/
theorem feedAll_finish (c : Cursor α) (hc : L.Settled c) (chunks : List (List α)) :
    (L.feedAll c chunks).1 ++ L.finish (L.feedAll c chunks).2 = L.finish (c.push chunks.flatten) := by
  rw [L.feedAll_eq_feed c hc, feed, ← L.finish_eq_run]

/-- Give up the first pending symbol and run on what is behind it. -/
def expire (c : Cursor α) : List (Token β) × Cursor α :=
  let rest := L.run (c.skip 1)
  (⟨c.offset, 1, L.giveUp c.buffer⟩ :: rest.1, rest.2)

/-- One expiry of a settled non-empty buffer is the next piece of the terminal pass. -/
theorem finish_eq_expire (c : Cursor α) (hc : L.Settled c) (hne : c.buffer ≠ []) :
    L.finish c = (L.expire c).1 ++ L.finish (L.expire c).2 := by
  rw [L.finish_of_undecided hc hne, L.finish_eq_run (c.skip 1)]
  rfl

/-- Running never lengthens the buffer. -/
theorem run_length_le (c : Cursor α) : (L.run c).2.buffer.length ≤ c.buffer.length := by
  induction c using L.run_induction with
  | wait c h => simp [L.run_of_undecided h]
  | step c extra finding h ih =>
    rw [L.run_of_consume h]
    simp only [Cursor.skip, List.length_drop] at ih ⊢
    omega

/-- Expiry shortens a non-empty buffer. -/
theorem expire_length_lt (c : Cursor α) (hne : c.buffer ≠ []) :
    (L.expire c).2.buffer.length < c.buffer.length := by
  have hpos := List.length_pos_of_ne_nil hne
  have hle := L.run_length_le (c.skip 1)
  simp only [Cursor.skip, List.length_drop] at hle
  simp only [expire, Cursor.skip]
  omega

end Lexer

/-- Consecutive tokens tile the stream from the given start to the given end. -/
def Tiles {β : Type*} : ℕ → List (Token β) → ℕ → Prop
  | start, [], stop => start = stop
  | start, t :: rest, stop => t.offset = start ∧ 0 < t.width ∧ Tiles (start + t.width) rest stop

section Tiles

variable {β : Type*} {start middle stop : ℕ} {tokens : List (Token β)}

theorem Tiles.append {later : List (Token β)} (h : Tiles start tokens middle)
    (hlater : Tiles middle later stop) : Tiles start (tokens ++ later) stop := by
  induction tokens generalizing start with
  | nil => exact h ▸ hlater
  | cons t rest ih => exact ⟨h.1, h.2.1, ih h.2.2⟩

theorem Tiles.le (h : Tiles start tokens stop) : start ≤ stop := by
  induction tokens generalizing start with
  | nil => exact Nat.le_of_eq h
  | cons t rest ih => exact Nat.le_trans (Nat.le_add_right _ _) (ih h.2.2)

/-- Every token of a tiling lies inside the tiled stretch. -/
theorem Tiles.mem_bounds (h : Tiles start tokens stop) {t : Token β} (ht : t ∈ tokens) :
    start ≤ t.offset ∧ 0 < t.width ∧ t.offset + t.width ≤ stop := by
  induction tokens generalizing start with
  | nil => cases ht
  | cons first rest ih =>
    obtain ⟨hoffset, hwidth, htiles⟩ := h
    rcases List.mem_cons.mp ht with rfl | ht
    · have := htiles.le
      exact ⟨by omega, hwidth, by omega⟩
    · have := ih htiles ht
      exact ⟨by omega, this.2⟩

/-- Every position of a tiled stretch lies in the extent of some token. -/
theorem Tiles.covers (h : Tiles start tokens stop) {p : ℕ} (hstart : start ≤ p) (hstop : p < stop) :
    ∃ t ∈ tokens, t.offset ≤ p ∧ p < t.offset + t.width := by
  induction tokens generalizing start with
  | nil => exact absurd h (by simp only [Tiles]; omega)
  | cons first rest ih =>
    obtain ⟨hoffset, -, htiles⟩ := h
    by_cases hp : p < start + first.width
    · exact ⟨first, List.mem_cons_self, by omega, by omega⟩
    · obtain ⟨t, ht, hcover⟩ := ih htiles (by omega)
      exact ⟨t, List.mem_cons_of_mem _ ht, hcover⟩

/-- A token of a tiling starts where the earlier ones end. -/
theorem Tiles.offset_eq {earlier later : List (Token β)} {t : Token β}
    (h : Tiles start (earlier ++ t :: later) stop) :
    t.offset = start + (earlier.map Token.width).sum := by
  induction earlier generalizing start with
  | nil => exact h.1
  | cons first rest ih =>
    obtain ⟨-, -, hrest⟩ := h
    rw [ih hrest, List.map_cons, List.sum_cons, Nat.add_assoc]

/-- The tokens of a tiling are ordered and disjoint. -/
theorem Tiles.pairwise (h : Tiles start tokens stop) :
    tokens.Pairwise fun t u => t.offset + t.width ≤ u.offset := by
  induction tokens generalizing start with
  | nil => exact List.Pairwise.nil
  | cons first rest ih =>
    obtain ⟨hoffset, -, htiles⟩ := h
    refine List.Pairwise.cons (fun u hu => ?_) (ih htiles)
    have := (htiles.mem_bounds hu).1
    omega

/-- Of two tokens of a tiling the one which starts first ends before the other starts. -/
theorem Tiles.end_le (h : Tiles start tokens stop) {t u : Token β} (ht : t ∈ tokens) (hu : u ∈ tokens)
    (hlt : t.offset < u.offset) : t.offset + t.width ≤ u.offset := by
  induction tokens generalizing start with
  | nil => cases ht
  | cons first rest ih =>
    obtain ⟨hoffset, -, htiles⟩ := h
    rcases List.mem_cons.mp ht with rfl | htail
    · rcases List.mem_cons.mp hu with rfl | hlater
      · exact absurd hlt (Nat.lt_irrefl _)
      · have := (htiles.mem_bounds hlater).1
        omega
    · rcases List.mem_cons.mp hu with rfl | hlater
      · have := (htiles.mem_bounds htail).1
        omega
      · exact ih htiles htail hlater

end Tiles

namespace Lexer

variable {α β : Type*} (L : Lexer α β)

theorem run_tiles (c : Cursor α) : Tiles c.offset (L.run c).1 (L.run c).2.offset := by
  induction c using L.run_induction with
  | wait c h => simp [L.run_of_undecided h, Tiles]
  | step c extra finding h ih =>
    rw [L.run_of_consume h]
    exact ⟨rfl, Nat.succ_pos _, ih⟩

/-- Every token of a run reports the decision at its own offset. -/
theorem run_decision (c : Cursor α) {t : Token β} (ht : t ∈ (L.run c).1) :
    L.front (c.buffer.drop (t.offset - c.offset)) = .consume (t.width - 1) t.finding := by
  induction c using L.run_induction with
  | wait c h => simp [L.run_of_undecided h] at ht
  | step c extra finding h ih =>
    rw [L.run_of_consume h] at ht
    rcases List.mem_cons.mp ht with rfl | ht
    · simpa using h
    · have hge := ((L.run_tiles (c.skip (extra + 1))).mem_bounds ht).1
      rw [← ih ht]
      simp only [Cursor.skip, List.drop_drop] at hge ⊢
      congr 2
      omega

/-- Every symbol is either consumed or still pending. -/
theorem run_offset_add_length (c : Cursor α) :
    (L.run c).2.offset + (L.run c).2.buffer.length = c.offset + c.buffer.length := by
  induction c using L.run_induction with
  | wait c h => simp [L.run_of_undecided h]
  | step c extra finding h ih =>
    have hfit := L.fits h
    rw [L.run_of_consume h]
    simp only [Cursor.skip, List.length_drop] at ih ⊢
    omega

/-- What is pending is the rest of the buffer. -/
theorem run_buffer (c : Cursor α) :
    (L.run c).2.buffer = c.buffer.drop ((L.run c).2.offset - c.offset) := by
  induction c using L.run_induction with
  | wait c h => rw [L.run_of_undecided h, Nat.sub_self, List.drop_zero]
  | step c extra finding h ih =>
    have hle := (L.run_tiles (c.skip (extra + 1))).le
    rw [L.run_of_consume h, ih]
    simp only [Cursor.skip, List.drop_drop] at hle ⊢
    congr 1
    omega

/-- Findings which record what was consumed, joined to what is pending, are the buffer again. -/
theorem run_stretches (stretch : β → List α)
    (hstretch : ∀ {buffer extra finding}, L.front buffer = .consume extra finding →
      stretch finding = buffer.take (extra + 1)) (c : Cursor α) :
    ((L.run c).1.flatMap fun t => stretch t.finding) ++ (L.run c).2.buffer = c.buffer := by
  induction c using L.run_induction with
  | wait c h => rw [L.run_of_undecided h, List.flatMap_nil, List.nil_append]
  | step c extra finding h ih =>
    rw [L.run_of_consume h, List.flatMap_cons, List.append_assoc, ih, hstretch h]
    exact List.take_append_drop (extra + 1) c.buffer

/-- Induction along the decisions of the terminal pass. -/
theorem finish_induction {motive : Cursor α → Prop} (nil : ∀ c, c.buffer = [] → motive c)
    (giveUp : ∀ c, L.front c.buffer = .undecided → c.buffer ≠ [] → motive (c.skip 1) → motive c)
    (step : ∀ c extra finding, L.front c.buffer = .consume extra finding →
      motive (c.skip (extra + 1)) → motive c) (c : Cursor α) : motive c := by
  induction hn : c.buffer.length using Nat.strongRecOn generalizing c with
  | ind n ih =>
    by_cases hne : c.buffer = []
    · exact nil c hne
    · have hpos := List.length_pos_of_ne_nil hne
      have hshorter : ∀ count, 0 < count → (c.skip count).buffer.length < n := by
        intro count hcount
        simp only [Cursor.skip, List.length_drop]
        omega
      cases h : L.front c.buffer with
      | undecided => exact giveUp c h hne (ih _ (hshorter 1 Nat.one_pos) _ rfl)
      | consume extra finding => exact step c extra finding h (ih _ (hshorter _ extra.succ_pos) _ rfl)

/-- The terminal pass tiles everything that is pending. -/
theorem finish_tiles (c : Cursor α) : Tiles c.offset (L.finish c) (c.offset + c.buffer.length) := by
  induction c using L.finish_induction with
  | nil c h => simp [L.finish_of_nil h, h, Tiles]
  | giveUp c h hne ih =>
    have hpos := List.length_pos_of_ne_nil hne
    rw [L.finish_of_undecided h hne]
    refine ⟨rfl, Nat.one_pos, ?_⟩
    simpa [Cursor.skip, show c.offset + 1 + (c.buffer.length - 1) = c.offset + c.buffer.length by omega] using ih
  | step c extra finding h ih =>
    have hfit := L.fits h
    rw [L.finish_of_consume h]
    refine ⟨rfl, Nat.succ_pos _, ?_⟩
    simpa [Cursor.skip, show c.offset + (extra + 1) + (c.buffer.length - (extra + 1)) =
      c.offset + c.buffer.length by omega] using ih

/-- One parse of the buffer: a terminal one leaves nothing pending. -/
def parse (terminal : Bool) (c : Cursor α) : List (Token β) × Cursor α :=
  if terminal then (L.finish c, ⟨c.offset + c.buffer.length, []⟩) else L.run c

theorem parse_of_nil (terminal : Bool) {c : Cursor α} (h : c.buffer = []) :
    L.parse terminal c = ([], c) := by
  obtain ⟨offset, buffer⟩ := c
  obtain rfl : buffer = [] := h
  cases terminal with
  | false => exact L.run_of_undecided L.front_nil
  | true => simp [parse, L.finish_of_nil]

theorem parse_of_consume (terminal : Bool) {c : Cursor α} {extra : ℕ} {finding : β}
    (h : L.front c.buffer = .consume extra finding) :
    L.parse terminal c = (⟨c.offset, extra + 1, finding⟩ :: (L.parse terminal (c.skip (extra + 1))).1,
      (L.parse terminal (c.skip (extra + 1))).2) := by
  have hfit := L.fits h
  cases terminal with
  | false => exact L.run_of_consume h
  | true =>
    simp only [parse, if_true, L.finish_of_consume h, Cursor.skip, List.length_drop,
      Prod.mk.injEq, true_and, Cursor.mk.injEq, and_true]
    omega

theorem parse_of_undecided {c : Cursor α} (h : L.front c.buffer = .undecided) :
    L.parse false c = ([], c) :=
  L.run_of_undecided h

theorem parse_of_giveUp {c : Cursor α} (h : L.front c.buffer = .undecided) (hne : c.buffer ≠ []) :
    L.parse true c = (⟨c.offset, 1, L.giveUp c.buffer⟩ :: (L.parse true (c.skip 1)).1,
      (L.parse true (c.skip 1)).2) := by
  have hpos := List.length_pos_of_ne_nil hne
  simp only [parse, if_true, L.finish_of_undecided h hne, Cursor.skip, List.length_drop,
    Prod.mk.injEq, true_and, Cursor.mk.injEq, and_true]
  omega

/-- The decision the lexer takes at a position of the stream, giving up where it would wait. -/
def decision (suffix : List α) : ℕ × β :=
  match L.front suffix with
  | .consume extra finding => (extra + 1, finding)
  | .undecided => (1, L.giveUp suffix)

/-- Every token of the terminal pass reports the decision at its own offset. -/
theorem finish_decision (c : Cursor α) {t : Token β} (ht : t ∈ L.finish c) :
    (t.width, t.finding) = L.decision (c.buffer.drop (t.offset - c.offset)) := by
  induction c using L.finish_induction with
  | nil c h => simp [L.finish_of_nil h] at ht
  | giveUp c h hne ih =>
    rw [L.finish_of_undecided h hne] at ht
    rcases List.mem_cons.mp ht with rfl | ht
    · simp [decision, h]
    · have hge := ((L.finish_tiles (c.skip 1)).mem_bounds ht).1
      rw [ih ht]
      simp only [Cursor.skip, List.drop_drop] at hge ⊢
      congr 2
      omega
  | step c extra finding h ih =>
    rw [L.finish_of_consume h] at ht
    rcases List.mem_cons.mp ht with rfl | ht
    · simp [decision, h]
    · have hge := ((L.finish_tiles (c.skip (extra + 1))).mem_bounds ht).1
      rw [ih ht]
      simp only [Cursor.skip, List.drop_drop] at hge ⊢
      congr 2
      omega

end Lexer

end Lms200.Resync
