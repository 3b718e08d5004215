import Mathlib.Data.Nat.Notation
import Mathlib.Data.List.Infix
import Mathlib.Algebra.BigOperators.Group.List.Basic
import Mathlib.Algebra.Order.Monoid.Defs
import Mathlib.Algebra.GroupWithZero.Nat

/-!
# Message patterns

A pattern lists messages in the order in which they are sent, each with bounds on its
repetitions. A word fits a pattern when it runs through all segments, and begins it when a
longer word fits.

Sending one more message of the next segment keeps a word within the pattern, and a message
occurs no more often than its segments allow.
-/

namespace Lms200.Traffic

variable {α : Type*}

/-- A message repeated within bounds. -/
structure Segment (α : Type*) where
  message : α
  least : ℕ
  most : ℕ

/-- Some number of repetitions is within the bounds. -/
def Segment.Sound (segment : Segment α) : Prop := segment.least ≤ segment.most

/-- The word runs through the whole pattern. -/
def Fits : List (Segment α) → List α → Prop
  | [], word => word = []
  | segment :: rest, word => ∃ n tail, segment.least ≤ n ∧ n ≤ segment.most ∧
      word = List.replicate n segment.message ++ tail ∧ Fits rest tail

/-- The word can be continued to one which runs through the whole pattern. -/
def Begins (pattern : List (Segment α)) (word : List α) : Prop :=
  ∃ full, Fits pattern full ∧ word <+: full

/-- Words for two patterns follow one another. -/
theorem Fits.append {first second : List (Segment α)} {word tail : List α}
    (h : Fits first word) (h' : Fits second tail) : Fits (first ++ second) (word ++ tail) := by
  induction first generalizing word with
  | nil =>
    have hnil : word = [] := h
    simpa [hnil] using h'
  | cons segment rest ih =>
    obtain ⟨n, middle, hleast, hmost, rfl, hrest⟩ := h
    exact ⟨n, middle ++ tail, hleast, hmost, List.append_assoc _ _ _, ih hrest⟩

/-- Another segment is run through. -/
theorem Fits.snoc {done : List (Segment α)} {word : List α} (h : Fits done word)
    {segment : Segment α} {n : ℕ} (hleast : segment.least ≤ n) (hmost : n ≤ segment.most) :
    Fits (done ++ [segment]) (word ++ List.replicate n segment.message) :=
  h.append ⟨n, [], hleast, hmost, (List.append_nil _).symm, rfl⟩

/-- Sound patterns are run through by some word. -/
theorem exists_fits {pattern : List (Segment α)} (h : ∀ segment ∈ pattern, segment.Sound) :
    ∃ word, Fits pattern word := by
  induction pattern with
  | nil => exact ⟨[], rfl⟩
  | cons segment rest ih =>
    obtain ⟨tail, htail⟩ := ih fun s hs => h s (List.mem_cons_of_mem _ hs)
    exact ⟨_, _, tail, le_rfl, h segment List.mem_cons_self, rfl, htail⟩

/-- A word which has run through some segments begins any sound continuation. -/
theorem Fits.begins {done rest : List (Segment α)} {word : List α} (h : Fits done word)
    (hrest : ∀ segment ∈ rest, segment.Sound) : Begins (done ++ rest) word := by
  obtain ⟨tail, htail⟩ := exists_fits hrest
  exact ⟨word ++ tail, h.append htail, List.prefix_append _ _⟩

/-- Within a segment a word begins the pattern. -/
theorem Fits.begins_next {done rest : List (Segment α)} {word : List α} (h : Fits done word)
    {segment : Segment α} {n : ℕ} (hn : n ≤ segment.most)
    (hrest : ∀ s ∈ segment :: rest, s.Sound) :
    Begins (done ++ segment :: rest) (word ++ List.replicate n segment.message) := by
  obtain ⟨tail, htail⟩ := exists_fits fun s hs => hrest s (List.mem_cons_of_mem _ hs)
  have hsound : segment.least ≤ segment.most := hrest segment List.mem_cons_self
  refine ⟨word ++ (List.replicate (max n segment.least) segment.message ++ tail),
    h.append ⟨_, tail, le_max_right _ _, max_le hn hsound, rfl, htail⟩, ?_⟩
  obtain ⟨more, hmore⟩ := Nat.exists_eq_add_of_le (le_max_left n segment.least)
  rw [hmore, List.replicate_add, List.append_assoc]
  exact (List.prefix_append_right_inj _).mpr (List.prefix_append _ _)

/-- How often a pattern allows messages of a kind. -/
def allowance (pattern : List (Segment α)) (kind : α → Bool) : ℕ :=
  (pattern.map fun segment => if kind segment.message then segment.most else 0).sum

variable {kind : α → Bool}

@[simp] theorem allowance_nil : allowance [] kind = 0 := rfl

@[simp] theorem allowance_cons (segment : Segment α) (rest : List (Segment α)) :
    allowance (segment :: rest) kind =
      (if kind segment.message then segment.most else 0) + allowance rest kind := rfl

@[simp] theorem allowance_append (first second : List (Segment α)) :
    allowance (first ++ second) kind = allowance first kind + allowance second kind := by
  simp [allowance]

/-- Segments of other kinds allow nothing. -/
theorem allowance_eq_zero {pattern : List (Segment α)}
    (h : ∀ segment ∈ pattern, kind segment.message = false) : allowance pattern kind = 0 := by
  refine List.sum_eq_zero fun n hn => ?_
  obtain ⟨segment, hmem, rfl⟩ := List.mem_map.mp hn
  rw [h segment hmem]
  exact if_neg Bool.false_ne_true

/-- Messages of a kind occur as often as a pattern allows them. -/
theorem Fits.countP_le {pattern : List (Segment α)} {word : List α} (h : Fits pattern word)
    (kind : α → Bool) : word.countP kind ≤ allowance pattern kind := by
  induction pattern generalizing word with
  | nil =>
    have hnil : word = [] := h
    simp [hnil]
  | cons segment rest ih =>
    obtain ⟨n, tail, -, hmost, rfl, hrest⟩ := h
    have htail := ih hrest
    rw [List.countP_append, List.countP_replicate, allowance_cons]
    split <;> omega

theorem Begins.countP_le {pattern : List (Segment α)} {word : List α} (h : Begins pattern word)
    (kind : α → Bool) : word.countP kind ≤ allowance pattern kind := by
  obtain ⟨full, hfits, hstart⟩ := h
  exact hstart.countP_le.trans (hfits.countP_le kind)

end Lms200.Traffic
