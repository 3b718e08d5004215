import Mathlib.Data.List.Basic
import Mathlib.Data.Nat.Notation

/-!
# Queues which keep the latest items

A bounded queue which makes room for a new item by losing its oldest one. A reader of such a queue
reads a part of what it has been offered, in order, and its queue holds the latest of what has been
offered since it last read.
-/

namespace Lms200.Lossy

variable {α : Type*}

/-- The latest items, at most so many. -/
def latest (size : ℕ) (items : List α) : List α := items.drop (items.length - size)

theorem length_latest (size : ℕ) (items : List α) : (latest size items).length = min size items.length := by
  rw [latest, List.length_drop]
  omega

theorem latest_of_length_le {size : ℕ} {items : List α} (h : items.length ≤ size) : latest size items = items := by
  rw [latest, Nat.sub_eq_zero_of_le h, List.drop_zero]

/-- The queue after an item is put in, which a full queue makes room for. -/
def put (size : ℕ) (queue : List α) (item : α) : List α :=
  (if size ≤ queue.length then queue.tail else queue) ++ [item]

/-- A queue of the latest items has the latest ones after a new item. -/
theorem put_latest {size : ℕ} (hsize : 0 < size) (items : List α) (item : α) :
    put size (latest size items) item = latest size (items ++ [item]) := by
  rw [put, length_latest]
  by_cases hfull : size ≤ items.length
  · have hdrop : (items ++ [item]).length - size = items.length - size + 1 := by
      rw [List.length_append, List.length_singleton]
      omega
    rw [if_pos (Nat.le_min.mpr ⟨Nat.le_refl _, hfull⟩), latest, latest, List.tail_drop, hdrop,
      List.drop_append_of_le_length (by omega)]
  · rw [if_neg (by omega), latest_of_length_le (by omega), latest_of_length_le]
    rw [List.length_append, List.length_singleton]
    omega

/-- A reader has taken some of what it was offered, and its queue holds the latest offers since. -/
structure Follows (size : ℕ) (offered taken queue : List α) : Prop where
  since : ∃ earlier unread, offered = earlier ++ unread ∧ taken.Sublist earlier ∧
    taken.getLast? = earlier.getLast? ∧ queue = latest size unread

namespace Follows

variable {size : ℕ} {offered taken queue : List α}

theorem fresh : Follows size ([] : List α) [] [] :=
  ⟨[], [], rfl, .slnil, rfl, (latest_of_length_le (Nat.zero_le _)).symm⟩

/-- The queue is bounded. -/
theorem bounded (h : Follows size offered taken queue) : queue.length ≤ size := by
  obtain ⟨earlier, unread, -, -, -, rfl⟩ := h.since
  rw [length_latest]
  exact Nat.min_le_left _ _

/-- What is taken was offered, in order. -/
theorem sublist (h : Follows size offered taken queue) : taken.Sublist offered := by
  obtain ⟨earlier, unread, rfl, htaken, -, -⟩ := h.since
  exact htaken.trans (List.sublist_append_left _ _)

/-- What is taken or still queued was offered. -/
theorem length_le (h : Follows size offered taken queue) : taken.length + queue.length ≤ offered.length := by
  obtain ⟨earlier, unread, rfl, htaken, -, rfl⟩ := h.since
  have hlength := htaken.length_le
  rw [length_latest, List.length_append]
  omega

/-- Another item is offered. -/
theorem offer (h : Follows size offered taken queue) (hsize : 0 < size) (item : α) :
    Follows size (offered ++ [item]) taken (put size queue item) := by
  obtain ⟨earlier, unread, rfl, htaken, hlast, rfl⟩ := h.since
  exact ⟨earlier, unread ++ [item], List.append_assoc _ _ _, htaken, hlast, put_latest hsize unread item⟩

/-- The oldest item of the queue is taken. -/
theorem take {item : α} {rest : List α} (h : Follows size offered taken (item :: rest)) :
    Follows size offered (taken ++ [item]) rest := by
  obtain ⟨earlier, unread, rfl, htaken, hlast, hqueue⟩ := h.since
  have hsplit : unread = unread.take (unread.length - size) ++ item :: rest := by
    rw [hqueue, latest, List.take_append_drop]
  have hbound := h.bounded
  rw [List.length_cons] at hbound
  refine ⟨earlier ++ unread.take (unread.length - size) ++ [item], rest, ?_, ?_, ?_, ?_⟩
  · nth_rewrite 1 [hsplit]
    simp only [List.append_assoc, List.singleton_append]
  · exact (htaken.trans (List.sublist_append_left _ _)).append (List.Sublist.refl [item])
  · rw [List.getLast?_concat, List.getLast?_concat]
  · exact (latest_of_length_le (by omega)).symm

/-- How many offers are lost. -/
def lost (offered taken queue : List α) : ℕ := offered.length - taken.length - queue.length

/-- An offer loses an item exactly when the queue is full. -/
theorem lost_offer (h : Follows size offered taken queue) (hsize : 0 < size) (item : α) :
    lost (offered ++ [item]) taken (put size queue item) =
      lost offered taken queue + if size ≤ queue.length then 1 else 0 := by
  have hlength := h.length_le
  simp only [lost, put, List.length_append, List.length_singleton]
  split
  · rw [List.length_tail]
    omega
  · omega

/-- Nothing is lost by taking. -/
theorem lost_take (item : α) (rest : List α) : lost offered (taken ++ [item]) rest = lost offered taken (item :: rest) := by
  simp only [lost, List.length_append, List.length_cons, List.length_nil]
  omega

end Follows

end Lms200.Lossy
