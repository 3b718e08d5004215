import Lms200.Lossy.Queue
import Lms200.Service.State
import Mathlib.Algebra.BigOperators.Ring.Finset

/-!
# Live scans

The subscribers of `Service` in `service.py`, and the websocket reader of `api/app.py` as far as its queue
goes. A set is iterated in any order, and a reader whose wait times out takes nothing.

Scans are published one at a time; between them subscribers come, read and go.
-/

namespace Lms200.Service

open Lossy

/-- The subscribers with their queues, and the counter of what they lose. -/
structure Fanout where
  subscribers : List ℕ := []
  queues : ℕ → List Scan := fun _ => []
  client_drops : ℕ := 0
  count : ℕ := 0

namespace Fanout

/-- The size of a subscriber's queue. -/
def queueSize : ℕ := 2

/-- `queue.full()` -/
def full (f : Fanout) (i : ℕ) : Bool := queueSize ≤ (f.queues i).length

/-- `put_nowait`, after `get_nowait` from a full queue. -/
def deliver (scan : Scan) (f : Fanout) (i : ℕ) : Fanout :=
  let f := if f.full i then
      { f with queues := Function.update f.queues i (f.queues i).tail, client_drops := f.client_drops + 1 }
    else f
  { f with queues := Function.update f.queues i (f.queues i ++ [scan]) }

/-- `publish`, for the subscribers in the order of the iteration. -/
def publish (f : Fanout) (scan : Scan) (order : List ℕ) : Fanout := order.foldl (deliver scan) f

/-- `subscribe` -/
def subscribe (f : Fanout) : Fanout :=
  { f with
    subscribers := f.subscribers ++ [f.count]
    queues := Function.update f.queues f.count []
    count := f.count + 1 }

/-- `queue.get()` of a subscriber, when there is something to read. -/
def get (f : Fanout) (i : ℕ) : Option (Scan × Fanout) :=
  if i ∈ f.subscribers then
    match f.queues i with
    | [] => none
    | scan :: rest => some (scan, { f with queues := Function.update f.queues i rest })
  else none

/-- `subscribers.discard(queue)` -/
def discard (f : Fanout) (i : ℕ) : Fanout := { f with subscribers := f.subscribers.filter (· ≠ i) }

end Fanout

/-- The fan-out, with what was published to each subscriber while it was subscribed and what it read. -/
structure Audience where
  fanout : Fanout := {}
  published : ℕ → List Scan := fun _ => []
  read : ℕ → List Scan := fun _ => []

/-- What happens to the fan-out. -/
inductive Live where
  | publish (scan : Scan) (order : List ℕ)
  | subscribe
  | get (i : ℕ)
  | unsubscribe (i : ℕ)

namespace Audience

/-- Let it happen, if it can. -/
def act (a : Audience) : Live → Option Audience
  | .publish scan order =>
    if order.Perm a.fanout.subscribers then
      some { a with
        fanout := a.fanout.publish scan order
        published := fun i => if i ∈ a.fanout.subscribers then a.published i ++ [scan] else a.published i }
    else none
  | .subscribe => some { a with fanout := a.fanout.subscribe }
  | .get i => (a.fanout.get i).map fun (scan, fanout) =>
    { a with fanout, read := Function.update a.read i (a.read i ++ [scan]) }
  | .unsubscribe i => some { a with fanout := a.fanout.discard i }

/-- One thing after the other. -/
def run : Audience → List Live → Option Audience
  | a, [] => some a
  | a, action :: rest => (a.act action).bind fun a => a.run rest

/-- How many scans a subscriber has lost. -/
def lost (a : Audience) (i : ℕ) : ℕ := Follows.lost (a.published i) (a.read i) (a.fanout.queues i)

end Audience

namespace Fanout

/-- A delivery puts the scan into one queue, and counts what it loses. -/
theorem deliver_eq (scan : Scan) (f : Fanout) (i : ℕ) :
    f.deliver scan i = { f with
      queues := Function.update f.queues i (put queueSize (f.queues i) scan)
      client_drops := f.client_drops + if queueSize ≤ (f.queues i).length then 1 else 0 } := by
  by_cases hfull : queueSize ≤ (f.queues i).length
  · simp [deliver, full, put, hfull]
  · simp [deliver, full, put, hfull]

/-- A publication puts the scan into every queue once, whatever the order of the iteration. -/
theorem publish_eq (scan : Scan) {order : List ℕ} (hdistinct : order.Nodup) (f : Fanout) :
    f.publish scan order = { f with
      queues := fun i => if i ∈ order then put queueSize (f.queues i) scan else f.queues i
      client_drops := f.client_drops + order.countP fun i => queueSize ≤ (f.queues i).length } := by
  induction order generalizing f with
  | nil => simp [publish]
  | cons first rest ih =>
    obtain ⟨hfirst, hrest⟩ := List.nodup_cons.mp hdistinct
    have hlater : ∀ i ∈ rest, i ≠ first := fun i hi heq => hfirst (heq ▸ hi)
    have hstep : f.publish scan (first :: rest) = (f.deliver scan first).publish scan rest := rfl
    rw [hstep, deliver_eq, ih hrest, List.countP_cons]
    congr 1
    · funext i
      by_cases hi : i = first
      · subst hi
        simp [hfirst]
      · simp [hi]
    · have hcount : (rest.countP fun i => queueSize ≤
            (Function.update f.queues first (put queueSize (f.queues first) scan) i).length) =
          rest.countP fun i => queueSize ≤ (f.queues i).length := by
        apply List.countP_congr
        intro i hi
        rw [Function.update_of_ne (hlater i hi)]
      dsimp only at hcount ⊢
      rw [hcount]
      simp only [decide_eq_true_eq]
      omega

end Fanout

namespace Audience

/-- Every subscriber follows what is published to it, and the counter is what they have lost together. -/
structure Followed (a : Audience) : Prop where
  subscribed : ∀ i ∈ a.fanout.subscribers, i < a.fanout.count
  distinct : a.fanout.subscribers.Nodup
  follows : ∀ i, Follows Fanout.queueSize (a.published i) (a.read i) (a.fanout.queues i)
  later : ∀ i, a.fanout.count ≤ i → a.published i = [] ∧ a.read i = []
  drops : a.fanout.client_drops = ∑ i ∈ Finset.range a.fanout.count, a.lost i

theorem fresh_followed : Followed {} where
  subscribed := nofun
  distinct := List.nodup_nil
  follows _ := .fresh
  later _ _ := ⟨rfl, rfl⟩
  drops := rfl

/-- The queue of a subscriber yet to come is empty. -/
theorem Followed.queue_eq_nil {a : Audience} (h : a.Followed) {i : ℕ} (hi : a.fanout.count ≤ i) :
    a.fanout.queues i = [] := by
  have hlength := (h.follows i).length_le
  rw [(h.later i hi).1, List.length_nil] at hlength
  exact List.eq_nil_of_length_eq_zero (by omega)

/-- A publication reaches every subscriber. -/
theorem Followed.publish {a : Audience} (h : a.Followed) (scan : Scan) {order : List ℕ}
    (horder : order.Perm a.fanout.subscribers) :
    Followed { a with
      fanout := a.fanout.publish scan order
      published := fun i => if i ∈ a.fanout.subscribers then a.published i ++ [scan] else a.published i } := by
  have hdistinct : order.Nodup := horder.nodup_iff.mpr h.distinct
  have hlost : ∀ i, lost { a with
      fanout := a.fanout.publish scan order
      published := fun i => if i ∈ a.fanout.subscribers then a.published i ++ [scan] else a.published i } i =
        a.lost i + if i ∈ order ∧ Fanout.queueSize ≤ (a.fanout.queues i).length then 1 else 0 := by
    intro i
    have hoffer := (h.follows i).lost_offer (by decide) scan
    simp only [lost, a.fanout.publish_eq scan hdistinct, ← horder.mem_iff]
    by_cases hi : i ∈ order
    · simp only [hi, if_true, true_and]
      exact hoffer
    · simp only [hi, if_false, false_and, Nat.add_zero]
  refine ⟨?_, ?_, fun i => ?_, fun i hi => ?_, ?_⟩
  · rw [a.fanout.publish_eq scan hdistinct]
    exact h.subscribed
  · rw [a.fanout.publish_eq scan hdistinct]
    exact h.distinct
  · simp only [a.fanout.publish_eq scan hdistinct, ← horder.mem_iff]
    by_cases hmem : i ∈ order
    · simp only [hmem, if_true]
      exact (h.follows i).offer (by decide) scan
    · simp only [hmem, if_false]
      exact h.follows i
  · rw [a.fanout.publish_eq scan hdistinct] at hi
    have hnot : i ∉ a.fanout.subscribers := fun hmem => Nat.lt_irrefl i ((h.subscribed i hmem).trans_le hi)
    simp only [hnot, if_false]
    exact h.later i hi
  · simp only [hlost]
    rw [Finset.sum_add_distrib, a.fanout.publish_eq scan hdistinct]
    dsimp only
    rw [← h.drops, Finset.sum_boole, List.countP_eq_length_filter, ← List.toFinset_card_of_nodup (hdistinct.filter _)]
    congr 2
    ext i
    simp only [List.mem_toFinset, List.mem_filter, decide_eq_true_eq, Finset.mem_filter, Finset.mem_range]
    have hin : i ∈ order → i < a.fanout.count := fun hi => h.subscribed i (horder.mem_iff.mp hi)
    tauto

/-- A subscriber starts with an empty queue. -/
theorem Followed.subscribe {a : Audience} (h : a.Followed) : Followed { a with fanout := a.fanout.subscribe } := by
  have hqueues : Function.update a.fanout.queues a.fanout.count [] = a.fanout.queues := by
    rw [← h.queue_eq_nil le_rfl]
    exact Function.update_eq_self _ _
  have hnone : a.lost a.fanout.count = 0 := by
    rw [lost, (h.later _ le_rfl).1, Follows.lost, List.length_nil, Nat.zero_sub, Nat.zero_sub]
  refine ⟨fun i hi => ?_, ?_, fun i => ?_, fun i hi => h.later i (Nat.le_of_succ_le hi), ?_⟩
  · rcases List.mem_append.mp hi with hold | hnew
    · exact Nat.lt_succ_of_lt (h.subscribed i hold)
    · rw [List.mem_singleton.mp hnew]
      exact Nat.lt_succ_self _
  · apply List.Nodup.append h.distinct (List.nodup_singleton _)
    rw [List.disjoint_singleton]
    exact fun hmem => Nat.lt_irrefl _ (h.subscribed _ hmem)
  · simp only [Fanout.subscribe, hqueues]
    exact h.follows i
  · have hsame : ∀ i, lost { a with fanout := a.fanout.subscribe } i = a.lost i := by
      intro i
      simp only [lost, Fanout.subscribe, hqueues]
    simp only [hsame]
    rw [Fanout.subscribe, Finset.sum_range_succ, hnone]
    exact h.drops

/-- A read takes the oldest scan of the queue. -/
theorem Followed.get {a : Audience} (h : a.Followed) {i : ℕ} {scan : Scan} {fanout : Fanout}
    (hget : a.fanout.get i = some (scan, fanout)) :
    Followed { a with fanout, read := Function.update a.read i (a.read i ++ [scan]) } := by
  unfold Fanout.get at hget
  split at hget
  · next hmem =>
    split at hget
    · cases hget
    · next head rest hqueue =>
      obtain ⟨hhead, rfl⟩ := Prod.mk.inj (Option.some.inj hget)
      subst hhead
      have hthis := h.follows i
      rw [hqueue] at hthis
      have hlost : ∀ j, lost { a with
          fanout := { a.fanout with queues := Function.update a.fanout.queues i rest }
          read := Function.update a.read i (a.read i ++ [head]) } j = a.lost j := by
        intro j
        by_cases hj : j = i
        · subst hj
          simp only [lost, Function.update_self, hqueue]
          exact Follows.lost_take head rest
        · simp only [lost, Function.update_of_ne hj]
      refine ⟨h.subscribed, h.distinct, fun j => ?_, fun j hj => ?_, ?_⟩
      · by_cases hj : j = i
        · subst hj
          simp only [Function.update_self]
          exact hthis.take
        · simp only [Function.update_of_ne hj]
          exact h.follows j
      · have hne : j ≠ i := fun heq => Nat.lt_irrefl j ((heq ▸ h.subscribed i hmem).trans_le hj)
        simp only [Function.update_of_ne hne]
        exact h.later j hj
      · simp only [hlost]
        exact h.drops
  · cases hget

/-- A subscriber which goes leaves its queue as it is. -/
theorem Followed.discard {a : Audience} (h : a.Followed) (i : ℕ) :
    Followed { a with fanout := a.fanout.discard i } :=
  ⟨fun j hj => h.subscribed j (List.mem_of_mem_filter hj), h.distinct.filter _, h.follows, h.later, h.drops⟩

/-- Whatever happens, every subscriber follows. -/
theorem Followed.act {a a' : Audience} {action : Live} (h : a.Followed) (hact : a.act action = some a') :
    a'.Followed := by
  cases action with
  | publish scan order =>
    simp only [Audience.act] at hact
    split at hact
    · next horder =>
      obtain rfl := Option.some.inj hact
      exact h.publish scan horder
    · cases hact
  | subscribe =>
    obtain rfl := Option.some.inj hact
    exact h.subscribe
  | get i =>
    obtain ⟨⟨scan, fanout⟩, hget, rfl⟩ := Option.map_eq_some_iff.mp hact
    exact h.get hget
  | unsubscribe i =>
    obtain rfl := Option.some.inj hact
    exact h.discard i

theorem Followed.run {a a' : Audience} {actions : List Live} (h : a.Followed) (hrun : a.run actions = some a') :
    a'.Followed := by
  induction actions generalizing a with
  | nil =>
    obtain rfl := Option.some.inj hrun
    exact h
  | cons action rest ih =>
    obtain ⟨next, hact, hrest⟩ := Option.bind_eq_some_iff.mp hrun
    exact ih (h.act hact) hrest

end Audience

/-- In every run each subscriber has read a part of what was published to it, in order, its queue holds
the latest two of what was published since it last read, and the counter is the sum over all subscribers
of what was published to them and is neither read nor queued. -/
theorem fanout_accounted {actions : List Live} {a : Audience} (h : Audience.run {} actions = some a) :
    (∀ i, Follows 2 (a.published i) (a.read i) (a.fanout.queues i)) ∧
      (∀ i, (a.read i).Sublist (a.published i) ∧ (a.fanout.queues i).length ≤ 2 ∧
        (a.read i).length + (a.fanout.queues i).length ≤ (a.published i).length) ∧
      a.fanout.client_drops = ∑ i ∈ Finset.range a.fanout.count,
        ((a.published i).length - (a.read i).length - (a.fanout.queues i).length) := by
  have hfollowed := Audience.fresh_followed.run h
  refine ⟨hfollowed.follows, fun i => ?_, hfollowed.drops⟩
  have hthis := hfollowed.follows i
  exact ⟨hthis.sublist, hthis.bounded, hthis.length_le⟩

/-- A subscriber which reads once too late. -/
def slowReader : List Live :=
  [.subscribe, .publish someScan [0], .publish someScan [0], .publish someScan [0], .get 0]

/-- One of three scans is lost, one is read, and one is still queued. -/
theorem fanout_accounted_slow : ∃ a, Audience.run {} slowReader = some a ∧ a.fanout.client_drops = 1 ∧
    (a.read 0).Sublist (a.published 0) ∧ (a.fanout.queues 0).length ≤ 2 := by
  have hplayed : (Audience.run {} slowReader).map (fun a => a.fanout.client_drops) = some 1 := by decide +kernel
  obtain ⟨a, hrun, hdrops⟩ := Option.map_eq_some_iff.mp hplayed
  obtain ⟨hsublist, hbounded, -⟩ := (fanout_accounted hrun).2.1 0
  exact ⟨a, hrun, hdrops, hsublist, hbounded⟩

end Lms200.Service
