import Lms200.Device.State

/-!
# The replay transport

`ReplayTransport.read` of `transports/replay.py` over the open files of a recording, and the read
loop of the device over it. A file is its bytes and the position of the next one; the index is
the lines which are not read yet. The sleeps between telegrams are left to the clock, so the time
stamps only need to be there.
-/

namespace Lms200

/-- One line of the timing index. -/
structure IndexEntry where
  offset : ℤ
  length : ℤ
  timestamp : String
  sequence : ℕ
  deriving DecidableEq, Repr

/-- The files of a replay; a recording may come without an index. -/
structure ReplayTransport where
  file : Option Bytes
  position : ℕ := 0
  index : Option (List IndexEntry)
  remaining : ℤ := 0
  timestamp : Option String := none
  deriving DecidableEq, Repr

namespace ReplayTransport

/-- `open`, once the sidecar has been read. -/
def opened (file : Bytes) (index : Option (List IndexEntry)) : ReplayTransport :=
  { file := some file, index }

/-- The start of a read: between telegrams the next line of the index says where one is. -/
def nextEntry (r : ReplayTransport) (file : Bytes) : Except Error Unit × ReplayTransport :=
  if r.remaining = 0 then
    match r.index with
    | none => (.ok (), r)
    | some [] =>
      if r.position < file.length then
        (.error (.value "Recording contains data beyond its timing index"),
          { r with position := r.position + 1 })
      else (.error (.eof "Replay complete"), r)
    | some (item :: lines) =>
      let r := { r with index := some lines, remaining := item.length }
      if ¬ (1 ≤ item.length ∧ item.length ≤ 814) ∨ item.offset ≠ r.position then
        (.error (.value "Invalid recording index"), r)
      else (.ok (), { r with timestamp := some item.timestamp })
  else (.ok (), r)

/-- The most bytes which a read takes from the file. -/
def amount (r : ReplayTransport) (size : ℕ) : ℕ :=
  if r.index.isSome then min (min size 137) r.remaining.toNat else min size 137

/-- The rest of a read: some bytes of the file, or its end. -/
def nextBytes (r : ReplayTransport) (file : Bytes) (size : ℕ) : Except Error Bytes × ReplayTransport :=
  let data := slice file r.position (r.position + r.amount size)
  if data = [] then
    if r.index.isSome ∧ r.remaining ≠ 0 then
      (.error (.value "Recording ended inside an indexed telegram"), r)
    else (.error (.eof "Replay complete"), r)
  else
    let r := { r with position := r.position + data.length }
    (.ok data, if r.index.isSome then { r with remaining := r.remaining - data.length } else r)

/-- `read` -/
def read (r : ReplayTransport) (size : ℕ := 4096) : Except Error Bytes × ReplayTransport :=
  match r.file with
  | none => (.error (.eof "Replay closed"), r)
  | some file =>
    match r.nextEntry file with
    | (.error e, r) => (.error e, r)
    | (.ok (), r) => r.nextBytes file size

/-- Reads of the given sizes, up to the first which raises: the chunks and the exception. -/
def readUntil (r : ReplayTransport) : List ℕ → List Bytes × Option Error
  | [] => ([], none)
  | size :: sizes =>
    match r.read size with
    | (.error e, _) => ([], some e)
    | (.ok data, r) => (data :: (r.readUntil sizes).1, (r.readUntil sizes).2)

end ReplayTransport

/-- The entries of an index follow each other from one offset to another, each with a length
which a telegram may have. -/
def Indexed : ℤ → List IndexEntry → ℤ → Prop
  | start, [], stop => start = stop
  | start, entry :: rest, stop =>
    entry.offset = start ∧ 1 ≤ entry.length ∧ entry.length ≤ 814 ∧ Indexed (start + entry.length) rest stop

theorem Indexed.le {start stop : ℤ} {entries : List IndexEntry} (h : Indexed start entries stop) :
    start ≤ stop := by
  induction entries generalizing start with
  | nil => exact le_of_eq h
  | cons entry rest ih =>
    have := ih h.2.2.2
    have := h.2.1
    omega

namespace ReplayTransport

/-- The reader is inside the file, and inside the telegram of the current entry. -/
structure Reading (file : Bytes) (r : ReplayTransport) : Prop where
  file_eq : r.file = some file
  position_le : r.position ≤ file.length
  remaining_nonneg : 0 ≤ r.remaining

/-- What is still to be read is what the index says, if there is one. -/
def Intact (file : Bytes) (r : ReplayTransport) : Prop :=
  ∀ entries, r.index = some entries → Indexed (r.position + r.remaining) entries file.length

/-- What a read may give: the next bytes of the file, or an exception. -/
inductive Read (file : Bytes) (r : ReplayTransport) : Except Error Bytes × ReplayTransport → Prop
  | bytes {data : Bytes} {r' : ReplayTransport} (nonempty : data ≠ [])
      (next : slice file r.position (r.position + data.length) = data)
      (moved : r'.position = r.position + data.length) (reading : r'.Reading file)
      (intact : r'.Intact file ↔ r.Intact file) : Read file r (.ok data, r')
  | complete {r' : ReplayTransport} (intact : r.Intact file) (finished : r.position = file.length) :
      Read file r (.error (.eof "Replay complete"), r')
  | damaged {m : String} {r' : ReplayTransport} (damage : ¬ r.Intact file) :
      Read file r (.error (.value m), r')

section Reads

variable {file : Bytes} {r : ReplayTransport} {size : ℕ}

/-- What a read gives depends on the position and on whether the rest is intact. -/
theorem Read.congr {r₁ : ReplayTransport} {result : Except Error Bytes × ReplayTransport}
    (h : Read file r₁ result) (hposition : r₁.position = r.position)
    (hintact : r₁.Intact file ↔ r.Intact file) : Read file r result := by
  cases h with
  | bytes nonempty next moved reading intact =>
    exact .bytes nonempty (hposition ▸ next) (hposition ▸ moved) reading (intact.trans hintact)
  | complete intact finished => exact .complete (hintact.mp intact) (hposition ▸ finished)
  | damaged damage => exact .damaged (mt hintact.mpr damage)

/-- Inside a telegram, or without an index, a read takes the next bytes. -/
theorem nextBytes_read (h : r.Reading file) (hsize : 1 ≤ size)
    (hinside : r.index = none ∨ r.remaining ≠ 0) : Read file r (r.nextBytes file size) := by
  have hposition := h.position_le
  have hremaining := h.remaining_nonneg
  have hamount : 1 ≤ r.amount size := by
    unfold amount
    rcases hinside with hnone | hne
    · rw [hnone]
      simpa using hsize
    · split <;> omega
  have hlength : (slice file r.position (r.position + r.amount size)).length =
      min (r.amount size) (file.length - r.position) := by
    simp only [slice, List.length_drop, List.length_take]
    omega
  unfold nextBytes
  dsimp only
  generalize hdata : slice file r.position (r.position + r.amount size) = data at hlength
  split
  · next hempty =>
    -- Nothing is left in the file.
    rw [hempty, List.length_nil] at hlength
    have hend : r.position = file.length := by omega
    split
    · next hindexed =>
      refine .damaged fun hintact => ?_
      obtain ⟨entries, hentries⟩ := Option.isSome_iff_exists.mp hindexed.1
      have hle := (hintact entries hentries).le
      have hne := hindexed.2
      omega
    · next hunindexed =>
      refine .complete (fun entries hentries => ?_) hend
      rcases hinside with hnone | hne
      · rw [hnone] at hentries
        cases hentries
      · exact absurd ⟨by rw [hentries]; rfl, hne⟩ hunindexed
  · next hne =>
    have hpos : 0 < data.length := List.length_pos_iff.mpr hne
    have hnext : slice file r.position (r.position + data.length) = data := by
      rw [← hdata, slice, slice, List.drop_take, List.drop_take, Nat.add_sub_cancel_left,
        Nat.add_sub_cancel_left, List.take_eq_take_iff]
      simp only [List.length_take, List.length_drop]
      omega
    have hinside : data.length ≤ r.amount size := by omega
    refine .bytes hne hnext (by split <;> rfl) ?_ ?_
    · constructor
      · split <;> exact h.file_eq
      · split
        all_goals
          dsimp only
          omega
      · split
        · next hindexed =>
          have hamount : r.amount size ≤ r.remaining.toNat := by
            rw [amount, if_pos hindexed]
            exact Nat.min_le_right _ _
          dsimp only
          omega
        · exact hremaining
    · split
      · have hsum : ((r.position + data.length : ℕ) : ℤ) + (r.remaining - data.length) =
            r.position + r.remaining := by omega
        simp only [Intact, hsum]
      · next hunindexed =>
        have hnone : r.index = none := by simpa using hunindexed
        simp [Intact, hnone]

/-- Every read of an open replay is of one of the three kinds. -/
theorem read_read (h : r.Reading file) (hsize : 1 ≤ size) : Read file r (r.read size) := by
  have hposition := h.position_le
  simp only [read, h.file_eq]
  unfold nextEntry
  by_cases hzero : r.remaining = 0
  · rw [if_pos hzero]
    rcases hindex : r.index with _ | _ | ⟨item, lines⟩
    · exact nextBytes_read h hsize (.inl hindex)
    · have hintact : r.Intact file ↔ r.position = file.length := by
        simp [Intact, hindex, hzero, Indexed]
      dsimp only
      by_cases hbeyond : r.position < file.length
      · rw [if_pos hbeyond]
        exact .damaged fun hi => by
          have := hintact.mp hi
          omega
      · rw [if_neg hbeyond]
        have hfinished : r.position = file.length := by omega
        exact .complete (hintact.mpr hfinished) hfinished
    · have hintact : r.Intact file ↔ item.offset = r.position ∧ 1 ≤ item.length ∧
          item.length ≤ 814 ∧ Indexed (r.position + item.length) lines file.length := by
        simp [Intact, hindex, hzero, Indexed]
      dsimp only
      by_cases hinvalid : ¬ (1 ≤ item.length ∧ item.length ≤ 814) ∨ item.offset ≠ r.position
      · rw [if_pos hinvalid]
        refine .damaged fun hi => ?_
        obtain ⟨hoffset, hlow, hhigh, -⟩ := hintact.mp hi
        rcases hinvalid with hlength | hne
        · exact hlength ⟨hlow, hhigh⟩
        · exact hne hoffset
      · rw [if_neg hinvalid]
        obtain ⟨hlength, hoffset⟩ := not_or.mp hinvalid
        obtain ⟨hlow, hhigh⟩ := not_not.mp hlength
        refine Read.congr (nextBytes_read ⟨h.file_eq, hposition, ?_⟩ hsize (.inr ?_)) rfl ?_
        · dsimp only
          omega
        · dsimp only
          omega
        · rw [hintact]
          simp [Intact, not_not.mp hoffset, hlow, hhigh]
  · rw [if_neg hzero]
    exact nextBytes_read h hsize (.inr hzero)

end Reads

/-- A replay which has just been opened. -/
theorem opened_reading (file : Bytes) (index : Option (List IndexEntry)) :
    (opened file index).Reading file :=
  ⟨rfl, Nat.zero_le _, le_rfl⟩

/-- Reads of any sizes return a prefix of what is left, and end as the index says. -/
theorem readUntil_spec {file : Bytes} {sizes : List ℕ} (hsizes : ∀ size ∈ sizes, 1 ≤ size)
    {r : ReplayTransport} (h : r.Reading file) :
    (r.readUntil sizes).1.flatten <+: file.drop r.position ∧
      (file.length - r.position < sizes.length → (r.readUntil sizes).2.isSome = true) ∧
      ∀ e, (r.readUntil sizes).2 = some e →
        (∃ m, e = .eof m) ∧ r.Intact file ∧ (r.readUntil sizes).1.flatten = file.drop r.position ∨
          (∃ m, e = .value m) ∧ ¬ r.Intact file := by
  induction sizes generalizing r with
  | nil => exact ⟨List.nil_prefix, fun h => absurd h (Nat.not_lt_zero _), nofun⟩
  | cons size sizes ih =>
    have hread := read_read h (hsizes size List.mem_cons_self)
    have hposition := h.position_le
    simp only [readUntil]
    generalize r.read size = result at hread
    cases hread with
    | @bytes data r' nonempty next moved reading intact =>
      obtain ⟨hdelivered, hends, hend⟩ := ih (fun size hs => hsizes size (List.mem_cons_of_mem _ hs)) reading
      have hpos := List.length_pos_iff.mpr nonempty
      have hnext := reading.position_le
      have hsplit : file.drop r.position = data ++ file.drop r'.position := by
        rw [moved, ← List.drop_drop]
        conv_lhs => rw [← List.take_append_drop data.length (file.drop r.position)]
        rw [slice, List.drop_take, Nat.add_sub_cancel_left] at next
        rw [next]
      dsimp only
      rw [List.flatten_cons, hsplit]
      refine ⟨(List.prefix_append_right_inj data).mpr hdelivered, fun hlong => hends ?_, fun e he => ?_⟩
      · rw [List.length_cons] at hlong
        omega
      · rcases hend e he with ⟨heof, hintact, hall⟩ | ⟨hvalue, hdamage⟩
        · exact .inl ⟨heof, intact.mp hintact, by rw [hall]⟩
        · exact .inr ⟨hvalue, mt intact.mpr hdamage⟩
    | complete intact finished =>
      refine ⟨List.nil_prefix, fun _ => rfl, fun e he => .inl ⟨⟨_, (Option.some.inj he).symm⟩, intact, ?_⟩⟩
      rw [finished, List.drop_length]
      rfl
    | damaged damage =>
      exact ⟨List.nil_prefix, fun _ => rfl, fun e he => .inr ⟨⟨_, (Option.some.inj he).symm⟩, damage⟩⟩

end ReplayTransport

/-- The entries tile a file: each begins where the ones before it end, has a length which a
telegram may have, and the lengths add up to the size of the file. -/
structure Tiling (entries : List IndexEntry) (file : Bytes) : Prop where
  offset : ∀ before entry after, entries = before ++ entry :: after →
    entry.offset = (before.map IndexEntry.length).sum
  length : ∀ entry ∈ entries, 1 ≤ entry.length ∧ entry.length ≤ 814
  total : (entries.map IndexEntry.length).sum = file.length

/-- Entries follow each other exactly when their offsets and lengths say so. -/
theorem indexed_iff {start stop : ℤ} {entries : List IndexEntry} :
    Indexed start entries stop ↔
      (∀ before entry after, entries = before ++ entry :: after →
        entry.offset = start + (before.map IndexEntry.length).sum) ∧
      (∀ entry ∈ entries, 1 ≤ entry.length ∧ entry.length ≤ 814) ∧
      start + (entries.map IndexEntry.length).sum = stop := by
  induction entries generalizing start with
  | nil => simp [Indexed]
  | cons first rest ih =>
    rw [Indexed, ih]
    constructor
    · rintro ⟨hoffset, hlow, hhigh, hoffsets, hlengths, htotal⟩
      refine ⟨fun before entry after heq => ?_, List.forall_mem_cons.mpr ⟨⟨hlow, hhigh⟩, hlengths⟩, ?_⟩
      · cases before with
        | nil =>
          obtain ⟨rfl, -⟩ := List.cons.inj heq
          simpa using hoffset
        | cons head before =>
          obtain ⟨rfl, hrest⟩ := List.cons.inj heq
          rw [hoffsets before entry after hrest, List.map_cons, List.sum_cons, add_assoc]
      · rw [List.map_cons, List.sum_cons, ← add_assoc]
        exact htotal
    · rintro ⟨hoffsets, hlengths, htotal⟩
      obtain ⟨⟨hlow, hhigh⟩, hrest⟩ := List.forall_mem_cons.mp hlengths
      refine ⟨by simpa using hoffsets [] first rest rfl, hlow, hhigh, fun before entry after heq => ?_,
        hrest, ?_⟩
      · rw [hoffsets (first :: before) entry after (by rw [heq]; rfl), List.map_cons, List.sum_cons,
          add_assoc]
      · rw [add_assoc, ← List.sum_cons, ← List.map_cons]
        exact htotal

/-- An opened recording is intact when its index, if there is one, tiles the file. -/
theorem ReplayTransport.opened_intact_iff (file : Bytes) (index : Option (List IndexEntry)) :
    (opened file index).Intact file ↔ ∀ entries, index = some entries → Tiling entries file := by
  have htiling : ∀ entries, Indexed (0 + 0) entries file.length ↔ Tiling entries file := by
    intro entries
    rw [indexed_iff]
    simp only [zero_add]
    exact ⟨fun h => ⟨h.1, h.2.1, h.2.2⟩, fun h => ⟨h.offset, h.length, h.total⟩⟩
  exact ⟨fun h entries he => (htiling entries).mp (h entries he),
    fun h entries he => (htiling entries).mpr (h entries he)⟩

end Lms200
