import HostLayer.Proofs.Ring.Slots
import HostLayer.Ring.Party

/-!
# Ring Changes

What inserting and removing a message does to a ring.

A change is a list of stores, and the list is long enough that nobody should
have to look at it twice. Here it is looked at once, store by store, for the
three things that a ring consists of: its two indices, the texts of its slots
and its tokens. Everything else follows from these three, and later modules use
only `pending_insert`, `pending_remove` and what stands beside them.

No assumption is made about the memory that is changed. A memory whose indices
are out of range is an empty ring, and whoever holds the lock makes it one
before anything else (`enter_cases`), so that the two main statements hold of
every memory whatsoever.

## Main definitions

* `Ring.makeRoom`: A queue that may have to lose its oldest entry.
* `Ring.Aside`: Bytes that no change touches.

## Theorems

* `Ring.indices?_eq_some_iff`: Indices are found if they are in range.
* `Ring.length_pending_lt`: A ring holds less messages than it has slots.
* `Ring.indices?_insertStores`, `Ring.text_insertStores`: Inserting, by
  indices and texts.
* `Ring.indices?_removeStores`, `Ring.text_removeStores`: Removing, by indices
  and texts.
* `Ring.enter_cases`: The indices that a party works with.
* `Ring.insert_agreeOn`, `Ring.remove_agreeOn`: What a change leaves alone.
* `Ring.pending_insert`: A message is put behind the others.
* `Ring.pending_remove`: The oldest message is removed.
* `Ring.indices?_insert`, `Ring.indices?_remove`: Indices after a change are in
  range.
* `Ring.tokens_insert`, `Ring.tokens_remove`: No change touches the tokens.
* `Ring.pending_setTokens`, `Ring.tokens_setTokens`: Tokens are kept apart from
  messages.
-/

namespace HostLayer

namespace Ring

/-- The queue with room for one more entry: one that is full has lost its
    oldest. -/
def makeRoom {α : Type} (capacity : Nat) (q : List α) : List α :=
  if q.length = capacity then q.tail else q

theorem makeRoom_map {α β : Type} (f : α → β) (capacity : Nat) (q : List α) :
    makeRoom capacity (q.map f) = (makeRoom capacity q).map f := by
  unfold makeRoom
  rw [List.length_map]
  by_cases h : q.length = capacity
  · rw [if_pos h, if_pos h, List.map_tail]
  · rw [if_neg h, if_neg h]

theorem indices?_eq_some_iff (g : Geometry) (m : Memory) (read write : Nat) :
    indices? g m = some (read, write) ↔
      m.loadNat readAt 4 = read ∧ m.loadNat writeAt 4 = write ∧ read < g.slots ∧
        write < g.slots := by
  unfold indices?
  by_cases h : m.loadNat readAt 4 < g.slots ∧ m.loadNat writeAt 4 < g.slots
  · simp only [if_pos h, Option.some.injEq, Prod.mk.injEq]
    constructor
    · rintro ⟨rfl, rfl⟩
      exact ⟨rfl, rfl, h⟩
    · rintro ⟨hr, hw, _, _⟩
      exact ⟨hr, hw⟩
  · simp only [if_neg h, reduceCtorEq, false_iff]
    rintro ⟨rfl, rfl, hr, hw⟩
    exact h ⟨hr, hw⟩

theorem pending_of_indices (g : Geometry) (m : Memory) (read write : Nat)
    (h : indices? g m = some (read, write)) :
    pending g m = texts g m read (countBetween g read write) := by
  unfold pending
  rw [h]
  exact messages_eq_texts g m read write

/-- One slot always stays empty. -/
theorem length_pending_lt (g : Geometry) (m : Memory) (h : 0 < g.slots) :
    (pending g m).length < g.slots := by
  cases hi : indices? g m with
  | none =>
      unfold pending
      rw [hi]
      exact h
  | some i =>
      rcases i with ⟨read, write⟩
      have hr := (indices?_eq_some_iff g m read write).mp hi
      rw [pending_of_indices g m read write hi, length_texts]
      exact countBetween_lt g read write hr.2.2.1

-- Indices, texts and tokens are all that there is to a ring.
theorem pending_congr (g : Geometry) (m m' : Memory)
    (hread : m'.loadNat readAt 4 = m.loadNat readAt 4)
    (hwrite : m'.loadNat writeAt 4 = m.loadNat writeAt 4)
    (htext : ∀ i, text g m' i = text g m i) :
    indices? g m' = indices? g m ∧ pending g m' = pending g m := by
  have hi : indices? g m' = indices? g m := by
    unfold indices?
    rw [hread, hwrite]
  refine ⟨hi, ?_⟩
  unfold pending
  rw [hi]
  cases indices? g m with
  | none => rfl
  | some i => exact texts_congr g m m' i.1 _ (fun k _ => htext _)

-- A store before the indices is beside everything that the messages of a ring
-- consist of.
theorem pending_apply_of_before (g : Geometry) (m : Memory) (s : Store)
    (h : s.first + s.size ≤ readAt) :
    indices? g (s.apply m) = indices? g m ∧ pending g (s.apply m) = pending g m := by
  refine pending_congr g m (s.apply m) ?_ ?_ (fun i => ?_)
  · exact Memory.loadNat_apply_of_misses m s readAt 4 (Or.inl h)
  · exact Memory.loadNat_apply_of_misses m s writeAt 4 (Or.inl (Nat.le_trans h (by decide)))
  · have hslot := headerSize_le_slotAt g i
    refine text_congr g m _ i (Memory.apply_agreeOn m s _ _ (Or.inl ?_))
    exact Nat.le_trans h (Nat.le_trans (by decide) hslot)

-- Filling a slot stays behind the header.
theorem fillStores_first (g : Geometry) (slot : Nat) (msg : List UInt8) :
    ∀ s ∈ fillStores g slot msg, headerSize ≤ s.first := by
  have hslot := headerSize_le_slotAt g slot
  intro s hs
  unfold fillStores at hs
  rcases List.mem_cons.mp hs with rfl | hs
  · exact hslot
  · rw [List.mem_singleton.mp hs]
    exact Nat.le_trans hslot (Nat.le_add_right _ _)

-- Filling a slot leaves all others alone.
theorem fillStores_misses (g : Geometry) (slot i : Nat) (msg : List UInt8)
    (hsize : 1 ≤ g.slotSize) (hne : i ≠ slot) :
    ∀ s ∈ fillStores g slot msg, s.Misses (g.slotAt i) (g.slotAt i + g.slotSize) := by
  have hlen := stored_length_lt hsize msg
  intro s hs
  unfold fillStores at hs
  unfold Store.Misses
  -- Both stores stay inside the slot that is filled.
  have hin : g.slotAt slot ≤ s.first ∧ s.first + s.size ≤ g.slotAt slot + g.slotSize := by
    rcases List.mem_cons.mp hs with rfl | hs
    · simp only [Store.first, Store.size]
      omega
    · rw [List.mem_singleton.mp hs]
      simp only [Store.first, Store.size, List.length_singleton]
      omega
  rcases slotAt_apart g i slot hne with h | h
  · exact Or.inr (by omega)
  · exact Or.inl (by omega)

-- A slot that has been filled is read back up to the first NUL.
theorem text_fillStores (g : Geometry) (m : Memory) (slot : Nat) (msg : List UInt8)
    (hsize : 1 ≤ g.slotSize) : text g (m.storeAll (fillStores g slot msg)) slot = kept g msg := by
  have hlen := stored_length_lt hsize msg
  unfold text kept fillStores
  rw [Memory.storeAll_cons, Memory.storeAll_cons, Memory.storeAll_nil]
  simp only [Store.apply]
  refine textFrom_eq_takeWhile _ _ _ _ hlen (fun i hi => ?_) ?_
  · rw [Memory.store_byte_of_lt _ _ (by omega)]
    exact Memory.store_byte_of_mem m _ hi
  · have hend : ∀ m' : Memory, (m'.store (g.slotAt slot + (stored g msg).length) [0]).byte
        (g.slotAt slot + (stored g msg).length + 0) = 0 :=
      fun m' => Memory.store_byte_of_mem m' [0] (by decide)
    exact hend _

-- The stores that move the indices and the flag lie at their places.
theorem setWrite_setFlag_misses (write : Nat) (b : Bool) (lo hi : Nat)
    (h : hi ≤ flagAt ∨ headerSize ≤ lo ∨ lo = readAt ∧ hi = readAt + 4) :
    ∀ s ∈ [setWrite write, setFlag b], s.Misses lo hi := by
  intro s hs
  unfold setWrite setFlag at hs
  unfold Store.Misses
  simp only [List.mem_cons, List.not_mem_nil, or_false] at hs
  simp only [flagAt, headerSize, readAt] at h
  rcases hs with rfl | rfl <;> simp only [Store.first, Store.size, writeAt, flagAt] <;> omega

-- A stored index is found again: it is a slot, and slots have numbers that fit
-- the index.
theorem loadNat_index (g : Geometry) (hg : g.InRange) (m : Memory) (off i : Nat)
    (h : i < g.slots) : ((Store.number off 4 i).apply m).loadNat off 4 = i :=
  Memory.loadNat_storeNat_word32 m off i (Nat.lt_trans h hg.2.1)

/-- Inserting moves the write index on, and the read index where the ring is
    full. -/
theorem indices?_insertStores (g : Geometry) (hg : g.InRange) (m : Memory) (read write : Nat)
    (msg : List UInt8) (hi : indices? g m = some (read, write)) :
    indices? g (m.storeAll (insertStores g read write msg))
      = some (if full g read write then g.next read else read, g.next write) := by
  rcases (indices?_eq_some_iff g m read write).mp hi with ⟨hread, _, hr, _⟩
  have hnext : ∀ i, g.next i < g.slots := Geometry.next_lt hg
  rw [indices?_eq_some_iff]
  unfold insertStores
  rw [Memory.storeAll_append, Memory.storeAll_append]
  refine ⟨?_, ?_, ?_, hnext write⟩
  · rw [Memory.loadNat_storeAll_of_misses _ _ _ _
        (setWrite_setFlag_misses _ _ _ _ (Or.inr (Or.inr ⟨rfl, rfl⟩))),
      Memory.loadNat_storeAll_of_misses _ _ _ _
        (fun s hs => Or.inr (Nat.le_trans (by decide) (fillStores_first g write msg s hs)))]
    by_cases hf : full g read write
    · have heq : g.next write = read := by simpa only [full, beq_iff_eq] using hf
      rw [if_pos hf, if_pos hf, heq, Memory.storeAll_cons, Memory.storeAll_nil]
      exact loadNat_index g hg m readAt _ (hnext read)
    · rw [if_neg hf, if_neg hf, Memory.storeAll_nil]
      exact hread
  · rw [Memory.storeAll_cons, Memory.storeAll_cons, Memory.storeAll_nil,
      Memory.loadNat_apply_of_misses _ _ _ _ (Or.inl (by decide))]
    exact loadNat_index g hg _ writeAt _ (hnext write)
  · by_cases hf : full g read write
    · rw [if_pos hf]
      exact hnext read
    · rw [if_neg hf]
      exact hr

/-- Inserting fills the slot of the write index and no other. -/
theorem text_insertStores (g : Geometry) (hg : g.InRange) (m : Memory) (read write i : Nat)
    (msg : List UInt8) :
    text g (m.storeAll (insertStores g read write msg)) i
      = if i = write then kept g msg else text g m i := by
  have hslot := headerSize_le_slotAt g i
  unfold insertStores
  rw [Memory.storeAll_append, Memory.storeAll_append]
  -- The index and the flag lie in the header, whatever the slot.
  rw [text_congr g _ _ i (Memory.storeAll_agreeOn _ _ _ _
    (setWrite_setFlag_misses _ _ _ _ (Or.inr (Or.inl hslot))))]
  by_cases hiw : i = write
  · rw [if_pos hiw, hiw]
    exact text_fillStores g _ write msg hg.2.2
  · rw [if_neg hiw, text_congr g _ _ i (Memory.storeAll_agreeOn _ _ _ _
      (fillStores_misses g write i msg hg.2.2 hiw))]
    refine text_congr g _ _ i (Memory.storeAll_agreeOn _ _ _ _ (fun s hs => Or.inl ?_))
    by_cases hf : full g read write
    · rw [if_pos hf] at hs
      rw [List.mem_singleton.mp hs]
      exact Nat.le_trans (show readAt + 4 ≤ headerSize by decide) hslot
    · rw [if_neg hf] at hs
      exact absurd hs List.not_mem_nil

/-- Removing moves the read index on where there is a message. -/
theorem indices?_removeStores (g : Geometry) (hg : g.InRange) (m : Memory) (read write : Nat)
    (hi : indices? g m = some (read, write)) :
    indices? g (m.storeAll (removeStores g read write))
      = some (if read = write then read else g.next read, write) := by
  rcases (indices?_eq_some_iff g m read write).mp hi with ⟨hread, hwrite, hr, hw⟩
  have hflag : ∀ s ∈ [setFlag false], s.Misses readAt (readAt + 4) ∧
      s.Misses writeAt (writeAt + 4) := by
    intro s hs
    rw [List.mem_singleton.mp hs]
    exact ⟨Or.inl (by decide), Or.inl (by decide)⟩
  rw [indices?_eq_some_iff]
  unfold removeStores
  by_cases he : read = write
  · rw [if_pos he, if_pos he]
    refine ⟨?_, ?_, hr, hw⟩
    · rw [Memory.loadNat_storeAll_of_misses _ _ _ _ (fun s hs => (hflag s hs).1)]
      exact hread
    · rw [Memory.loadNat_storeAll_of_misses _ _ _ _ (fun s hs => (hflag s hs).2)]
      exact hwrite
  · rw [if_neg he, if_neg he, Memory.storeAll_cons]
    -- Whether the flag is cleared depends on the indices; it is beside them.
    have hlast : ∀ s ∈ (if g.next read = write then [setFlag false] else []),
        s.Misses readAt (readAt + 4) ∧ s.Misses writeAt (writeAt + 4) := by
      intro s hs
      by_cases hn : g.next read = write
      · rw [if_pos hn] at hs
        exact hflag s hs
      · rw [if_neg hn] at hs
        exact absurd hs List.not_mem_nil
    refine ⟨?_, ?_, Geometry.next_lt hg read, hw⟩
    · rw [Memory.loadNat_storeAll_of_misses _ _ _ _ (fun s hs => (hlast s hs).1)]
      exact loadNat_index g hg m readAt _ (Geometry.next_lt hg read)
    · rw [Memory.loadNat_storeAll_of_misses _ _ _ _ (fun s hs => (hlast s hs).2),
        Memory.loadNat_apply_of_misses _ _ _ _ (Or.inl (show readAt + 4 ≤ writeAt by decide))]
      exact hwrite

-- The stores that remove a message lie in the header.
theorem removeStores_last (g : Geometry) (read write : Nat) :
    ∀ s ∈ removeStores g read write, flagAt ≤ s.first ∧ s.first + s.size ≤ headerSize := by
  intro s hs
  have hcases : s = setFlag false ∨ s = setRead (g.next read) := by
    unfold removeStores at hs
    split_ifs at hs
    · exact Or.inl (List.mem_singleton.mp hs)
    · rcases List.mem_cons.mp hs with h | h
      · exact Or.inr h
      · exact Or.inl (List.mem_singleton.mp h)
    · exact Or.inr (List.mem_singleton.mp hs)
  rcases hcases with rfl | rfl
  · exact ⟨by decide, by decide⟩
  · exact ⟨show flagAt ≤ readAt by decide, show readAt + 4 ≤ headerSize by decide⟩

/-- Removing leaves the texts of all slots alone. -/
theorem text_removeStores (g : Geometry) (m : Memory) (read write i : Nat) :
    text g (m.storeAll (removeStores g read write)) i = text g m i := by
  refine text_congr g m _ i (Memory.storeAll_agreeOn _ _ _ _ (fun s hs => Or.inl ?_))
  exact Nat.le_trans (removeStores_last g read write s hs).2 (headerSize_le_slotAt g i)

-- A repaired lock is beside everything else.
theorem repair_cases (m : Memory) :
    (repair m).1 = m ∨ (repair m).1 = (Store.number lockAt 4 0).apply m := by
  unfold repair
  by_cases h : orphaned m
  · rw [if_pos h]
    exact Or.inr rfl
  · rw [if_neg h]
    exact Or.inl rfl

-- The stores that make a ring empty do so.
theorem indices?_resetStores (g : Geometry) (hg : g.InRange) (m : Memory) :
    indices? g (m.storeAll resetStores) = some (0, 0) := by
  have h0 : 0 < g.slots := by
    have := hg.1
    omega
  rw [indices?_eq_some_iff]
  unfold resetStores
  rw [Memory.storeAll_cons, Memory.storeAll_cons, Memory.storeAll_cons, Memory.storeAll_nil]
  refine ⟨?_, ?_, h0, h0⟩
  · rw [Memory.loadNat_apply_of_misses _ _ _ _ (Or.inl (by decide)),
      Memory.loadNat_apply_of_misses _ _ _ _ (Or.inr (by decide))]
    exact loadNat_index g hg m readAt 0 h0
  · rw [Memory.loadNat_apply_of_misses _ _ _ _ (Or.inl (by decide))]
    exact loadNat_index g hg _ writeAt 0 h0

-- Taking the lock moves no index and loses no message.
theorem repair_same (g : Geometry) (m : Memory) :
    indices? g (repair m).1 = indices? g m ∧ pending g (repair m).1 = pending g m := by
  rcases repair_cases m with h | h
  · rw [h]
    exact ⟨rfl, rfl⟩
  · rw [h]
    exact pending_apply_of_before g m _ (show lockAt + 4 ≤ readAt by decide)

/-- Whoever has the lock works with indices in range: those that the memory
    has, or those of the empty ring that it then becomes. The messages are the
    same either way. -/
theorem enter_cases (g : Geometry) (hg : g.InRange) (m : Memory) :
    ∃ read write m' notes, enter g m = (read, write, m', notes) ∧
      indices? g m' = some (read, write) ∧ pending g m' = pending g m ∧
      (∀ i, indices? g m = some i → i = (read, write)) := by
  have hrepair := repair_same g m
  unfold enter
  rcases hm : repair m with ⟨mr, notes⟩
  rw [hm] at hrepair
  rcases hi : indices? g mr with _ | ⟨read, write⟩
  · have h0 := indices?_resetStores g hg mr
    have hnone : indices? g m = none := by rw [← hrepair.1, hi]
    refine ⟨0, 0, mr.storeAll resetStores, notes ++ [strayNote g mr], by simp only [hi], h0, ?_,
      fun i h => ?_⟩
    · rw [pending_of_indices g _ 0 0 h0,
        countBetween_self g 0 ((indices?_eq_some_iff g _ 0 0).mp h0).2.2.1]
      unfold pending
      rw [hnone]
      rfl
    · rw [hnone] at h
      exact absurd h (by simp only [reduceCtorEq, not_false_eq_true])
  · refine ⟨read, write, mr, notes, by simp only [hi], hi, hrepair.2, fun i h => ?_⟩
    have hsome : indices? g m = some (read, write) := by rw [← hrepair.1, hi]
    rw [hsome] at h
    exact (Option.some.inj h).symm

-- A full ring is one in which all slots but one hold a message.
theorem length_pending_eq_iff (g : Geometry) (hg : g.InRange) (m : Memory) (read write : Nat)
    (hi : indices? g m = some (read, write)) :
    (pending g m).length = g.slots - 1 ↔ full g read write = true := by
  rcases (indices?_eq_some_iff g m read write).mp hi with ⟨_, _, hr, hw⟩
  rw [pending_of_indices g m read write hi, length_texts,
    countBetween_eq_iff_full g read write hg.1 hr hw]
  simp only [full, beq_iff_eq]

/-- A message is put behind the others, the oldest of which has to go if the
    ring is full. -/
theorem pending_insert (g : Geometry) (hg : g.InRange) (m : Memory) (msg : List UInt8) :
    pending g (insert g m msg).1 = makeRoom (g.slots - 1) (pending g m) ++ [kept g msg] := by
  rcases enter_cases g hg m with ⟨read, write, m', notes, he, hi, hp, _⟩
  rcases (indices?_eq_some_iff g m' read write).mp hi with ⟨_, _, hr, hw⟩
  have hresult : (insert g m msg).1 = m'.storeAll (insertStores g read write msg) := by
    unfold insert
    rw [he]
  have hafter := indices?_insertStores g hg m' read write msg hi
  have htext := text_insertStores g hg m' read write
  -- The slots that hold messages are not the one that is filled.
  have hkeep : ∀ start n, (∀ k, k < n → (start + k) % g.slots ≠ write) →
      texts g (m'.storeAll (insertStores g read write msg)) start n = texts g m' start n :=
    fun start n h => texts_congr g m' _ start n (fun k hk => by rw [htext, if_neg (h k hk)])
  unfold makeRoom
  rw [hresult, ← hp]
  by_cases hf : full g read write = true
  · have heq : g.next write = read := by simpa only [full, beq_iff_eq] using hf
    have hne : read ≠ write := fun h => next_ne g write hg.1 hw (heq.trans h)
    have hn := Geometry.next_lt hg read
    -- Without its oldest message the run goes from the next slot to the
    -- write index, and the new message makes it as long as it was.
    have hrun := countBetween_next_read g read write hr hw hne
    have hnew : countBetween g (g.next read) read = countBetween g (g.next read) write + 1 := by
      rw [← hrun, (countBetween_eq_iff_full g read write hg.1 hr hw).mpr heq]
      exact (countBetween_eq_iff_full g (g.next read) read hg.1 hn hr).mpr rfl
    rw [if_pos hf, heq] at hafter
    rw [if_pos ((length_pending_eq_iff g hg m' read write hi).mpr hf),
      pending_of_indices g _ _ _ hafter, pending_of_indices g m' read write hi, hrun, hnew,
      texts_succ g m' read _ hr, List.tail_cons, texts_succ_last,
      hkeep _ _ (fun k hk => ne_write_of_lt g (g.next read) write k hn hw hk),
      add_countBetween g (g.next read) write hn hw, htext, if_pos rfl]
  · have hne : g.next write ≠ read := by simpa only [full, beq_iff_eq] using hf
    rw [if_neg hf] at hafter
    rw [if_neg (fun h => hf ((length_pending_eq_iff g hg m' read write hi).mp h)),
      pending_of_indices g _ _ _ hafter, pending_of_indices g m' read write hi,
      countBetween_next_write g read write hr hw hne, texts_succ_last,
      hkeep read _ (fun k hk => ne_write_of_lt g read write k hr hw hk),
      add_countBetween g read write hr hw, htext, if_pos rfl]

/-- The oldest message is removed, if there is one, and it is what a reader
    gets. The indices move exactly if there is one. -/
theorem pending_remove (g : Geometry) (hg : g.InRange) (m : Memory) :
    pending g (remove g m).1 = (pending g m).tail ∧
      (remove g m).2.1 = (pending g m).head? ∧
      ∀ i, indices? g m = some i →
        (indices? g (remove g m).1 = some i ↔ pending g m = []) := by
  rcases enter_cases g hg m with ⟨read, write, m', notes, he, hi, hp, hsame⟩
  rcases (indices?_eq_some_iff g m' read write).mp hi with ⟨_, _, hr, hw⟩
  have hresult : (remove g m).1 = m'.storeAll (removeStores g read write) := by
    unfold remove
    rw [he]
  have hmessage : (remove g m).2.1 = if read = write then none else some (text g m' read) := by
    unfold remove
    rw [he]
  have hafter := indices?_removeStores g hg m' read write hi
  have htexts : ∀ start n, texts g (m'.storeAll (removeStores g read write)) start n
      = texts g m' start n :=
    fun start n => texts_congr g m' _ start n
      (fun k _ => text_removeStores g m' read write ((start + k) % g.slots))
  rw [hresult, hmessage, ← hp, pending_of_indices g _ _ _ hafter,
    pending_of_indices g m' read write hi, htexts]
  by_cases hrw : read = write
  · have hzero := (countBetween_eq_zero_iff g read write hr hw).mpr hrw
    rw [if_pos hrw, if_pos hrw, hzero]
    refine ⟨rfl, rfl, fun i h => ?_⟩
    rw [hafter, if_pos hrw, hsame i h]
    exact ⟨fun _ => rfl, fun _ => rfl⟩
  · have hrun := countBetween_next_read g read write hr hw hrw
    rw [if_neg hrw, if_neg hrw, hrun, texts_succ g m' read _ hr]
    refine ⟨rfl, rfl, fun i h => ?_⟩
    have hnext := next_ne g read hg.1 hr
    rw [hafter, if_neg hrw, hsame i h]
    constructor
    · intro h'
      exact absurd (congrArg Prod.fst (Option.some.inj h')) hnext
    · intro h'
      exact absurd h' (List.cons_ne_nil _ _)

/-- A change leaves indices in range behind, whatever they were before. -/
theorem indices?_insert (g : Geometry) (hg : g.InRange) (m : Memory) (msg : List UInt8) :
    ∃ i, indices? g (insert g m msg).1 = some i := by
  rcases enter_cases g hg m with ⟨read, write, m', notes, he, hi, _, _⟩
  unfold insert
  rw [he]
  exact ⟨_, indices?_insertStores g hg m' read write msg hi⟩

theorem indices?_remove (g : Geometry) (hg : g.InRange) (m : Memory) :
    ∃ i, indices? g (remove g m).1 = some i := by
  rcases enter_cases g hg m with ⟨read, write, m', notes, he, hi, _, _⟩
  unfold remove
  rw [he]
  exact ⟨_, indices?_removeStores g hg m' read write hi⟩

-- The stores that insert a message lie at the flag or behind it.
theorem insertStores_first (g : Geometry) (read write : Nat) (msg : List UInt8) :
    ∀ s ∈ insertStores g read write msg, flagAt ≤ s.first := by
  intro s hs
  unfold insertStores at hs
  rcases List.mem_append.mp hs with hs | hs
  · rcases List.mem_append.mp hs with hs | hs
    · split_ifs at hs with hf
      · rw [List.mem_singleton.mp hs]
        exact (show flagAt ≤ readAt by decide)
      · exact absurd hs List.not_mem_nil
    · exact Nat.le_trans (by decide) (fillStores_first g write msg s hs)
  · rcases List.mem_cons.mp hs with rfl | hs
    · exact (show flagAt ≤ writeAt by decide)
    · rw [List.mem_singleton.mp hs]
      exact Nat.le_refl flagAt

theorem resetStores_first : ∀ s ∈ resetStores, flagAt ≤ s.first := by
  decide

/-- The bytes from `lo` up to `hi` lie before the flag and beside the lock. -/
def Aside (lo hi : Nat) : Prop :=
  hi ≤ lockAt ∨ lockAt + 4 ≤ lo ∧ hi ≤ flagAt

instance (lo hi : Nat) : Decidable (Aside lo hi) :=
  inferInstanceAs (Decidable (_ ∨ _))

theorem Aside.le_flagAt {lo hi : Nat} (h : Aside lo hi) : hi ≤ flagAt := by
  rcases h with h | h
  · exact Nat.le_trans h (by decide)
  · exact h.2

-- Stores from the flag on leave what lies aside alone.
theorem storeAll_agreeOn_aside (m : Memory) (stores : List Store) (lo hi : Nat)
    (h : Aside lo hi) (hs : ∀ s ∈ stores, flagAt ≤ s.first) :
    m.AgreeOn (m.storeAll stores) lo hi :=
  Memory.storeAll_agreeOn stores lo hi m (fun s hm => Or.inr (Nat.le_trans h.le_flagAt (hs s hm)))

-- Taking and repairing the lock leaves alone what lies aside.
theorem enter_agreeOn (g : Geometry) (m : Memory) (lo hi : Nat) (h : Aside lo hi) :
    m.AgreeOn (enter g m).2.2.1 lo hi := by
  have hrepair : m.AgreeOn (repair m).1 lo hi := by
    rcases repair_cases m with hm | hm
    · rw [hm]
      exact fun i _ _ => rfl
    · rw [hm]
      refine Memory.apply_agreeOn m _ lo hi ?_
      rcases h with h | h
      · exact Or.inr h
      · exact Or.inl h.1
  have hreset := storeAll_agreeOn_aside (repair m).1 resetStores lo hi h resetStores_first
  intro i hlo hhi
  unfold enter
  rcases hm : repair m with ⟨mr, notes⟩
  rw [hm] at hrepair hreset
  simp only []
  cases indices? g mr with
  | none =>
      simp only []
      rw [hreset i hlo hhi, hrepair i hlo hhi]
  | some _ => exact hrepair i hlo hhi

/-- Inserting leaves alone what lies aside. -/
theorem insert_agreeOn (g : Geometry) (m : Memory) (msg : List UInt8) (lo hi : Nat)
    (h : Aside lo hi) : m.AgreeOn (insert g m msg).1 lo hi := by
  have henter := enter_agreeOn g m lo hi h
  intro i hlo hhi
  unfold insert
  rcases he : enter g m with ⟨read, write, m', notes⟩
  rw [he] at henter
  have hstores := storeAll_agreeOn_aside m' (insertStores g read write msg) lo hi h
    (insertStores_first g read write msg)
  exact (hstores i hlo hhi).trans (henter i hlo hhi)

/-- Removing leaves alone what lies aside. -/
theorem remove_agreeOn (g : Geometry) (m : Memory) (lo hi : Nat) (h : Aside lo hi) :
    m.AgreeOn (remove g m).1 lo hi := by
  have henter := enter_agreeOn g m lo hi h
  intro i hlo hhi
  unfold remove
  rcases he : enter g m with ⟨read, write, m', notes⟩
  rw [he] at henter
  have hstores := storeAll_agreeOn_aside m' (removeStores g read write) lo hi h
    (fun s hs => (removeStores_last g read write s hs).1)
  exact (hstores i hlo hhi).trans (henter i hlo hhi)

theorem tokens_congr (m m' : Memory) (h : m.AgreeOn m' tokensAt (tokensAt + 4)) :
    tokens m' = tokens m := by
  unfold tokens
  rw [Memory.loadNat_congr m m' tokensAt 4 h]

theorem tokens_insert (g : Geometry) (m : Memory) (msg : List UInt8) :
    tokens (insert g m msg).1 = tokens m :=
  tokens_congr m _ (insert_agreeOn g m msg _ _ (Or.inr (by decide)))

theorem tokens_remove (g : Geometry) (m : Memory) : tokens (remove g m).1 = tokens m :=
  tokens_congr m _ (remove_agreeOn g m _ _ (Or.inr (by decide)))

/-- Tokens are put down and taken beside the messages. -/
theorem pending_setTokens (g : Geometry) (m : Memory) (s : Semaphore) :
    indices? g (setTokens m s) = indices? g m ∧ pending g (setTokens m s) = pending g m :=
  pending_apply_of_before g m (.number tokensAt 4 s.value) (show tokensAt + 4 ≤ readAt by decide)

/-- A count of tokens that fits its word is read back. -/
theorem tokens_setTokens (m : Memory) (s : Semaphore) (h : s.value < word32) :
    tokens (setTokens m s) = s := by
  unfold tokens setTokens
  rw [Memory.loadNat_storeNat_word32 m tokensAt s.value h]

-- Tokens lie behind the header's first part.
theorem setTokens_agreeOn (m : Memory) (s : Semaphore) :
    m.AgreeOn (setTokens m s) 0 lockAt :=
  Memory.apply_agreeOn m (.number tokensAt 4 s.value) 0 lockAt
    (Or.inr (show lockAt ≤ tokensAt by decide))

end Ring

end HostLayer
