import HostLayer.Proofs.Host.Torn
import HostLayer.Proofs.Ring.Queue

/-!
# Ring Crashes

What a party leaves behind that dies with the lock of a ring in its hands.

A change is a list of stores, and its maker can die after any of them, in the
middle of a text too. Two things make every such moment harmless. The slot that
is being filled is no slot of a message until the write index has moved past it,
and that is one store; and the oldest message of a full ring goes before its
successor comes, again with one store. So whatever part of the list has been
made, the messages are those from before, those from before without the oldest
one, or those from after.

The lock says that its holder has died, and whoever takes it next repairs it and
works on. From there everything is as with any other ring: `crashed_change` ends
with all later runs, which start from what the dead party has left.

## Main definitions

* `Ring.Change`: A change that is made under the lock.
* `Ring.Change.stores`, `Ring.Change.done`: Its stores, and what it comes to.
* `Ring.Untorn`: No message consists of new and old bytes.
* `Ring.Left`: What can be left of a ring.
* `Ring.Recovers`: How the others go on.

## Theorems

* `Ring.pending_setRead`: The oldest message goes with one store.
* `Ring.filling`: A slot that is being filled is none of a message.
* `Ring.left_of_tornInsert`, `Ring.left_of_tornRemove`: Each change, cut
  anywhere.
* `Ring.crashed_change`: What the next party finds, and all that follows.
-/

namespace HostLayer

namespace Ring

/-- A change that is made under the lock. -/
inductive Change
  | insert (msg : List UInt8)
  | remove

namespace Change

/-- The stores of the change, between the indices `read` and `write`. -/
def stores (g : Geometry) (read write : Nat) : Change → List Store
  | insert msg => insertStores g read write msg
  | remove => removeStores g read write

/-- The memory after the whole change. -/
def done (g : Geometry) (m : Memory) : Change → Memory
  | insert msg => (Ring.insert g m msg).1
  | remove => (Ring.remove g m).1

/-- The change inserts a message. -/
def Inserts : Change → Prop
  | insert _ => True
  | remove => False

end Change

-- Whoever takes the lock of a ring in order goes on with its indices.
theorem enter_of_indices (g : Geometry) (m : Memory) (read write : Nat)
    (hi : indices? g m = some (read, write)) :
    enter g m = (read, write, (repair m).1, (repair m).2) := by
  have hrepair := (repair_same g m).1
  unfold enter
  rcases hm : repair m with ⟨m', notes⟩
  rw [hm, hi] at hrepair
  simp only [hrepair]

-- A change of a ring in order consists of its stores.
theorem Change.done_eq (g : Geometry) (m : Memory) (c : Change) (read write : Nat)
    (hi : indices? g m = some (read, write)) :
    c.done g m = (repair m).1.storeAll (c.stores g read write) := by
  have henter := enter_of_indices g m read write hi
  cases c with
  | insert msg =>
      simp only [Change.done, Change.stores, Ring.insert, henter]
  | remove =>
      simp only [Change.done, Change.stores, Ring.remove, henter]

/-- Every slot of `m` with a message has the bytes that it has in `before`, or
    else those that it has in `after`. -/
def Untorn (g : Geometry) (before after m : Memory) : Prop :=
  ∀ read write k, indices? g m = some (read, write) → k < countBetween g read write →
    before.AgreeOn m (g.slotAt ((read + k) % g.slots))
      (g.slotAt ((read + k) % g.slots) + g.slotSize) ∨
    after.AgreeOn m (g.slotAt ((read + k) % g.slots))
      (g.slotAt ((read + k) % g.slots) + g.slotSize)

/-- What can be left in `m` of a ring that was to be changed from `before` to
    `after`: the indices are in range, and the messages are those from before,
    those from before without the oldest, where one `drops` it, or those from
    after. -/
structure Left (g : Geometry) (before after m : Memory) (drops : Prop) : Prop where
  in_range : ∃ i, indices? g m = some i
  holds : pending g m = pending g before ∨ (drops ∧ pending g m = (pending g before).tail) ∨
    pending g m = pending g after
  untorn : Untorn g before after m

-- The header can be stored to without touching a slot.
theorem agreeOn_slot (g : Geometry) (m : Memory) (s : Store) (i : Nat)
    (h : s.first + s.size ≤ headerSize) :
    m.AgreeOn (s.apply m) (g.slotAt i) (g.slotAt i + g.slotSize) :=
  Memory.apply_agreeOn m s _ _ (Or.inl (Nat.le_trans h (headerSize_le_slotAt g i)))

/-- The oldest message goes with one store. -/
theorem pending_setRead (g : Geometry) (hg : g.InRange) (m : Memory) (read write : Nat)
    (hi : indices? g m = some (read, write)) (hne : read ≠ write) :
    indices? g ((setRead (g.next read)).apply m) = some (g.next read, write) ∧
      pending g ((setRead (g.next read)).apply m) = (pending g m).tail := by
  rcases (indices?_eq_some_iff g m read write).mp hi with ⟨_, hwrite, hr, hw⟩
  have hafter : indices? g ((setRead (g.next read)).apply m) = some (g.next read, write) := by
    rw [indices?_eq_some_iff]
    refine ⟨loadNat_index g hg m readAt _ (Geometry.next_lt hg read), ?_,
      Geometry.next_lt hg read, hw⟩
    rw [Memory.loadNat_apply_of_misses _ _ _ _ (Or.inl (show readAt + 4 ≤ writeAt by decide))]
    exact hwrite
  refine ⟨hafter, ?_⟩
  rw [pending_of_indices g _ _ _ hafter, pending_of_indices g m read write hi,
    countBetween_next_read g read write hr hw hne, texts_succ g m read _ hr, List.tail_cons]
  exact texts_congr g m _ _ _ (fun k _ => text_congr g m _ _
    (agreeOn_slot g m _ _ (show readAt + 4 ≤ headerSize by decide)))

/-- The slot of the write index is none of a message, so it can be filled with
    anything, as far as one gets. -/
theorem filling (g : Geometry) (m : Memory) (read write : Nat) (q : List Store)
    (hi : indices? g m = some (read, write))
    (hq : ∀ a ∈ q, headerSize ≤ a.first)
    (hother : ∀ i, i ≠ write → ∀ a ∈ q, a.Misses (g.slotAt i) (g.slotAt i + g.slotSize)) :
    indices? g (m.storeAll q) = some (read, write) ∧
      pending g (m.storeAll q) = pending g m ∧
      ∀ k, k < countBetween g read write →
        m.AgreeOn (m.storeAll q) (g.slotAt ((read + k) % g.slots))
          (g.slotAt ((read + k) % g.slots) + g.slotSize) := by
  rcases (indices?_eq_some_iff g m read write).mp hi with ⟨hread, hwrite, hr, hw⟩
  have hmiss : ∀ off, off + 4 ≤ headerSize →
      (m.storeAll q).loadNat off 4 = m.loadNat off 4 := fun off hoff =>
    Memory.loadNat_storeAll_of_misses m q off 4
      (fun a ha => Or.inr (Nat.le_trans hoff (hq a ha)))
  have hafter : indices? g (m.storeAll q) = some (read, write) := by
    rw [indices?_eq_some_iff, hmiss readAt (by decide), hmiss writeAt (by decide)]
    exact ⟨hread, hwrite, hr, hw⟩
  have hslots : ∀ k, k < countBetween g read write →
      m.AgreeOn (m.storeAll q) (g.slotAt ((read + k) % g.slots))
        (g.slotAt ((read + k) % g.slots) + g.slotSize) := fun k hk =>
    Memory.storeAll_agreeOn q _ _ m (hother _ (ne_write_of_lt g read write k hr hw hk))
  refine ⟨hafter, ?_, hslots⟩
  rw [pending_of_indices g _ _ _ hafter, pending_of_indices g m read write hi]
  exact texts_congr g m _ _ _ (fun k hk => text_congr g m _ _ (hslots k hk))

-- Indices, messages and slots are all that there is to what is left.
theorem Left.congr {g : Geometry} {before after m : Memory} {drops : Prop}
    (h : Left g before after m drops) (m' : Memory) (hi : indices? g m' = indices? g m)
    (hp : pending g m' = pending g m)
    (hs : ∀ i, m.AgreeOn m' (g.slotAt i) (g.slotAt i + g.slotSize)) :
    Left g before after m' drops := by
  refine ⟨by rw [hi]; exact h.in_range, by rw [hp]; exact h.holds, ?_⟩
  intro read write k hi' hk
  rw [hi] at hi'
  rcases h.untorn read write k hi' hk with hm | hm
  · exact Or.inl (fun i hlo hhi => (hs _ i hlo hhi).trans (hm i hlo hhi))
  · exact Or.inr (fun i hlo hhi => (hs _ i hlo hhi).trans (hm i hlo hhi))

-- Nothing at all, or everything, can be left.
theorem left_before (g : Geometry) (before after : Memory) (drops : Prop)
    (hi : ∃ i, indices? g before = some i) : Left g before after before drops :=
  ⟨hi, Or.inl rfl, fun _ _ _ _ _ => Or.inl (fun _ _ _ => rfl)⟩

theorem left_after (g : Geometry) (before after : Memory) (drops : Prop)
    (hi : ∃ i, indices? g after = some i) : Left g before after after drops :=
  ⟨hi, Or.inr (Or.inr rfl), fun _ _ _ _ _ => Or.inr (fun _ _ _ => rfl)⟩

-- As long as only the slot of the write index has been filled, nothing has
-- happened but that the oldest message may have gone.
theorem left_of_filling (g : Geometry) (hg : g.InRange) (m m₁ after : Memory)
    (write read₁ : Nat) (msg : List UInt8) (drops : Prop) (q : List Store)
    (hi₁ : indices? g m₁ = some (read₁, write))
    (hp₁ : pending g m₁ = pending g m ∨ drops ∧ pending g m₁ = (pending g m).tail)
    (hs₁ : ∀ i, m.AgreeOn m₁ (g.slotAt i) (g.slotAt i + g.slotSize))
    (hq : Store.Torn (fillStores g write msg) q) : Left g m after (m₁.storeAll q) drops := by
  have hfirst : ∀ a ∈ q, headerSize ≤ a.first := by
    intro a ha
    rcases List.mem_flatMap.mp (hq.subset ha) with ⟨s, hs, has⟩
    exact Nat.le_trans (fillStores_first g write msg s hs) (Store.atoms_within s a has).1
  have hother : ∀ i, i ≠ write → ∀ a ∈ q, a.Misses (g.slotAt i) (g.slotAt i + g.slotSize) :=
    fun i hne => hq.misses _ _ (fillStores_misses g write i msg hg.2.2 hne)
  rcases filling g m₁ read₁ write q hi₁ hfirst hother with ⟨hi, hp, hs⟩
  refine ⟨⟨_, hi⟩, ?_, ?_⟩
  · rw [hp]
    rcases hp₁ with h | h
    · exact Or.inl h
    · exact Or.inr (Or.inl h)
  · intro r w k hrw hk
    rw [hi, Option.some.injEq, Prod.mk.injEq] at hrw
    rw [← hrw.1, ← hrw.2] at hk
    rw [← hrw.1]
    exact Or.inl (fun j hlo hhi => (hs k hk j hlo hhi).trans (hs₁ _ j hlo hhi))

-- Up to the write index: the oldest message may have gone, and the slot may have
-- been filled in part.
theorem left_of_tornBody (g : Geometry) (hg : g.InRange) (m after : Memory) (read write : Nat)
    (msg : List UInt8) (p : List Store) (hi : indices? g m = some (read, write))
    (hp : Store.Torn ((if full g read write then [setRead (g.next (g.next write))] else []) ++
      fillStores g write msg) p) : Left g m after (m.storeAll p) (full g read write = true) := by
  by_cases hf : full g read write = true
  · have hw := ((indices?_eq_some_iff g m read write).mp hi).2.2.2
    have heq : g.next write = read := by simpa only [full, beq_iff_eq] using hf
    have hne : read ≠ write := fun h => next_ne g write hg.1 hw (heq.trans h)
    have hread := pending_setRead g hg m read write hi hne
    rw [if_pos hf, heq, List.singleton_append] at hp
    rcases hp.cons_number with rfl | ⟨q, rfl, hq⟩
    · exact left_before g m _ _ ⟨_, hi⟩
    · exact left_of_filling g hg m _ _ write _ msg _ q hread.1 (Or.inr ⟨hf, hread.2⟩)
        (fun i => agreeOn_slot g m _ i (show readAt + 4 ≤ headerSize by decide)) hq
  · rw [if_neg hf, List.nil_append] at hp
    exact left_of_filling g hg m m _ write read msg _ p hi (Or.inl rfl) (fun _ _ _ _ => rfl) hp

/-- Inserting a message, cut anywhere. -/
theorem left_of_tornInsert (g : Geometry) (hg : g.InRange) (m : Memory) (read write : Nat)
    (msg : List UInt8) (p : List Store) (hi : indices? g m = some (read, write))
    (hp : Store.Torn (insertStores g read write msg) p) :
    Left g m (m.storeAll (insertStores g read write msg)) (m.storeAll p)
      (full g read write = true) := by
  have hafter := indices?_insertStores g hg m read write msg hi
  -- The list up to the write index, whatever it is.
  have hsplit : ∃ body, insertStores g read write msg
        = body ++ [setWrite (g.next write), setFlag true] ∧
      ∀ after q, Store.Torn body q → Left g m after (m.storeAll q) (full g read write = true) :=
    ⟨_, rfl, fun after q hq => left_of_tornBody g hg m after read write msg q hi hq⟩
  rcases hsplit with ⟨body, heq, hbody⟩
  rw [heq] at hp hafter ⊢
  rcases hp.append_cases with hp | ⟨q, rfl, hq⟩
  · exact hbody _ p hp
  rcases hq.cons_number with rfl | ⟨q, rfl, hq'⟩
  · rw [List.append_nil]
    exact hbody _ _ (List.prefix_refl _)
  -- The message is there; what is still missing is the flag at most.
  have hdone := left_after g m _ (full g read write = true) ⟨_, hafter⟩
  rw [Memory.storeAll_append] at hdone ⊢
  rw [Memory.storeAll_parts_append]
  rcases hq'.cons_number with rfl | ⟨q, rfl, hlast⟩
  · have hflag := pending_apply_of_before g ((m.storeAll body).storeAll [setWrite (g.next write)])
      (setFlag true) (by decide)
    exact hdone.congr _ hflag.1.symm hflag.2.symm
      (fun i j hlo hhi => (agreeOn_slot g _ (setFlag true) i (by decide) j hlo hhi).symm)
  · rw [hlast.nil_eq]
    exact hdone

/-- Removing a message, cut anywhere. -/
theorem left_of_tornRemove (g : Geometry) (hg : g.InRange) (m : Memory) (read write : Nat)
    (p : List Store) (drops : Prop) (hi : indices? g m = some (read, write))
    (hp : Store.Torn (removeStores g read write) p) :
    Left g m (m.storeAll (removeStores g read write)) (m.storeAll p) drops := by
  have hafter := indices?_removeStores g hg m read write hi
  have hdone := left_after g m _ drops ⟨_, hafter⟩
  unfold removeStores at hp hdone ⊢
  -- The flag alone moves nothing.
  have hflag : ∀ m' q, Store.Torn [setFlag false] q →
      m'.storeAll q = m' ∨ m'.storeAll q = (setFlag false).apply m' := by
    intro m' q hq
    rcases hq.cons_number with rfl | ⟨q', rfl, hlast⟩
    · exact Or.inl rfl
    · rw [hlast.nil_eq]
      exact Or.inr rfl
  by_cases he : read = write
  · rw [if_pos he] at hp hdone ⊢
    rcases hflag m p hp with h | h
    · rw [h]
      exact left_before g m _ drops ⟨_, hi⟩
    · rw [h]
      exact hdone
  · rw [if_neg he] at hp hdone ⊢
    rcases hp.cons_number with rfl | ⟨q, rfl, hq⟩
    · exact left_before g m _ drops ⟨_, hi⟩
    rw [Memory.storeAll_cons] at hdone ⊢
    change Left g m _ (((setRead (g.next read)).apply m).storeAll q) drops
    by_cases hn : g.next read = write
    · rw [if_pos hn] at hq hdone ⊢
      rcases hflag ((setRead (g.next read)).apply m) q hq with h | h
      · -- Only the flag is missing.
        have hsame := pending_apply_of_before g ((setRead (g.next read)).apply m)
          (setFlag false) (by decide)
        rw [h]
        exact hdone.congr _ hsame.1.symm hsame.2.symm
          (fun i j hlo hhi => (agreeOn_slot g _ (setFlag false) i (by decide) j hlo hhi).symm)
      · rw [h]
        exact hdone
    · rw [if_neg hn] at hq hdone ⊢
      rw [hq.nil_eq]
      exact hdone

-- Each change, cut anywhere, by whoever has taken the lock.
theorem left_of_torn (g : Geometry) (hg : g.InRange) (m : Memory) (c : Change)
    (read write : Nat) (p : List Store) (hi : indices? g m = some (read, write))
    (hp : Store.Torn (c.stores g read write) p) :
    Left g m (m.storeAll (c.stores g read write)) (m.storeAll p)
      (c.Inserts ∧ (pending g m).length = g.slots - 1) := by
  cases c with
  | insert msg =>
      have h := left_of_tornInsert g hg m read write msg p hi hp
      rw [← length_pending_eq_iff g hg m read write hi] at h
      exact ⟨h.in_range, h.holds.imp_right (Or.imp_left (fun hd => ⟨⟨trivial, hd.1⟩, hd.2⟩)),
        h.untorn⟩
  | remove => exact left_of_tornRemove g hg m read write p _ hi hp

-- The lock is beside everything that is left of a ring.
theorem Left.lock {g : Geometry} {before after m : Memory} {drops : Prop}
    (h : Left g before after m drops) (word : Nat) :
    Left g before after (m.storeNat lockAt 4 word) drops := by
  have hsame := pending_apply_of_before g m (.number lockAt 4 word)
    (show lockAt + 4 ≤ readAt by decide)
  exact h.congr _ hsame.1 hsame.2
    (fun i => agreeOn_slot g m (.number lockAt 4 word) i (show lockAt + 4 ≤ headerSize by decide))

-- What was there before may be looked at before the lock was repaired.
theorem Left.of_repair {g : Geometry} {before after m : Memory} {drops : Prop}
    (h : Left g (repair before).1 after m drops) : Left g before after m drops := by
  have hp := (repair_same g before).2
  have hs : ∀ i, before.AgreeOn (repair before).1 (g.slotAt i) (g.slotAt i + g.slotSize) := by
    intro i
    rcases repair_cases before with hr | hr
    · rw [hr]
      exact fun _ _ _ => rfl
    · rw [hr]
      exact agreeOn_slot g before _ i (show lockAt + 4 ≤ headerSize by decide)
  refine ⟨h.in_range, by rw [← hp]; exact h.holds, fun read write k hi hk => ?_⟩
  rcases h.untorn read write k hi hk with hm | hm
  · exact Or.inl (fun j hlo hhi => (hm j hlo hhi).trans (hs _ j hlo hhi))
  · exact Or.inr hm

-- Whoever takes a lock whose holder has died repairs it.
theorem repair_orphan (m : Memory) :
    repair (orphan m) = ((orphan m).storeNat lockAt 4 0,
      [.warn "log ring owner died, recovering"]) := by
  have h : orphaned (orphan m) = true := by
    unfold orphaned orphan
    rw [Memory.loadNat_storeNat_word32 m lockAt lockOrphaned (by decide)]
    rfl
  unfold repair
  rw [if_pos h]

-- What a change stores lies at the flag or behind it.
theorem Change.stores_first (g : Geometry) (read write : Nat) (c : Change) :
    ∀ s ∈ c.stores g read write, flagAt ≤ s.first := by
  cases c with
  | insert msg => exact insertStores_first g read write msg
  | remove => exact fun s hs => (removeStores_last g read write s hs).1

/-- The ring in `m`, which was to be changed to `after`, is gone on with from
    the memory `dead` that its changer has left: the next party finds `next`. -/
structure Recovers (length : Nat) (g : Geometry) (m after dead next : Memory) (drops : Prop) :
    Prop where
  /-- The next party is told that the holder has died, and has indices in
      range. -/
  entered : ∃ read write, enter g dead
      = (read, write, next, [.warn "log ring owner died, recovering"]) ∧
    indices? g next = some (read, write) ∧ read < g.slots ∧ write < g.slots
  /-- The lock is repaired. -/
  unlocked : orphaned next = false
  /-- No message is torn, and none is lost but the one that had to go. -/
  left : Left g m after next drops
  /-- Everybody finds the ring as such. -/
  adopted : adopt? length next = some g
  /-- All that any parties do from there is what they do with a queue of the
      messages that are left. -/
  queued : ∀ parties acts s es, (∀ q ∈ parties, q.geometry = g) → (∀ a ∈ acts, a.OfParties) →
    Schedule.play Traffic.step ⟨dead, parties⟩ acts = some (s, es) →
    es.foldlM (Ring.queued g) (pending g next) = some (pending g s.memory) ∧
      ∃ i, indices? g s.memory = some i

-- The header before the lock is left alone by a change that is cut.
theorem torn_agreeOn (g : Geometry) (m : Memory) (c : Change) (read write : Nat) (p : List Store)
    (hp : Store.Torn (c.stores g read write) p) :
    m.AgreeOn ((repair m).1.storeAll p) 0 lockAt := by
  have hrep : m.AgreeOn (repair m).1 0 lockAt := by
    rcases repair_cases m with hr | hr
    · rw [hr]
      exact fun _ _ _ => rfl
    · rw [hr]
      exact Memory.apply_agreeOn m _ 0 lockAt (Or.inr (Nat.le_refl lockAt))
  have hstores := Memory.storeAll_agreeOn p 0 lockAt (repair m).1
    (hp.misses 0 lockAt (fun s hs =>
      Or.inr (Nat.le_trans (by decide) (c.stores_first g read write s hs))))
  exact fun i hlo hhi => (hstores i hlo hhi).trans (hrep i hlo hhi)

-- The word of the lock lies behind the geometry.
theorem lock_agreeOn (m : Memory) (word : Nat) : m.AgreeOn (m.storeNat lockAt 4 word) 0 lockAt :=
  Memory.apply_agreeOn m (.number lockAt 4 word) 0 lockAt (Or.inr (Nat.le_refl lockAt))

/-- A change of a ring that is cut anywhere, after any of its stores and within
    a text, leaves a ring that is gone on with. The messages are those from
    before, those from before without the oldest one if a message was to be
    inserted into a full ring, or those from after the whole change. -/
theorem crashed_change (length : Nat) (g : Geometry) (m : Memory) (c : Change)
    (read write : Nat) (p : List Store) (h : adopt? length m = some g)
    (hi : indices? g m = some (read, write)) (hp : Store.Torn (c.stores g read write) p) :
    ∃ next, Recovers length g m (c.done g m) (orphan ((repair m).1.storeAll p)) next
      (c.Inserts ∧ (pending g m).length = g.slots - 1) := by
  rcases (adopt?_eq_some_iff length m g).mp h with ⟨hmark, hstated, hvalid, hsize, _⟩
  have hg := hvalid.1
  have hrepair := repair_same g m
  -- What the dead party has left, without and with the mark of the lock.
  have hleft : Left g m (c.done g m) ((repair m).1.storeAll p)
      (c.Inserts ∧ (pending g m).length = g.slots - 1) := by
    rw [c.done_eq g m read write hi, ← hrepair.2]
    exact (left_of_torn g hg (repair m).1 c read write p (by rw [hrepair.1]; exact hi) hp).of_repair
  have horphan := hleft.lock lockOrphaned
  have hfixed := horphan.lock 0
  rcases hfixed.in_range with ⟨⟨read', write'⟩, hi'⟩
  have hin := ((indices?_eq_some_iff g _ read' write').mp hi').2.2
  have hagreed : Traffic.Agreed g ⟨m, []⟩ :=
    ⟨hmark, hstated, fun q hq => absurd hq List.not_mem_nil⟩
  have hdead : ∀ parties, (∀ q ∈ parties, q.geometry = g) →
      Traffic.Agreed g ⟨orphan ((repair m).1.storeAll p), parties⟩ := fun parties hparties =>
    hagreed.congr _ parties (fun i hlo hhi => (lock_agreeOn _ lockOrphaned i hlo hhi).trans
      (torn_agreeOn g m c read write p hp i hlo hhi)) hparties
  have hnext := (hdead [] (fun q hq => absurd hq List.not_mem_nil)).congr
    ((orphan ((repair m).1.storeAll p)).storeNat lockAt 4 0) [] (lock_agreeOn _ 0)
    (fun q hq => absurd hq List.not_mem_nil)
  have hsame := pending_apply_of_before g (orphan ((repair m).1.storeAll p))
    (.number lockAt 4 0) (show lockAt + 4 ≤ readAt by decide)
  refine ⟨_, ⟨read', write', ?_, hi', hin.1, hin.2⟩, ?_, hfixed,
    (adopt?_eq_some_iff _ _ _).mpr ⟨hnext.marked, hnext.stated_eq, hvalid, hsize, _, hi'⟩, ?_⟩
  · have henter := enter_of_indices g (orphan ((repair m).1.storeAll p)) read' write'
      (hsame.1.symm.trans hi')
    rw [repair_orphan] at henter
    exact henter
  · unfold orphaned
    rw [Memory.loadNat_storeNat_word32 _ lockAt 0 (by decide)]
    rfl
  · intro parties acts s es hparties hacts hrun
    have hq := play_queued g hg acts _ s es (hdead parties hparties) horphan.in_range hacts hrun
    rw [← hsame.2] at hq
    exact hq

end Ring

end HostLayer
