import HostLayer.Proofs.Ring.Bounds
import HostLayer.Ring.Buffer

/-!
# Slot Encoding

What a slot gives back of a message that was stored in it.

A message is cut three times. The slot keeps as much of it as leaves room for
the NUL behind it, a reader stops at the first NUL it comes to, which may be one
of the message's own, and no more is copied than the buffer of the reader holds.
`keptLength` is what the first two cuts leave. The bytes behind the NUL are those
of an earlier message, and no reader gets so far.

Between the two calls anything may happen to the rest of the ring. What a
reader gets depends on the bytes of the slot alone, so it is enough that these
are as the writer left them and that the read index has come to the slot.

## Main definitions

* `Ring.writeSlot`: The slot that a writer fills.
* `Ring.keptLength`: The length of what a reader finds of a message.
* `Ring.Due`: A slot as a writer left it, and next to be read.

## Theorems

* `Ring.kept_eq_take`: What is found is the beginning of the message.
* `Ring.keptLength_of_clean`: A message without NULs that leaves room for one.
* `Ring.write_memory`: What a writer makes of the memory.
* `Ring.write_outside`: No byte beside the header and the slot is touched.
* `Ring.text_write`, `Ring.pending_write`: What the slot and the ring then hold.
* `Ring.receiveStep_of_pending`: A reader where there is a message.
* `Ring.slot_encoding`: What is stored and what is read back.
-/

namespace HostLayer

namespace Ring

/-- The slot that a writer fills. -/
def writeSlot (g : Geometry) (m : Memory) : Nat := (enter g m).2.1

/-- The length of what a reader finds of a message: up to the first NUL of the
    part that the slot keeps, or all of that part. -/
def keptLength (g : Geometry) (msg : List UInt8) : Nat :=
  (msg.take (g.slotSize - 1)).findIdx (· == 0)

/-- What a reader finds is the beginning of the message. -/
theorem kept_eq_take (g : Geometry) (msg : List UInt8) :
    kept g msg = msg.take (keptLength g msg) := by
  have hle : keptLength g msg ≤ g.slotSize - 1 :=
    Nat.le_trans List.findIdx_le_length (List.length_take_le _ _)
  have hnul : (fun b : UInt8 => !(b != 0)) = (· == 0) := by
    funext b
    exact Bool.not_not (b == 0)
  unfold kept stored
  rw [List.takeWhile_eq_take_findIdx_not, List.take_take, hnul]
  exact congrArg (fun n => msg.take n) (Nat.min_eq_left hle)

theorem keptLength_le (g : Geometry) (msg : List UInt8) : keptLength g msg ≤ msg.length :=
  Nat.le_trans List.findIdx_le_length (List.length_take_le' _ _)

/-- A message without NULs that leaves room for one is found as a whole. -/
theorem keptLength_of_clean (g : Geometry) (msg : List UInt8) (hlen : msg.length < g.slotSize)
    (hclean : 0 ∉ msg) : keptLength g msg = msg.length := by
  unfold keptLength
  rw [List.take_of_length_le (by omega)]
  refine List.findIdx_eq_length.mpr (fun b hb => ?_)
  exact beq_eq_false_iff_ne.mpr (fun h => hclean (h ▸ hb))

/-- A writer inserts its message, and puts down a token if it can. -/
theorem write_memory (g : Geometry) (msg : List UInt8) (m : Memory) :
    (write g msg m).outcome = .inr (.ok ()) ∧
      ((write g msg m).state = (insert g m msg).1 ∨
        ∃ s, (write g msg m).state = setTokens (insert g m msg).1 s) := by
  by_cases hlt : (tokens (insert g m msg).1).value < Semaphore.maximum
  · simp only [write, writeSteps, runSteps, writeStep, Semaphore.post, Semaphore.put, hlt, if_true,
      true_and]
    exact Or.inr ⟨_, rfl⟩
  · simp only [write, writeSteps, runSteps, writeStep, Semaphore.post, Semaphore.put, hlt, if_false,
      true_and]
    exact Or.inl trivial

-- Tokens lie in the header.
theorem setTokens_beyond (m : Memory) (s : Semaphore) (i : Nat) (hi : headerSize ≤ i) :
    (setTokens m s).byte i = m.byte i :=
  Memory.apply_agreeOn m (.number tokensAt 4 s.value) headerSize (i + 1)
    (Or.inl (show tokensAt + 4 ≤ headerSize by decide)) i hi (Nat.lt_succ_self i)

/-- No byte beside the header and the slot that is filled is touched. -/
theorem write_outside (g : Geometry) (hg : g.InRange) (m : Memory) (msg : List UInt8) (i : Nat)
    (hi : headerSize ≤ i)
    (hout : i < g.slotAt (writeSlot g m) ∨ g.slotAt (writeSlot g m) + g.slotSize ≤ i) :
    (write g msg m).state.byte i = m.byte i := by
  have hinsert : (insert g m msg).1.byte i = m.byte i := by
    rw [insert_eq]
    refine (Memory.storeAll_agreeOn _ i (i + 1) _ (fun s hs => ?_) i (Nat.le_refl i)
      (Nat.lt_succ_self i)).trans (enter_beyond g m i hi)
    unfold writeSlot at hout
    unfold Store.Misses
    rcases insert_within g _ _ msg s hs with hs | hs
    · have hin := fill_within g _ msg hg.2.2 s hs
      unfold Store.Within at hin
      rcases hout with h | h
      · exact Or.inr (by omega)
      · exact Or.inl (by omega)
    · exact Or.inl (Nat.le_trans hs.2 hi)
  rcases (write_memory g msg m).2 with hw | ⟨s, hw⟩
  · rw [hw, hinsert]
  · rw [hw, setTokens_beyond _ s i hi, hinsert]

/-- The slot holds what is kept of the message, whatever it held before. -/
theorem text_write (g : Geometry) (hg : g.InRange) (m : Memory) (msg : List UInt8) :
    text g (write g msg m).state (writeSlot g m) = kept g msg := by
  have hinsert : text g (insert g m msg).1 (writeSlot g m) = kept g msg := by
    rw [insert_eq, text_insertStores g hg]
    exact if_pos rfl
  rcases (write_memory g msg m).2 with hw | ⟨s, hw⟩
  · rw [hw, hinsert]
  · rw [hw, ← hinsert]
    exact text_congr g _ _ _ (fun i hlo _ =>
      setTokens_beyond _ s i (Nat.le_trans (headerSize_le_slotAt g _) hlo))

/-- What is kept of the message comes behind the others. -/
theorem pending_write (g : Geometry) (hg : g.InRange) (m : Memory) (msg : List UInt8) :
    pending g (write g msg m).state = makeRoom (g.slots - 1) (pending g m) ++ [kept g msg] := by
  rcases (write_memory g msg m).2 with hw | ⟨s, hw⟩
  · rw [hw, pending_insert g hg]
  · rw [hw, (pending_setTokens g _ s).2, pending_insert g hg]

/-- A reader that looks where there is a message gets the oldest one, cut to its
    buffer. -/
theorem receiveStep_of_pending (g : Geometry) (hg : g.InRange) (source : ClockSource)
    (deadline : Option Timer) (clock : Clock) (s : Reading) (x : List UInt8)
    (rest : List (List UInt8)) (h : pending g s.memory = x :: rest) :
    receiveStep g source deadline clock s .holding
      = .done ⟨(remove g s.memory).1, overwrite s.buffer (x.take s.buffer.length)⟩
          (.ok (x.take s.buffer.length).length) (remove g s.memory).2.2 := by
  have hhead := (pending_remove g hg s.memory).2.1
  rw [h, List.head?_cons] at hhead
  unfold receiveStep readStep
  rcases hr : remove g s.memory with ⟨m', found, notes⟩
  rw [hr] at hhead
  simp only [] at hhead
  simp only [hhead, Step.lift]

-- Removing a message leaves the slots alone.
theorem remove_slots (g : Geometry) (m : Memory) (i : Nat) (hi : headerSize ≤ i) :
    (remove g m).1.byte i = m.byte i := by
  rw [remove_eq, Memory.storeAll_beyond _ _ flagAt headerSize i (removeStores_last g _ _) hi]
  exact enter_beyond g m i hi

/-- The slot `i` is the next one to be read, and its bytes are those of `m`. -/
structure Due (g : Geometry) (m m' : Memory) (i : Nat) : Prop where
  bytes : m.AgreeOn m' (g.slotAt i) (g.slotAt i + g.slotSize)
  next : ∃ write, indices? g m' = some (i, write) ∧ i ≠ write

-- The text of a slot that is due is the oldest message.
theorem Due.pending_eq {g : Geometry} {m m' : Memory} {i : Nat} (h : Due g m m' i) :
    ∃ rest, pending g m' = text g m i :: rest := by
  rcases h.next with ⟨write, hi, hne⟩
  rcases (indices?_eq_some_iff g m' i write).mp hi with ⟨_, _, hr, hw⟩
  rw [pending_of_indices g m' i write hi, countBetween_next_read g i write hr hw hne,
    texts_succ g m' i _ hr, text_congr g m m' i h.bytes]
  exact ⟨_, rfl⟩

/-- A message is stored, and what is read back is its beginning.

    A writer returns with success, touches no other slot and leaves in its own one
    the message up to the first NUL in the part that the slot keeps. Once the read
    index has come to that slot, whatever has happened to the rest of the memory,
    a reader gets so much of it as its buffer holds, and the rest of the buffer
    stays as it was, and so do all slots. The message comes behind the others in
    the ring. One without NULs that leaves room for one gets whole into a buffer
    that holds it. -/
theorem slot_encoding (g : Geometry) (hg : g.InRange) (m : Memory) (msg : List UInt8) :
    (write g msg m).outcome = .inr (.ok ()) ∧
    writeSlot g m < g.slots ∧
    (∀ i, headerSize ≤ i →
      i < g.slotAt (writeSlot g m) ∨ g.slotAt (writeSlot g m) + g.slotSize ≤ i →
      (write g msg m).state.byte i = m.byte i) ∧
    text g (write g msg m).state (writeSlot g m) = msg.take (keptLength g msg) ∧
    pending g (write g msg m).state
      = makeRoom (g.slots - 1) (pending g m) ++ [msg.take (keptLength g msg)] ∧
    (∀ m' buffer source deadline clock, Due g (write g msg m).state m' (writeSlot g m) →
      ∃ notes, receiveStep g source deadline clock ⟨m', buffer⟩ .holding
        = .done ⟨(remove g m').1, msg.take (min (keptLength g msg) buffer.length)
              ++ buffer.drop (min (keptLength g msg) buffer.length)⟩
            (.ok (min (keptLength g msg) buffer.length)) notes ∧
        ∀ i, headerSize ≤ i → (remove g m').1.byte i = m'.byte i) ∧
    (msg.length < g.slotSize → 0 ∉ msg → keptLength g msg = msg.length) := by
  refine ⟨(write_memory g msg m).1, (enter_lt g m hg).2, write_outside g hg m msg,
    by rw [text_write g hg, kept_eq_take], by rw [pending_write g hg, kept_eq_take],
    fun m' buffer source deadline clock hdue => ?_, keptLength_of_clean g msg⟩
  rcases hdue.pending_eq with ⟨rest, hp⟩
  rw [text_write g hg, kept_eq_take] at hp
  have hcut : (msg.take (keptLength g msg)).take buffer.length
      = msg.take (min (keptLength g msg) buffer.length) := by
    rw [List.take_take, Nat.min_comm]
  have hlen : (msg.take (min (keptLength g msg) buffer.length)).length
      = min (keptLength g msg) buffer.length := by
    have hle := keptLength_le g msg
    rw [List.length_take]
    omega
  have hstep := receiveStep_of_pending g hg source deadline clock ⟨m', buffer⟩ _ rest hp
  rw [hcut, overwrite, hlen] at hstep
  exact ⟨_, hstep, remove_slots g m'⟩

-- A slot of four bytes that has held a longer message: of three bytes with a NUL
-- among them one is read back, and none of the old ones.
theorem slot_encoding_stale : (⟨2, 4⟩ : Geometry).InRange ∧
    ∃ notes, receiveStep ⟨2, 4⟩ .realtime none ⟨0, 0⟩
        ⟨(write ⟨2, 4⟩ [7, 0, 7] ((Memory.zeros 120).store 112 [5, 5, 5, 0])).state, [9, 9, 9]⟩
        .holding
      = .done ⟨(remove ⟨2, 4⟩
          (write ⟨2, 4⟩ [7, 0, 7] ((Memory.zeros 120).store 112 [5, 5, 5, 0])).state).1, [7, 9, 9]⟩
          (.ok 1) notes := by
  have hg : (⟨2, 4⟩ : Geometry).InRange := by decide
  refine ⟨hg, ?_⟩
  have hread := (slot_encoding ⟨2, 4⟩ hg ((Memory.zeros 120).store 112 [5, 5, 5, 0])
    [7, 0, 7]).2.2.2.2.2.1
  rcases hread _ [9, 9, 9] .realtime none ⟨0, 0⟩ ⟨fun _ _ _ => rfl, 1, by decide +kernel, by
    decide +kernel⟩ with ⟨notes, hstep, _⟩
  exact ⟨notes, hstep⟩

end Ring

end HostLayer
