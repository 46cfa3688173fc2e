import HostLayer.Proofs.Host.Frame
import HostLayer.Ring.Contents
import Mathlib.Tactic.SplitIfs

/-!
# Ring Slots

The slots between two indices, and what they hold.

The indices of a ring run around its end, so every statement about them is one
about remainders. All of them stay below twice the number of slots, where a
remainder is one comparison and perhaps one subtraction. `mod_eq_of_lt_two`
says so, and with it the facts about `next` and `countBetween` are plain linear
arithmetic.

The messages in a ring are the texts of a run of slots. A run grows at its end
when a message is inserted and shrinks at its front when one is removed;
`texts_succ` and `texts_succ_last` are these two views of a longer run. What is
in a run depends on the texts of its own slots only, which is how the slot that
is being filled stays out of the way of the others.

The bytes of different slots lie apart, and all of them lie behind the header.
A message in a slot is read up to its first NUL, so `kept` is what a reader
finds of it.

## Main definitions

* `Ring.texts`: The texts of a run of slots.
* `Ring.kept`: What a reader finds of a message.

## Theorems

* `Ring.countBetween_lt`: One slot always stays empty.
* `Ring.add_countBetween`: The run behind the read index ends at the write
  index.
* `Ring.ne_write_of_lt`: The slot to be written next is not in the run.
* `Ring.countBetween_next_read`, `Ring.countBetween_next_write`: The run gets
  shorter at its front and longer at its end.
* `Ring.countBetween_eq_iff_full`: A run of all slots but one is a full ring.
* `Ring.texts_succ`, `Ring.texts_succ_last`: The two ends of a run.
* `Ring.slotAt_apart`: Different slots share no byte.
* `Ring.textFrom_eq_takeWhile`: A text ends at its first NUL.
-/

namespace HostLayer

namespace Ring

/-- A remainder of a number that goes around at most once. -/
theorem mod_eq_of_lt_two (a n : Nat) (h : a < 2 * n) :
    a % n = if a < n then a else a - n := by
  by_cases ha : a < n
  · rw [if_pos ha, Nat.mod_eq_of_lt ha]
  · rw [if_neg ha, Nat.mod_eq_sub_mod (by omega), Nat.mod_eq_of_lt (by omega)]

theorem next_eq (g : Geometry) (i : Nat) (h : i < g.slots) :
    g.next i = if i + 1 < g.slots then i + 1 else 0 := by
  unfold Geometry.next
  rw [mod_eq_of_lt_two (i + 1) g.slots (by omega)]
  by_cases hi : i + 1 < g.slots
  · rw [if_pos hi, if_pos hi]
  · rw [if_neg hi, if_neg hi]
    omega

theorem countBetween_eq (g : Geometry) (read write : Nat) (hr : read < g.slots)
    (hw : write < g.slots) :
    countBetween g read write = if read ≤ write then write - read else write + g.slots - read := by
  unfold countBetween
  rw [mod_eq_of_lt_two _ _ (by omega)]
  by_cases h : read ≤ write
  · rw [if_neg (by omega), if_pos h]
    omega
  · rw [if_pos (by omega), if_neg h]

/-- One slot always stays empty. -/
theorem countBetween_lt (g : Geometry) (read write : Nat) (hr : read < g.slots) :
    countBetween g read write < g.slots :=
  Nat.mod_lt _ (by omega)

/-- The slots behind the read index end at the write index. -/
theorem add_countBetween (g : Geometry) (read write : Nat) (hr : read < g.slots)
    (hw : write < g.slots) : (read + countBetween g read write) % g.slots = write := by
  rw [countBetween_eq g read write hr hw]
  by_cases h : read ≤ write
  · rw [if_pos h, Nat.mod_eq_of_lt (by omega)]
    omega
  · rw [if_neg h, mod_eq_of_lt_two _ _ (by omega), if_neg (by omega)]
    omega

/-- The slot to be written next is none of those that hold a message. -/
theorem ne_write_of_lt (g : Geometry) (read write k : Nat) (hr : read < g.slots)
    (hw : write < g.slots) (hk : k < countBetween g read write) :
    (read + k) % g.slots ≠ write := by
  rw [countBetween_eq g read write hr hw] at hk
  rw [mod_eq_of_lt_two _ _ (by split_ifs at hk <;> omega)]
  split_ifs at hk ⊢ <;> omega

theorem countBetween_self (g : Geometry) (i : Nat) (h : i < g.slots) :
    countBetween g i i = 0 := by
  rw [countBetween_eq g i i h h, if_pos (Nat.le_refl i), Nat.sub_self]

theorem countBetween_eq_zero_iff (g : Geometry) (read write : Nat) (hr : read < g.slots)
    (hw : write < g.slots) : countBetween g read write = 0 ↔ read = write := by
  rw [countBetween_eq g read write hr hw]
  split_ifs <;> omega

/-- Moving the read index on makes the run shorter by one. -/
theorem countBetween_next_read (g : Geometry) (read write : Nat) (hr : read < g.slots)
    (hw : write < g.slots) (hne : read ≠ write) :
    countBetween g read write = countBetween g (g.next read) write + 1 := by
  have hn := next_eq g read hr
  have hlt : g.next read < g.slots := by rw [hn]; split_ifs <;> omega
  rw [countBetween_eq g read write hr hw, countBetween_eq g (g.next read) write hlt hw, hn]
  split_ifs <;> omega

/-- Moving the write index on makes the run longer by one, unless the indices
    would meet. -/
theorem countBetween_next_write (g : Geometry) (read write : Nat) (hr : read < g.slots)
    (hw : write < g.slots) (hne : g.next write ≠ read) :
    countBetween g read (g.next write) = countBetween g read write + 1 := by
  have hn := next_eq g write hw
  have hlt : g.next write < g.slots := by rw [hn]; split_ifs <;> omega
  rw [hn] at hne
  rw [countBetween_eq g read write hr hw, countBetween_eq g read (g.next write) hr hlt, hn]
  split_ifs at hne ⊢ <;> omega

/-- A ring is full exactly when all slots but one hold a message. -/
theorem countBetween_eq_iff_full (g : Geometry) (read write : Nat) (h2 : 2 ≤ g.slots)
    (hr : read < g.slots) (hw : write < g.slots) :
    countBetween g read write = g.slots - 1 ↔ g.next write = read := by
  rw [countBetween_eq g read write hr hw, next_eq g write hw]
  split_ifs <;> omega

-- The slot after a slot is another one.
theorem next_ne (g : Geometry) (i : Nat) (h2 : 2 ≤ g.slots) (h : i < g.slots) :
    g.next i ≠ i := by
  rw [next_eq g i h]
  split_ifs <;> omega

/-- The texts of `n` slots, from the slot `start` on and around the end. -/
def texts (g : Geometry) (m : Memory) (start n : Nat) : List (List UInt8) :=
  (List.range n).map fun k => text g m ((start + k) % g.slots)

theorem messages_eq_texts (g : Geometry) (m : Memory) (read write : Nat) :
    messages g m read write = texts g m read (countBetween g read write) := rfl

theorem length_texts (g : Geometry) (m : Memory) (start n : Nat) :
    (texts g m start n).length = n := by
  unfold texts
  rw [List.length_map, List.length_range]

/-- A run begins with its first slot. -/
theorem texts_succ (g : Geometry) (m : Memory) (start n : Nat) (h : start < g.slots) :
    texts g m start (n + 1) = text g m start :: texts g m (g.next start) n := by
  unfold texts
  rw [List.range_succ_eq_map, List.map_cons, List.map_map, Nat.add_zero, Nat.mod_eq_of_lt h]
  congr 1
  refine List.map_congr_left (fun k _ => ?_)
  simp only [Function.comp_apply, Geometry.next, Nat.mod_add_mod]
  rw [Nat.succ_eq_add_one, show start + (k + 1) = start + 1 + k by omega]

/-- A run ends with its last slot. -/
theorem texts_succ_last (g : Geometry) (m : Memory) (start n : Nat) :
    texts g m start (n + 1) = texts g m start n ++ [text g m ((start + n) % g.slots)] := by
  unfold texts
  rw [List.range_succ, List.map_append, List.map_singleton]

-- A run depends on the texts of its own slots only.
theorem texts_congr (g : Geometry) (m m' : Memory) (start n : Nat)
    (h : ∀ k, k < n → text g m' ((start + k) % g.slots) = text g m ((start + k) % g.slots)) :
    texts g m' start n = texts g m start n := by
  unfold texts
  exact List.map_congr_left (fun k hk => h k (List.mem_range.mp hk))

/-- Different slots share no byte. -/
theorem slotAt_apart (g : Geometry) (i j : Nat) (h : i ≠ j) :
    g.slotAt i + g.slotSize ≤ g.slotAt j ∨ g.slotAt j + g.slotSize ≤ g.slotAt i := by
  unfold Geometry.slotAt
  rcases Nat.lt_or_gt_of_ne h with hlt | hlt
  · have hmul : (i + 1) * g.slotSize ≤ j * g.slotSize := Nat.mul_le_mul_right _ hlt
    rw [Nat.succ_mul] at hmul
    exact Or.inl (by omega)
  · have hmul : (j + 1) * g.slotSize ≤ i * g.slotSize := Nat.mul_le_mul_right _ hlt
    rw [Nat.succ_mul] at hmul
    exact Or.inr (by omega)

-- The slots lie behind the header.
theorem headerSize_le_slotAt (g : Geometry) (i : Nat) : headerSize ≤ g.slotAt i :=
  Nat.le_add_right _ _

theorem textFrom_congr (m m' : Memory) (off limit : Nat) (h : m.AgreeOn m' off (off + limit)) :
    textFrom m' off limit = textFrom m off limit := by
  induction limit generalizing off with
  | zero => rfl
  | succ n ih =>
      have hrest : m.AgreeOn m' (off + 1) (off + 1 + n) :=
        fun i hlo hhi => h i (by omega) (by omega)
      unfold textFrom
      rw [h off (Nat.le_refl off) (by omega), ih (off + 1) hrest]

-- A text depends on the bytes of its slot only.
theorem text_congr (g : Geometry) (m m' : Memory) (i : Nat)
    (h : m.AgreeOn m' (g.slotAt i) (g.slotAt i + g.slotSize)) : text g m' i = text g m i :=
  textFrom_congr m m' (g.slotAt i) g.slotSize h

/-- What a reader finds of a message: the part that a slot keeps, up to its
    first NUL. -/
def kept (g : Geometry) (msg : List UInt8) : List UInt8 :=
  (stored g msg).takeWhile (· != 0)

/-- A run of bytes with a NUL behind it is read up to its first NUL. -/
theorem textFrom_eq_takeWhile (m : Memory) (bs : List UInt8) :
    ∀ (off limit : Nat), bs.length < limit →
      (∀ (i : Nat) (h : i < bs.length), m.byte (off + i) = bs[i]) →
      m.byte (off + bs.length) = 0 → textFrom m off limit = bs.takeWhile (· != 0) := by
  induction bs with
  | nil =>
      intro off limit hlen _ hend
      rw [List.length_nil, Nat.add_zero] at hend
      cases limit with
      | zero => exact absurd hlen (Nat.lt_irrefl 0)
      | succ n =>
          simp only [textFrom]
          rw [if_pos hend, List.takeWhile_nil]
  | cons b rest ih =>
      intro off limit hlen hbytes hend
      rw [List.length_cons] at hlen hend
      have hb : m.byte off = b := hbytes 0 (by rw [List.length_cons]; omega)
      cases limit with
      | zero => exact absurd hlen (Nat.not_lt_zero _)
      | succ n =>
          have hrest := ih (off + 1) n (by omega)
            (fun i hi => by
              have := hbytes (i + 1) (by rw [List.length_cons]; omega)
              rw [show off + 1 + i = off + (i + 1) by omega, this, List.getElem_cons_succ])
            (by rw [show off + 1 + rest.length = off + (rest.length + 1) by omega]; exact hend)
          simp only [textFrom]
          rw [hb]
          by_cases hz : b = 0
          · rw [if_pos hz, hz]
            rfl
          · rw [if_neg hz, hrest, List.takeWhile_cons_of_pos (by simpa using hz)]

end Ring

end HostLayer
