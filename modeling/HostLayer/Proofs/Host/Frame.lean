import HostLayer.Host.Store
import HostLayer.Limits

/-!
# Frames

What a store to a memory leaves as it was, and what is read back from it.

Everything that shares a memory keeps its parts at fixed places, and reasoning
about one part has to get past the stores to all the others. A store touches
the bytes from `Store.first` on, `Store.size` of them, so it is enough to
compare places: `Misses` says that a store lies beside a range, and a number
or a run in that range is then read as before.

A number that is stored is read back cut to its width. The width is fixed by
the layout and the numbers are bounded by the program, so the cut is stated
with the limit of the width and left to the caller to undo.

## Main definitions

* `Store.Misses`: A store lies beside a range of bytes.
* `Memory.AgreeOn`: Two memories have the same bytes in a range.

## Theorems

* `Store.apply_byte_of_outside`: A store leaves the bytes beside it alone.
* `Memory.storeAll_agreeOn`: Stores that miss a range leave it alone.
* `Memory.loadNat_congr`: A number is read from its own bytes only.
* `Memory.loadNat_lt`: A number fits its width.
* `Memory.loadNat_storeNat`: A number is read back cut to its width.
* `Memory.loadNat_storeNat_word32`: A number that fits four bytes is read back.
* `Memory.loadNat_apply_of_misses`: A store beside a number does not change
  it.
* `Memory.loadNat_storeAll_of_misses`: The same for a list of stores.
-/

namespace HostLayer

namespace Store

/-- The store lies beside the bytes from `lo` up to `hi`. -/
def Misses (s : Store) (lo hi : Nat) : Prop :=
  s.first + s.size ≤ lo ∨ hi ≤ s.first

instance (s : Store) (lo hi : Nat) : Decidable (s.Misses lo hi) :=
  inferInstanceAs (Decidable (_ ∨ _))

/-- A store changes only the bytes that it touches. -/
theorem apply_byte_of_outside (m : Memory) (s : Store) (i : Nat)
    (h : i < s.first ∨ s.first + s.size ≤ i) : (s.apply m).byte i = m.byte i := by
  cases s with
  | number off width value =>
      simp only [first, size] at h
      rcases h with h | h
      · exact m.store_byte_of_lt _ h
      · exact m.store_byte_of_ge _ (by rw [length_littleEndian]; exact h)
  | run off bytes =>
      simp only [first, size] at h
      rcases h with h | h
      · exact m.store_byte_of_lt _ h
      · exact m.store_byte_of_ge _ h

end Store

namespace Memory

/-- The memories have the same bytes from `lo` up to `hi`. -/
def AgreeOn (m m' : Memory) (lo hi : Nat) : Prop :=
  ∀ i, lo ≤ i → i < hi → m'.byte i = m.byte i

theorem storeAll_nil (m : Memory) : m.storeAll [] = m := rfl

theorem storeAll_cons (m : Memory) (s : Store) (stores : List Store) :
    m.storeAll (s :: stores) = (s.apply m).storeAll stores := rfl

-- A single store leaves a range alone that it misses.
theorem apply_agreeOn (m : Memory) (s : Store) (lo hi : Nat) (h : s.Misses lo hi) :
    m.AgreeOn (s.apply m) lo hi := by
  intro i hlo hhi
  refine Store.apply_byte_of_outside m s i ?_
  rcases h with h | h
  · exact Or.inr (by omega)
  · exact Or.inl (by omega)

/-- Stores that all miss a range leave it alone, by induction along the
    list. -/
theorem storeAll_agreeOn (stores : List Store) (lo hi : Nat) :
    ∀ (m : Memory), (∀ s ∈ stores, s.Misses lo hi) → m.AgreeOn (m.storeAll stores) lo hi := by
  induction stores with
  | nil => intro m _ i _ _; rfl
  | cons s rest ih =>
      intro m h i hlo hhi
      have hfirst := apply_agreeOn m s lo hi (h s List.mem_cons_self) i hlo hhi
      have hrest := ih (s.apply m) (fun t ht => h t (List.mem_cons_of_mem s ht)) i hlo hhi
      rw [storeAll_cons, hrest, hfirst]

/-- A number is read from its own bytes only. -/
theorem loadNat_congr (m m' : Memory) (off width : Nat) (h : m.AgreeOn m' off (off + width)) :
    m'.loadNat off width = m.loadNat off width := by
  unfold loadNat
  rw [load_congr (fun i hi => h (off + i) (by omega) (by omega))]

-- Bytes denote a number that fits their count.
theorem ofLittleEndian_lt (bs : List UInt8) : ofLittleEndian bs < widthLimit bs.length := by
  induction bs with
  | nil => exact Nat.zero_lt_one
  | cons b rest ih =>
      have hb : b.toNat < 256 := b.toNat_lt
      simp only [ofLittleEndian, List.length_cons, widthLimit]
      omega

theorem loadNat_lt (m : Memory) (off width : Nat) :
    m.loadNat off width < widthLimit width := by
  have h := ofLittleEndian_lt (m.load off width)
  rw [length_load] at h
  exact h

/-- A number is read back as it was stored, cut to the bytes that it has. -/
theorem loadNat_storeNat (m : Memory) (off width n : Nat) :
    (m.storeNat off width n).loadNat off width = n % widthLimit width := by
  have h := load_store m off (littleEndian width n)
  rw [length_littleEndian] at h
  unfold loadNat storeNat
  rw [h, ofLittleEndian_littleEndian]

theorem widthLimit_word32 : widthLimit 4 = word32 := rfl

theorem widthLimit_word64 : widthLimit 8 = word64 := rfl

/-- A number that fits its four bytes is read back as it was stored. -/
theorem loadNat_storeNat_word32 (m : Memory) (off n : Nat) (h : n < word32) :
    (m.storeNat off 4 n).loadNat off 4 = n := by
  rw [loadNat_storeNat, widthLimit_word32, Nat.mod_eq_of_lt h]

theorem loadNat_apply_of_misses (m : Memory) (s : Store) (off width : Nat)
    (h : s.Misses off (off + width)) : (s.apply m).loadNat off width = m.loadNat off width :=
  loadNat_congr m _ off width (apply_agreeOn m s off (off + width) h)

theorem loadNat_storeAll_of_misses (m : Memory) (stores : List Store) (off width : Nat)
    (h : ∀ s ∈ stores, s.Misses off (off + width)) :
    (m.storeAll stores).loadNat off width = m.loadNat off width :=
  loadNat_congr m _ off width (storeAll_agreeOn stores off (off + width) m h)

end Memory

end HostLayer
