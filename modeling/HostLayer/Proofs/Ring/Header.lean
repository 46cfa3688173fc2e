import HostLayer.Proofs.Ring.Changes
import HostLayer.Ring.Setup

/-!
# Ring Headers

What is read from a header that has been laid out.

A header is laid out store by store, and some of its bytes are stored twice:
the lock and the tokens are first made zero as a whole and then get the word
that says what kind they are, and the mark is cleared first and written last.
So a field holds what its last store has put there. `loadNat_storeAll_last`
says this of any list of stores, with the list taken apart at that store, and
each field of the header is one case of it.

Nothing is said about the memory before, so a header that is laid out over an
old one is as good as one in a new object.

## Main definitions

* `Ring.Complete`: A ring in which nothing has happened yet.

## Theorems

* `Ring.loadNat_storeAll_last`: A field holds what was stored last.
* `Ring.mark_header`: The mark of a header.
* `Ring.stated_header`: The geometry of a header.
* `Ring.indices?_header`, `Ring.pending_header`: A new ring is empty.
* `Ring.adopt?_eq_some_iff`: What makes a memory a ring.
* `Ring.adopt?_header`: A new ring is found by whoever looks for it.
* `Ring.complete_header`: A new ring is complete.
-/

namespace HostLayer

namespace Ring

/-- A field holds what was stored there last, cut to its width. -/
theorem loadNat_storeAll_last (m : Memory) (before after : List Store) (off width value : Nat)
    (h : ∀ s ∈ after, s.Misses off (off + width)) :
    (m.storeAll (before ++ .number off width value :: after)).loadNat off width
      = value % widthLimit width := by
  rw [Memory.storeAll_append, Memory.storeAll_cons,
    Memory.loadNat_storeAll_of_misses _ after off width h]
  exact Memory.loadNat_storeNat _ off width value

/-- The mark is written last. -/
theorem mark_header (m : Memory) (g : Geometry) :
    (m.storeAll (headerStores g)).loadNat magicAt 4 = magic :=
  loadNat_storeAll_last m ((headerStores g).take 10) [] magicAt 4 magic
    (fun _ h => absurd h List.not_mem_nil)

-- Both numbers of a geometry that is valid fit their fields.
theorem Geometry.Valid.fits {g : Geometry} (hg : g.Valid) :
    g.slots < word32 ∧ g.slotSize < word64 := by
  refine ⟨hg.1.2.1, ?_⟩
  have hone : 1 * g.slotSize ≤ g.slots * g.slotSize :=
    Nat.mul_le_mul_right _ (by have := hg.1.1; omega)
  have hsize := hg.2
  unfold Geometry.size at hsize
  omega

theorem stated_header (m : Memory) (g : Geometry) (hg : g.Valid) :
    stated (m.storeAll (headerStores g)) = g := by
  have hslots : (m.storeAll (headerStores g)).loadNat slotsAt 8 = g.slots % widthLimit 8 := by
    refine loadNat_storeAll_last m ((headerStores g).take 1) ((headerStores g).drop 2) _ _ _ ?_
    simp only [headerStores, List.drop_succ_cons, List.drop_zero, List.forall_mem_cons,
      Store.Misses, Store.first, Store.size, setFlag, setRead, setWrite, List.length_replicate]
    decide
  have hsize : (m.storeAll (headerStores g)).loadNat slotSizeAt 8 = g.slotSize % widthLimit 8 := by
    -- No store behind this one depends on the geometry.
    exact loadNat_storeAll_last m ((headerStores g).take 2) ((headerStores ⟨2, 1⟩).drop 3) _ _ _
      (by decide)
  unfold stated
  have hwords : word32 ≤ word64 := by decide
  rw [hslots, hsize, Memory.widthLimit_word64,
    Nat.mod_eq_of_lt (Nat.lt_of_lt_of_le hg.fits.1 hwords), Nat.mod_eq_of_lt hg.fits.2]

/-- Both indices of a new ring are zero. -/
theorem indices?_header (m : Memory) (g : Geometry) (hg : g.Valid) :
    indices? g (m.storeAll (headerStores g)) = some (0, 0) := by
  have h0 : 0 < g.slots := by
    have := hg.1.1
    omega
  rw [indices?_eq_some_iff]
  refine ⟨?_, ?_, h0, h0⟩
  · exact loadNat_storeAll_last m ((headerStores g).take 6) ((headerStores ⟨2, 1⟩).drop 7)
      readAt 4 0 (by decide)
  · exact loadNat_storeAll_last m ((headerStores g).take 7) ((headerStores ⟨2, 1⟩).drop 8)
      writeAt 4 0 (by decide)

/-- A new ring holds no messages. -/
theorem pending_header (m : Memory) (g : Geometry) (hg : g.Valid) :
    pending g (m.storeAll (headerStores g)) = [] := by
  have hi := indices?_header m g hg
  rw [pending_of_indices g _ 0 0 hi,
    countBetween_self g 0 ((indices?_eq_some_iff g _ 0 0).mp hi).2.2.1]
  rfl

/-- What makes a memory a ring of a geometry. -/
theorem adopt?_eq_some_iff (length : Nat) (m : Memory) (g : Geometry) :
    adopt? length m = some g ↔ m.loadNat magicAt 4 = magic ∧ stated m = g ∧ g.Valid ∧
      g.size ≤ length ∧ ∃ i, indices? g m = some i := by
  unfold adopt?
  by_cases h : Adoptable length m
  · rw [if_pos h, Option.some.injEq]
    constructor
    · rintro rfl
      exact ⟨h.1, rfl, h.2.1, h.2.2.1, Option.isSome_iff_exists.mp h.2.2.2⟩
    · exact fun hg => hg.2.1
  · rw [if_neg h]
    constructor
    · exact fun hg => absurd hg (by simp only [reduceCtorEq, not_false_eq_true])
    · rintro ⟨hmark, rfl, hvalid, hsize, hi⟩
      exact absurd ⟨hmark, hvalid, hsize, Option.isSome_iff_exists.mpr hi⟩ h

/-- A new ring is found in every object that is large enough for it. -/
theorem adopt?_header (m : Memory) (g : Geometry) (length : Nat) (hg : g.Valid)
    (hl : g.size ≤ length) : adopt? length (m.storeAll (headerStores g)) = some g := by
  have hs := stated_header m g hg
  have hi := indices?_header m g hg
  unfold adopt?
  rw [if_pos ⟨mark_header m g, by rw [hs]; exact hg, by rw [hs]; exact hl, by rw [hs, hi]; rfl⟩, hs]

/-- A ring with a free lock, no tokens and no messages. -/
structure Complete (length : Nat) (g : Geometry) (m : Memory) : Prop where
  adopted : adopt? length m = some g
  empty : pending g m = []
  no_tokens : tokens m = ⟨0⟩
  unlocked : orphaned m = false

theorem ofLittleEndian_zeros (n : Nat) : ofLittleEndian (List.replicate n 0) = 0 := by
  induction n with
  | zero => rfl
  | succ n ih =>
      rw [List.replicate_succ, ofLittleEndian, ih]
      rfl

-- A number that begins a run of zeros is zero.
theorem loadNat_zeros (m : Memory) (off n width : Nat) (h : width ≤ n) :
    (m.store off (List.replicate n 0)).loadNat off width = 0 := by
  have hload : (m.store off (List.replicate n 0)).load off width = List.replicate width 0 := by
    refine List.ext_getElem (by rw [Memory.length_load, List.length_replicate]) ?_
    intro i h1 h2
    rw [Memory.length_load] at h1
    simp only [Memory.load, List.getElem_map, List.getElem_range, List.getElem_replicate]
    rw [Memory.store_byte_of_mem m _ (by rw [List.length_replicate]; omega),
      List.getElem_replicate]
  unfold Memory.loadNat
  rw [hload, ofLittleEndian_zeros]

/-- A header that has been laid out is a ring in which nothing has happened. -/
theorem complete_header (m : Memory) (g : Geometry) (length : Nat) (hg : g.Valid)
    (hl : g.size ≤ length) : Complete length g (m.storeAll (headerStores g)) := by
  have hzero : ∀ (before after : List Store) (off n : Nat), 4 ≤ n →
      (∀ s ∈ after, s.Misses off (off + 4)) →
      (m.storeAll (before ++ .run off (List.replicate n 0) :: after)).loadNat off 4 = 0 := by
    intro before after off n hn hafter
    rw [Memory.storeAll_append, Memory.storeAll_cons,
      Memory.loadNat_storeAll_of_misses _ after off 4 hafter]
    exact loadNat_zeros _ off n 4 hn
  refine ⟨adopt?_header m g length hg hl, pending_header m g hg, ?_, ?_⟩
  · have h := hzero ((headerStores g).take 4) ((headerStores ⟨2, 1⟩).drop 5) tokensAt tokensSize
      (by decide) (by decide)
    exact congrArg Semaphore.mk h
  · have h := hzero ((headerStores g).take 3) ((headerStores ⟨2, 1⟩).drop 4) lockAt lockSize
      (by decide) (by decide)
    unfold orphaned
    rw [show (m.storeAll (headerStores g)).loadNat lockAt 4 = 0 from h]
    rfl

end Ring

end HostLayer
