import HostLayer.Proofs.Host.Frame

/-!
# Torn Stores

What is left of a list of stores whose maker dies on the way.

A number is stored at once and a run of bytes byte by byte, so what has been
made is some beginning of the list in which every run is taken apart. Whether
the maker was about to make a store or was in the middle of one does not have
to be told apart: a list of stores that is torn is a prefix of its parts, and
everything that is said of whole lists of stores applies to the prefix, which
is a list of stores itself.

A torn list touches nothing that the whole list does not touch. Where a list is
made in two halves, either the first one is torn or it has been made as a
whole, and taken apart it does what it does in one piece (`storeAll_parts`).

## Main definitions

* `Store.Torn`: What has been made of a list of stores.

## Theorems

* `Store.Torn.misses`: What a list of stores leaves alone, a torn one does.
* `Store.Torn.append_cases`: A list in two halves is torn in one of them.
* `Store.Torn.cons_number`: A number is stored at once.
* `Memory.storeAll_parts`: All parts together are the whole.
-/

namespace HostLayer

namespace Store

/-- Of the stores of the list, those of `p` have been made, where a run may have
    been made in part. -/
def Torn (stores p : List Store) : Prop :=
  p <+: stores.flatMap atoms

-- The single bytes of a run lie in the run.
theorem bytewise_within (bytes : List UInt8) :
    ∀ (off : Nat), ∀ a ∈ bytewise off bytes,
      off ≤ a.first ∧ a.first + a.size ≤ off + bytes.length := by
  induction bytes with
  | nil => exact fun off a h => absurd h List.not_mem_nil
  | cons b rest ih =>
      intro off a h
      rw [List.length_cons]
      rcases List.mem_cons.mp h with rfl | h
      · simp only [first, size, List.length_singleton]
        omega
      · have hrest := ih (off + 1) a h
        omega

-- The parts of a store lie in the store.
theorem atoms_within (s a : Store) (h : a ∈ s.atoms) :
    s.first ≤ a.first ∧ a.first + a.size ≤ s.first + s.size := by
  cases s with
  | number off width value =>
      rw [List.mem_singleton.mp h]
      exact ⟨Nat.le_refl _, Nat.le_refl _⟩
  | run off bytes => exact bytewise_within bytes off a h

/-- A torn list of stores leaves alone what the whole list leaves alone. -/
theorem Torn.misses {stores p : List Store} (h : Torn stores p) (lo hi : Nat)
    (hm : ∀ s ∈ stores, s.Misses lo hi) : ∀ a ∈ p, a.Misses lo hi := by
  intro a ha
  rcases List.mem_flatMap.mp (h.subset ha) with ⟨s, hs, has⟩
  have hin := atoms_within s a has
  rcases hm s hs with hmiss | hmiss
  · exact Or.inl (by omega)
  · exact Or.inr (by omega)

/-- A list in two halves is torn in the first one, or else the first one has
    been made as a whole. -/
theorem Torn.append_cases {front back p : List Store} (h : Torn (front ++ back) p) :
    Torn front p ∨ ∃ q, p = front.flatMap atoms ++ q ∧ Torn back q := by
  unfold Torn at h ⊢
  rw [List.flatMap_append] at h
  rcases List.prefix_or_prefix_of_prefix h (List.prefix_append _ _) with hp | ⟨q, rfl⟩
  · exact Or.inl hp
  · exact Or.inr ⟨q, rfl, (List.prefix_append_right_inj _).mp h⟩

/-- A number at the front of a list has been stored or nothing has. -/
theorem Torn.cons_number {off width value : Nat} {rest p : List Store}
    (h : Torn (.number off width value :: rest) p) :
    p = [] ∨ ∃ q, p = .number off width value :: q ∧ Torn rest q := by
  cases p with
  | nil => exact Or.inl rfl
  | cons a q =>
      have hcons : a :: q <+: .number off width value :: rest.flatMap atoms := h
      rcases List.cons_prefix_cons.mp hcons with ⟨rfl, hq⟩
      exact Or.inr ⟨q, rfl, hq⟩

theorem Torn.nil_eq {p : List Store} (h : Torn [] p) : p = [] :=
  List.prefix_nil.mp h

end Store

namespace Memory

-- Memories of one size with the same bytes are the same.
theorem eq_of_bytes {m m' : Memory} (hs : m.size = m'.size) (hb : ∀ i, m.byte i = m'.byte i) :
    m = m' := by
  cases m
  cases m'
  rw [mk.injEq]
  exact ⟨hs, funext hb⟩

-- A run is stored as its first byte and its rest are.
theorem store_cons (m : Memory) (off : Nat) (b : UInt8) (rest : List UInt8) :
    (m.store off [b]).store (off + 1) rest = m.store off (b :: rest) := by
  refine eq_of_bytes rfl (fun i => ?_)
  by_cases hlo : i < off
  · rw [store_byte_of_lt _ _ (by omega), store_byte_of_lt _ _ hlo, store_byte_of_lt _ _ hlo]
  by_cases hhi : off + (b :: rest).length ≤ i
  · rw [store_byte_of_ge _ _ hhi]
    rw [List.length_cons] at hhi
    rw [store_byte_of_ge _ _ (by omega),
      store_byte_of_ge _ _ (by rw [List.length_singleton]; omega)]
  rw [List.length_cons] at hhi
  rcases Nat.exists_eq_add_of_le (Nat.le_of_not_lt hlo) with ⟨k, rfl⟩
  rw [store_byte_of_mem m (b :: rest) (by rw [List.length_cons]; omega)]
  cases k with
  | zero =>
      rw [store_byte_of_lt _ _ (by omega)]
      exact store_byte_of_mem m [b] (Nat.lt_succ_self 0)
  | succ k =>
      rw [show off + (k + 1) = off + 1 + k by omega, store_byte_of_mem _ rest (by omega),
        List.getElem_cons_succ]

-- A run is stored as its single bytes are.
theorem storeAll_bytewise (bytes : List UInt8) :
    ∀ (m : Memory) (off : Nat), m.storeAll (Store.bytewise off bytes) = m.store off bytes := by
  induction bytes with
  | nil =>
      intro m off
      refine eq_of_bytes rfl (fun i => ?_)
      by_cases h : i < off
      · exact (m.store_byte_of_lt [] h).symm
      · exact (m.store_byte_of_ge [] (Nat.le_of_not_lt h)).symm
  | cons b rest ih =>
      intro m off
      rw [Store.bytewise, storeAll_cons, ih]
      exact store_cons m off b rest

/-- The parts of all stores, one after the other, do what the stores do. -/
theorem storeAll_parts (stores : List Store) :
    ∀ (m : Memory), m.storeAll (stores.flatMap Store.atoms) = m.storeAll stores := by
  induction stores with
  | nil => exact fun m => rfl
  | cons s rest ih =>
      intro m
      have hfirst : m.storeAll s.atoms = s.apply m := by
        cases s with
        | number off width value => rfl
        | run off bytes => exact storeAll_bytewise bytes m off
      rw [List.flatMap_cons, storeAll_append, hfirst, ih, storeAll_cons]

-- A list whose first half has been made as a whole.
theorem storeAll_parts_append (m : Memory) (front q : List Store) :
    m.storeAll (front.flatMap Store.atoms ++ q) = (m.storeAll front).storeAll q := by
  rw [storeAll_append, storeAll_parts]

end Memory

end HostLayer
