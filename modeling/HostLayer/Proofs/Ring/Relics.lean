import HostLayer.Proofs.Ring.Bounds

/-!
# Relics

What a new header is laid out over.

A party lays out a header only where it has found no ring. The object is new and
full of zeros then, or it was there and had no ring in it; and if it was smaller
than the new ring, it has been made larger since. All bytes that were there have
stayed, for nobody clears an object.

So the object can be a ring before a single store of the new header has been
made. This is so in one case only: what was there has been marked as a ring that
is larger than the object was, and no larger than it is now.

## Main definitions

* `RingHandle.ground`: What a header is laid out over.
* `RingHandle.Vain`: There is no ring under the name.
* `RingHandle.Grounded`: What a party alone has found, wherever it stands.

## Theorems

* `RingHandle.Grounded.step`, `RingHandle.grounded_run`: A party alone lays out
  its header over the ground.
* `RingHandle.ring_of_ground`: When there is a ring in the ground.
-/

namespace HostLayer

namespace RingHandle

/-- What a party alone lays out its header over: a new object, or the one that
    stands under the name, made larger if it is too small. -/
def ground (r : Request) (s : ObjectShelf) : Memory :=
  match s.names r.host with
  | none => (Memory.zeros 0).resize r.geometry.size
  | some i =>
      if s.sizeOf i < r.geometry.size then (s.memory i).resize r.geometry.size else s.memory i

/-- There is no ring under the name of the request. -/
def Vain (r : Request) (s : ObjectShelf) : Prop :=
  ∀ i, s.names r.host = some i → Ring.adopt? (s.sizeOf i) (s.memory i) = none

/-- The object `i` is a new one, or it stood under the name from the first. -/
def Looked (r : Request) (s₀ s : ObjectShelf) (i : Nat) : Prop :=
  (s₀.names r.host = none ∧ s.memory i = (Memory.zeros 0).resize r.geometry.size) ∨
    s = s₀ ∧ s₀.names r.host = some i

/-- The object that stood under the name is no ring and is too small for one. -/
def Short (r : Request) (s₀ s : ObjectShelf) : Prop :=
  s = s₀ ∧ Vain r s₀ ∧ ∃ i, s₀.names r.host = some i ∧ s₀.sizeOf i < r.geometry.size

/-- What a party alone has made of the shelf `s₀`, wherever it stands. -/
def Grounded (r : Request) (s₀ s : ObjectShelf) : Place → Prop
  | .opening (.sizing i _) => s₀.names r.host = none ∧ s.memory i = Memory.zeros 0
  | .opening (.measuring i) => Looked r s₀ s i
  | .opening (.removing _) => True
  | .opening _ => s = s₀
  | .adopting h => Looked r s₀ s h.object ∧ h.size = s.sizeOf h.object
  | .enlarging (.sizing i _) => Short r s₀ s ∧ s₀.names r.host = some i
  | .enlarging (.measuring i) => Vain r s₀ ∧ s.memory i = ground r s₀
  | .enlarging (.removing _) => True
  | .enlarging _ => Short r s₀ s
  | .mapping h => Vain r s₀ ∧ s.memory h.object = ground r s₀
  | .laying h left => Vain r s₀ ∧ ∃ before, Ring.headerStores r.geometry = before ++ left ∧
      s.memory h.object = (ground r s₀).storeAll before

variable {r : Request} {s₀ s s' : ObjectShelf} {p p' : Place}

-- A look in vain is one at the ground, unless the object is too small.
theorem Looked.vain {i : Nat} (h : Looked r s₀ s i)
    (hno : Ring.adopt? (s.sizeOf i) (s.memory i) = none) : Vain r s₀ := by
  intro j hj
  rcases h with ⟨hfree, _⟩ | ⟨rfl, hi⟩
  · exact absurd (hfree.symm.trans hj) (by simp only [reduceCtorEq, not_false_eq_true])
  · rw [← Option.some.inj (hi.symm.trans hj)]
    exact hno

theorem Looked.ground_eq {i : Nat} (h : Looked r s₀ s i) (hlarge : ¬s.sizeOf i < r.geometry.size) :
    s.memory i = ground r s₀ := by
  unfold ground
  rcases h with ⟨hfree, hmem⟩ | ⟨rfl, hi⟩
  · rw [hfree, hmem]
  · rw [hi]
    exact (if_neg hlarge).symm

theorem Looked.short {i : Nat} (h : Looked r s₀ s i)
    (hno : Ring.adopt? (s.sizeOf i) (s.memory i) = none) (hsmall : s.sizeOf i < r.geometry.size) :
    Short r s₀ s := by
  have hvain := h.vain hno
  rcases h with ⟨_, hmem⟩ | ⟨rfl, hi⟩
  · rw [ObjectShelf.sizeOf, hmem] at hsmall
    exact absurd hsmall (Nat.lt_irrefl _)
  · exact ⟨rfl, hvain, i, hi, hsmall⟩

/-- A step of a party alone. -/
theorem Grounded.step (h : Grounded r s₀ s p) (hm : Moved r s p s' p') : Grounded r s₀ s' p' := by
  cases hm with
  | call _ p p' hm =>
      cases hm with
      | make only hd hfree =>
          have hs : s = s₀ := h
          exact ⟨hs ▸ hfree, ObjectShelf.put_memory_self s s.next _⟩
      | pass i hd hi => exact h
      | find i hd hi hdir hallow =>
          have hs : s = s₀ := h
          rw [if_neg (by rw [(opening_attr r).2]; decide)]
          exact Or.inr ⟨hs, hs ▸ hi⟩
      | size i created hsize hw =>
          refine Or.inl ⟨h.1, ?_⟩
          rw [ObjectShelf.put_memory_self, h.2]
          rfl
      | undo i hbad => trivial
  | opened i => exact ⟨h, rfl⟩
  | pass h' hno =>
      rcases h with ⟨hlook, hsize⟩
      have hnone : Ring.adopt? (s.sizeOf h'.object) (s.memory h'.object) = none := by
        rw [← hsize]
        rcases hno with hshort | ⟨_, hnone⟩
        · rw [Option.eq_none_iff_forall_ne_some]
          exact fun g hg => header_le_of_adopt hg hshort
        · exact hnone
      unfold afterLook
      by_cases hsmall : h'.size < r.geometry.size
      · rw [if_pos hsmall, start_enlarging]
        exact hlook.short hnone (hsize ▸ hsmall)
      · rw [if_neg hsmall]
        exact ⟨hlook.vain hnone, hlook.ground_eq (hsize ▸ hsmall)⟩
  | again _ p p' hm =>
      cases hm with
      | make only hd hfree =>
          -- The name has been taken from the first.
          rcases h with ⟨rfl, _, i, hi, _⟩
          exact absurd (hfree.symm.trans hi) (by simp only [reduceCtorEq, not_false_eq_true])
      | pass i hd hi => exact h
      | find i hd hi hdir hallow =>
          have hshort : Short r s₀ s := h
          rw [if_pos (enlarging_attr r).2]
          exact ⟨hshort, hshort.1 ▸ hi⟩
      | size i created hsize hw =>
          rcases h with ⟨⟨rfl, hvain, j, hj, hsmall⟩, hi⟩
          refine ⟨hvain, ?_⟩
          rw [Option.some.inj (hj.symm.trans hi)] at hsmall
          rw [ObjectShelf.put_memory_self]
          unfold ground
          rw [hi]
          exact (if_pos hsmall).symm
      | undo i hbad => trivial
  | enlarged i => exact h
  | map h' hm => exact ⟨h.1, [], rfl, h.2⟩
  | lay h' store left =>
      rcases h with ⟨hvain, before, hsplit, hmem⟩
      refine ⟨hvain, before ++ [store], ?_, ?_⟩
      · rw [List.append_assoc]
        exact hsplit
      · rw [ObjectShelf.put_memory_self, hmem, Memory.storeAll_append]
        rfl

/-- Wherever a party alone has come to, this is what it has made of the
    shelf. -/
theorem grounded_run (r : Request) (fuel : Nat) (s : ObjectShelf) (q : Place)
    (hq : (runSteps (createStep r) fuel s start []).outcome = .inl q) :
    Grounded r s (runSteps (createStep r) fuel s start []).state q := by
  refine (runSteps_keeps (createStep r) (Grounded r s) (fun t p t' p' notes hI hstep => ?_)
    fuel s start [] (by rw [start_eq]; rfl)).1 q hq
  rcases createStep_cases r t p with
    ⟨u, q, more, hgoto, hmoved⟩ | ⟨h, more, hdone, _⟩ | ⟨u, e, more, hdone, _⟩
  · rw [hstep, Step.goto.injEq] at hgoto
    rw [hgoto.1, hgoto.2.1]
    exact hI.step hmoved
  · exact absurd (hstep.symm.trans hdone) (by simp only [reduceCtorEq, not_false_eq_true])
  · exact absurd (hstep.symm.trans hdone) (by simp only [reduceCtorEq, not_false_eq_true])

-- A header that is in both memories is read in the same way.
theorem adopt?_of_agree {length length' : Nat} {m m' : Memory} {g : Ring.Geometry}
    (hg : Ring.adopt? length m = some g) (hl : g.size ≤ length')
    (h : m.AgreeOn m' 0 Ring.headerSize) : Ring.adopt? length' m' = some g := by
  have hsame := Ring.loadNat_header Ring.headerSize (Nat.le_refl _) h
  rcases (Ring.adopt?_eq_some_iff length m g).mp hg with ⟨hmark, hstated, hvalid, _, hi⟩
  rw [Ring.adopt?_eq_some_iff, Ring.indices?_congr g Ring.headerSize (Nat.le_refl _) h,
    hsame Ring.magicAt 4 (by decide)]
  refine ⟨hmark, ?_, hvalid, hl, hi⟩
  rw [← hstated]
  unfold Ring.stated
  rw [hsame Ring.slotsAt 8 (by decide), hsame Ring.slotSizeAt 8 (by decide)]

-- A new object holds no ring.
theorem adopt?_new (size : Nat) : Ring.adopt? size ((Memory.zeros 0).resize size) = none := by
  rw [Option.eq_none_iff_forall_ne_some]
  intro g hg
  have hmark := ((Ring.adopt?_eq_some_iff _ _ g).mp hg).1
  have hzero : ((Memory.zeros 0).resize size).load Ring.magicAt 4 = List.replicate 4 0 := by
    simp only [Memory.load, Memory.resize, Memory.zeros, Nat.not_lt_zero, false_and, if_false]
    rfl
  rw [Memory.loadNat, hzero, Ring.ofLittleEndian_zeros] at hmark
  exact absurd hmark (by decide)

/-- A ring in the ground is one that was larger than its object. -/
theorem ring_of_ground (hvain : Vain r s) {g : Ring.Geometry}
    (hg : Ring.adopt? (ground r s).size (ground r s) = some g) :
    ∃ i, s.names r.host = some i ∧ s.sizeOf i < g.size ∧ g.size ≤ r.geometry.size := by
  unfold ground at hg
  split at hg
  next => exact absurd (hg.symm.trans (adopt?_new _)) (by
    simp only [reduceCtorEq, not_false_eq_true])
  next i hi =>
    have hnone := hvain i hi
    split at hg
    next hsmall =>
      refine ⟨i, hi, Nat.lt_of_not_le fun hle => ?_, (Ring.adopt?_valid hg).2⟩
      -- Else its header was there before, as a whole.
      have hheader : Ring.headerSize ≤ (s.memory i).size :=
        Nat.le_trans (Nat.le_add_right _ _) hle
      have hring : Ring.adopt? (s.sizeOf i) (s.memory i) = some g :=
        adopt?_of_agree hg hle fun k _ hk =>
          (if_pos ⟨Nat.lt_of_lt_of_le hk hheader,
            Nat.lt_trans (Nat.lt_of_lt_of_le hk hheader) hsmall⟩).symm
      exact absurd (hring.symm.trans hnone) (by simp only [reduceCtorEq, not_false_eq_true])
    next => exact absurd (hg.symm.trans hnone) (by simp only [reduceCtorEq, not_false_eq_true])

end RingHandle

end HostLayer
