import HostLayer.Ipc.SharedMemory
import Mathlib.Tactic.SplitIfs

/-!
# Opening Objects

The host calls by which a shared memory object is opened, one by one.

The routine asks the host and translates its refusals, and both get in the way
of whoever only wants to know where it goes next. `ShmHandle.Moved` lists the
calls that succeed and lead on, with what the host must have found, and
`openStep_cases` says that nothing else happens: the call is over with a handle
where the size has been read, and otherwise it is over with a cause. Only the
removal of a name that has been created in vain changes anything then.

## Main definitions

* `ObjectShelf.made`: A new object under a name.
* `ShmHandle.Moved`: One host call that leads on.
* `ShmHandle.Mappable`: An object that can be mapped to be written.

## Theorems

* `ShmHandle.openStep_cases`, `ShmHandle.Moved.step_eq`: The calls are those
  that are made.
* `ShmHandle.map_ring`: What can be mapped for a ring.
-/

namespace HostLayer

namespace ObjectShelf

/-- The shelf with a new, empty object under a name. -/
def made (s : ObjectShelf) (name : String) (mode : UInt32) : ObjectShelf :=
  { (s.put s.next (Memory.zeros 0)).setName name (some s.next) with
    mode := fun j => if j = s.next then mode else s.mode j
    next := s.next + 1 }

-- An object that is put where it was.
theorem put_self_eq (s : ObjectShelf) (i : Nat) : s.put i (s.memory i) = s := by
  have hmem : (fun j => if j = i then s.memory i else s.memory j) = s.memory := by
    funext j
    by_cases h : j = i
    · rw [if_pos h, h]
    · rw [if_neg h]
  unfold put
  rw [hmem]

theorem put_memory_self (s : ObjectShelf) (i : Nat) (m : Memory) : (s.put i m).memory i = m := by
  simp only [put, if_true]

-- Of two changes of an object the second one counts.
theorem put_put (s : ObjectShelf) (i : Nat) (m m' : Memory) :
    (s.put i m).put i m' = s.put i m' := by
  have hmem : (fun j => if j = i then m' else if j = i then m else s.memory j)
      = fun j => if j = i then m' else s.memory j := by
    funext j
    by_cases h : j = i
    · rw [if_pos h, if_pos h]
    · rw [if_neg h, if_neg h, if_neg h]
  unfold put
  rw [hmem]

end ObjectShelf

namespace ShmHandle

/-- One host call of opening that leads on: the shelf and the place before, and
    the shelf and the place after it. -/
inductive Moved (r : OpenRequest) : ObjectShelf → Place → ObjectShelf → Place → Prop
  /-- The name is free, and an object is made. -/
  | make (s : ObjectShelf) (only : Bool) (hd : r.descriptorLeft = true)
      (hfree : s.names r.name = none) :
      Moved r s (.creating only) (s.made r.name r.attr.mode) (.sizing s.next true)
  /-- The name is taken. -/
  | pass (s : ObjectShelf) (i : Nat) (hd : r.descriptorLeft = true)
      (hi : s.names r.name = some i) : Moved r s (.creating false) s .opening
  /-- The object is found and may be used. -/
  | find (s : ObjectShelf) (i : Nat) (hd : r.descriptorLeft = true)
      (hi : s.names r.name = some i) (hdir : (ObjectShelf.isDirectory i && r.attr.rdwr) = false)
      (hallow : Host.allows (s.mode i) true r.attr.rdwr = true) :
      Moved r s .opening s (if r.attr.trunc then .sizing i false else .measuring i)
  /-- The object gets its size. -/
  | size (s : ObjectShelf) (i : Nat) (created : Bool) (hs : r.size < ObjectShelf.sizeLimit)
      (hw : r.attr.rdwr = true) :
      Moved r s (.sizing i created) (s.put i ((s.memory i).resize r.size)) (.measuring i)
  /-- The object cannot get its size, and its name is to be removed. -/
  | undo (s : ObjectShelf) (i : Nat)
      (hbad : ObjectShelf.sizeLimit ≤ r.size ∨ r.attr.rdwr = false) :
      Moved r s (.sizing i true) s (.removing .invalidParam)

-- The host refuses a size for one reason only.
theorem truncate_cases (s : ObjectShelf) (i : Nat) (writable : Bool) (size : Nat) :
    (size < ObjectShelf.sizeLimit ∧ writable = true ∧
      s.truncate i writable size = .ok (s.put i ((s.memory i).resize size))) ∨
    ((ObjectShelf.sizeLimit ≤ size ∨ writable = false) ∧
      s.truncate i writable size = .error .invalid) := by
  unfold ObjectShelf.truncate
  by_cases hs : ObjectShelf.sizeLimit ≤ size
  · exact Or.inr ⟨Or.inl hs, if_pos hs⟩
  · cases writable with
    | false => exact Or.inr ⟨Or.inr rfl, by simp only [if_neg hs, Bool.not_false, if_true]⟩
    | true =>
        exact Or.inl ⟨Nat.lt_of_not_le hs, rfl, by
          simp only [if_neg hs, Bool.not_true, Bool.false_eq_true, if_false]⟩

/-- A step of opening is a call that leads on, the end with a handle, or the end
    with a cause. -/
theorem openStep_cases (r : OpenRequest) (s : ObjectShelf) (p : Place) :
    (∃ s' p' notes, openStep r s p = .goto s' p' notes ∧ Moved r s p s' p') ∨
    (∃ i, p = .measuring i ∧
      openStep r s p = .done s (.ok ⟨i, r.name, s.sizeOf i, r.attr.rdwr⟩) []) ∨
    (∃ s' e notes, openStep r s p = .done s' (.error e) notes ∧
      (s' = s ∨ ∃ why, p = .removing why ∧ s.remove r.name = .ok s')) := by
  have hrefuse : ∀ table call e, ∃ e' notes,
      openStep.refuse s table call e = .done s (.error e') notes :=
    fun table call e => ⟨_, _, rfl⟩
  cases p with
  | creating only =>
      cases hd : r.descriptorLeft with
      | false =>
          rcases hrefuse openCause "shm_open" .tooManyOpen with ⟨e, notes, he⟩
          refine Or.inr (Or.inr ⟨s, e, notes, ?_, Or.inl rfl⟩)
          rw [← he]
          simp only [openStep, ObjectShelf.createExclusive, hd, Bool.not_false, if_true,
            reduceCtorEq, false_and, if_false]
      | true =>
          cases hn : s.names r.name with
          | none =>
              refine Or.inl ⟨_, _, [], ?_, .make s only hd hn⟩
              simp only [openStep, ObjectShelf.createExclusive, hd, hn, Bool.not_true,
                Bool.false_eq_true, if_false]
              rfl
          | some i =>
              cases only with
              | false =>
                  refine Or.inl ⟨s, .opening, [], ?_, .pass s i hd hn⟩
                  simp only [openStep, ObjectShelf.createExclusive, hd, hn, Bool.not_true,
                    Bool.false_eq_true, if_false, and_self, if_true]
              | true =>
                  rcases hrefuse openCause "shm_open" .alreadyExists with ⟨e, notes, he⟩
                  refine Or.inr (Or.inr ⟨s, e, notes, ?_, Or.inl rfl⟩)
                  rw [← he]
                  simp only [openStep, ObjectShelf.createExclusive, hd, hn, Bool.not_true,
                    Bool.false_eq_true, if_false, reduceCtorEq, and_false]
  | opening =>
      rcases ho : s.openExisting r.descriptorLeft r.name r.attr.rdwr with e | i
      · rcases hrefuse openCause "shm_open" e with ⟨e', notes, he⟩
        refine Or.inr (Or.inr ⟨s, e', notes, ?_, Or.inl rfl⟩)
        rw [← he]
        simp only [openStep, ho]
      · refine Or.inl ⟨s, if r.attr.trunc then .sizing i false else .measuring i, [],
          by simp only [openStep, ho], ?_⟩
        -- The host has looked at the name, the kind and the permissions.
        unfold ObjectShelf.openExisting at ho
        split_ifs at ho with hd
        cases hn : s.names r.name with
        | none =>
            rw [hn] at ho
            exact absurd ho (by simp only [reduceCtorEq, not_false_eq_true])
        | some j =>
            rw [hn] at ho
            simp only [] at ho
            split_ifs at ho with hdir hallow
            rw [Except.ok.injEq] at ho
            rw [← ho]
            exact .find s j (by simpa using hd) hn (by simpa using hdir) hallow
  | sizing i created =>
      rcases truncate_cases s i r.attr.rdwr r.size with ⟨hs, hw, ht⟩ | ⟨hbad, ht⟩
      · exact Or.inl ⟨_, _, [], by simp only [openStep, ht], .size s i created hs hw⟩
      · cases created with
        | true =>
            refine Or.inl ⟨s, .removing .invalidParam,
              (Errno.translate truncateCause "ftruncate" .invalid).2, ?_, .undo s i hbad⟩
            simp only [openStep, ht, if_true]
            rfl
        | false =>
            refine Or.inr (Or.inr ⟨s, .invalidParam,
              (Errno.translate truncateCause "ftruncate" .invalid).2, ?_, Or.inl rfl⟩)
            simp only [openStep, ht, Bool.false_eq_true, if_false]
            rfl
  | removing why =>
      refine Or.inr (Or.inr ?_)
      rcases hr : s.remove r.name with e | s'
      · exact ⟨s, why, [], by simp only [openStep, hr], Or.inl rfl⟩
      · exact ⟨s', why, [], by simp only [openStep, hr], Or.inr ⟨why, rfl, rfl⟩⟩
  | measuring i => exact Or.inr (Or.inl ⟨i, rfl, rfl⟩)

/-- Every call that can lead on does. -/
theorem Moved.step_eq {r : OpenRequest} {s s' : ObjectShelf} {p p' : Place}
    (h : Moved r s p s' p') : ∃ notes, openStep r s p = .goto s' p' notes := by
  cases h with
  | make only hd hfree =>
      refine ⟨[], ?_⟩
      simp only [openStep, ObjectShelf.createExclusive, hd, hfree, Bool.not_true,
        Bool.false_eq_true, if_false]
      rfl
  | pass i hd hi =>
      refine ⟨[], ?_⟩
      simp only [openStep, ObjectShelf.createExclusive, hd, hi, Bool.not_true,
        Bool.false_eq_true, if_false, and_self, if_true]
  | find i hd hi hdir hallow =>
      refine ⟨[], ?_⟩
      simp only [openStep, ObjectShelf.openExisting, hd, hi, hdir, hallow, Bool.not_true,
        Bool.false_eq_true, if_false, if_true]
  | size i created hs hw =>
      refine ⟨[], ?_⟩
      simp only [openStep, ObjectShelf.truncate, if_neg (Nat.not_le.mpr hs), hw, Bool.not_true,
        Bool.false_eq_true, if_false]
  | undo i hbad =>
      rcases truncate_cases s i r.attr.rdwr r.size with ⟨hs, hw, _⟩ | ⟨_, ht⟩
      · rw [hw] at hbad
        exact absurd hbad (by
          simp only [Nat.not_le.mpr hs, Bool.true_eq_false, or_self, not_false_eq_true])
      · refine ⟨(Errno.translate truncateCause "ftruncate" .invalid).2, ?_⟩
        simp only [openStep, ht, if_true]
        rfl

/-- The object can be mapped to be read and written together with others. -/
structure Mappable (h : ShmHandle) : Prop where
  positive : 0 < h.size
  fits : h.size < ObjectShelf.mapLimit
  writable : h.writable = true
  is_memory : ObjectShelf.isDirectory h.object = false

/-- A mapping for a ring is refused to those objects only that cannot be
    mapped. -/
theorem map_ring (h : ShmHandle) :
    (h.Mappable ∧ ∃ mapping, h.map MapFlags.ring = (.ok mapping, [])) ∨
      ¬h.Mappable ∧ ∃ e notes, h.map MapFlags.ring = (.error e, notes) := by
  have hshared : Flags.contains MapFlags.ring MapFlags.shared = true := by decide
  have hpriv : Flags.contains MapFlags.ring MapFlags.priv = false := by decide
  have hwrite : Flags.contains MapFlags.ring MapFlags.write = true := by decide
  have hno : Flags.contains MapFlags.ring MapFlags.noAccess = false := by decide
  unfold map
  simp only [hshared, hpriv, hwrite, hno, Bool.true_eq_false, if_false, Bool.not_false,
    Bool.and_true, Bool.true_and]
  by_cases hpos : h.size = 0
  · exact Or.inr ⟨fun hm => absurd hpos (Nat.ne_of_gt hm.positive), _, _, if_pos hpos⟩
  rw [if_neg hpos]
  by_cases hfits : ObjectShelf.mapLimit ≤ h.size
  · exact Or.inr ⟨fun hm => absurd hm.fits (Nat.not_lt.mpr hfits), _, _, if_pos hfits⟩
  rw [if_neg hfits]
  cases hw : h.writable with
  | false =>
      refine Or.inr ⟨fun hm => ?_, _, _, if_pos rfl⟩
      exact absurd (hw.symm.trans hm.writable) (by decide)
  | true =>
      rw [if_neg (by decide)]
      cases hd : ObjectShelf.isDirectory h.object with
      | true =>
          refine Or.inr ⟨fun hm => ?_, _, _, if_pos rfl⟩
          exact absurd (hd.symm.trans hm.is_memory) (by decide)
      | false =>
          exact Or.inl ⟨⟨Nat.pos_of_ne_zero hpos, Nat.lt_of_not_le hfits, hw, hd⟩, _,
            if_neg (by decide)⟩

end ShmHandle

end HostLayer
