import HostLayer.Proofs.CpuSet
import Mathlib.Algebra.BigOperators.Group.Finset.Basic
import Mathlib.Data.Finset.Max
import Mathlib.Data.Nat.BitIndices

/-!
# CPU Sets as Finite Sets

A mask stands for the finite set of the places where it has a one.

Everything that can be asked of a mask is answered as it would be for that set,
and adding and removing CPUs does to the set what the names say. Since a set is
told by its members, so is a mask: a list of CPUs makes the same mask in
whatever order and however often it names them.

A shift by as many bits as the mask has is not defined, so a CPU has to be compared
with the number of bits before its bit is made. `bit?` refuses such a shift, and the
operations that are written with it never fail.

## Main definitions

* `CpuSet.members`: The finite set of a mask.
* `CpuSet.Edit`, `CpuSet.edited`, `CpuSet.Edit.after`: A change to a mask, and to a
  finite set.
* `CpuSet.bit?`: The mask of one CPU, unless the shift is too wide.
* `CpuSet.Represents`: A mask answers as a finite set does.

## Theorems

* `CpuSet.members_insert`, `CpuSet.members_erase`: Adding and removing.
* `CpuSet.members_ofList`: What a list of CPUs makes.
* `CpuSet.members_injective`: A mask is told by its members.
* `CpuSet.lowestFrom_eq_some_iff`: What the search from below finds.
* `CpuSet.represents_members`: What a mask answers.
* `CpuSet.changes_represented`: The same after any changes.
-/

namespace HostLayer

namespace CpuSet

variable {s : CpuSet} {c : Nat}

/-- The CPUs of a mask, which are the places of the ones in its number. -/
def members (s : CpuSet) : Finset Nat :=
  s.mask.toNat.bitIndices.toFinset

theorem mem_members : c ∈ s.members ↔ s.contains c = true := by
  rw [members, List.mem_toFinset, Nat.mem_bitIndices, contains_eq_testBit]

/-- A mask is told by its members. -/
theorem members_injective : Function.Injective members := by
  intro a b h
  refine ext_contains fun c => Bool.eq_iff_iff.mpr ?_
  rw [← mem_members, ← mem_members, h]

theorem lt_of_contains (h : s.contains c = true) : c < Limits.cpus := by
  rw [contains, Bool.and_eq_true, decide_eq_true_eq] at h
  exact h.1

/-- Among the CPUs that have a bit, those are in the set whose bit is set. -/
theorem contains_of_lt (h : c < Limits.cpus) : s.contains c = (s.mask &&& bit c != 0) := by
  rw [contains, decide_eq_true h, Bool.true_and]

section Changes

theorem contains_insert (s : CpuSet) {c : Nat} (h : c < Limits.cpus) (d : Nat) :
    (s.insert c).contains d = (decide (c = d) || s.contains d) := by
  rw [contains_eq_testBit, contains_eq_testBit, insert, if_pos h, UInt64.toNat_or, toNat_bit h,
    Nat.testBit_or, Nat.testBit_two_pow, Bool.or_comm]

theorem contains_erase (s : CpuSet) {c : Nat} (h : c < Limits.cpus) (d : Nat) :
    (s.erase c).contains d = (!decide (c = d) && s.contains d) := by
  have hone : (bit c).toNat < 2 ^ 64 := (bit c).toNat_lt
  have hnot : (~~~(bit c)).toNat = 2 ^ 64 - ((bit c).toNat + 1) := by
    rw [UInt64.toNat_not, Nat.add_comm, ← Nat.sub_sub]
    rfl
  rw [contains_eq_testBit, contains_eq_testBit, erase, if_pos h, UInt64.toNat_and, hnot,
    Nat.testBit_and, Nat.testBit_two_pow_sub_succ hone, toNat_bit h, Nat.testBit_two_pow]
  by_cases hd : d < 64
  · rw [decide_eq_true hd, Bool.true_and, Bool.and_comm]
  · have hlow : s.mask.toNat < 2 ^ d :=
      Nat.lt_of_lt_of_le s.mask.toNat_lt (Nat.pow_le_pow_right (by decide) (Nat.le_of_not_lt hd))
    rw [Nat.testBit_lt_two_pow hlow, Bool.false_and, Bool.and_false]

/-- A CPU that has no bit is not added. -/
theorem members_insert (s : CpuSet) (c : Nat) :
    (s.insert c).members = if c < Limits.cpus then Insert.insert c s.members else s.members := by
  split
  next h =>
    ext d
    rw [mem_members, contains_insert s h, Finset.mem_insert, mem_members, Bool.or_eq_true,
      decide_eq_true_eq, eq_comm]
  next h => rw [insert, if_neg h]

/-- A CPU that has no bit has never been there. -/
theorem members_erase (s : CpuSet) (c : Nat) : (s.erase c).members = s.members.erase c := by
  by_cases h : c < Limits.cpus
  · ext d
    rw [mem_members, contains_erase s h, Finset.mem_erase, mem_members, Bool.and_eq_true,
      Bool.not_eq_true', decide_eq_false_iff_not, ne_comm, ne_eq]
  · have hout : c ∉ s.members := fun hc => h (lt_of_contains (mem_members.mp hc))
    rw [erase, if_neg h, Finset.erase_eq_of_notMem hout]

theorem members_empty : empty.members = ∅ := rfl

theorem members_foldl_insert (cpus : List Nat) (s : CpuSet) :
    (cpus.foldl insert s).members = s.members ∪ cpus.toFinset.filter (· < Limits.cpus) := by
  induction cpus generalizing s with
  | nil => rw [List.foldl_nil, List.toFinset_nil, Finset.filter_empty, Finset.union_empty]
  | cons c cpus ih =>
      rw [List.foldl_cons, ih, members_insert, List.toFinset_cons, Finset.filter_insert]
      split
      · rw [Finset.insert_union, Finset.union_insert]
      · rfl

/-- A list makes the set of its CPUs that have a bit. -/
theorem members_ofList (cpus : List Nat) :
    (ofList cpus).members = cpus.toFinset.filter (· < Limits.cpus) := by
  rw [ofList, members_foldl_insert, members_empty, Finset.empty_union]

/-- A change to a set. -/
inductive Edit
  | insert (cpu : Nat)
  | erase (cpu : Nat)
  deriving DecidableEq, Repr

/-- The mask after a change. -/
def edited (s : CpuSet) : Edit → CpuSet
  | .insert c => s.insert c
  | .erase c => s.erase c

/-- The finite set after a change, which leaves CPUs alone that have no bit. -/
def Edit.after (S : Finset Nat) : Edit → Finset Nat
  | insert c => if c < Limits.cpus then Insert.insert c S else S
  | erase c => if c < Limits.cpus then S.erase c else S

theorem members_edited (s : CpuSet) (e : Edit) : (s.edited e).members = e.after s.members := by
  cases e with
  | insert c => exact members_insert s c
  | erase c =>
      simp only [edited, Edit.after]
      split
      next => exact members_erase s c
      next h => rw [erase, if_neg h]

/-- What the changes do to a mask they do to its set. -/
theorem members_foldl (edits : List Edit) (s : CpuSet) :
    (edits.foldl edited s).members = edits.foldl Edit.after s.members := by
  induction edits generalizing s with
  | nil => rfl
  | cons e edits ih => rw [List.foldl_cons, ih, members_edited, List.foldl_cons]

end Changes

section Questions

theorem mem_toList : c ∈ s.toList ↔ s.contains c = true := by
  rw [toList, List.mem_filter, List.mem_range]
  exact ⟨And.right, fun h => ⟨lt_of_contains h, h⟩⟩

theorem toList_sorted (s : CpuSet) : s.toList.Pairwise (· < ·) :=
  List.pairwise_lt_range.filter s.contains

theorem toFinset_toList (s : CpuSet) : s.toList.toFinset = s.members := by
  ext c
  rw [List.mem_toFinset, mem_toList, mem_members]

/-- The bits of a mask are counted one after the other, and so are the CPUs in a list. -/
theorem onesBelow_eq (s : CpuSet) {n : Nat} (h : n ≤ Limits.cpus) :
    onesBelow s.mask n = ((List.range n).filter s.contains).length := by
  induction n with
  | zero => rfl
  | succ n ih =>
      rw [onesBelow, ih (Nat.le_of_succ_le h), List.range_succ, List.filter_append,
        List.length_append, ← contains_of_lt h]
      cases hn : s.contains n with
      | true => rw [List.filter_cons_of_pos hn]; rfl
      | false => rw [List.filter_cons_of_neg (by rw [hn]; exact Bool.false_ne_true)]; rfl

theorem count_eq_card (s : CpuSet) : s.count = s.members.card := by
  have hnodup : s.toList.Nodup := (toList_sorted s).imp Nat.ne_of_lt
  rw [count, onesBelow_eq s (Nat.le_refl _), ← toFinset_toList, List.toFinset_card_of_nodup hnodup]
  rfl

theorem isEmpty_iff : s.isEmpty = true ↔ s.members = ∅ := by
  rw [isEmpty, beq_iff_eq, ← members_empty, members_injective.eq_iff]
  exact ⟨fun h => congrArg CpuSet.mk h, fun h => congrArg CpuSet.mask h⟩

/-- The search from below finds the lowest bit that is set, among those it looks at. -/
theorem lowestFrom_eq_some_iff (w : UInt64) (n i c : Nat) : lowestFrom w i n = some c ↔
    IsLeast {d | (i ≤ d ∧ d < i + n) ∧ (w &&& bit d != 0) = true} c := by
  induction n generalizing i with
  | zero =>
      simp only [lowestFrom, reduceCtorEq, false_iff]
      rintro ⟨⟨⟨hle, hlt⟩, -⟩, -⟩
      omega
  | succ n ih =>
      rw [lowestFrom]
      split
      next hi =>
        have hleast : IsLeast {d | (i ≤ d ∧ d < i + (n + 1)) ∧ (w &&& bit d != 0) = true} i :=
          ⟨⟨⟨Nat.le_refl i, by omega⟩, hi⟩, fun d hd => hd.1.1⟩
        rw [Option.some.injEq]
        exact ⟨fun h => h ▸ hleast, fun h => hleast.unique h⟩
      next hi =>
        -- The first place is not set, so the sets that are searched are the same.
        have hset : {d | (i ≤ d ∧ d < i + (n + 1)) ∧ (w &&& bit d != 0) = true}
            = {d | (i + 1 ≤ d ∧ d < i + 1 + n) ∧ (w &&& bit d != 0) = true} := by
          ext d
          refine ⟨fun hd => ⟨⟨?_, ?_⟩, hd.2⟩, fun hd => ⟨⟨?_, ?_⟩, hd.2⟩⟩
          · have hne : d ≠ i := fun heq => hi (heq ▸ hd.2)
            have hle := hd.1.1
            omega
          · have hlt := hd.1.2
            omega
          · exact Nat.le_of_succ_le hd.1.1
          · have hlt := hd.1.2
            omega
        rw [hset, ih]

theorem first?_eq_some_iff : s.first? = some c ↔ IsLeast (s.members : Set Nat) c := by
  have hset : {d | (0 ≤ d ∧ d < 0 + Limits.cpus) ∧ (s.mask &&& bit d != 0) = true}
      = (s.members : Set Nat) := by
    ext d
    rw [Finset.mem_coe, mem_members]
    refine ⟨fun hd => ?_, fun hd => ?_⟩
    · rw [contains_of_lt (Nat.zero_add Limits.cpus ▸ hd.1.2)]
      exact hd.2
    · have hlt := lt_of_contains hd
      exact ⟨⟨Nat.zero_le d, by omega⟩, contains_of_lt hlt ▸ hd⟩
  rw [first?, lowestFrom_eq_some_iff, hset]

theorem first?_eq_none_iff : s.first? = none ↔ s.members = ∅ := by
  constructor
  · intro h
    by_contra hne
    have hleast := s.members.isLeast_min' (Finset.nonempty_of_ne_empty hne)
    rw [first?_eq_some_iff.mpr hleast] at h
    exact absurd h (by simp only [reduceCtorEq, not_false_eq_true])
  · intro h
    cases hf : s.first? with
    | none => rfl
    | some c =>
        have hmem := (first?_eq_some_iff.mp hf).1
        rw [Finset.mem_coe, h] at hmem
        exact absurd hmem (Finset.notMem_empty c)

/-- The number of a mask has a power of two for each member. -/
theorem toNat_mask (s : CpuSet) : s.mask.toNat = ∑ c ∈ s.members, 2 ^ c := by
  rw [members, List.sum_toFinset _ Nat.bitIndices_nodup, Nat.sum_map_two_pow_bitIndices]

theorem ofList_eq_iff (cpus cpus' : List Nat) : ofList cpus = ofList cpus' ↔
    cpus.toFinset.filter (· < Limits.cpus) = cpus'.toFinset.filter (· < Limits.cpus) := by
  rw [← members_ofList, ← members_ofList, members_injective.eq_iff]

/-- Collecting the CPUs of a set gives the set back. -/
theorem ofList_toList (s : CpuSet) : ofList s.toList = s := by
  refine members_injective ?_
  rw [members_ofList, toFinset_toList]
  exact Finset.filter_true_of_mem fun c hc => lt_of_contains (mem_members.mp hc)

end Questions

section Shifts

/-- The mask of one CPU. There is none if the shift is by all bits of a mask or more. -/
def bit? (cpu : Nat) : Option UInt64 :=
  if cpu < 64 then some (bit cpu) else none

/-- `contains` with a shift that can fail. -/
def contains? (s : CpuSet) (cpu : Nat) : Option Bool :=
  if cpu < Limits.cpus then (bit? cpu).map (s.mask &&& · != 0) else some false

/-- `insert` with a shift that can fail. -/
def insert? (s : CpuSet) (cpu : Nat) : Option CpuSet :=
  if cpu < Limits.cpus then (bit? cpu).map fun b => ⟨s.mask ||| b⟩ else some s

/-- `erase` with a shift that can fail. -/
def erase? (s : CpuSet) (cpu : Nat) : Option CpuSet :=
  if cpu < Limits.cpus then (bit? cpu).map fun b => ⟨s.mask &&& ~~~b⟩ else some s

/-- The CPUs of a list whose bits are set, with shifts that can fail and without a look
    at the bound. -/
def setAmong? (w : UInt64) : List Nat → Option (List Nat)
  | [] => some []
  | c :: cs => (bit? c).bind fun b =>
      (setAmong? w cs).map fun rest => if w &&& b != 0 then c :: rest else rest

/-- `toList` with shifts that can fail. It asks only for CPUs that have a bit. -/
def toList? (s : CpuSet) : Option (List Nat) :=
  setAmong? s.mask (List.range Limits.cpus)

theorem bit?_of_lt (h : c < Limits.cpus) : bit? c = some (bit c) := if_pos h

theorem contains?_eq (s : CpuSet) (c : Nat) : s.contains? c = some (s.contains c) := by
  rw [contains?, contains]
  split
  next h => rw [bit?_of_lt h, decide_eq_true h, Bool.true_and, Option.map_some]
  next h => rw [decide_eq_false h, Bool.false_and]

theorem insert?_eq (s : CpuSet) (c : Nat) : s.insert? c = some (s.insert c) := by
  rw [insert?, insert]
  split
  next h => rw [bit?_of_lt h, Option.map_some]
  next => rfl

theorem erase?_eq (s : CpuSet) (c : Nat) : s.erase? c = some (s.erase c) := by
  rw [erase?, erase]
  split
  next h => rw [bit?_of_lt h, Option.map_some]
  next => rfl

theorem setAmong?_eq (s : CpuSet) {cs : List Nat} (h : ∀ c ∈ cs, c < Limits.cpus) :
    setAmong? s.mask cs = some (cs.filter s.contains) := by
  induction cs with
  | nil => rfl
  | cons c cs ih =>
      rcases List.forall_mem_cons.mp h with ⟨hc, hcs⟩
      rw [setAmong?, bit?_of_lt hc, Option.bind_some, ih hcs, Option.map_some, ← contains_of_lt hc,
        List.filter_cons]

theorem toList?_eq (s : CpuSet) : s.toList? = some s.toList :=
  setAmong?_eq s fun _ h => List.mem_range.mp h

end Shifts

/-- A mask answers whatever it is asked as the finite set `S` does, and no answer needs a
    shift that is too wide. -/
structure Represents (s : CpuSet) (S : Finset Nat) : Prop where
  below : ∀ c ∈ S, c < Limits.cpus
  number : s.mask.toNat = ∑ c ∈ S, 2 ^ c
  contains_iff : ∀ c, s.contains c = true ↔ c ∈ S
  count_eq : s.count = S.card
  isEmpty_iff : s.isEmpty = true ↔ S = ∅
  first_least : ∀ c, s.first? = some c ↔ IsLeast (S : Set Nat) c
  first_none : s.first? = none ↔ S = ∅
  /-- The list of the CPUs ascends, so it names none of them twice. -/
  ascending : s.toList.Pairwise (· < ·)
  listed : ∀ c, c ∈ s.toList ↔ c ∈ S
  collected : ofList s.toList = s
  shifts : ∀ c, s.contains? c = some (s.contains c) ∧ s.insert? c = some (s.insert c) ∧
    s.erase? c = some (s.erase c)
  listed_shifts : s.toList? = some s.toList

/-- A mask answers as the set of its members does. -/
theorem represents_members (s : CpuSet) : s.Represents s.members where
  below _ h := lt_of_contains (mem_members.mp h)
  number := toNat_mask s
  contains_iff _ := mem_members.symm
  count_eq := count_eq_card s
  isEmpty_iff := isEmpty_iff
  first_least _ := first?_eq_some_iff
  first_none := first?_eq_none_iff
  ascending := toList_sorted s
  listed _ := mem_toList.trans mem_members.symm
  collected := ofList_toList s
  shifts c := ⟨contains?_eq s c, insert?_eq s c, erase?_eq s c⟩
  listed_shifts := toList?_eq s

/-- Whatever mask one starts from and whatever CPUs are then added and removed, the mask
    answers as the finite set does to which the same was done. A list of CPUs makes the
    set of those that have a bit, and lists make the same mask just if these sets are the same. -/
theorem changes_represented (start : CpuSet) (edits : List Edit) (cpus others : List Nat) :
    (edits.foldl edited start).Represents (edits.foldl Edit.after start.members) ∧
      (ofList cpus).Represents (cpus.toFinset.filter (· < Limits.cpus)) ∧
      (ofList cpus = ofList others ↔
        cpus.toFinset.filter (· < Limits.cpus) = others.toFinset.filter (· < Limits.cpus)) := by
  refine ⟨?_, ?_, ofList_eq_iff cpus others⟩
  · rw [← members_foldl]
    exact represents_members _
  · rw [← members_ofList]
    exact represents_members _

/-- CPUs that have no bit are passed over, wherever they are. -/
example : (ofList [5, 64, 3, 5, 200]).toList = [3, 5] ∧ (ofList [5, 64, 3]).first? = some 3 := by
  decide

end CpuSet

end HostLayer
