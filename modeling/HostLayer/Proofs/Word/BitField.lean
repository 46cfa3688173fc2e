import HostLayer.Word.BitField
import Mathlib.Data.List.Pairwise
import Mathlib.Data.Nat.Bitwise

/-!
# Laws of Bit Fields

What reading and writing a field does to each bit of a word.

Writing a field changes the bits that the field covers and no others, and so
everything that is said of fields is said bit by bit: what has been written is read
back, fields that have no bit in common do not notice each other, and the order in
which such fields are written does not matter.

Fields are declared as a list of widths, and get their places from bit zero
upwards. However wide the gaps between them are, fields that are allotted so
have no bit in common.

## Main definitions

* `BitField.Covers`: A bit belongs to a field.
* `BitField.Fits`, `BitField.Apart`: A field lies inside a word, and two fields have
  no bit in common.
* `Declaration.allot`: The places of declared fields.

## Theorems

* `BitField.testBit_put`: A word after a write, bit by bit.
* `BitField.toNat_get`: The value of a field.
* `BitField.get_put_self`, `BitField.get_put_apart`: What is read after a write.
* `BitField.put_comm`, `BitField.put_put`, `BitField.put_get`: Writes in either order,
  to the same field, and of what has been read.
* `Declaration.fits_of_mem_allot`, `Declaration.apart_of_mem_allot`: Declared fields lie
  inside a word and apart from each other.
-/

namespace HostLayer

/-- A word is told by its bits. -/
theorem eq_of_testBit {w v : UInt32} (h : ∀ i, w.toNat.testBit i = v.toNat.testBit i) : w = v :=
  UInt32.toNat_inj.mp (Nat.eq_of_testBit_eq h)

theorem testBit_of_ge (w : UInt32) {i : Nat} (h : 32 ≤ i) : w.toNat.testBit i = false :=
  Nat.testBit_lt_two_pow
    (Nat.lt_of_lt_of_le w.toNat_lt (Nat.pow_le_pow_right (by decide) h))

theorem testBit_not (w : UInt32) (i : Nat) :
    (~~~w).toNat.testBit i = (decide (i < 32) && !w.toNat.testBit i) := by
  have hnot : (~~~w).toNat = 2 ^ 32 - (w.toNat + 1) := by
    rw [UInt32.toNat_not, Nat.add_comm, ← Nat.sub_sub]
    rfl
  rw [hnot, Nat.testBit_two_pow_sub_succ w.toNat_lt]

namespace BitField

variable {f g : BitField}

/-- The bit `i` of a word belongs to the field. -/
def Covers (f : BitField) (i : Nat) : Prop :=
  f.low.toNat ≤ i ∧ i < f.low.toNat + f.width.toNat

instance (f : BitField) (i : Nat) : Decidable (f.Covers i) :=
  inferInstanceAs (Decidable (_ ∧ _))

/-- The field lies inside a word. It has a bit, and it is not the whole word. -/
structure Fits (f : BitField) : Prop where
  wide : 0 < f.width.toNat
  narrow : f.width.toNat < 32
  inside : f.low.toNat + f.width.toNat ≤ 32

/-- No bit belongs to both fields. -/
def Apart (f g : BitField) : Prop :=
  ∀ i, f.Covers i → ¬g.Covers i

theorem Apart.symm (h : f.Apart g) : g.Apart f := fun i hg hf => h i hf hg

section Bits

theorem toNat_ones (h : f.Fits) : f.ones.toNat = 2 ^ f.width.toNat - 1 := by
  have hpow : 2 ^ f.width.toNat < 2 ^ 32 := Nat.pow_lt_pow_right (by decide) h.narrow
  have hshift : (1 <<< f.width : UInt32).toNat = 2 ^ f.width.toNat := by
    rw [UInt32.toNat_shiftLeft, Nat.mod_eq_of_lt h.narrow, UInt32.toNat_one, Nat.one_shiftLeft,
      Nat.mod_eq_of_lt hpow]
  have hone : (1 : UInt32) ≤ 1 <<< f.width := by
    rw [UInt32.le_iff_toNat_le, hshift]
    exact Nat.one_le_two_pow
  rw [ones, UInt32.toNat_sub_of_le _ _ hone, hshift]
  rfl

theorem testBit_ones (h : f.Fits) (i : Nat) :
    f.ones.toNat.testBit i = decide (i < f.width.toNat) := by
  rw [toNat_ones h, Nat.testBit_two_pow_sub_one]

/-- A number moved to the place of a field, bit by bit. -/
theorem testBit_shiftLeft (h : f.Fits) (v : UInt32) (i : Nat) :
    (v <<< f.low).toNat.testBit i
      = (decide (i < 32) && (decide (f.low.toNat ≤ i) && v.toNat.testBit (i - f.low.toNat))) := by
  have hlow : f.low.toNat < 32 := by
    have hwide := h.wide
    have hinside := h.inside
    omega
  rw [UInt32.toNat_shiftLeft, Nat.mod_eq_of_lt hlow, Nat.testBit_mod_two_pow,
    Nat.testBit_shiftLeft]

theorem testBit_mask (h : f.Fits) (i : Nat) : f.mask.toNat.testBit i = decide (f.Covers i) := by
  have hinside := h.inside
  rw [mask, testBit_shiftLeft h, testBit_ones h, ← Bool.decide_and, ← Bool.decide_and,
    decide_eq_decide, Covers]
  omega

/-- A word after a write: the bits of the field are those of the number, and the others
    are as they were. -/
theorem testBit_put (h : f.Fits) (w v : UInt32) (i : Nat) : (f.put w v).toNat.testBit i
    = if f.Covers i then v.toNat.testBit (i - f.low.toNat) else w.toNat.testBit i := by
  have hinside := h.inside
  rw [put, UInt32.toNat_or, Nat.testBit_or, UInt32.toNat_and, Nat.testBit_and, testBit_not,
    testBit_mask h, testBit_shiftLeft h, UInt32.toNat_and, Nat.testBit_and, testBit_ones h]
  split
  next hi =>
    have hlow : i - f.low.toNat < f.width.toNat := by
      have hle := hi.1
      have hlt := hi.2
      omega
    have hword : i < 32 := Nat.lt_of_lt_of_le hi.2 hinside
    rw [decide_eq_true hi, decide_eq_true hlow, decide_eq_true hword, decide_eq_true hi.1]
    simp only [Bool.not_true, Bool.and_false, Bool.false_or, Bool.true_and, Bool.and_true]
  next hi =>
    have hout : (decide (f.low.toNat ≤ i) && decide (i - f.low.toNat < f.width.toNat)) = false := by
      rw [← Bool.decide_and, decide_eq_false_iff_not]
      rintro ⟨hle, hlt⟩
      exact hi ⟨hle, by omega⟩
    rw [decide_eq_false hi, Bool.not_false, Bool.and_true, Bool.and_comm (v.toNat.testBit _),
      ← Bool.and_assoc (decide (f.low.toNat ≤ i)), hout, Bool.false_and, Bool.and_false,
      Bool.or_false]
    by_cases hword : i < 32
    · rw [decide_eq_true hword, Bool.and_true]
    · rw [testBit_of_ge w (Nat.le_of_not_lt hword), Bool.false_and]

/-- The value of a field is the number that its bits make. -/
theorem toNat_get (h : f.Fits) (w : UInt32) :
    (f.get w).toNat = w.toNat / 2 ^ f.low.toNat % 2 ^ f.width.toNat := by
  have hlow : f.low.toNat < 32 := by
    have hwide := h.wide
    have hinside := h.inside
    omega
  rw [get, UInt32.toNat_and, toNat_ones h, Nat.and_two_pow_sub_one_eq_mod, UInt32.toNat_shiftRight,
    Nat.mod_eq_of_lt hlow, Nat.shiftRight_eq_div_pow]

theorem testBit_get (h : f.Fits) (w : UInt32) (i : Nat) : (f.get w).toNat.testBit i
    = (decide (i < f.width.toNat) && w.toNat.testBit (i + f.low.toNat)) := by
  rw [toNat_get h, Nat.testBit_mod_two_pow, Nat.testBit_div_two_pow]

theorem get_lt (h : f.Fits) (w : UInt32) : (f.get w).toNat < 2 ^ f.width.toNat := by
  rw [toNat_get h]
  exact Nat.mod_lt _ (Nat.two_pow_pos _)

end Bits

section Laws

/-- A number that is not too wide is read back. -/
theorem get_put_self (h : f.Fits) (w : UInt32) {v : UInt32} (hv : v.toNat < 2 ^ f.width.toNat) :
    f.get (f.put w v) = v := by
  refine eq_of_testBit fun i => ?_
  rw [testBit_get h]
  by_cases hi : i < f.width.toNat
  · have hcovers : f.Covers (i + f.low.toNat) := ⟨Nat.le_add_left _ _, by omega⟩
    rw [decide_eq_true hi, Bool.true_and, testBit_put h, if_pos hcovers, Nat.add_sub_cancel]
  · have hlow := Nat.lt_of_lt_of_le hv (Nat.pow_le_pow_right (by decide) (Nat.le_of_not_lt hi))
    rw [decide_eq_false hi, Bool.false_and, Nat.testBit_lt_two_pow hlow]

/-- A field does not notice a write to one that is apart from it. -/
theorem get_put_apart (hf : f.Fits) (hg : g.Fits) (h : f.Apart g) (w v : UInt32) :
    g.get (f.put w v) = g.get w := by
  refine eq_of_testBit fun i => ?_
  rw [testBit_get hg, testBit_get hg]
  by_cases hi : i < g.width.toNat
  · have hcovers : g.Covers (i + g.low.toNat) := ⟨Nat.le_add_left _ _, by omega⟩
    rw [testBit_put hf, if_neg (h.symm _ hcovers)]
  · rw [decide_eq_false hi, Bool.false_and, Bool.false_and]

/-- Fields that are apart can be written in either order. -/
theorem put_comm (hf : f.Fits) (hg : g.Fits) (h : f.Apart g) (w v u : UInt32) :
    g.put (f.put w v) u = f.put (g.put w u) v := by
  refine eq_of_testBit fun i => ?_
  rw [testBit_put hg, testBit_put hf, testBit_put hf, testBit_put hg]
  by_cases hi : f.Covers i
  · rw [if_neg (h i hi), if_pos hi, if_pos hi]
  · rw [if_neg hi, if_neg hi]

/-- Of two writes to a field the second one counts. -/
theorem put_put (h : f.Fits) (w v u : UInt32) : f.put (f.put w v) u = f.put w u := by
  refine eq_of_testBit fun i => ?_
  rw [testBit_put h, testBit_put h, testBit_put h]
  split
  next => rfl
  next => rfl

/-- Writing what has been read changes nothing. -/
theorem put_get (h : f.Fits) (w : UInt32) : f.put w (f.get w) = w := by
  refine eq_of_testBit fun i => ?_
  rw [testBit_put h]
  split
  next hi =>
    have hlt : i - f.low.toNat < f.width.toNat := by
      have hle := hi.1
      have hup := hi.2
      omega
    rw [testBit_get h, decide_eq_true hlt, Bool.true_and, Nat.sub_add_cancel hi.1]
  next => rfl

end Laws

end BitField

/-- How the fields of a word are declared: one after the other, each with its width. A
    gap has a width and no name. -/
abbrev Declaration (ι : Type) := List (Option ι × Nat)

namespace Declaration

variable {ι : Type}

/-- The places of declared fields, from the bit `low` upwards. -/
def allot (low : Nat) : Declaration ι → List (Option ι × BitField)
  | [] => []
  | (name, width) :: rest =>
      (name, ⟨UInt32.ofNat low, UInt32.ofNat width⟩) :: allot (low + width) rest

/-- The number of bits that are declared. -/
def size (d : Declaration ι) : Nat :=
  (d.map (·.2)).sum

/-- From the bit `low` upwards there is room for the fields, each of which has a bit and
    is not a whole word. -/
structure Room (low : Nat) (d : Declaration ι) : Prop where
  widths : ∀ e ∈ d, 0 < e.2 ∧ e.2 < 32
  size_le : low + d.size ≤ 32

namespace Room

variable {low width : Nat} {name : Option ι} {others : Declaration ι}

/-- The first field stands where it has been put. -/
theorem first (h : Room low ((name, width) :: others)) :
    (UInt32.ofNat low).toNat = low ∧ (UInt32.ofNat width).toNat = width ∧
      BitField.Fits ⟨UInt32.ofNat low, UInt32.ofNat width⟩ := by
  have hwidth : 0 < width ∧ width < 32 := h.widths _ List.mem_cons_self
  have hsize := h.size_le
  rw [size, List.map_cons, List.sum_cons] at hsize
  simp only at hsize
  have hlow : (UInt32.ofNat low).toNat = low := by
    rw [UInt32.toNat_ofNat', Nat.mod_eq_of_lt (by omega)]
  have hwide : (UInt32.ofNat width).toNat = width := by
    rw [UInt32.toNat_ofNat', Nat.mod_eq_of_lt (by omega)]
  refine ⟨hlow, hwide, ⟨?_, ?_, ?_⟩⟩
  · rw [hwide]
    exact hwidth.1
  · rw [hwide]
    exact hwidth.2
  · rw [hlow, hwide]
    omega

/-- There is room for the others above it. -/
theorem rest (h : Room low ((name, width) :: others)) : Room (low + width) others where
  widths e he := h.widths e (List.mem_cons_of_mem _ he)
  size_le := by
    have hsize := h.size_le
    rw [size, List.map_cons, List.sum_cons] at hsize
    rw [size, Nat.add_assoc]
    exact hsize

end Room

/-- A field stands above all that have been declared before it, and inside the word. -/
theorem fits_of_mem_allot (d : Declaration ι) (low : Nat) (h : Room low d) :
    ∀ e ∈ allot low d, e.2.Fits ∧ low ≤ e.2.low.toNat := by
  induction d generalizing low with
  | nil => exact fun e he => absurd he List.not_mem_nil
  | cons first rest ih =>
      rcases h.first with ⟨hlow, -, hfits⟩
      refine List.forall_mem_cons.mpr ⟨⟨hfits, Nat.le_of_eq hlow.symm⟩, fun e he => ?_⟩
      rcases ih (low + first.2) h.rest e he with ⟨hlater, hle⟩
      exact ⟨hlater, Nat.le_trans (Nat.le_add_right _ _) hle⟩

/-- No two of the fields have a bit in common. -/
theorem apart_of_mem_allot (d : Declaration ι) (low : Nat) (h : Room low d) :
    (allot low d).Pairwise fun a b => a.2.Apart b.2 := by
  induction d generalizing low with
  | nil => exact List.Pairwise.nil
  | cons first rest ih =>
      rcases h.first with ⟨hlow, hwide, -⟩
      refine List.Pairwise.cons (fun e he i hcovers hlater => ?_) (ih (low + first.2) h.rest)
      -- The first field ends where the others begin.
      have hup : i < low + first.2 := by
        have hlt := hcovers.2
        rwa [hlow, hwide] at hlt
      have hle := (fits_of_mem_allot rest (low + first.2) h.rest e he).2
      exact absurd (Nat.le_trans hle hlater.1) (Nat.not_le_of_lt hup)

/-- Fields of different names are apart from each other. -/
theorem apart_of_ne {d : Declaration ι} {f g : BitField} {m n : ι} (h : Room 0 d)
    (hf : (some m, f) ∈ allot 0 d) (hg : (some n, g) ∈ allot 0 d) (hne : m ≠ n) : f.Apart g := by
  have : Std.Symm fun a b : Option ι × BitField => a.2.Apart b.2 :=
    ⟨fun _ _ hab => hab.symm⟩
  have hdiff : (some m, f) ≠ (some n, g) := fun heq => hne (Option.some.inj (Prod.ext_iff.mp heq).1)
  exact (apart_of_mem_allot d 0 h).forall hf hg hdiff

end Declaration

end HostLayer
