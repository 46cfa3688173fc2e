import HostLayer.Proofs.Text.Bytes
import Mathlib.Order.Bounds.Basic

/-!
# Boundaries of Characters

Cut texts, told by byte offsets.

A text can be cut where a character starts or where the text ends. The other way to
find the cut is to begin at the limit, or at the end of a text that is
shorter, and to step back byte by byte as long as the offset is inside a character.
Offset 0 is a boundary, so the search ends there at the latest and never steps
below it.

What the search finds is the largest boundary within the limit, and what stands
before it is the cut text: nothing longer fits that ends with a whole character.
A text and a limit have only one such start.

## Main definitions

* `Text.isBoundary`: A text can be cut at an offset.
* `Text.boundaryFrom`: The search for a boundary.
* `Text.LongestStart`: The longest start of a text within a number of bytes.

## Theorems

* `Text.isBoundary_iff`: The boundaries of a text are the sizes of its starts.
* `Text.isGreatest_boundaryFrom`: The search finds the largest boundary.
* `Text.cut_longestStart`: A cut text is the longest start.
* `Text.LongestStart.unique`: There is only one.
* `Text.LongestStart.boundaryFrom_eq`: The search finds where the text has been cut.
* `Text.cut_cut`: Cutting to more before does not change a cut.
* `Text.cut_eq_self`: A text that fits is not cut.
-/

namespace HostLayer

namespace Text

/-- A text can be cut at an offset: it is the end, or a character starts there. -/
def isBoundary (s : String) (i : Nat) : Bool :=
  String.Pos.Raw.isValid s ⟨i⟩

/-- The boundary at an offset or the first one on the way down from there, unless the
    way leads below zero. -/
def boundaryFrom (s : String) : Nat → Option Nat
  | 0 => if isBoundary s 0 then some 0 else none
  | i + 1 => if isBoundary s (i + 1) then some (i + 1) else boundaryFrom s i

/-- The longest start of a text that ends with a whole character and has at most
    `limit` bytes. -/
structure LongestStart (limit : Nat) (s t : String) : Prop where
  /-- It has the first bytes of the text. -/
  bytes_eq : bytes t = (bytes s).take t.utf8ByteSize
  /-- It ends at the largest boundary within the limit. -/
  isGreatest : IsGreatest {i | isBoundary s i = true ∧ i ≤ limit} t.utf8ByteSize

section Boundaries

variable {s : String} {i : Nat}

/-- The boundaries of a text are the sizes of its starts. -/
theorem isBoundary_iff : isBoundary s i = true ↔ ∃ p, p <+: s.toList ∧ size p = i := by
  rw [isBoundary, String.Pos.Raw.isValid_eq_true_iff, String.Pos.Raw.isValid_iff_exists_take_toList]
  constructor
  · rintro ⟨n, hn⟩
    refine ⟨s.toList.take n, List.take_prefix n _, ?_⟩
    rw [← size_toList, String.toList_ofList] at hn
    exact hn.symm
  · rintro ⟨p, hp, rfl⟩
    refine ⟨p.length, ?_⟩
    rw [← List.prefix_iff_eq_take.mp hp, ← size_toList, String.toList_ofList]

theorem isBoundary_zero (s : String) : isBoundary s 0 = true :=
  isBoundary_iff.mpr ⟨[], List.nil_prefix, rfl⟩

theorem size_le_of_isStart {p cs : List Char} (h : p <+: cs) : size p ≤ size cs := by
  rcases h with ⟨rest, rfl⟩
  rw [size_append]
  exact Nat.le_add_right _ _

theorem le_of_isBoundary (h : isBoundary s i = true) : i ≤ s.utf8ByteSize := by
  rcases isBoundary_iff.mp h with ⟨p, hp, rfl⟩
  rw [← size_toList]
  exact size_le_of_isStart hp

end Boundaries

/-- The search ends at the largest boundary on its way, since 0 is a boundary. -/
theorem isGreatest_boundaryFrom (s : String) (i : Nat) :
    ∃ j, boundaryFrom s i = some j ∧ IsGreatest {k | isBoundary s k = true ∧ k ≤ i} j := by
  induction i with
  | zero =>
      refine ⟨0, ?_, ⟨isBoundary_zero s, Nat.le_refl 0⟩, fun k hk => hk.2⟩
      rw [boundaryFrom, if_pos (isBoundary_zero s)]
  | succ i ih =>
      rw [boundaryFrom]
      by_cases h : isBoundary s (i + 1) = true
      · rw [if_pos h]
        exact ⟨i + 1, rfl, ⟨h, Nat.le_refl _⟩, fun k hk => hk.2⟩
      · rw [if_neg h]
        rcases ih with ⟨j, hj, ⟨hmem, hle⟩, hub⟩
        refine ⟨j, hj, ⟨hmem, Nat.le_succ_of_le hle⟩, fun k hk => hub ⟨hk.1, ?_⟩⟩
        have hne : k ≠ i + 1 := fun heq => h (heq ▸ hk.1)
        have hk' := hk.2
        omega

/-- Of all starts that fit, a cut text has all others as starts. -/
theorem isStart_fit {limit : Nat} {p cs : List Char} (hp : p <+: cs) (hle : size p ≤ limit) :
    p <+: fit limit cs := by
  induction cs generalizing limit p with
  | nil => rwa [fit]
  | cons c cs ih =>
      rcases p with _ | ⟨d, p⟩
      · exact List.nil_prefix
      · rcases List.cons_prefix_cons.mp hp with ⟨rfl, hrest⟩
        rw [size] at hle
        rw [fit, if_pos (by omega)]
        exact List.cons_prefix_cons.mpr ⟨rfl, ih hrest (by omega)⟩

theorem toList_cut (limit : Nat) (s : String) : (cut limit s).toList = fit limit s.toList :=
  String.toList_ofList

/-- A cut text is the longest start. -/
theorem cut_longestStart (limit : Nat) (s : String) : LongestStart limit s (cut limit s) := by
  have hsize : (cut limit s).utf8ByteSize = size (fit limit s.toList) := by
    rw [← size_toList, toList_cut]
  refine ⟨?_, ⟨?_, ?_⟩, ?_⟩
  · rcases fit_isStart limit s.toList with ⟨rest, hrest⟩
    rw [hsize, bytes, toList_cut, bytes, ← hrest, utf8_append, hrest, ← length_utf8,
      List.take_left]
  · exact isBoundary_iff.mpr ⟨_, fit_isStart limit s.toList, hsize.symm⟩
  · rw [hsize]
    exact size_fit_le limit s.toList
  · rintro i ⟨hi, hle⟩
    rcases isBoundary_iff.mp hi with ⟨p, hp, rfl⟩
    rw [hsize]
    exact size_le_of_isStart (isStart_fit hp hle)

namespace LongestStart

variable {limit : Nat} {s t u : String}

/-- There is only one longest start. -/
theorem unique (ht : LongestStart limit s t) (hu : LongestStart limit s u) : t = u := by
  refine bytes_injective ?_
  rw [ht.bytes_eq, hu.bytes_eq, ht.isGreatest.unique hu.isGreatest]

/-- The search from the limit, or from the end of a shorter text, finds where the text
    has been cut. -/
theorem boundaryFrom_eq (ht : LongestStart limit s t) :
    boundaryFrom s (min s.utf8ByteSize limit) = some t.utf8ByteSize := by
  rcases isGreatest_boundaryFrom s (min s.utf8ByteSize limit) with ⟨j, hj, hgreatest⟩
  have hset : {k | isBoundary s k = true ∧ k ≤ min s.utf8ByteSize limit}
      = {k | isBoundary s k = true ∧ k ≤ limit} := by
    ext k
    exact ⟨fun hk => ⟨hk.1, Nat.le_trans hk.2 (Nat.min_le_right _ _)⟩,
      fun hk => ⟨hk.1, Nat.le_min.mpr ⟨le_of_isBoundary hk.1, hk.2⟩⟩⟩
  rw [hset] at hgreatest
  rw [hj, hgreatest.unique ht.isGreatest]

end LongestStart

/-- Cutting to more and then to less is cutting to less. -/
theorem cut_cut {small large : Nat} (h : small ≤ large) (s : String) :
    cut small (cut large s) = cut small s := by
  rw [cut, toList_cut, fit_fit h, ← cut]

theorem utf8ByteSize_cut_le (limit : Nat) (s : String) : (cut limit s).utf8ByteSize ≤ limit :=
  (cut_longestStart limit s).isGreatest.1.2

/-- A text that fits is not cut. -/
theorem cut_eq_self {limit : Nat} {s : String} (h : s.utf8ByteSize ≤ limit) : cut limit s = s := by
  rw [← size_toList] at h
  have hall : s.toList <+: fit limit s.toList := isStart_fit (List.prefix_refl s.toList) h
  rw [cut, (fit_isStart limit s.toList).eq_of_length_le hall.length_le, String.ofList_toList]

end Text

end HostLayer
