import HostLayer.Proofs.Trace.Spread
import Mathlib.Algebra.BigOperators.Ring.Finset
import Mathlib.Algebra.Order.Floor.Semifield
import Mathlib.Data.List.Perm.Basic
import Mathlib.Data.Rat.Floor

/-!
# Exact Summaries

What the statistics of a list of samples are, told without the way they are
computed.

The mean is cut to a whole number before deviations are taken from it. The cut
does no harm to what one expects of statistics: the order of the samples does not
matter, since sums and maxima do not depend on it, and neither does a constant
that is added to all samples. A constant is a whole number of means, so that the
cut mean grows by exactly as much as every sample and all deviations stay as
they are. Whether the sums fit their words is not affected either, so that
the statements below are equations between answers, with and without statistics.

What is not exact is the root. It is taken by a unit that rounds, but the number of
which it is taken is the floor of the exact mean of the squares, and the unit has
that number as it is unless it has more bits than the unit keeps.

## Main definitions

* `Stats.exactMean`, `Stats.meanSquare`: Means that are not cut.
* `Stats.Summarizes`: What the three numbers say about the samples.

## Theorems

* `Stats.largestDeviation_isGreatest`: The largest deviation is the maximum.
* `Stats.ofSamples?_eq_ite`: The statistics of samples in one formula.
* `Stats.ofSamples?_perm`: They do not depend on the order.
* `Stats.ofSamples?_add`: A constant added to all samples is added to the mean.
* `Stats.summary_exact`: All of it, for samples that are words.
-/

namespace HostLayer

namespace Numeric

/-- The unit has a number with few bits as it is. -/
theorem roundTo_eq_self {n : Nat} (h : n < 2 ^ significand) : roundTo n = n := by
  have hlog : n.log2 + 1 - significand = 0 := by
    rcases Nat.eq_zero_or_pos n with rfl | hn
    · rfl
    · have hlt := (Nat.log2_lt (Nat.ne_of_gt hn)).mpr h
      omega
  simp only [roundTo, hlog, Nat.shiftLeft_zero, divideNearest, Nat.div_one, Nat.mod_one,
    Nat.mul_zero, Nat.lt_one_iff, if_true]

end Numeric

namespace Stats

/-- The mean of some numbers. -/
def exactMean (qs : List ℚ) : ℚ := qs.sum / qs.length

/-- The mean of the squared distances from `a`. -/
def meanSquare (a : Nat) (ws : List UInt64) : ℚ :=
  exactMean (ws.map fun w : UInt64 => ((w.toNat : ℚ) - a) ^ 2)

/-- What the three numbers say about the samples. -/
structure Summarizes (ws : List UInt64) (s : Stats) : Prop where
  /-- The first one is the floor of the mean. -/
  avg_eq : s.avg = ⌊exactMean (ws.map fun w : UInt64 => (w.toNat : ℚ))⌋₊
  /-- The last one is the maximum of the distances from it. -/
  maxJitter_isGreatest : IsGreatest {d : ℤ | ∃ w ∈ ws, |(w.toNat : ℤ) - s.avg| = d} s.maxJitter
  /-- The second one is the root of the floor of the mean of their squares. -/
  avgJitter_eq : s.avgJitter = Numeric.roundedRoot ⌊meanSquare s.avg ws⌋₊
  /-- The root is taken of that number itself, if the unit has it. -/
  avgJitter_eq_nearestRoot : ⌊meanSquare s.avg ws⌋₊ < 2 ^ Numeric.significand →
    s.avgJitter = Numeric.nearestRoot ⌊meanSquare s.avg ws⌋₊

/-- A mean that is cut is the floor of the mean. -/
theorem floor_exactMean (xs : List Nat) :
    ⌊exactMean (xs.map fun x : Nat => (x : ℚ))⌋₊ = total xs / xs.length := by
  have hsum : (xs.map fun x : Nat => (x : ℚ)).sum = ((total xs : Nat) : ℚ) := by
    rw [total_eq_sum, Nat.cast_list_sum]
  rw [exactMean, hsum, List.length_map, Nat.floor_div_eq_div]

theorem abs_sub_eq_deviation (a x : Nat) : |(x : ℤ) - a| = deviation a x := by
  unfold deviation
  rcases Nat.le_total a x with h | h
  · rw [abs_of_nonneg (by omega)]
    omega
  · rw [abs_of_nonpos (by omega)]
    omega

theorem deviation_sq_rat (a x : Nat) :
    ((deviation a x * deviation a x : Nat) : ℚ) = ((x : ℚ) - a) ^ 2 := by
  have hint := deviation_sq a x
  rw [pow_two]
  exact_mod_cast hint

theorem length_squares (a : Nat) (xs : List Nat) : (squares a xs).length = xs.length :=
  List.length_map ..

/-- The mean of the squares, cut, is the floor of the exact one. -/
theorem floor_meanSquare (a : Nat) (ws : List UInt64) :
    ⌊meanSquare a ws⌋₊ = total (squares a (words ws)) / (words ws).length := by
  have hmap : (ws.map fun w : UInt64 => ((w.toNat : ℚ) - a) ^ 2)
      = (squares a (words ws)).map fun x : Nat => (x : ℚ) := by
    rw [squares, words, List.map_map, List.map_map]
    exact List.map_congr_left (fun w _ => (deviation_sq_rat a w.toNat).symm)
  rw [meanSquare, hmap, floor_exactMean, length_squares]

-- The maximum that a fold starts from counts as one more deviation.
theorem foldl_largest (a : Nat) (xs : List Nat) (acc : Nat) :
    let r := xs.foldl (fun acc x => max acc (deviation a x)) acc
    (acc ≤ r ∧ ∀ x ∈ xs, deviation a x ≤ r) ∧ (r = acc ∨ ∃ x ∈ xs, deviation a x = r) := by
  induction xs generalizing acc with
  | nil => exact ⟨⟨Nat.le_refl acc, fun x hx => absurd hx List.not_mem_nil⟩, Or.inl rfl⟩
  | cons x xs ih =>
      rcases ih (max acc (deviation a x)) with ⟨⟨hacc, hle⟩, hat⟩
      refine ⟨⟨Nat.le_trans (Nat.le_max_left _ _) hacc, fun y hy => ?_⟩, ?_⟩
      · rcases List.mem_cons.mp hy with rfl | hy
        · exact Nat.le_trans (Nat.le_max_right _ _) hacc
        · exact hle y hy
      · rcases hat with heq | ⟨y, hy, heq⟩
        · rcases Nat.le_total acc (deviation a x) with h | h
          · exact Or.inr ⟨x, List.mem_cons_self, (heq.trans (Nat.max_eq_right h)).symm⟩
          · exact Or.inl (heq.trans (Nat.max_eq_left h))
        · exact Or.inr ⟨y, List.mem_cons_of_mem x hy, heq⟩

/-- The largest deviation is the maximum of the distances. -/
theorem largestDeviation_isGreatest (a : Nat) {xs : List Nat} (hne : xs ≠ []) :
    IsGreatest {d : ℤ | ∃ x ∈ xs, |(x : ℤ) - a| = d} (largestDeviation a xs) := by
  rcases foldl_largest a xs 0 with ⟨⟨_, hle⟩, hat⟩
  refine ⟨?_, ?_⟩
  · rcases hat with hzero | ⟨x, hx, heq⟩
    · -- All deviations are 0 then, that of the first sample too.
      rcases List.exists_mem_of_ne_nil xs hne with ⟨x, hx⟩
      refine ⟨x, hx, ?_⟩
      have hx0 : deviation a x = largestDeviation a xs :=
        Nat.le_antisymm (hle x hx) (by rw [largestDeviation, hzero]; exact Nat.zero_le _)
      rw [abs_sub_eq_deviation, hx0]
    · refine ⟨x, hx, ?_⟩
      rw [abs_sub_eq_deviation, heq]
      rfl
  · rintro d ⟨x, hx, rfl⟩
    rw [abs_sub_eq_deviation]
    exact Int.ofNat_le.mpr (hle x hx)

/-- The statistics of some samples in one formula. -/
theorem ofSamples?_eq_ite {xs : List Nat} (hne : xs ≠ []) : ofSamples? xs =
    if total xs < sumLimit ∧ total (squares (mean xs) xs) < sumLimit then
      some {
        avg := mean xs
        avgJitter :=
          min (Numeric.roundedRoot (total (squares (mean xs) xs) / xs.length)) (word64 - 1)
        maxJitter := largestDeviation (mean xs) xs }
    else none := by
  have hempty : xs.isEmpty = false := List.isEmpty_eq_false_iff.mpr hne
  by_cases hsums : total xs < sumLimit ∧ total (squares (mean xs) xs) < sumLimit
  · rw [if_pos hsums]
    simp only [ofSamples?, hempty, Bool.false_eq_true, if_false,
      show checkedSum xs = some (total xs) from if_pos hsums.1, Option.bind_eq_bind,
      Option.bind_some,
      show checkedSum (squares (total xs / xs.length) xs) = _ from if_pos hsums.2]
    rfl
  · rw [if_neg hsums]
    exact Option.not_isSome_iff_eq_none.mp (fun h => hsums ((isSome_iff_sums hne).mp h))

section Order

variable {xs ys : List Nat}

theorem total_perm (h : xs.Perm ys) : total xs = total ys := by
  rw [total_eq_sum, total_eq_sum, h.sum_nat]

theorem mean_perm (h : xs.Perm ys) : mean xs = mean ys := by
  rw [mean, mean, total_perm h, h.length_eq]

theorem largestDeviation_perm (a : Nat) (h : xs.Perm ys) :
    largestDeviation a xs = largestDeviation a ys := by
  have hcomm : RightCommutative fun acc x => max acc (deviation a x) :=
    ⟨fun acc x y => Nat.max_right_comm acc _ _⟩
  exact h.foldl_eq 0

/-- The order of the samples does not matter. -/
theorem ofSamples?_perm (h : xs.Perm ys) : ofSamples? xs = ofSamples? ys := by
  rcases eq_or_ne xs [] with rfl | hne
  · rw [List.nil_perm.mp h]
  · have hne' : ys ≠ [] := fun he => hne (List.perm_nil.mp (he ▸ h))
    have hsquares : total (squares (mean xs) xs) = total (squares (mean ys) ys) := by
      rw [mean_perm h]
      exact total_perm (h.map _)
    rw [ofSamples?_eq_ite hne, ofSamples?_eq_ite hne', hsquares, total_perm h, mean_perm h,
      h.length_eq, largestDeviation_perm _ h]

end Order

section Constant

variable (c : Nat) (xs : List Nat)

theorem total_add : total (xs.map (· + c)) = total xs + xs.length * c := by
  induction xs with
  | nil => simp [total]
  | cons x xs ih =>
      simp only [total, List.map_cons, List.foldr_cons, List.length_cons, Nat.add_mul,
        Nat.one_mul] at ih ⊢
      omega

/-- The mean grows by the constant, since the whole part of a number does. -/
theorem mean_add (hne : xs ≠ []) : mean (xs.map (· + c)) = mean xs + c := by
  rw [mean, mean, total_add, List.length_map, Nat.mul_comm,
    Nat.add_mul_div_right _ _ (List.length_pos_iff.mpr hne)]

theorem deviation_add (a x : Nat) : deviation (a + c) (x + c) = deviation a x := by
  unfold deviation
  omega

theorem squares_add (a : Nat) : squares (a + c) (xs.map (· + c)) = squares a xs := by
  unfold squares
  rw [List.map_map]
  exact List.map_congr_left (fun x _ => by rw [Function.comp_apply, deviation_add])

theorem largestDeviation_add (a : Nat) :
    largestDeviation (a + c) (xs.map (· + c)) = largestDeviation a xs := by
  unfold largestDeviation
  rw [List.foldl_map]
  simp only [deviation_add]

end Constant

/-- Words to which a constant is added that they have room for. -/
theorem words_add (c : UInt64) (ws : List UInt64) (h : ∀ w ∈ ws, w.toNat + c.toNat < word64) :
    words (ws.map (· + c)) = (words ws).map (· + c.toNat) := by
  simp only [words, List.map_map]
  refine List.map_congr_left (fun w hw => ?_)
  exact (UInt64.toNat_add w c).trans (Nat.mod_eq_of_lt (h w hw))

/-- A constant that is added to all samples is added to the mean, and the two other
    numbers stay. So does the answer that there are no statistics. -/
theorem ofSamples?_add (c : UInt64) (ws : List UInt64) (hne : ws ≠ [])
    (hlen : ws.length < word64) (h : ∀ w ∈ ws, w.toNat + c.toNat < word64) :
    ofSamples? (words (ws.map (· + c)))
      = (ofSamples? (words ws)).map fun s => { s with avg := s.avg + c.toNat } := by
  have hwords : words ws ≠ [] := fun he => hne (List.map_eq_nil_iff.mp he)
  have hshifted : (words ws).map (· + c.toNat) ≠ [] := fun he => hwords (List.map_eq_nil_iff.mp he)
  -- The sum fits before and after.
  have hsum := (contained ws hlen).sum_lt
  have hsum' := (contained (ws.map (· + c)) (by rw [List.length_map]; exact hlen)).sum_lt
  rw [words_add c ws h] at hsum' ⊢
  rw [ofSamples?_eq_ite hwords, ofSamples?_eq_ite hshifted, mean_add c.toNat _ hwords, squares_add,
    largestDeviation_add, List.length_map]
  by_cases hsquares : total (squares (mean (words ws)) (words ws)) < sumLimit
  · rw [if_pos ⟨hsum', hsquares⟩, if_pos ⟨hsum, hsquares⟩]
    rfl
  · rw [if_neg (fun hboth => hsquares hboth.2), if_neg (fun hboth => hsquares hboth.2)]
    rfl

/-- The root is cut to a word, which it fits. -/
theorem summarizes (ws : List UInt64) (hne : ws ≠ []) (hlen : ws.length < word64) (s : Stats)
    (h : ofSamples? (words ws) = some s) : Summarizes ws s := by
  have hwords : words ws ≠ [] := fun he => hne (List.map_eq_nil_iff.mp he)
  rw [ofSamples?_eq_ite hwords] at h
  split at h
  next =>
    rcases Option.some.inj h with rfl
    have hsquares := floor_meanSquare (mean (words ws)) ws
    have hroot : min (Numeric.roundedRoot
        (total (squares (mean (words ws)) (words ws)) / (words ws).length)) (word64 - 1) = _ :=
      Nat.min_eq_left (Nat.le_sub_one_of_lt (contained ws hlen).root_lt)
    refine ⟨?_, ?_, ?_, fun hfew => ?_⟩
    · rw [mean, ← floor_exactMean, words, List.map_map]
      rfl
    · have hgreatest := largestDeviation_isGreatest (mean (words ws)) hwords
      simpa only [words, List.mem_map, exists_exists_and_eq_and] using hgreatest
    · rw [hsquares]
      exact hroot
    · rw [hsquares] at hfew ⊢
      rw [hroot, Numeric.roundedRoot, Numeric.roundTo_eq_self hfew]
  next => exact absurd h (by simp only [reduceCtorEq, not_false_eq_true])

/-- The statistics of samples are exact wherever there are any, and they, or that there
    are none, depend on the samples only up to their order and, apart from the mean, up
    to a constant. -/
theorem summary_exact (ws : List UInt64) (hne : ws ≠ []) (hlen : ws.length < word64) :
    (∀ s, ofSamples? (words ws) = some s → Summarizes ws s) ∧
    (∀ ws', ws'.Perm ws → ofSamples? (words ws') = ofSamples? (words ws)) ∧
    ∀ c : UInt64, (∀ w ∈ ws, w.toNat + c.toNat < word64) →
      ofSamples? (words (ws.map (· + c)))
        = (ofSamples? (words ws)).map fun s => { s with avg := s.avg + c.toNat } :=
  ⟨summarizes ws hne hlen, fun _ hperm => ofSamples?_perm (hperm.map _),
    fun c => ofSamples?_add c ws hne hlen⟩

/-- Three samples whose mean is cut, in another order, and with a constant that takes
    the largest of them to the end of the word. -/
theorem summary_exact_end_of_word : ∃ s, ofSamples? (words [3, 10, 4]) = some s ∧
    s = ⟨5, 3, 5⟩ ∧ Summarizes [3, 10, 4] s ∧ ofSamples? (words [10, 4, 3]) = some s ∧
    ofSamples? (words [0xFFFFFFFFFFFFFFF8, 0xFFFFFFFFFFFFFFFF, 0xFFFFFFFFFFFFFFF9])
      = some ⟨0xFFFFFFFFFFFFFFFA, 3, 5⟩ := by
  rcases summary_exact [3, 10, 4] (by decide) (by decide) with ⟨hsums, hperm, hadd⟩
  have hstats : ofSamples? (words [3, 10, 4]) = some ⟨5, 3, 5⟩ := by decide
  refine ⟨_, hstats, rfl, hsums _ hstats, (hperm _ (by decide)).trans hstats, ?_⟩
  have hfits : ∀ w ∈ ([3, 10, 4] : List UInt64),
      w.toNat + (0xFFFFFFFFFFFFFFF5 : UInt64).toNat < word64 := by
    simp only [List.forall_mem_cons, List.not_mem_nil, false_imp_iff, implies_true, and_true]
    decide
  have hshifted := hadd 0xFFFFFFFFFFFFFFF5 hfits
  rw [hstats] at hshifted
  exact hshifted

end Stats

end HostLayer
