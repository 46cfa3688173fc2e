import HostLayer.Proofs.Numeric.Root
import HostLayer.Trace.Stats
import Mathlib.Algebra.Order.Ring.Int
import Mathlib.Tactic.Linarith
import Mathlib.Tactic.Ring
import Mathlib.Tactic.Zify

/-!
# The Spread of Samples

Whether the sums behind the statistics of a list fit their words.

The sum of the samples always does, since a list has fewer than `word64` of
them. The sum of the squared deviations is another matter. It is small for a
list whose samples are close to each other, and large for one that has half of
its samples at either end of a wide range. What is proved is a bound of it by
the spread: between `lo` and `hi` the product `(x - lo) * (hi - x)` is not
negative, so a squared deviation is at most a number that is linear in the
sample, and the sum of those is known from the mean.

The bound decides for which lengths all lists have statistics. Up to four
samples they do, and from five samples on the list with zeros in its first half
and the largest samples in its second one has none.

## Main definitions

* `Stats.words`: Samples that are words, as numbers.
* `Stats.Within`: All samples lie between two bounds.
* `Stats.extremes`: The list with half of its samples at either end.
* `Stats.Contained`: Everything but the sum of the squares fits its word.

## Theorems

* `Stats.four_mul_squares_le`: The sum of the squared deviations is bounded by
  the spread and the number of samples.
* `Stats.sumLimit_le_extremes`: The extreme list of five samples or more leaves
  the word.
* `Stats.contained`: Of every list of words, at most the sum of the squares does
  not fit.
* `Stats.isSome_of_within`: A list without much spread has statistics.
* `Stats.length_isSome_iff`: All lists of a length have statistics if the length
  is at most four.
-/

namespace HostLayer

namespace Stats

/-- Samples that are words, as numbers. -/
def words (xs : List UInt64) : List Nat := xs.map (·.toNat)

/-- All samples lie between `lo` and `hi`. -/
def Within (lo hi : Nat) (xs : List Nat) : Prop := ∀ x ∈ xs, lo ≤ x ∧ x ≤ hi

instance (lo hi : Nat) (xs : List Nat) : Decidable (Within lo hi xs) :=
  inferInstanceAs (Decidable (∀ x ∈ xs, _))

/-- The list of `n` samples with zeros in its first half and the largest words in
    its second one. -/
def extremes (n : Nat) : List UInt64 :=
  List.replicate (n / 2) 0 ++ List.replicate (n - n / 2) (UInt64.ofNat (word64 - 1))

/-- The sum of the samples, the mean, every deviation and its square fit their
    words, the root loses nothing when it is cut to a word, and there are
    statistics just if the sum of the squares fits as well. -/
structure Contained (xs : List Nat) : Prop where
  sum_lt : total xs < sumLimit
  mean_lt : mean xs < word64
  deviation_lt : ∀ x ∈ xs, deviation (mean xs) x < word64
  square_lt : ∀ q ∈ squares (mean xs) xs, q < sumLimit
  largest_lt : largestDeviation (mean xs) xs < word64
  root_lt : Numeric.roundedRoot (total (squares (mean xs) xs) / xs.length) < word64
  isSome_iff : (ofSamples? xs).isSome ↔ total (squares (mean xs) xs) < sumLimit

theorem total_eq_sum (xs : List Nat) : total xs = xs.sum := rfl

theorem Within.cons {lo hi x : Nat} {xs : List Nat} (h : Within lo hi (x :: xs)) :
    (lo ≤ x ∧ x ≤ hi) ∧ Within lo hi xs :=
  ⟨h x List.mem_cons_self, fun y hy => h y (List.mem_cons_of_mem x hy)⟩

theorem total_le_of_within {lo hi : Nat} : ∀ {xs : List Nat}, Within lo hi xs →
    xs.length * lo ≤ total xs ∧ total xs ≤ xs.length * hi := by
  intro xs
  induction xs with
  | nil => exact fun _ => by simp [total]
  | cons x xs ih =>
      intro h
      rcases h.cons with ⟨⟨hlo, hhi⟩, hrest⟩
      rcases ih hrest with ⟨hl, hr⟩
      simp only [total, List.foldr_cons, List.length_cons, Nat.add_mul, Nat.one_mul] at hl hr ⊢
      omega

/-- The mean lies between the bounds of the samples. -/
theorem mean_within {lo hi : Nat} {xs : List Nat} (hne : xs ≠ []) (h : Within lo hi xs) :
    lo ≤ mean xs ∧ mean xs ≤ hi := by
  have hpos := List.length_pos_iff.mpr hne
  rcases total_le_of_within h with ⟨hl, hr⟩
  unfold mean
  refine ⟨(Nat.le_div_iff_mul_le hpos).mpr ?_, Nat.div_le_of_le_mul hr⟩
  rw [Nat.mul_comm]
  exact hl

theorem deviation_le {a x M : Nat} (ha : a ≤ M) (hx : x ≤ M) : deviation a x ≤ M := by
  unfold deviation
  omega

-- A squared deviation, where subtraction is not cut.
theorem deviation_sq (a x : Nat) :
    ((deviation a x * deviation a x : Nat) : Int) = ((x : Int) - a) * (x - a) := by
  unfold deviation
  rcases Nat.le_total a x with h | h
  · rw [Nat.sub_eq_zero_of_le h, Nat.add_zero, Nat.cast_mul, Nat.cast_sub h]
  · rw [Nat.sub_eq_zero_of_le h, Nat.zero_add, Nat.cast_mul, Nat.cast_sub h]
    ring

/-- Between two bounds a squared deviation is at most a number that is linear in
    the sample, and so is the sum. -/
theorem squares_le_linear (a lo hi : Nat) : ∀ {xs : List Nat}, Within lo hi xs →
    (total (squares a xs) : Int) ≤
      ((lo : Int) + hi - 2 * a) * total xs + xs.length * ((a : Int) * a - lo * hi) := by
  intro xs
  induction xs with
  | nil => exact fun _ => by simp [total, squares]
  | cons x xs ih =>
      intro h
      rcases h.cons with ⟨⟨hlo, hhi⟩, hrest⟩
      have hone : ((deviation a x * deviation a x : Nat) : Int) ≤
          ((lo : Int) + hi - 2 * a) * x + ((a : Int) * a - lo * hi) := by
        have hprod : 0 ≤ ((x : Int) - lo) * (hi - x) :=
          mul_nonneg (by omega) (by omega)
        rw [deviation_sq]
        linarith
      have hall := ih hrest
      simp only [squares, total, List.map_cons, List.foldr_cons, List.length_cons] at hall hone ⊢
      push_cast at hall hone ⊢
      linarith

/-- The squared deviations from the mean of `n` samples in a range add up to at
    most `n` times a quarter of the squared range, apart from what the mean has
    been cut by. -/
theorem four_mul_squares_le {lo hi : Nat} {xs : List Nat} (hne : xs ≠ []) (h : Within lo hi xs) :
    4 * total (squares (mean xs) xs) ≤ xs.length * ((hi - lo) * (hi - lo) + 4) := by
  have hlin := squares_le_linear (mean xs) lo hi h
  rcases mean_within hne h with ⟨hlo, hhi⟩
  have hdiv : xs.length * mean xs + total xs % xs.length = total xs := Nat.div_add_mod _ _
  have hrest : total xs % xs.length < xs.length := Nat.mod_lt _ (List.length_pos_iff.mpr hne)
  generalize mean xs = a at *
  generalize total xs % xs.length = r at *
  -- Below and above the mean, the range has `p` and `q`.
  rcases Nat.exists_eq_add_of_le hlo with ⟨p, rfl⟩
  rcases Nat.exists_eq_add_of_le hhi with ⟨q, rfl⟩
  rw [← hdiv] at hlin
  generalize xs.length = n at *
  have hpq : (total (squares (lo + p) xs) : Int) ≤ n * (p * q) + ((q : Int) - p) * r := by
    refine le_trans hlin (le_of_eq ?_)
    push_cast
    ring
  have hcut : 4 * (((q : Int) - p) * r) ≤ n * (((q : Int) - p) * (q - p) + 4) := by
    rcases le_or_gt (q : Int) p with hle | hlt
    · have h1 : ((q : Int) - p) * r ≤ 0 := mul_nonpos_of_nonpos_of_nonneg (by omega) (by omega)
      have h2 : 0 ≤ (n : Int) * (((q : Int) - p) * (q - p) + 4) :=
        mul_nonneg (by omega) (by nlinarith)
      omega
    · have h1 : ((q : Int) - p) * r ≤ (q - p) * n :=
        mul_le_mul_of_nonneg_left (by omega) (by omega)
      have h2 : 0 ≤ (n : Int) * ((((q : Int) - p) - 2) * ((q - p) - 2)) :=
        mul_nonneg (by omega) (mul_self_nonneg _)
      linarith
  rw [show lo + p + q - lo = p + q by omega]
  zify
  linarith

/-- Half of the samples at either end of a range of `M` have a large sum of squared
    deviations, from whatever number they are taken. -/
theorem le_extreme_squares (a k m M : Nat) (hle : a ≤ M) :
    k * m * (M * M) ≤
      (k + m) * total (squares a (List.replicate k 0 ++ List.replicate m M)) := by
  rcases Nat.exists_eq_add_of_le hle with ⟨b, rfl⟩
  have hsum : total (squares a (List.replicate k 0 ++ List.replicate m (a + b)))
      = k * (a * a) + m * (b * b) := by
    rw [total_eq_sum]
    simp [squares, deviation]
  rw [hsum]
  zify
  have hsq : 0 ≤ ((k : Int) * a - m * b) * (k * a - m * b) := mul_self_nonneg _
  linarith

-- Six fifths of the square of the largest word do not fit.
theorem sumLimit_le (S : Nat) (h : 6 * ((word64 - 1) * (word64 - 1)) ≤ 5 * S) : sumLimit ≤ S := by
  unfold sumLimit word64 at *
  omega

-- The halves of a number from five on.
theorem six_mul_le_halves (n : Nat) (h : 5 ≤ n) : 6 * n ≤ 5 * (n / 2 * (n - n / 2)) := by
  obtain ⟨k, hk | hk⟩ : ∃ k, n = 2 * k ∨ n = 2 * k + 1 := ⟨n / 2, by omega⟩
  · rw [show n / 2 = k by omega, show n - k = k by omega, hk]
    nlinarith
  · rw [show n / 2 = k by omega, show n - k = k + 1 by omega, hk]
    nlinarith

theorem words_extremes (n : Nat) : words (extremes n)
    = List.replicate (n / 2) 0 ++ List.replicate (n - n / 2) (word64 - 1) := by
  simp only [words, extremes, List.map_append, List.map_replicate]
  rfl

theorem words_within (xs : List UInt64) : Within 0 (word64 - 1) (words xs) := by
  intro x hx
  rcases List.mem_map.mp hx with ⟨w, _, rfl⟩
  exact ⟨Nat.zero_le _, Nat.le_sub_one_of_lt w.toNat_lt⟩

theorem length_words (xs : List UInt64) : (words xs).length = xs.length := List.length_map ..

theorem length_extremes (n : Nat) : (extremes n).length = n := by
  simp only [extremes, List.length_append, List.length_replicate]
  omega

/-- From five samples on the squares of the extreme list do not fit. -/
theorem sumLimit_le_extremes (n : Nat) (h : 5 ≤ n) :
    sumLimit ≤ total (squares (mean (words (extremes n))) (words (extremes n))) := by
  have hne : words (extremes n) ≠ [] := List.ne_nil_of_length_pos
    (by rw [length_words, length_extremes]; omega)
  have hlarge := le_extreme_squares (mean (words (extremes n))) (n / 2) (n - n / 2) (word64 - 1)
    (mean_within hne (words_within (extremes n))).2
  rw [← words_extremes, show n / 2 + (n - n / 2) = n by omega] at hlarge
  refine sumLimit_le _ (Nat.le_of_mul_le_mul_left (c := n) ?_ (by omega))
  generalize total (squares _ _) = S at *
  calc n * (6 * ((word64 - 1) * (word64 - 1)))
      = 6 * n * ((word64 - 1) * (word64 - 1)) := by ring
    _ ≤ 5 * (n / 2 * (n - n / 2)) * ((word64 - 1) * (word64 - 1)) :=
        Nat.mul_le_mul_right _ (six_mul_le_halves n h)
    _ = 5 * (n / 2 * (n - n / 2) * ((word64 - 1) * (word64 - 1))) := by ring
    _ ≤ 5 * (n * S) := Nat.mul_le_mul_left 5 hlarge
    _ = n * (5 * S) := by ring

theorem largestDeviation_lt {a M : Nat} : ∀ {xs : List Nat} {acc : Nat}, acc < M →
    (∀ x ∈ xs, deviation a x < M) → xs.foldl (fun acc x => max acc (deviation a x)) acc < M := by
  intro xs
  induction xs with
  | nil => exact fun h _ => h
  | cons x xs ih =>
      intro acc hacc h
      exact ih (Nat.max_lt.mpr ⟨hacc, h x List.mem_cons_self⟩)
        (fun y hy => h y (List.mem_cons_of_mem x hy))

/-- Two sums decide whether there are statistics. -/
theorem isSome_iff_sums {xs : List Nat} (hne : xs ≠ []) : (ofSamples? xs).isSome ↔
    total xs < sumLimit ∧ total (squares (mean xs) xs) < sumLimit := by
  have hempty : xs.isEmpty = false := List.isEmpty_eq_false_iff.mpr hne
  simp only [ofSamples?, hempty, Bool.false_eq_true, if_false]
  by_cases hsum : total xs < sumLimit
  · rw [show checkedSum xs = some (total xs) from if_pos hsum]
    by_cases hsquares : total (squares (mean xs) xs) < sumLimit
    · rw [Option.bind_eq_bind, Option.bind_some,
        show checkedSum (squares (total xs / xs.length) xs) = _ from if_pos hsquares]
      exact ⟨fun _ => ⟨hsum, hsquares⟩, fun _ => rfl⟩
    · rw [Option.bind_eq_bind, Option.bind_some,
        show checkedSum (squares (total xs / xs.length) xs) = _ from if_neg hsquares]
      exact ⟨fun h => absurd h Bool.false_ne_true, fun h => absurd h.2 hsquares⟩
  · rw [show checkedSum xs = none from if_neg hsum]
    exact ⟨fun h => absurd h Bool.false_ne_true, fun h => absurd h.1 hsum⟩

/-- Of every list of words, at most the sum of the squares does not fit. -/
theorem contained (ws : List UInt64) (hlen : ws.length < word64) : Contained (words ws) := by
  by_cases hne : words ws = []
  · rw [hne]
    exact ⟨by decide, by decide, fun x hx => absurd hx List.not_mem_nil,
      fun q hq => absurd hq List.not_mem_nil, by decide, by decide, by decide⟩
  have hwithin := words_within ws
  have hpos := List.length_pos_iff.mpr hne
  have hmean := (mean_within hne hwithin).2
  have hdev : ∀ x ∈ words ws, deviation (mean (words ws)) x ≤ word64 - 1 :=
    fun x hx => deviation_le hmean (hwithin x hx).2
  have hword : ∀ d, d ≤ word64 - 1 → d < word64 := fun d hd => by
    unfold word64 at *
    omega
  have hsum : total (words ws) < sumLimit := by
    refine Nat.lt_of_le_of_lt (total_le_of_within hwithin).2 ?_
    rw [length_words]
    exact Nat.mul_lt_mul_of_lt_of_le hlen (Nat.sub_le _ _) (by decide)
  refine ⟨hsum, hword _ hmean, fun x hx => hword _ (hdev x hx), fun q hq => ?_,
    largestDeviation_lt (by decide) (fun x hx => hword _ (hdev x hx)), ?_,
    (isSome_iff_sums hne).trans (and_iff_right hsum)⟩
  · rcases List.mem_map.mp hq with ⟨x, hx, rfl⟩
    exact Nat.mul_lt_mul_of_lt_of_le (hword _ (hdev x hx)) (Nat.le_of_lt (hword _ (hdev x hx)))
      (by decide)
  · -- The mean of the squares is at most `2 ^ 126`.
    have hspread := four_mul_squares_le hne hwithin
    have hsquare : total (squares (mean (words ws)) (words ws)) / (words ws).length
        ≤ 2 ^ (2 * 63) := by
      refine Nat.div_le_of_le_mul (Nat.le_of_mul_le_mul_left (c := 4) ?_ (by decide))
      refine Nat.le_trans hspread ?_
      rw [show 4 * ((words ws).length * 2 ^ (2 * 63)) = (words ws).length * (4 * 2 ^ (2 * 63))
        by ring]
      exact Nat.mul_le_mul_left _ (by decide)
    exact Nat.lt_of_le_of_lt (Numeric.roundedRoot_le_two_pow _ 63 hsquare) (by decide)

/-- A list without much spread has statistics. -/
theorem isSome_of_within (ws : List UInt64) (hlen : ws.length < word64) (lo hi : Nat)
    (h : Within lo hi (words ws))
    (hspread : ws.length * ((hi - lo) * (hi - lo) + 4) < 4 * sumLimit) :
    (ofSamples? (words ws)).isSome := by
  by_cases hne : words ws = []
  · rw [hne]
    rfl
  · have hle := four_mul_squares_le hne h
    rw [length_words] at hle
    exact (contained ws hlen).isSome_iff.mpr
      (Nat.lt_of_mul_lt_mul_left (Nat.lt_of_le_of_lt hle hspread))

/-- Up to four samples always have statistics. -/
theorem isSome_of_length_le (ws : List UInt64) (h : ws.length ≤ 4) :
    (ofSamples? (words ws)).isSome :=
  isSome_of_within ws (Nat.lt_of_le_of_lt h (by decide)) 0 (word64 - 1) (words_within ws)
    (Nat.lt_of_le_of_lt (Nat.mul_le_mul_right _ h) (by decide))

theorem extremes_eq_none (n : Nat) (h : 5 ≤ n) : ofSamples? (words (extremes n)) = none := by
  refine Option.not_isSome_iff_eq_none.mp (fun hsome => ?_)
  have hne : words (extremes n) ≠ [] := List.ne_nil_of_length_pos
    (by rw [length_words, length_extremes]; omega)
  exact Nat.not_lt_of_le (sumLimit_le_extremes n h) ((isSome_iff_sums hne).mp hsome).2

/-- All lists of a length have statistics just if the length is at most four. -/
theorem length_isSome_iff (n : Nat) :
    (∀ ws : List UInt64, ws.length = n → (ofSamples? (words ws)).isSome) ↔ n ≤ 4 := by
  constructor
  · intro h
    by_contra hn
    have hsome := h (extremes n) (length_extremes n)
    rw [extremes_eq_none n (Nat.lt_of_not_le hn)] at hsome
    exact absurd hsome Bool.false_ne_true
  · exact fun hn ws hws => isSome_of_length_le ws (hws ▸ hn)

end Stats

end HostLayer
