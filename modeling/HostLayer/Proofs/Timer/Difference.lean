import HostLayer.Proofs.Host.Instant

/-!
# Timer Differences

How far a distance between two timers is the difference of their numbers.

Timers are compared and added as pairs of words, and a pair has room for numbers
of which a word of nanoseconds holds only the first billionth. A distance is a
word, so it has to be cut if it does not fit. But the two ends are cut, and not
their difference: a later end that lies beyond the last nanosecond of a word, which
is 584 years from the zero of the clock, counts as that nanosecond, even if the
earlier end lies close to it. So distances are too short there, and none is left
where both ends lie beyond.

Nothing of this concerns deadlines on a clock that has not come that far. What is
left of them may be cut, but something is left just until they have passed
(`distance_pos_iff_of_now`).

## Main definitions

* `Timer.span`: The difference of two numbers, cut to a word.

## Theorems

* `Timer.distance_eq_span_iff`: Where a distance is what it should be.
* `Timer.distance_le_span`: It is never more.
* `Timer.distance_pos_iff`, `Timer.distance_pos_agrees_iff`: Where something is
  left, and where that says which timer is the later one.
* `Timer.distance_pos_iff_of_now`: What is left of a deadline on a clock.
* `Timer.distance_addNanos?_iff`: Where a sum can be undone.
* `Timer.difference_exact_iff`: All of this.
* `Timer.distance_beyond_word`: Two timers without a distance.
-/

namespace HostLayer

namespace Timer

/-- The nanoseconds from `earlier` to `t`, as many of them as a word holds, and
    none if `earlier` is the later one. -/
def span (t earlier : Timer) : Nat :=
  min (word64 - 1) (t.value - earlier.value)

/-- A distance is what it should be if the later end fits a word, if it is counted
    from the zero of the clock, or if there is none. -/
theorem distance_eq_span_iff (t earlier : Timer) :
    (t.distance earlier).toNat = t.span earlier ↔
      t.value < word64 ∨ earlier.value = 0 ∨ t.value ≤ earlier.value := by
  rw [toNat_distance]
  unfold span word64
  omega

/-- A distance is never too long. -/
theorem distance_le_span (t earlier : Timer) :
    (t.distance earlier).toNat ≤ t.span earlier := by
  rw [toNat_distance]
  unfold span
  omega

/-- Something is left if the end is later than the beginning, and the beginning is
    earlier than the last nanosecond of a word. -/
theorem distance_pos_iff (t earlier : Timer) :
    0 < (t.distance earlier).toNat ↔
      earlier.value < t.value ∧ earlier.value < word64 - 1 := by
  rw [toNat_distance, Nat.sub_pos_iff_lt, Nat.lt_min]

theorem distance_pos_agrees_iff (t earlier : Timer) (ht : t.Normalized)
    (he : earlier.Normalized) :
    (0 < (t.distance earlier).toNat ↔ earlier.lt t = true) ↔
      t.value ≤ earlier.value ∨ earlier.value < word64 - 1 := by
  rw [distance_pos_iff, lt_iff earlier t he ht]
  omega

-- A deadline lies ahead just if the time is before it.
theorem expired_eq_ok_iff (deadline now : Timer) :
    deadline.expired now = .ok () ↔ now.lt deadline = true := by
  unfold expired
  by_cases h : now.lt deadline = true
  · rw [if_pos h]
    exact iff_of_true rfl h
  · rw [if_neg h]
    exact iff_of_false (by simp only [reduceCtorEq, not_false_eq_true]) h

/-- A sum can be undone if it fits a word of nanoseconds. -/
theorem distance_addNanos?_iff (b t : Timer) (ns : UInt64) (h : b.addNanos? ns = some t) :
    t.distance b = ns ↔ ns = 0 ∨ b.value + ns.toNat < word64 := by
  have hvalue : t.value = b.value + ns.toNat := ((addNanos?_exact b ns).2 t h).2
  have hword : ns.toNat < word64 := ns.toNat_lt
  rw [← UInt64.toNat_inj, ← UInt64.toNat_inj, toNat_distance, hvalue, UInt64.toNat_zero]
  unfold word64 at hword ⊢
  omega

/-- Until the clock has come to the last nanosecond of a word, something is left of
    a deadline just until it has passed. -/
theorem distance_pos_iff_of_now (c : Clock) (source : ClockSource) (deadline : Timer)
    (hd : deadline.Normalized) (hc : c.nanos source < word64 - 1) :
    0 < (deadline.remaining (c.now source)).toNat ↔
      deadline.expired (c.now source) = .ok () := by
  have hwords : word64 - 1 ≤ word64 * nanosPerSecond := by decide
  rw [expired_eq_ok_iff]
  refine (distance_pos_agrees_iff deadline (c.now source) hd
    (Clock.now_normalized c source)).mpr (Or.inr ?_)
  rw [Clock.value_now c source (Nat.lt_of_lt_of_le hc hwords)]
  exact hc

/-- Where the distance of two normalized timers is their difference.

    It is so if the later one fits a word of nanoseconds, or is not later, or if the
    other one is the zero of the clock; elsewhere the distance is too short. It is
    positive just if the one is later than the other, so that what is left of a
    deadline agrees with whether it has passed, unless the earlier one lies beyond
    the words. And nanoseconds that have been added are the distance to the sum if
    the sum fits a word, or if there are none. On a clock that has not come to the
    end of the words there are no exceptions for deadlines. -/
theorem difference_exact_iff (a b : Timer) (ha : a.Normalized) (hb : b.Normalized) :
    ((a.distance b).toNat = a.span b ↔
      a.value < word64 ∨ b.value = 0 ∨ a.value ≤ b.value) ∧
    (a.distance b).toNat ≤ a.span b ∧
    ((0 < (a.distance b).toNat ↔ b.lt a = true) ↔
      a.value ≤ b.value ∨ b.value < word64 - 1) ∧
    ((0 < (a.remaining b).toNat ↔ a.expired b = .ok ()) ↔
      a.value ≤ b.value ∨ b.value < word64 - 1) ∧
    (∀ ns t, b.addNanos? ns = some t →
      (t.distance b = ns ↔ ns = 0 ∨ b.value + ns.toNat < word64)) ∧
    ∀ (c : Clock) source, c.nanos source < word64 - 1 →
      (0 < (a.remaining (c.now source)).toNat ↔ a.expired (c.now source) = .ok ()) := by
  have hpos := distance_pos_agrees_iff a b ha hb
  refine ⟨distance_eq_span_iff a b, distance_le_span a b, hpos, ?_,
    fun ns t => distance_addNanos?_iff b t ns,
    fun c source => distance_pos_iff_of_now c source a ha⟩
  rw [expired_eq_ok_iff]
  exact hpos

-- The last nanosecond of a word, and the two before it.
theorem difference_exact_iff_last_word :
    ((⟨18446744073, 709551615⟩ : Timer).distance ⟨18446744073, 709551613⟩).toNat = 2 ∧
      (⟨18446744073, 709551615⟩ : Timer).expired ⟨18446744073, 709551613⟩ = .ok () ∧
      ∃ t, (⟨18446744073, 709551613⟩ : Timer).addNanos? 3 = some t ∧
        t.distance ⟨18446744073, 709551613⟩ ≠ 3 := by
  rcases difference_exact_iff ⟨18446744073, 709551615⟩ ⟨18446744073, 709551613⟩ (by decide)
    (by decide) with ⟨hspan, _, _, hleft, hsum, _⟩
  have htwo : ((⟨18446744073, 709551615⟩ : Timer).distance ⟨18446744073, 709551613⟩).toNat = 2 :=
    (hspan.mpr (Or.inl (by decide))).trans (by decide)
  refine ⟨htwo, (hleft.mpr (Or.inr (by decide))).mp ?_, ⟨18446744073, 709551616⟩,
    by decide +kernel, fun hthree => ?_⟩
  · unfold remaining
    rw [htwo]
    exact Nat.two_pos
  · exact absurd ((hsum 3 _ (by decide +kernel)).mp hthree) (by decide)

/-- Two deadlines a second apart, both beyond the last nanosecond of a word: nothing
    is left of the later one when the earlier one is due, although it lies ahead. -/
theorem distance_beyond_word :
    (⟨18446744075, 500000000⟩ : Timer).Normalized ∧
      (⟨18446744074, 500000000⟩ : Timer).Normalized ∧
      (⟨18446744074, 500000000⟩ : Timer).addNanos? 1000000000
        = some ⟨18446744075, 500000000⟩ ∧
      (⟨18446744075, 500000000⟩ : Timer).span ⟨18446744074, 500000000⟩ = 1000000000 ∧
      (⟨18446744074, 500000000⟩ : Timer).lt ⟨18446744075, 500000000⟩ = true ∧
      (⟨18446744075, 500000000⟩ : Timer).distance ⟨18446744074, 500000000⟩ = 0 ∧
      (⟨18446744075, 500000000⟩ : Timer).remaining ⟨18446744074, 500000000⟩ = 0 ∧
      (⟨18446744075, 500000000⟩ : Timer).expired ⟨18446744074, 500000000⟩ = .ok () := by
  refine ⟨by decide, by decide, by decide +kernel, by decide, by decide, by decide +kernel,
    by decide +kernel, ?_⟩
  rw [expired_eq_ok_iff]
  decide

end Timer

end HostLayer
