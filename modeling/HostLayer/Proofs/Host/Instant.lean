import HostLayer.Proofs.Host.Deadline
import HostLayer.Proofs.Timer.Sum

/-!
# Instants

Timers as numbers of nanoseconds, and what becomes of a deadline on its way to
the host.

A timer is a pair of words and is compared, added and subtracted as one. A
normalized timer is also a number, and for such timers all of these are what they
are for numbers, as long as nothing leaves its word (`Timer.lt_iff`,
`Timer.addNanos?_eq`, `Timer.toNat_distance`). A distance is cut to what a word
of nanoseconds holds on both of its sides, so no deadline is further away than
that.

The host takes the deadlines of some calls on the time of day only. A deadline on
the steady clock is moved there by what is left of it
(`Clock.wallDeadline?_monotonic`). As long as both clocks go on alike, the moved
deadline passes when the deadline does (`Clock.wallDeadline?_heeds`).

## Main definitions

* `Clock.InRange`: Times that the clocks of a host show.
* `Clock.Heeds`: A deadline for the host that passes at the right time.

## Theorems

* `Timer.expired_eq_timeout_iff`: A deadline lies ahead or has passed.
* `Timer.toNat_toNanos`, `Timer.toNat_distance`: Counts of nanoseconds, cut to a
  word.
* `Clock.value_now`, `Clock.expired_now_iff`: The time that a clock shows.
* `Clock.not_passed_of_not_countable`: The upper half of the words never comes.
* `Clock.wallDeadline?_monotonic`, `Clock.wallDeadline?_realtime`: The deadline
  for the host.
* `Clock.wallDeadline?_heeds`: The deadline for the host passes when the caller's
  does.
-/

namespace HostLayer

namespace Timer

/-- A deadline has passed unless it lies ahead. -/
theorem expired_eq_timeout_iff (d now : Timer) (hd : d.Normalized) (hnow : now.Normalized) :
    d.expired now = .error .timeout ↔ d.value ≤ now.value := by
  have hlt := lt_iff now d hnow hd
  unfold expired
  by_cases h : now.lt d = true
  · rw [if_pos h]
    have := hlt.mp h
    simp only [reduceCtorEq, false_iff, Nat.not_le]
    exact this
  · rw [if_neg h]
    simp only [true_iff]
    exact Nat.le_of_not_lt fun hv => h (hlt.mpr hv)

theorem toNat_toNanos (t : Timer) : t.toNanos.toNat = min t.value (word64 - 1) := by
  unfold toNanos
  rw [UInt64.toNat_ofNat']
  exact Nat.mod_eq_of_lt (Nat.lt_of_le_of_lt (Nat.min_le_right _ _) (by decide))

/-- A distance is the difference of two counts, none if the first is not the
    larger one. -/
theorem toNat_distance (t earlier : Timer) :
    (t.distance earlier).toNat = min t.value (word64 - 1) - earlier.value := by
  have hle : min t.value (word64 - 1) ≤ word64 - 1 := Nat.min_le_right _ _
  unfold distance
  rw [toNat_toNanos, toNat_toNanos, UInt64.toNat_ofNat', Nat.mod_eq_of_lt]
  · omega
  · exact Nat.lt_of_le_of_lt (Nat.le_trans (Nat.sub_le _ _) hle) (by decide)

end Timer

namespace HostTime

/-- The host counts the nanoseconds of a deadline in the lower half as its caller
    does, and it lies behind the zero of the clocks. -/
theorem nanos_ofTimer (d : Timer) (h : d.Countable) :
    (ofTimer d).nanos = d.value ∧ (ofTimer d).negative = false := by
  unfold Timer.Countable at h
  unfold ofTimer nanos negative Timer.value
  simp only [if_pos h, decide_eq_false_iff_not]
  omega

/-- Seconds in the upper half lie before the zero of the clocks. -/
theorem negative_ofTimer (d : Timer) (h : ¬d.Countable) : (ofTimer d).negative = true := by
  have hword : d.sec.toNat < word64 := d.sec.toNat_lt
  unfold Timer.Countable at h
  unfold ofTimer negative
  simp only [if_neg h, decide_eq_true_eq]
  omega

end HostTime

namespace Clock

/-- The clocks show times that a host shows.

    The steady one counts from the start of the host, and a word of nanoseconds
    is 584 years. The time of day is further than that from the last second that
    the host can count, 292 billion years ahead. -/
structure InRange (c : Clock) : Prop where
  steady : c.monotonic < word64 - 1
  wall : c.realtime + word64 ≤ word64 / 2 * nanosPerSecond

theorem inRange_iff (c : Clock) : c.InRange ↔
    c.monotonic < word64 - 1 ∧ c.realtime + word64 ≤ word64 / 2 * nanosPerSecond :=
  ⟨fun h => ⟨h.steady, h.wall⟩, fun h => ⟨h.1, h.2⟩⟩

instance (c : Clock) : Decidable c.InRange :=
  decidable_of_iff _ (inRange_iff c).symm

theorem InRange.nanos_lt {c : Clock} (h : c.InRange) (source : ClockSource) :
    c.nanos source < word64 * nanosPerSecond := by
  have hs := h.steady
  have hw := h.wall
  unfold word64 nanosPerSecond at *
  cases source with
  | monotonic => simp only [nanos]; omega
  | realtime => simp only [nanos]; omega

theorem now_normalized (c : Clock) (source : ClockSource) : (c.now source).Normalized := by
  have hlt : c.nanos source % nanosPerSecond < nanosPerSecond := Nat.mod_lt _ (by decide)
  unfold now Timer.Normalized
  rw [UInt64.toNat_ofNat', Nat.mod_eq_of_lt (Nat.lt_trans hlt (by decide))]
  exact hlt

/-- A clock shows its nanoseconds, if their seconds fit a word. -/
theorem value_now (c : Clock) (source : ClockSource)
    (h : c.nanos source < word64 * nanosPerSecond) : (c.now source).value = c.nanos source := by
  have hsec : c.nanos source / nanosPerSecond < 2 ^ 64 :=
    Nat.div_lt_of_lt_mul (by rw [Nat.mul_comm]; exact h)
  have hnsec : c.nanos source % nanosPerSecond < 2 ^ 64 :=
    Nat.lt_trans (Nat.mod_lt _ (by decide)) (by decide)
  unfold now Timer.value
  rw [UInt64.toNat_ofNat', UInt64.toNat_ofNat', Nat.mod_eq_of_lt hsec, Nat.mod_eq_of_lt hnsec]
  exact Nat.div_add_mod' _ _

/-- A caller who looks at the clock finds a deadline expired once it has
    passed. -/
theorem expired_now_iff (c : Clock) (source : ClockSource) (d : Timer) (hd : d.Normalized)
    (hc : c.InRange) : d.expired (c.now source) = .error .timeout ↔ Passed source d c := by
  rw [Timer.expired_eq_timeout_iff d _ hd (now_normalized c source),
    value_now c source (hc.nanos_lt source)]
  rfl

-- No deadline is later than the ends of the clocks.
theorem passed_advance {source : ClockSource} {d : Timer} {c : Clock} (h : Passed source d c)
    (n : Nat) : Passed source d (c.advance n) := by
  unfold Passed at h ⊢
  cases source with
  | monotonic => exact Nat.le_trans h (Nat.le_add_right _ n)
  | realtime => exact Nat.le_trans h (Nat.le_add_right _ n)

/-- No clock shows the seconds that the host counts as negative ones. -/
theorem not_passed_of_not_countable (source : ClockSource) (d : Timer) (c : Clock)
    (hc : c.InRange) (h : ¬d.Countable) : ¬Passed source d c := by
  have hs := hc.steady
  have hw := hc.wall
  unfold Timer.Countable at h
  unfold Passed Timer.value
  unfold word64 nanosPerSecond at *
  cases source with
  | monotonic => simp only [nanos]; omega
  | realtime => simp only [nanos]; omega

/-- A deadline on the steady clock, moved to the time of day: the host gets a
    normalized instant, as far ahead as the deadline is, but no further than the
    steady clock counts in a word. -/
theorem wallDeadline?_monotonic (c : Clock) (d : Timer) (hd : d.Normalized) (hc : c.InRange) :
    ∃ limit, c.wallDeadline? .monotonic d = some limit ∧ limit.nsec < nanosPerSecond ∧
      limit.negative = false ∧
      limit.nanos = (c.realtime + (min d.value (word64 - 1) - c.monotonic) : Nat) := by
  have hwall := hc.wall
  have hdist : (d.distance (c.now .monotonic)).toNat = min d.value (word64 - 1) - c.monotonic := by
    rw [Timer.toNat_distance, value_now c .monotonic (hc.nanos_lt .monotonic)]
    rfl
  have hle : min d.value (word64 - 1) ≤ word64 - 1 := Nat.min_le_right _ _
  have hnow : (c.now .realtime).value = c.realtime := value_now c .realtime (hc.nanos_lt .realtime)
  rcases Timer.addNanos?_eq (c.now .realtime) (d.distance (c.now .monotonic))
    (now_normalized c .realtime)
    (by rw [hnow, hdist]; unfold word64 nanosPerSecond at *; omega) with ⟨t, ht, hnorm, hvalue⟩
  have hcount : t.Countable := by
    rw [hnow, hdist] at hvalue
    unfold Timer.Countable
    unfold Timer.value at hvalue
    unfold word64 nanosPerSecond at *
    omega
  refine ⟨HostTime.ofTimer t, ?_, hnorm, (HostTime.nanos_ofTimer t hcount).2, ?_⟩
  · unfold wallDeadline?
    rw [if_pos hd]
    simp only [ht, Option.map_some]
  · rw [(HostTime.nanos_ofTimer t hcount).1, hvalue, hnow, hdist]

theorem wallDeadline?_realtime (c : Clock) (d : Timer) (hd : d.Normalized) :
    c.wallDeadline? .realtime d = some (HostTime.ofTimer d) := by
  unfold wallDeadline?
  rw [if_pos hd]

theorem wallDeadline?_of_not_normalized (c : Clock) (source : ClockSource) (d : Timer)
    (hd : ¬d.Normalized) : c.wallDeadline? source d = none :=
  if_neg hd

-- Only a normalized deadline gets to the host.
theorem normalized_of_wallDeadline? {c : Clock} {source : ClockSource} {d : Timer}
    {limit : HostTime} (h : c.wallDeadline? source d = some limit) : d.Normalized := by
  unfold wallDeadline? at h
  split at h
  next hd => exact hd
  next => exact absurd h (by simp only [reduceCtorEq, not_false_eq_true])

/-- A moved deadline passes when the steady clock has come to the deadline, as
    long as both clocks have gone on alike. -/
theorem reached_monotonic {c : Clock} {d : Timer} {limit : HostTime} (n : Nat)
    (h : limit.nanos = (c.realtime + (min d.value (word64 - 1) - c.monotonic) : Nat)) :
    limit.reached (c.advance n).realtime = true ↔
      min d.value (word64 - 1) ≤ (c.advance n).monotonic := by
  unfold HostTime.reached advance
  rw [h, decide_eq_true_eq]
  simp only []
  omega

/-- A deadline for the host that passes when the deadline `d` does, from the time
    `c` on, as long as both clocks go on alike. -/
structure Heeds (source : ClockSource) (d : Timer) (limit : HostTime) (c : Clock) : Prop where
  not_negative : limit.negative = false
  passes : ∀ n, (c.advance n).InRange →
    (limit.reached (c.advance n).realtime = true ↔ Passed source d (c.advance n))

theorem Heeds.advance {source : ClockSource} {d : Timer} {limit : HostTime} {c : Clock}
    (h : Heeds source d limit c) (n : Nat) : Heeds source d limit (c.advance n) := by
  refine ⟨h.not_negative, fun k hk => ?_⟩
  have hsum : (c.advance n).advance k = c.advance (n + k) := by
    simp only [Clock.advance, Nat.add_assoc]
  rw [hsum] at hk ⊢
  exact h.passes (n + k) hk

theorem Heeds.reached_iff {source : ClockSource} {d : Timer} {limit : HostTime} {c : Clock}
    (h : Heeds source d limit c) (hc : c.InRange) :
    limit.reached c.realtime = true ↔ Passed source d c :=
  h.passes 0 hc

/-- The deadline for the host heeds every deadline that is meant on the steady
    clock or lies in the lower half of the words. -/
theorem wallDeadline?_heeds (c : Clock) (source : ClockSource) (d : Timer) (hd : d.Normalized)
    (hc : c.InRange) (h : source = .monotonic ∨ d.Countable) :
    ∃ limit, c.wallDeadline? source d = some limit ∧ Heeds source d limit c := by
  cases source with
  | monotonic =>
      rcases wallDeadline?_monotonic c d hd hc with ⟨limit, hlimit, _, hneg, hnanos⟩
      refine ⟨limit, hlimit, hneg, fun n hn => ?_⟩
      have hsteady := hn.steady
      rw [reached_monotonic n hnanos]
      unfold Passed nanos
      simp only []
      omega
  | realtime =>
      have hcount : d.Countable := h.resolve_left (by decide)
      exact ⟨_, wallDeadline?_realtime c d hd, (HostTime.nanos_ofTimer d hcount).2,
        fun n _ => HostTime.reached_iff d _ hcount⟩

end Clock

end HostLayer
