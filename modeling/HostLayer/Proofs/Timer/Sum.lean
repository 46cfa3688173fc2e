import HostLayer.Timer

/-!
# Timer Sums

Sums of timers as sums of numbers.

A timer is a pair of words, and a normalized timer is also a number: `value` maps
the normalized timers one to one, and in order, to all numbers whose seconds fit a
word (`Normalized.ext`, `lt_iff`, `exists_value`). So it is enough to know the
number of a sum. Whatever the fields of the operands hold, a sum is normalized and
has the number that it should have, and it is there whenever such a timer is,
unless the words of the nanoseconds already overflow (`add?_eq_some_iff`). That
cannot happen to normalized timers, and then addition has the laws that it has for
numbers.

Where there is no sum the partial sums have to be compared. Two groupings of three
timers overflow at different places, but both do so just if the number of all
three has too many seconds, because no part is larger than the whole
(`add?_add?_eq_some_iff`).

## Main definitions

* `Timer.Exact`: A result that is right or missing.

## Theorems

* `Timer.Normalized.ext`, `Timer.exists_value`: Normalized timers are numbers.
* `Timer.lt_iff`, `Timer.compare_eq`: The order of the numbers.
* `Timer.ofParts?_eq_some_iff`, `Timer.ofParts?_eq_none_iff`: Seconds and
  nanoseconds.
* `Timer.add?_eq_some_iff`, `Timer.add?_eq_none_iff`: Sums of any timers.
* `Timer.add?_add?_eq_some_iff`, `Timer.add?_assoc`: Sums of three.
* `Timer.add?_lt`: Sums grow with their parts.
* `Timer.addition_exact`: What addition does, and its laws.
-/

namespace HostLayer

-- The words of a sum that fits.
theorem toNat_add_of_lt {a b : UInt64} (h : a.toNat + b.toNat < word64) :
    (a + b).toNat = a.toNat + b.toNat := by
  rw [UInt64.toNat_add]
  exact Nat.mod_eq_of_lt h

theorem checkedAdd_eq_some_iff (a b c : UInt64) :
    checkedAdd a b = some c ↔ c.toNat = a.toNat + b.toNat := by
  have hc : c.toNat < word64 := c.toNat_lt
  unfold checkedAdd
  by_cases h : a.toNat + b.toNat < word64
  · rw [if_pos h, Option.some.injEq, ← UInt64.toNat_inj, toNat_add_of_lt h]
    exact eq_comm
  · rw [if_neg h]
    simp only [reduceCtorEq, false_iff]
    omega

theorem checkedAdd_eq_none_iff (a b : UInt64) :
    checkedAdd a b = none ↔ word64 ≤ a.toNat + b.toNat := by
  unfold checkedAdd
  by_cases h : a.toNat + b.toNat < word64
  · simp only [if_pos h, reduceCtorEq, false_iff]
    omega
  · simp only [if_neg h, true_iff]
    omega

theorem checkedAdd_comm (a b : UInt64) : checkedAdd a b = checkedAdd b a := by
  refine Option.ext (fun c => ?_)
  rw [checkedAdd_eq_some_iff, checkedAdd_eq_some_iff, Nat.add_comm]

namespace Timer

/-- A normalized timer is known by its number. -/
theorem Normalized.ext {a b : Timer} (ha : a.Normalized) (hb : b.Normalized)
    (h : a.value = b.value) : a = b := by
  unfold Normalized nanosPerSecond at ha hb
  unfold value nanosPerSecond at h
  have hsec : a.sec.toNat = b.sec.toNat := by omega
  have hnsec : a.nsec.toNat = b.nsec.toNat := by omega
  cases a
  cases b
  rw [UInt64.toNat_inj] at hsec hnsec
  rw [Timer.mk.injEq]
  exact ⟨hsec, hnsec⟩

theorem Normalized.value_lt {t : Timer} (h : t.Normalized) :
    t.value < word64 * nanosPerSecond := by
  have hsec : t.sec.toNat < word64 := t.sec.toNat_lt
  unfold Normalized nanosPerSecond at h
  unfold value nanosPerSecond
  unfold word64 at hsec ⊢
  omega

/-- Every number whose seconds fit a word is a timer. -/
theorem exists_value (n : Nat) (h : n < word64 * nanosPerSecond) :
    ∃ t : Timer, t.Normalized ∧ t.value = n := by
  have hlt : n % nanosPerSecond < nanosPerSecond := Nat.mod_lt _ (by decide)
  have hsec : (UInt64.ofNat (n / nanosPerSecond)).toNat = n / nanosPerSecond := by
    rw [UInt64.toNat_ofNat']
    exact Nat.mod_eq_of_lt (Nat.div_lt_of_lt_mul (by rw [Nat.mul_comm]; exact h))
  have hnsec : (UInt64.ofNat (n % nanosPerSecond)).toNat = n % nanosPerSecond := by
    rw [UInt64.toNat_ofNat']
    exact Nat.mod_eq_of_lt (Nat.lt_trans hlt (by decide))
  refine ⟨⟨UInt64.ofNat (n / nanosPerSecond), UInt64.ofNat (n % nanosPerSecond)⟩, ?_, ?_⟩
  · unfold Normalized
    rw [hnsec]
    exact hlt
  · unfold value
    rw [hsec, hnsec]
    exact Nat.div_add_mod' n nanosPerSecond

/-- The order of the pairs is the order of the numbers. -/
theorem lt_iff (a b : Timer) (ha : a.Normalized) (hb : b.Normalized) :
    a.lt b = true ↔ a.value < b.value := by
  have heq : (a.sec == b.sec) = true ↔ a.sec.toNat = b.sec.toNat := by
    rw [beq_iff_eq, UInt64.toNat_inj]
  unfold Normalized nanosPerSecond at ha hb
  unfold lt value nanosPerSecond
  rw [Bool.or_eq_true, Bool.and_eq_true, heq, decide_eq_true_eq, decide_eq_true_eq,
    UInt64.lt_iff_toNat_lt, UInt64.lt_iff_toNat_lt]
  omega

/-- Timers compare as their numbers do. -/
theorem compare_eq (a b : Timer) (ha : a.Normalized) (hb : b.Normalized) :
    a.compare b = Ord.compare a.value b.value := by
  have hab := lt_iff a b ha hb
  have hba := lt_iff b a hb ha
  unfold compare
  rcases Nat.lt_trichotomy a.value b.value with h | h | h
  · rw [if_pos (hab.mpr h), Nat.compare_eq_lt.mpr h]
  · rw [if_neg (fun hlt => absurd (hab.mp hlt) (by omega)),
      if_neg (fun hlt => absurd (hba.mp hlt) (by omega)), Nat.compare_eq_eq.mpr h]
  · rw [if_neg (fun hlt => absurd (hab.mp hlt) (by omega)), if_pos (hba.mpr h),
      Nat.compare_eq_gt.mpr h]

/-- Seconds and nanoseconds make the timer with their number, if there is one. -/
theorem ofParts?_eq_some_iff (sec nsec : UInt64) (t : Timer) :
    ofParts? sec nsec = some t ↔
      t.Normalized ∧ t.value = sec.toNat * nanosPerSecond + nsec.toNat := by
  have hcarry : (nsec / second).toNat = nsec.toNat / nanosPerSecond := UInt64.toNat_div _ _
  have hrest : (nsec % second).toNat = nsec.toNat % nanosPerSecond := UInt64.toNat_mod _ _
  have hparts : ofParts? sec nsec = some t ↔
      t.sec.toNat = sec.toNat + nsec.toNat / nanosPerSecond ∧
        t.nsec.toNat = nsec.toNat % nanosPerSecond := by
    unfold ofParts?
    rw [Option.map_eq_some_iff, ← hcarry, ← hrest, ← checkedAdd_eq_some_iff, UInt64.toNat_inj]
    constructor
    · rintro ⟨s, hs, rfl⟩
      exact ⟨hs, rfl⟩
    · rintro ⟨hs, hn⟩
      exact ⟨t.sec, hs, by rw [← hn]⟩
  rw [hparts]
  unfold Normalized value nanosPerSecond
  omega

theorem ofParts?_eq_none_iff (sec nsec : UInt64) :
    ofParts? sec nsec = none ↔ word64 ≤ sec.toNat + nsec.toNat / nanosPerSecond := by
  unfold ofParts?
  rw [Option.map_eq_none_iff, checkedAdd_eq_none_iff,
    show (nsec / second).toNat = nsec.toNat / nanosPerSecond from UInt64.toNat_div _ _]

/-- A count of nanoseconds always makes a timer. -/
theorem ofParts?_zero (ns : UInt64) : ofParts? 0 ns = some (ofNanos ns) := by
  rw [ofParts?_eq_some_iff, value_ofNanos]
  exact ⟨ofNanos_nsec_lt ns, by rw [UInt64.toNat_zero, Nat.zero_mul, Nat.zero_add]⟩

-- A sum is normalized as a timer is that somebody builds.
theorem add?_eq_ofParts? (a b : Timer) :
    a.add? b = (checkedAdd a.nsec b.nsec).bind fun nsec =>
      (checkedAdd a.sec b.sec).bind fun sec => ofParts? sec nsec := by
  unfold add? ofParts?
  simp only [Option.bind_eq_bind, Option.pure_def, Option.map_eq_bind, Function.comp_def]

/-- The sum of two timers, whatever their fields hold, is the normalized timer
    with the sum of their numbers. It is there if such a timer is and if the
    nanoseconds fit a word before they are carried over. -/
theorem add?_eq_some_iff (a b t : Timer) :
    a.add? b = some t ↔ a.nsec.toNat + b.nsec.toNat < word64 ∧
      t.Normalized ∧ t.value = a.value + b.value := by
  rw [add?_eq_ofParts?]
  simp only [Option.bind_eq_some_iff, checkedAdd_eq_some_iff, ofParts?_eq_some_iff]
  constructor
  · rintro ⟨nsec, hn, sec, hs, hnorm, hvalue⟩
    have hword : nsec.toNat < word64 := nsec.toNat_lt
    refine ⟨by omega, hnorm, ?_⟩
    rw [hvalue, hn, hs]
    unfold value
    rw [Nat.add_mul]
    omega
  · rintro ⟨hword, hnorm, hvalue⟩
    have hlt := hnorm.value_lt
    rw [hvalue] at hlt
    unfold value nanosPerSecond at hlt
    have hsec : a.sec.toNat + b.sec.toNat < word64 := by
      unfold word64 at hlt ⊢
      omega
    refine ⟨a.nsec + b.nsec, toNat_add_of_lt hword, a.sec + b.sec,
      toNat_add_of_lt hsec, hnorm, ?_⟩
    rw [toNat_add_of_lt hword, toNat_add_of_lt hsec, hvalue]
    unfold value
    rw [Nat.add_mul]
    omega

/-- There is no sum if a word overflows: that of the nanoseconds, or that of the
    seconds with what is carried over. -/
theorem add?_eq_none_iff (a b : Timer) :
    a.add? b = none ↔ word64 ≤ a.nsec.toNat + b.nsec.toNat ∨
      word64 ≤ a.sec.toNat + b.sec.toNat + (a.nsec.toNat + b.nsec.toNat) / nanosPerSecond := by
  have hfits : a.value + b.value < word64 * nanosPerSecond ↔
      a.sec.toNat + b.sec.toNat + (a.nsec.toNat + b.nsec.toNat) / nanosPerSecond < word64 := by
    unfold value word64 nanosPerSecond
    omega
  constructor
  · intro hnone
    rcases Nat.lt_or_ge (a.nsec.toNat + b.nsec.toNat) word64 with hn | hn
    · refine Or.inr (Nat.le_of_not_lt fun hs => ?_)
      rcases exists_value _ (hfits.mpr hs) with ⟨t, hnorm, hvalue⟩
      have hsome := (add?_eq_some_iff a b t).mpr ⟨hn, hnorm, hvalue⟩
      rw [hnone] at hsome
      exact absurd hsome (by simp only [reduceCtorEq, not_false_eq_true])
    · exact Or.inl hn
  · intro hover
    refine Option.eq_none_iff_forall_not_mem.mpr (fun t ht => ?_)
    rcases (add?_eq_some_iff a b t).mp ht with ⟨hn, hnorm, hvalue⟩
    have hs := hfits.mp (by rw [← hvalue]; exact hnorm.value_lt)
    omega

theorem add?_comm (a b : Timer) : a.add? b = b.add? a := by
  rw [add?_eq_ofParts?, add?_eq_ofParts?, checkedAdd_comm a.nsec, checkedAdd_comm a.sec]

-- The nanoseconds of normalized timers always fit.
theorem Normalized.add?_eq_some_iff {a b : Timer} (ha : a.Normalized) (hb : b.Normalized)
    (t : Timer) : a.add? b = some t ↔ t.Normalized ∧ t.value = a.value + b.value := by
  rw [Timer.add?_eq_some_iff]
  refine and_iff_right ?_
  unfold Normalized nanosPerSecond at ha hb
  unfold word64
  omega

/-- The sum of three timers is the normalized timer with the sum of their numbers,
    if there is one. -/
theorem add?_add?_eq_some_iff (a b c t : Timer) (ha : a.Normalized) (hb : b.Normalized)
    (hc : c.Normalized) : (a.add? b).bind (fun s => s.add? c) = some t ↔
      t.Normalized ∧ t.value = a.value + b.value + c.value := by
  rw [Option.bind_eq_some_iff]
  constructor
  · rintro ⟨s, hs, ht⟩
    rcases (ha.add?_eq_some_iff hb s).mp hs with ⟨hnorm, hvalue⟩
    rw [← hvalue]
    exact (hnorm.add?_eq_some_iff hc t).mp ht
  · rintro ⟨hnorm, hvalue⟩
    -- The first two make a timer, as they are no more than all three.
    rcases exists_value (a.value + b.value)
      (Nat.lt_of_le_of_lt (by omega) hnorm.value_lt) with ⟨s, hs, hsum⟩
    exact ⟨s, (ha.add?_eq_some_iff hb s).mpr ⟨hs, hsum⟩,
      (hs.add?_eq_some_iff hc t).mpr ⟨hnorm, by rw [hvalue, hsum]⟩⟩

/-- Both groupings of three timers have the same sum, or neither has one. -/
theorem add?_assoc (a b c : Timer) (ha : a.Normalized) (hb : b.Normalized)
    (hc : c.Normalized) :
    (a.add? b).bind (fun s => s.add? c) = (b.add? c).bind (fun s => a.add? s) := by
  have hturn : (fun s => a.add? s) = fun s => s.add? a := funext fun s => add?_comm a s
  refine Option.ext (fun t => ?_)
  rw [hturn, add?_add?_eq_some_iff a b c t ha hb hc, add?_add?_eq_some_iff b c a t hb hc ha]
  have hsum : b.value + c.value + a.value = a.value + b.value + c.value := by omega
  rw [hsum]

/-- If the larger of two timers has a sum with a third one, so has the smaller, and
    its sum is smaller. -/
theorem add?_lt (a b c t : Timer) (ha : a.Normalized) (hb : b.Normalized) (hc : c.Normalized)
    (hlt : a.lt b = true) (h : b.add? c = some t) :
    ∃ s, a.add? c = some s ∧ s.lt t = true := by
  rcases (hb.add?_eq_some_iff hc t).mp h with ⟨hnorm, hvalue⟩
  have hvlt := (lt_iff a b ha hb).mp hlt
  rcases exists_value (a.value + c.value)
    (Nat.lt_trans (by omega) hnorm.value_lt) with ⟨s, hs, hsum⟩
  refine ⟨s, (ha.add?_eq_some_iff hc s).mpr ⟨hs, hsum⟩, (lt_iff s t hs hnorm).mpr ?_⟩
  omega

/-- A sum of normalized timers whose seconds fit a word is the sum of the
    numbers. -/
theorem add?_eq (a b : Timer) (ha : a.Normalized) (hb : b.Normalized)
    (h : a.value + b.value < word64 * nanosPerSecond) :
    ∃ t, a.add? b = some t ∧ t.Normalized ∧ t.value = a.value + b.value := by
  rcases exists_value _ h with ⟨t, ht⟩
  exact ⟨t, (ha.add?_eq_some_iff hb t).mpr ht, ht⟩

theorem addNanos?_eq (a : Timer) (ns : UInt64) (ha : a.Normalized)
    (h : a.value + ns.toNat < word64 * nanosPerSecond) :
    ∃ t, a.addNanos? ns = some t ∧ t.Normalized ∧ t.value = a.value + ns.toNat := by
  rw [← value_ofNanos ns] at h ⊢
  exact add?_eq a (ofNanos ns) ha (ofNanos_nsec_lt ns) h

/-- The result is missing just if there is an overflow, and else it is normalized
    and has the number `n`. -/
def Exact (result : Option Timer) (n : Nat) (overflow : Prop) : Prop :=
  (result = none ↔ overflow) ∧ ∀ t, result = some t → t.Normalized ∧ t.value = n

theorem add?_exact (a b : Timer) : Exact (a.add? b) (a.value + b.value)
    (word64 ≤ a.nsec.toNat + b.nsec.toNat ∨
      word64 ≤ a.sec.toNat + b.sec.toNat + (a.nsec.toNat + b.nsec.toNat) / nanosPerSecond) :=
  ⟨add?_eq_none_iff a b, fun t h => ((add?_eq_some_iff a b t).mp h).2⟩

theorem ofParts?_exact (sec nsec : UInt64) :
    Exact (ofParts? sec nsec) (sec.toNat * nanosPerSecond + nsec.toNat)
      (word64 ≤ sec.toNat + nsec.toNat / nanosPerSecond) :=
  ⟨ofParts?_eq_none_iff sec nsec, fun t => (ofParts?_eq_some_iff sec nsec t).mp⟩

-- The fields of the second timer are the two parts of the count.
theorem addNanos?_exact (a : Timer) (ns : UInt64) :
    Exact (a.addNanos? ns) (a.value + ns.toNat)
      (word64 ≤ a.nsec.toNat + ns.toNat % nanosPerSecond ∨
        word64 ≤ a.sec.toNat + ns.toNat / nanosPerSecond
          + (a.nsec.toNat + ns.toNat % nanosPerSecond) / nanosPerSecond) := by
  have h := add?_exact a (ofNanos ns)
  rw [value_ofNanos, show (ofNanos ns).sec.toNat = ns.toNat / nanosPerSecond from
    UInt64.toNat_div _ _, show (ofNanos ns).nsec.toNat = ns.toNat % nanosPerSecond from
    UInt64.toNat_mod _ _] at h
  exact h

theorem toNanos_ofNanos (ns : UInt64) : (ofNanos ns).toNanos = ns := by
  have hword : ns.toNat < word64 := ns.toNat_lt
  unfold toNanos
  rw [value_ofNanos, Nat.min_eq_left (by omega)]
  exact UInt64.ofNat_toNat

/-- Addition of timers is exact.

    A sum of two timers, a timer built from seconds and nanoseconds, and a timer to
    which nanoseconds are added are missing just if a word overflows, the words
    being those that the caller has filled in. Otherwise they are normalized and
    have the number that they should have. A count of nanoseconds is the timer that
    is built from it and can be had back.

    Normalized timers are known by their numbers and ordered as these are. Their
    addition is commutative and associative, also where there is no sum, and the sum
    with a smaller timer is there if the sum with a larger one is, and is smaller. -/
theorem addition_exact :
    (∀ a b : Timer, Exact (a.add? b) (a.value + b.value)
      (word64 ≤ a.nsec.toNat + b.nsec.toNat ∨
        word64 ≤ a.sec.toNat + b.sec.toNat
          + (a.nsec.toNat + b.nsec.toNat) / nanosPerSecond)) ∧
    (∀ sec nsec : UInt64, Exact (ofParts? sec nsec) (sec.toNat * nanosPerSecond + nsec.toNat)
      (word64 ≤ sec.toNat + nsec.toNat / nanosPerSecond)) ∧
    (∀ ns : UInt64, ofParts? 0 ns = some (ofNanos ns) ∧ (ofNanos ns).toNanos = ns ∧
      ∀ a : Timer, a.addNanos? ns = a.add? (ofNanos ns) ∧
        Exact (a.addNanos? ns) (a.value + ns.toNat)
          (word64 ≤ a.nsec.toNat + ns.toNat % nanosPerSecond ∨
            word64 ≤ a.sec.toNat + ns.toNat / nanosPerSecond
              + (a.nsec.toNat + ns.toNat % nanosPerSecond) / nanosPerSecond)) ∧
    ∀ a b c : Timer, a.Normalized → b.Normalized → c.Normalized →
      a.add? b = b.add? a ∧
      (a.add? b).bind (fun s => s.add? c) = (b.add? c).bind (fun s => a.add? s) ∧
      (a.lt b = true → ∀ t, b.add? c = some t ∨ c.add? b = some t →
        ∃ s, a.add? c = some s ∧ c.add? a = some s ∧ s.lt t = true) ∧
      (a.lt b = true ↔ a.value < b.value) ∧ (a = b ↔ a.value = b.value) ∧
      a.compare b = Ord.compare a.value b.value := by
  refine ⟨add?_exact, ofParts?_exact, fun ns => ⟨ofParts?_zero ns, toNanos_ofNanos ns,
    fun a => ⟨rfl, addNanos?_exact a ns⟩⟩, fun a b c ha hb hc => ?_⟩
  refine ⟨add?_comm a b, add?_assoc a b c ha hb hc, fun hlt t ht => ?_, lt_iff a b ha hb,
    ⟨congrArg value, ha.ext hb⟩, compare_eq a b ha hb⟩
  rw [add?_comm c b, or_self] at ht
  rcases add?_lt a b c t ha hb hc hlt ht with ⟨s, hs, hst⟩
  exact ⟨s, hs, (add?_comm c a).trans hs, hst⟩

-- The first two have a sum, which is the last timer that there is, and so have the
-- last two; all three have none, whichever way they are grouped. Nanoseconds that
-- are not normalized overflow where the number of the sum would fit.
theorem addition_exact_at_the_end :
    (⟨18446744073709551614, 999999999⟩ : Timer).add? ⟨1, 0⟩
      = some ⟨18446744073709551615, 999999999⟩ ∧
    ((⟨18446744073709551614, 999999999⟩ : Timer).add? ⟨1, 0⟩).bind (fun s => s.add? ⟨0, 1⟩)
      = none ∧
    ((⟨1, 0⟩ : Timer).add? ⟨0, 1⟩).bind
      (fun s => (⟨18446744073709551614, 999999999⟩ : Timer).add? s) = none ∧
    (⟨0, 18446744073709551615⟩ : Timer).add? ⟨0, 1⟩ = none := by
  have hlaws := addition_exact.2.2.2 ⟨18446744073709551614, 999999999⟩ ⟨1, 0⟩ ⟨0, 1⟩
    (by decide) (by decide) (by decide)
  have hover : ((⟨18446744073709551614, 999999999⟩ : Timer).add? ⟨1, 0⟩).bind
      (fun s => s.add? ⟨0, 1⟩) = none := by
    decide +kernel
  exact ⟨by decide +kernel, hover, hlaws.2.1.symm.trans hover,
    (addition_exact.1 ⟨0, 18446744073709551615⟩ ⟨0, 1⟩).1.mpr (Or.inl (by decide))⟩

end Timer

end HostLayer
