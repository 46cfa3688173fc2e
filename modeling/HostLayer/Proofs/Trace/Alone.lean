import HostLayer.Proofs.Trace.Complete

/-!
# Recording Alone

What a recorder holds that one thread after the other has used.

Without interference the `n`th stamp goes into the slot `n % count` of the
buffer `n / count % 2`, so a slot holds the youngest stamp of those that belong
there, and zero if there is none yet. The last `2 * count` stamps belong to
different slots, which is why a new stamp never destroys one of them.

## Main definitions

* `Recorder.record`: The recorder after a stamp has been recorded alone.
* `Recorder.recordAll`: The same for several stamps, one after another.
* `Recorder.Recorded`: What a recorder is like that has recorded some stamps.

## Theorems

* `Recorder.Recorded.record_run`: The call ends, and keeps that.
* `Recorder.recordAll_recorded`: What several calls make of a new recorder.
* `Recorder.Recorded.filled_block`, `Recorder.Recorded.filled_blank`: The buffer
  that is looked at holds the last complete block of stamps, or zeros.
-/

namespace HostLayer

namespace Recorder

/-- The recorder after the thread `c` has recorded the stamp `ns` and nobody has
    interfered. -/
def record (c : Caller) (clock : Clock) (r : Recorder) (ns : UInt64) : Recorder :=
  (runSteps (step c clock ns) steps r .looking []).state

/-- The recorder after stamps have been recorded one after another. -/
def recordAll (c : Caller) (clock : Clock) (r : Recorder) (stamps : List UInt64) : Recorder :=
  stamps.foldl (record c clock) r

/-- What a recorder is like that has recorded `stamps` one after another. -/
structure Recorded (count : Nat) (stamps : List UInt64) (r : Recorder) : Prop where
  positive : 0 < count
  limit : count < word32
  count_eq : r.count = count
  word_eq : unpack r.word = (stamps.length / count % 2, stamps.length % count)
  last_eq : r.last = stamps.getLast?.getD 0
  plain : r.filledMark.mutex.Plain
  free : r.filledMark.mutex.holder = none
  /-- A slot holds the youngest of its stamps. -/
  held : ∀ j ns, stamps[j]? = some ns → stamps.length ≤ j + 2 * count →
    r.slot (j / count % 2) (j % count) = ns
  /-- A slot without a stamp holds zero. -/
  blank : ∀ j, stamps.length ≤ j → j < 2 * count → r.slot (j / count % 2) (j % count) = 0

theorem create_ok (source : ClockSource) (count : Nat) (h : CountInRange count) :
    ∃ r, create source count = .ok r := by
  rcases BinarySemaphore.create_ok source SyncAttr.plain with ⟨mark, hmark⟩
  unfold create
  rw [if_pos h, hmark]
  exact ⟨_, rfl⟩

theorem create_recorded (source : ClockSource) (count : Nat) (r : Recorder)
    (h : create source count = .ok r) : Recorded count [] r := by
  rcases Recording.create_recorder source count r h with ⟨htwo, hlimit, m, hplain, hfree, rfl⟩
  refine ⟨Nat.lt_of_lt_of_le (by decide) htwo, hlimit, rfl, ?_, rfl, hplain, hfree,
    fun j ns hj => absurd hj (by simp only [List.getElem?_nil, reduceCtorEq, not_false_eq_true]),
    fun j _ _ => rfl⟩
  change unpack (pack 0 0) = (0 / count % 2, 0 % count)
  rw [unpack_pack 0 0 (by decide) (by decide), Nat.zero_div, Nat.zero_mod, Nat.zero_mod]

namespace Recorded

variable {count : Nat} {stamps : List UInt64} {r r' : Recorder}

/-- One more stamp in the slot of the next claim. -/
theorem store (h : Recorded count stamps r) (ns : UInt64) (hcount : r'.count = r.count)
    (hword : r'.word = advance r.count r.word) (hlast : r'.last = ns)
    (hplain : r'.filledMark.mutex.Plain) (hfree : r'.filledMark.mutex.holder = none)
    (hslot : r'.slot
      = (r.setSlot (stamps.length / count % 2) (stamps.length % count) ns).slot) :
    Recorded count (stamps ++ [ns]) r' := by
  have hlen : (stamps ++ [ns]).length = stamps.length + 1 := List.length_append
  -- Another slot is the one of a stamp that is in sight of the new one.
  have hother : ∀ j total, j ≠ stamps.length → j < total → stamps.length < total →
      total ≤ j + 2 * count → total ≤ stamps.length + 2 * count →
      r'.slot (j / count % 2) (j % count) = r.slot (j / count % 2) (j % count) := by
    intro j total hne hj hn hj' hn'
    rw [hslot]
    refine if_neg (fun hsame => hne ?_)
    exact slot_inj count j stamps.length total hj hn hj' hn' hsame.1 hsame.2
  refine ⟨h.positive, h.limit, hcount.trans h.count_eq, ?_, ?_, hplain, hfree,
    fun j s hj hsight => ?_, fun j hj hlt => ?_⟩
  · rw [hword, h.count_eq, hlen]
    exact unpack_advance count stamps.length r.word h.positive h.limit h.word_eq
  · rw [hlast, List.getLast?_concat]
    rfl
  · rw [hlen] at hsight
    by_cases hlt : j < stamps.length
    · rw [List.getElem?_append_left hlt] at hj
      rw [hother j (stamps.length + 1) (Nat.ne_of_lt hlt) (by omega) (by omega) hsight (by
        have := h.positive
        omega)]
      exact h.held j s hj (by omega)
    · have hend := (List.getElem?_eq_some_iff.mp hj).1
      rw [hlen] at hend
      obtain rfl : j = stamps.length := by omega
      rw [List.getElem?_concat_length, Option.some.injEq] at hj
      rw [hslot, ← hj]
      exact if_pos ⟨rfl, rfl⟩
  · rw [hlen] at hj
    rw [hother j (2 * count) (by omega) hlt (by omega) (by omega) (by omega)]
    exact h.blank j (by omega) hlt

/-- The call ends without a wait, and the stamp is recorded. The mark is set if the
    stamp has filled the buffer. -/
theorem record_run (h : Recorded count stamps r) (c : Caller) (clock : Clock) (ns : UInt64) :
    (runSteps (step c clock ns) steps r .looking []).outcome = .inr () ∧
      Recorded count (stamps ++ [ns]) (r.record c clock ns) ∧
      (r.record c clock ns).filledMark.condition.clock = r.filledMark.condition.clock ∧
      (r.record c clock ns).filledMark.flag
        = (r.filledMark.flag || stamps.length % count + 1 == count) := by
  have hunlock := (h.plain.taken c.thread).unlock_holder c.thread rfl
  unfold record
  by_cases hi : stamps.length % count + 1 = r.count
  · -- The stamp fills the buffer, and the mark is set.
    have hfull : (stamps.length % count + 1 == count) = true := beq_iff_eq.mpr (hi.trans h.count_eq)
    simp only [steps, runSteps, step, if_true, h.word_eq, setSlot, hi, withMark,
      BinarySemaphore.step, h.plain.lock_free c h.free, Step.lift, hunlock, true_and]
    refine ⟨h.store ns rfl rfl rfl (h.plain.taken c.thread).freed rfl rfl, rfl, ?_⟩
    rw [← hi, hfull, Bool.or_true]
  · have hroom : (stamps.length % count + 1 == count) = false := by
      rw [beq_eq_false_iff_ne]
      exact fun hc => hi (hc.trans h.count_eq.symm)
    simp only [steps, runSteps, step, if_true, h.word_eq, setSlot, hi, if_false, true_and]
    exact ⟨h.store ns rfl rfl rfl h.plain h.free rfl, by rw [hroom, Bool.or_false]⟩

theorem append (h : Recorded count stamps r) (c : Caller) (clock : Clock) :
    ∀ more, Recorded count (stamps ++ more) (r.recordAll c clock more) := by
  intro more
  induction more generalizing stamps r with
  | nil =>
      rw [List.append_nil]
      exact h
  | cons ns rest ih =>
      have hrest := ih (h.record_run c clock ns).2.1
      rw [List.append_assoc] at hrest
      exact hrest

/-- With a block that is complete, the buffer that is looked at holds the last one. -/
theorem filled_block (h : Recorded count stamps r) (k : Nat) (hk : stamps.length / count = k + 1) :
    r.filled = (stamps.drop (k * count)).take count := by
  have hle : (k + 1) * count ≤ stamps.length := by
    rw [← hk]
    exact Nat.div_mul_le_self _ _
  have hlt : stamps.length < (k + 2) * count := by
    rw [← Nat.div_lt_iff_lt_mul h.positive, hk]
    exact Nat.lt_succ_self _
  rw [Nat.add_mul] at hle hlt
  have hbuffer : other (unpack r.word).1 = k % 2 := by
    rw [h.word_eq, hk]
    unfold other
    simp only []
    omega
  refine List.ext_getElem? (fun i => ?_)
  unfold filled
  rw [hbuffer, h.count_eq, List.getElem?_map, List.getElem?_take, List.getElem?_drop]
  by_cases hi : i < count
  · have hstamp := List.getElem?_eq_getElem (l := stamps) (i := k * count + i) (by omega)
    have hdiv : (k * count + i) / count = k := by
      rw [Nat.mul_comm, Nat.mul_add_div h.positive, Nat.div_eq_of_lt hi, Nat.add_zero]
    have hmod : (k * count + i) % count = i := by
      rw [Nat.mul_comm, Nat.mul_add_mod, Nat.mod_eq_of_lt hi]
    have hheld := h.held _ _ hstamp (by omega)
    rw [hdiv, hmod] at hheld
    rw [if_pos hi, List.getElem?_range hi, Option.map_some, hheld, hstamp]
  · rw [if_neg hi, List.getElem?_eq_none (by rw [List.length_range]; omega), Option.map_none]

/-- Without a complete block it holds zeros. -/
theorem filled_blank (h : Recorded count stamps r) (hlt : stamps.length < count) :
    r.filled = List.replicate count 0 := by
  have hbuffer : other (unpack r.word).1 = 1 := by
    rw [h.word_eq, Nat.div_eq_of_lt hlt]
    rfl
  refine List.eq_replicate_iff.mpr ⟨?_, fun ns hns => ?_⟩
  · rw [filled, List.length_map, List.length_range, h.count_eq]
  · rw [filled, hbuffer, h.count_eq] at hns
    rcases List.mem_map.mp hns with ⟨i, hi, rfl⟩
    have hi' := List.mem_range.mp hi
    have hblank := h.blank (count + i) (by omega) (by omega)
    rw [Nat.add_div_left _ h.positive, Nat.div_eq_of_lt hi', Nat.add_mod_left,
      Nat.mod_eq_of_lt hi'] at hblank
    exact hblank

end Recorded

theorem recordAll_recorded (source : ClockSource) (count : Nat) (r : Recorder)
    (h : create source count = .ok r) (c : Caller) (clock : Clock) (stamps : List UInt64) :
    Recorded count stamps (r.recordAll c clock stamps) :=
  (create_recorded source count r h).append c clock stamps

end Recorder

end HostLayer
