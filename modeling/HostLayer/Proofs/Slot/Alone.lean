import HostLayer.Proofs.Rounds
import HostLayer.Proofs.Slot.Moves

/-!
# Slots Alone

A wait with a deadline while nobody else is at the slot.

The steps of the wait are made at times that go on in whatever way. A token that
is there is taken at once, whatever the deadline is, and the thread never sleeps.
If there is none, nobody will bring one: the wait is refused for its deadline, or
it ends when the host takes the deadline for passed, or the thread sleeps. In all
cases the slot is left as it was, less the token that has been taken.

## Main definitions

* `BinarySemaphore.Resting`: Nobody is at the slot.
* `BinarySemaphore.alone`: The steps of a call, made one after the other in time.
* `BinarySemaphore.Ends`, `BinarySemaphore.StaysAt`: A call that ends, and one that
  has to wait.

## Theorems

* `BinarySemaphore.ends_moved`, `BinarySemaphore.ends_slept`,
  `BinarySemaphore.ends_leaving`: A move of a call that ends, and its end.
* `BinarySemaphore.staysAt_moved`, `BinarySemaphore.staysAt_stuck`: The same for a
  call that has to wait.
* `BinarySemaphore.Resting.wait_full`: There is a token.
* `BinarySemaphore.Resting.wait_rejected`, `BinarySemaphore.Resting.wait_late`,
  `BinarySemaphore.Resting.wait_sleeps`: There is none.
-/

namespace HostLayer

namespace BinarySemaphore

/-- Nobody is at the slot, which measures waits on the clock `source` and holds a
    token if `flag` says so. -/
structure Resting (source : ClockSource) (flag : Bool) (s : BinarySemaphore) : Prop where
  plain : s.mutex.Plain
  free : s.mutex.holder = none
  clock_eq : s.condition.clock = source
  flag_eq : s.flag = flag

/-- The call `use` of the thread `c`, whose `n`th step is made at the time
    `times n`. -/
def alone (c : Caller) (use : Use) (times : Nat → Clock) :
    BinarySemaphore × Nat → Place → Step (BinarySemaphore × Nat) Place (Answer Unit) :=
  atTimes (fun clock => step c use clock) times

variable {source : ClockSource} {flag : Bool} {c : Caller} {use : Use} {times : Nat → Clock}
  {s s' : BinarySemaphore} {n k v : Nat} {p p' : Place} {r : Answer Unit}

theorem alone_moved (h : Moved c.thread use (times n) s p s' p') (hm : s.mutex.Plain)
    (hin : p.inside = true → s.mutex.holder = some c.thread) :
    ∃ notes, alone c use times (s, n) p = .goto (s', n + 1) p' notes := by
  rcases h.step_eq hm hin with ⟨notes, hstep⟩
  refine ⟨notes, ?_⟩
  simp only [alone, atTimes, hstep, Step.lift, id]

/-- Alone, a call that stands at the place `p` ends with the answer `r` after `k`
    steps, of which `v` were made asleep, and nobody is at the slot then. -/
def Ends (source : ClockSource) (flag : Bool) (c : Caller) (use : Use) (times : Nat → Clock)
    (s : BinarySemaphore) (n : Nat) (p : Place) (r : Answer Unit) (k v : Nat) : Prop :=
  ∃ t, Resting source flag t.1 ∧ Concludes (alone c use times) asleep (s, n) p t r k v

/-- A move of a call, and the rest of it. -/
theorem ends_moved (h : Moved c.thread use (times n) s p s' p') (hp : asleep p = false)
    (hm : s.mutex.Plain) (hin : p.inside = true → s.mutex.holder = some c.thread)
    (hrest : Ends source flag c use times s' (n + 1) p' r k v) :
    Ends source flag c use times s n p r (k + 1) v := by
  rcases alone_moved h hm hin with ⟨notes, hstep⟩
  rcases hrest with ⟨t, ht, hrest⟩
  have hall := Concludes.before hstep hrest
  rw [hp, if_neg Bool.false_ne_true, Nat.zero_add] at hall
  exact ⟨t, ht, hall⟩

/-- A sleeper gets up, and the rest of its call. -/
theorem ends_slept (h : Moved c.thread use (times n) s (.waiting .asleep) s' p')
    (hm : s.mutex.Plain) (hrest : Ends source flag c use times s' (n + 1) p' r k v) :
    Ends source flag c use times s n (.waiting .asleep) r (k + 1) (v + 1) := by
  rcases alone_moved h hm (fun hin => absurd hin Bool.false_ne_true) with ⟨notes, hstep⟩
  rcases hrest with ⟨t, ht, hrest⟩
  have hall := Concludes.before hstep hrest
  rw [if_pos (show asleep (.waiting .asleep) = true from rfl), Nat.add_comm 1 v] at hall
  exact ⟨t, ht, hall⟩

/-- The end of a call. -/
theorem ends_leaving (hm : s.mutex.Plain) (hheld : s.mutex.holder = some c.thread)
    (hclock : s.condition.clock = source) (hflag : s.flag = flag) :
    Ends source flag c use times s n (.leaving r) r 1 0 := by
  have hstep : alone c use times (s, n) (.leaving r)
      = .done ({ s with mutex := s.mutex.freed }, n + 1) r [] := by
    simp only [alone, atTimes, step, hm.unlock_holder c.thread hheld, Step.lift]
  exact ⟨_, ⟨hm.freed, rfl, hclock, hflag⟩, Concludes.last hstep⟩

/-- Alone, a call that stands at the place `p` comes to the place `q` with its
    `k`th step and has to wait there. -/
def StaysAt (c : Caller) (use : Use) (times : Nat → Clock) (s : BinarySemaphore) (n : Nat)
    (p q : Place) (k : Nat) : Prop :=
  ∀ fuel notes, k < fuel → (runSteps (alone c use times) fuel (s, n) p notes).outcome = .inl q

theorem staysAt_moved {q : Place} (h : Moved c.thread use (times n) s p s' p')
    (hm : s.mutex.Plain) (hin : p.inside = true → s.mutex.holder = some c.thread)
    (hrest : StaysAt c use times s' (n + 1) p' q k) : StaysAt c use times s n p q (k + 1) := by
  intro fuel notes hfuel
  rcases alone_moved h hm hin with ⟨more, hstep⟩
  obtain ⟨fuel, rfl⟩ := Nat.exists_eq_add_of_le' (Nat.zero_lt_of_lt hfuel)
  simp only [runSteps, hstep]
  exact hrest fuel _ (Nat.lt_of_succ_lt_succ hfuel)

theorem staysAt_stuck (h : Stuck c.thread use (times n) s p) (hm : s.mutex.Plain) :
    StaysAt c use times s n p p 0 := by
  intro fuel notes hfuel
  have hout : p.inside = true → s.mutex.holder = some c.thread := by
    intro hp
    rw [h.not_inside] at hp
    exact absurd hp Bool.false_ne_true
  rcases step_cases c use (times n) s p hm hout with ⟨_, _, _, _, hmoved⟩ | ⟨r, rfl, _⟩ | ⟨hstep, _⟩
  · exact absurd h hmoved.not_stuck
  · cases h
  · have hwaits : alone c use times (s, n) p = .waits := by
      simp only [alone, atTimes, hstep, Step.lift]
    obtain ⟨fuel, rfl⟩ := Nat.exists_eq_add_of_le' hfuel
    simp only [runSteps, hwaits]

namespace Resting

variable (d : Timer)

-- No wait begins inside.
theorem entering_outside : Place.entering.inside = true → s.mutex.holder = some c.thread :=
  fun h => absurd h Bool.false_ne_true

/-- A token that is there is taken without sleep. -/
theorem wait_full (h : Resting source true s) (c : Caller) (times : Nat → Clock) :
    Ends source false c (.timedWait d) times s 0 .entering (.ok ()) 3 0 := by
  have hplain := h.plain.taken c.thread
  have hne : Use.timedWait d ≠ .post := by simp only [ne_eq, reduceCtorEq, not_false_eq_true]
  refine ends_moved (.enter h.free) rfl h.plain entering_outside ?_
  refine ends_moved (.take hne h.flag_eq) rfl hplain (fun _ => rfl) ?_
  exact ends_leaving hplain rfl h.clock_eq rfl

/-- Without a token a wait is refused that has no normalized deadline. -/
theorem wait_rejected (h : Resting source false s) (c : Caller) (times : Nat → Clock)
    (hd : ¬d.Normalized) :
    Ends source false c (.timedWait d) times s 0 .entering (.error .invalidParam) 4 0 := by
  have hplain := h.plain.taken c.thread
  have hrefused : Condition.accepts (deadline? (.timedWait d)) = false := decide_eq_false hd
  refine ends_moved (.enter h.free) rfl h.plain entering_outside ?_
  refine ends_moved (.begin rfl h.flag_eq) rfl hplain (fun _ => rfl) ?_
  refine ends_moved (.reject hrefused) rfl hplain (fun _ => rfl) ?_
  exact ends_leaving hplain rfl h.clock_eq h.flag_eq

-- Whoever has just gone to sleep is a sleeper.
theorem mem_putToSleep (s : BinarySemaphore) (t : ThreadId) :
    t ∈ (s.condition.putToSleep t).sleepers :=
  List.mem_append_right _ (List.mem_singleton.mpr rfl)

/-- Without a token a wait ends that sleeps when its deadline has passed. -/
theorem wait_late (h : Resting source false s) (c : Caller) (times : Nat → Clock)
    (hd : d.Normalized) (hlate : (HostTime.ofTimer d).reached ((times 3).nanos source) = true) :
    Ends source false c (.timedWait d) times s 0 .entering (.error .timeout) 7 1 := by
  have hplain := h.plain.taken c.thread
  have hgiven := hplain.freed.withAwaited ((s.mutex.taken c.thread).awaited + 1)
  have hback := (hgiven.taken c.thread).withAwaited ((s.mutex.taken c.thread).awaited + 1 - 1)
  have haccepted : Condition.accepts (deadline? (.timedWait d)) = true := decide_eq_true hd
  rw [← h.clock_eq] at hlate
  refine ends_moved (.enter h.free) rfl h.plain entering_outside ?_
  refine ends_moved (.begin rfl h.flag_eq) rfl hplain (fun _ => rfl) ?_
  refine ends_moved (.sleep haccepted) rfl hplain (fun _ => rfl) ?_
  refine ends_slept (.tire (mem_putToSleep s c.thread) hlate) hgiven ?_
  -- The mutex is still free, and the slot is looked at for the last time.
  refine ends_moved (.retake _ rfl) rfl hgiven (fun hin => absurd hin Bool.false_ne_true) ?_
  refine ends_moved (.refuseLast h.flag_eq) rfl hback (fun _ => rfl) ?_
  exact ends_leaving hback rfl h.clock_eq h.flag_eq

/-- Without a token the thread sleeps as long as its deadline has not passed. -/
theorem wait_sleeps (h : Resting source false s) (c : Caller) (times : Nat → Clock)
    (hd : d.Normalized) (hearly : (HostTime.ofTimer d).reached ((times 3).nanos source) = false) :
    StaysAt c (.timedWait d) times s 0 .entering (.waiting .asleep) 3 := by
  have hplain := h.plain.taken c.thread
  have hgiven := hplain.freed.withAwaited ((s.mutex.taken c.thread).awaited + 1)
  have haccepted : Condition.accepts (deadline? (.timedWait d)) = true := decide_eq_true hd
  rw [← h.clock_eq] at hearly
  refine staysAt_moved (.enter h.free) h.plain entering_outside ?_
  refine staysAt_moved (.begin rfl h.flag_eq) hplain (fun _ => rfl) ?_
  refine staysAt_moved (.sleep haccepted) hplain (fun _ => rfl) ?_
  exact staysAt_stuck (.sleeping (mem_putToSleep s c.thread) hearly) hgiven

end Resting

end BinarySemaphore

end HostLayer
