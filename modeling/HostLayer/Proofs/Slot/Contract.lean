import HostLayer.Proofs.Host.Deadline
import HostLayer.Proofs.Slot.Linear
import HostLayer.Proofs.Slot.Progress
import HostLayer.Proofs.Slot.Wakeup

/-!
# Slot Contract

What the users of a slot can rely on, as long as nobody tells them to end.

Every call that returns has taken effect at one point since it was made, tokens
are taken once, and a call that times out has found the slot empty after its
deadline. The last part holds as far as the host counts deadlines as callers do.
A deadline whose seconds lie in the upper half of the words has passed for the
host before it is given, so a call with it gives up at once; `slot_contract` says
that these deadlines, and no others, are those with which a run goes wrong.

No wakeup is lost whatever the deadlines are. While the mutex is free, a token
that is there and somebody who sleeps mean that somebody who was woken is on the
way.

## Main definitions

* `BinarySemaphore.Crowd.Linearized`: The deeds behind what was seen.

## Theorems

* `BinarySemaphore.Crowd.linearized_of_explains`: Runs of an atomic slot are
  all that is needed.
* `BinarySemaphore.Crowd.not_linearized_of_early`,
  `BinarySemaphore.Crowd.alone_not_linearized`: A timeout before its deadline has
  no deeds behind it.
* `BinarySemaphore.Crowd.slot_contract`: Which runs are as they should be.
* `BinarySemaphore.Crowd.upper_half_times_out`: One that is not.
-/

namespace HostLayer

namespace BinarySemaphore

namespace Crowd

/-- The deeds `ds` of an atomic slot lie behind the reports `es` of a crowd,
    whose slot is left with `token`. Deadlines pass as callers count them. -/
structure Linearized (source : ClockSource) (clock : Clock) (es : List Report) (token : Bool)
    (ds : List Deed) : Prop where
  run : ∃ a, Atomic.Run (Clock.Passed source) (Atomic.start clock) ds a ∧ a.token = token
  shows : ds.filterMap Deed.report? = es
  /-- What returns was called, and has had its effect once, in between. -/
  between : ∀ t use r earlier later, ds = earlier ++ .seen (.returned t use r) :: later →
    ∃ before between after,
      earlier = before ++ .seen (.called t use) :: (between ++ .effect t use r :: after) ∧
        ∀ d ∈ between ++ after, d.thread? ≠ some t
  /-- What times out does so where the slot is empty and, if it has a deadline,
      after a time at which that had passed. If the clock does not go back, it
      has passed there. -/
  timeout : ∀ t use earlier later, ds = earlier ++ .effect t use (.error .timeout) :: later →
    ∃ a, Atomic.Run (Clock.Passed source) (Atomic.start clock) earlier a ∧ a.token = false ∧
      ∀ d, use = .timedWait d →
        (∃ now, Clock.Passed source d now ∧ Atomic.Shown clock earlier now) ∧
        (Atomic.Steady source clock es → Clock.Passed source d a.clock)
  takes_le : ds.countP Deed.takes ≤ ds.countP Deed.posts

/-- A run of an atomic slot that shows the same is all that is needed. -/
theorem linearized_of_explains (source : ClockSource) (clock : Clock) (es : List Report)
    (a : Atomic) (h : Explains (Clock.Passed source) (Atomic.start clock) es a) :
    ∃ ds, Linearized source clock es a.token ds := by
  rcases h with ⟨ds, hrun, hshows⟩
  refine ⟨ds, ⟨a, hrun, rfl⟩, hshows, hrun.returned_between, ?_,
    Nat.le_of_add_right_le hrun.takes_le_posts⟩
  intro t use earlier later hds
  rcases hrun.timeout_due t use earlier later hds with ⟨m, hm, hempty, hlate⟩
  refine ⟨m, hm, hempty, fun d hd => ⟨hlate d hd, fun hsteady => ?_⟩⟩
  rcases hlate d hd with ⟨now, hpassed, hnow⟩
  -- The clock has gone on since the deadline passed, but not back.
  have hsteady' : Atomic.Steady source clock (earlier.filterMap Deed.report?) := by
    rw [← hshows, hds, List.filterMap_append] at hsteady
    exact hsteady.earlier
  exact Nat.le_trans hpassed (hm.shown_le source hsteady' now hnow)

/-- A timeout that is seen although its deadline has not passed at any time that
    was shown has no deeds behind it. -/
theorem not_linearized_of_early (source : ClockSource) (clock : Clock) (es : List Report)
    (token : Bool) (ds : List Deed) (t : ThreadId) (d : Timer)
    (hmem : .returned t (.timedWait d) (.error .timeout) ∈ es)
    (hstart : ¬Clock.Passed source d clock)
    (hearly : ∀ now, .passed now ∈ es → ¬Clock.Passed source d now) :
    ¬Linearized source clock es token ds := by
  intro h
  -- What was seen was a deed.
  rw [← h.shows] at hmem
  rcases List.mem_filterMap.mp hmem with ⟨x, hx, hreport⟩
  cases x with
  | effect _ _ _ => exact absurd hreport (by simp only [Deed.report?, reduceCtorEq,
      not_false_eq_true])
  | seen e =>
      rw [Deed.report?, Option.some.injEq] at hreport
      rw [hreport] at hx
      rcases List.append_of_mem hx with ⟨earlier, later, hds⟩
      rcases h.between t _ _ earlier later hds with ⟨before, between, after, hearlier, _⟩
      -- The call had its effect, and that was the timeout.
      have heffect : ds = (before ++ .seen (.called t (.timedWait d)) :: between) ++
          .effect t (.timedWait d) (.error .timeout) ::
            (after ++ .seen (.returned t (.timedWait d) (.error .timeout)) :: later) := by
        rw [hds, hearlier]
        simp only [List.append_assoc, List.cons_append]
      rcases h.timeout t _ _ _ heffect with ⟨_, _, _, hlate⟩
      -- So a time was shown at which the deadline had passed.
      rcases (hlate d rfl).1 with ⟨now, hpassed, hshown⟩
      rcases hshown.report with rfl | hnow
      · exact hstart hpassed
      · refine hearly now ?_ hpassed
        rw [← h.shows, heffect, List.filterMap_append]
        exact List.mem_append_left _ hnow

-- A thread alone that times out early, without any time passing.
theorem alone_not_linearized (source : ClockSource) (clock : Clock) (t : ThreadId) (d : Timer)
    (token : Bool) (ds : List Deed) (h : ¬Clock.Passed source d clock) :
    ¬Linearized source clock
      [.called t (.timedWait d), .returned t (.timedWait d) (.error .timeout)] token ds := by
  refine not_linearized_of_early source clock _ token ds t d ?_ h (fun now hnow => ?_)
  · exact List.mem_cons_of_mem _ (List.mem_singleton.mpr rfl)
  · exact absurd hnow (by simp only [List.mem_cons, reduceCtorEq, List.not_mem_nil, or_self,
      not_false_eq_true])

-- A thread alone at a new slot, with a deadline that the host counts as passed,
-- times out.
theorem alone_times_out (source : ClockSource) (attr : SyncAttr) (slot : BinarySemaphore)
    (hcreate : create source attr = .ok slot) (clock : Clock) (t : ThreadId) (d : Timer)
    (hd : d.Normalized) (hlate : (HostTime.ofTimer d).reached (clock.nanos source) = true) :
    ∃ s, Schedule.play step (start slot clock)
        (.call t (.timedWait d) :: List.replicate 7 (.move ⟨t, .other, 0, 0⟩))
      = some (s, [.called t (.timedWait d), .returned t (.timedWait d) (.error .timeout)]) := by
  have hs := start_sane slot clock source attr hcreate
  have hcall : (start slot clock).step (.call t (.timedWait d))
      = some ((start slot clock).put slot t (.calling (.timedWait d) .entering),
        [.called t (.timedWait d)]) := rfl
  rcases create_eq source attr slot hcreate with ⟨m, _, hfree, hslot⟩
  have hlate' : (HostTime.ofTimer d).reached (clock.nanos slot.condition.clock) = true := by
    rw [hslot]
    exact hlate
  rcases late_returns _ ⟨t, .other, 0, 0⟩ d (step_sane _ _ _ _ hs hcall) (put_self _ slot t _)
      (by rw [hslot]; exact hfree) (by rw [hslot]; rfl) hd hlate' with ⟨s, hrun⟩
  exact ⟨s, Schedule.play_cons hcall hrun⟩

-- At the zero of the clocks, a deadline that the host does not count as its
-- caller does has not passed.
theorem not_passed_zero (source : ClockSource) (d : Timer) (h : ¬d.Countable) :
    ¬Clock.Passed source d ⟨0, 0⟩ := by
  unfold Timer.Countable word64 at h
  unfold Clock.Passed Timer.value nanosPerSecond
  cases source with
  | monotonic => simp only [Clock.nanos]; omega
  | realtime => simp only [Clock.nanos]; omega

/-- What users of a new slot can rely on in every run in which nobody is told to
    end.

    Whatever deadlines they use, all their runs are those of an atomic slot
    exactly if each of these deadlines is refused by the host or counted as they
    count it. And in every state of every run, while the mutex is free, a token
    that is there and somebody who sleeps mean that some thread has been woken
    and is about to take the mutex. -/
theorem slot_contract (source : ClockSource) (attr : SyncAttr) (slot : BinarySemaphore)
    (hcreate : create source attr = .ok slot) :
    (∀ allowed : Timer → Prop,
      (∀ clock acts s es, (∀ act ∈ acts, act.Uncancelled ∧ act.Allowed allowed) →
        Schedule.play step (start slot clock) acts = some (s, es) →
        ∃ ds, Linearized source clock es s.slot.flag ds) ↔
      ∀ d, allowed d → d.Normalized → d.Countable) ∧
    (∀ clock acts s es, (∀ act ∈ acts, act.Uncancelled) →
      Schedule.play step (start slot clock) acts = some (s, es) →
      s.slot.mutex.holder = none → s.slot.flag = true → s.slot.condition.sleepers ≠ [] →
      ∃ t, s.Woken t) := by
  refine ⟨fun allowed => ⟨fun hall d hd hn => ?_, fun hall clock acts s es hacts h => ?_⟩,
    fun clock acts s es hacts h hfree hflag hsleepers => ?_⟩
  -- A thread alone times out early, and that cannot be explained.
  · by_contra hc
    have hlate := HostTime.reached_of_not_countable d (Clock.nanos ⟨0, 0⟩ source) hn hc
    rcases alone_times_out source attr slot hcreate ⟨0, 0⟩ 0 d hn hlate with ⟨s, hrun⟩
    have hacts : ∀ act ∈ Act.call 0 (.timedWait d) :: List.replicate 7 (.move ⟨0, .other, 0, 0⟩),
        act.Uncancelled ∧ act.Allowed allowed := by
      intro act hact
      rcases List.mem_cons.mp hact with rfl | hact
      · exact ⟨trivial, hd⟩
      · rw [(List.mem_replicate.mp hact).2]
        exact ⟨trivial, trivial⟩
    rcases hall ⟨0, 0⟩ _ s _ hacts hrun with ⟨ds, hds⟩
    exact alone_not_linearized source ⟨0, 0⟩ 0 d _ ds (not_passed_zero source d hc) hds
  -- Where the host counts as callers do, a deadline that it takes for passed is.
  · have hdue : ∀ d now, allowed d → d.Normalized →
        (HostTime.ofTimer d).reached (now.nanos source) = true → Clock.Passed source d now :=
      fun d now hd hn hr => (HostTime.reached_iff d _ (hall d hd hn)).mp hr
    rcases play_mirrors source allowed (Clock.Passed source) hdue attr slot hcreate clock acts
        (fun act hact => (hacts act hact).2) s es h with ⟨a, hexplains, hmirrors⟩
    rw [← hmirrors.token_eq]
    exact linearized_of_explains source clock es a hexplains
  · rcases play_alert slot clock source attr hcreate acts hacts s es h with
      ⟨hs, halert, hunharmed⟩
    exact woken_of_token s hs halert hunharmed hfree hflag hsleepers

-- Two threads sleep, one of them with a deadline, and a third one puts a token
-- in. One of the two is on its way.
theorem slot_contract_two_sleepers : ∃ slot s es,
    create .monotonic SyncAttr.plain = .ok slot ∧
    Schedule.play step (start slot ⟨0, 0⟩)
      [.call 1 (.timedWait ⟨5, 0⟩), .move ⟨1, .other, 0, 0⟩, .move ⟨1, .other, 0, 0⟩,
        .move ⟨1, .other, 0, 0⟩, .call 2 .wait, .move ⟨2, .other, 0, 0⟩, .move ⟨2, .other, 0, 0⟩,
        .move ⟨2, .other, 0, 0⟩, .call 3 .post, .move ⟨3, .other, 0, 0⟩, .move ⟨3, .other, 0, 0⟩,
        .move ⟨3, .other, 0, 0⟩, .move ⟨3, .other, 0, 0⟩] = some (s, es) ∧
    s.slot.condition.sleepers = [2] ∧ (∃ t, s.Woken t) ∧
    ∃ ds, Linearized .monotonic ⟨0, 0⟩ es true ds := by
  have hrun : ∃ slot s es, create .monotonic SyncAttr.plain = .ok slot ∧
      Schedule.play step (start slot ⟨0, 0⟩)
        [.call 1 (.timedWait ⟨5, 0⟩), .move ⟨1, .other, 0, 0⟩, .move ⟨1, .other, 0, 0⟩,
          .move ⟨1, .other, 0, 0⟩, .call 2 .wait, .move ⟨2, .other, 0, 0⟩, .move ⟨2, .other, 0, 0⟩,
          .move ⟨2, .other, 0, 0⟩, .call 3 .post, .move ⟨3, .other, 0, 0⟩, .move ⟨3, .other, 0, 0⟩,
          .move ⟨3, .other, 0, 0⟩, .move ⟨3, .other, 0, 0⟩] = some (s, es) ∧
      s.slot.condition.sleepers = [2] ∧ s.slot.mutex.holder = none ∧ s.slot.flag = true :=
    ⟨_, _, _, rfl, rfl, rfl, rfl, rfl⟩
  rcases hrun with ⟨slot, s, es, hcreate, hplay, hsleepers, hfree, hflag⟩
  have hall := slot_contract .monotonic SyncAttr.plain slot hcreate
  refine ⟨slot, s, es, hcreate, hplay, hsleepers, ?_, ?_⟩
  · exact hall.2 ⟨0, 0⟩ _ s es (by simp [Act.Uncancelled]) hplay hfree hflag
      (by rw [hsleepers]; exact List.cons_ne_nil 2 [])
  · rw [← hflag]
    refine (hall.1 fun d => d = ⟨5, 0⟩).mpr ?_ ⟨0, 0⟩ _ s es (by
      simp [Act.Uncancelled, Act.Allowed]) hplay
    rintro d rfl _
    decide

/-- A thread alone at a new slot, with a deadline of `2 ^ 63` seconds, times out
    at once, and no run of an atomic slot shows that. -/
theorem upper_half_times_out : ∃ slot s es, create .monotonic SyncAttr.plain = .ok slot ∧
    Schedule.play step (start slot ⟨0, 0⟩)
      (.call 1 (.timedWait ⟨9223372036854775808, 0⟩) ::
        List.replicate 7 (.move ⟨1, .other, 0, 0⟩)) = some (s, es) ∧
    .returned 1 (.timedWait ⟨9223372036854775808, 0⟩) (.error .timeout) ∈ es ∧
    ¬Clock.Passed .monotonic ⟨9223372036854775808, 0⟩ ⟨0, 0⟩ ∧
    ¬∃ ds, Linearized .monotonic ⟨0, 0⟩ es s.slot.flag ds := by
  have hcreate : ∃ slot, create .monotonic SyncAttr.plain = .ok slot := ⟨_, rfl⟩
  rcases hcreate with ⟨slot, hcreate⟩
  rcases alone_times_out .monotonic SyncAttr.plain slot hcreate ⟨0, 0⟩ 1
    ⟨9223372036854775808, 0⟩ (by decide) (by decide) with ⟨s, hrun⟩
  have hearly := not_passed_zero .monotonic ⟨9223372036854775808, 0⟩ (by decide)
  refine ⟨slot, s, _, hcreate, hrun, ?_, hearly, ?_⟩
  · exact List.mem_cons_of_mem _ (List.mem_singleton.mpr rfl)
  · rintro ⟨ds, hds⟩
    exact alone_not_linearized .monotonic ⟨0, 0⟩ 1 _ _ ds hearly hds

end Crowd

end BinarySemaphore

end HostLayer
