import HostLayer.Proofs.Slot.Crowd

/-!
# Slot Progress

How the threads of a crowd get on.

Whoever stands inside can move and needs at most three moves to give the mutex
up, so a held mutex can always be freed by the thread that holds it, unless that
thread has ended. Once it is free, a thread that puts a token in is done after
four moves, and a thread that was told to end has ended after one.

These are statements about some run, not about every one. Nobody can be made to
move, but where there is such a run from every state that can be reached,
nothing is blocked for ever.

## Main definitions

* `BinarySemaphore.Place.toGo`: The moves that are left inside.

## Theorems

* `BinarySemaphore.Crowd.move_step`, `BinarySemaphore.Crowd.moved_step`,
  `BinarySemaphore.Crowd.leave_step`, `BinarySemaphore.Crowd.abandon_step`:
  Moves that can be made.
* `BinarySemaphore.Moved.toGo_lt`: Inside, every move counts.
* `BinarySemaphore.Crowd.free_mutex`: A held mutex can be freed.
* `BinarySemaphore.Crowd.post_completes`: A token can be put in.
* `BinarySemaphore.Crowd.late_returns`: A late thread comes back.
-/

namespace HostLayer

namespace BinarySemaphore

/-- The moves, at most, that a thread inside makes before it gives the mutex
    up. -/
def Place.toGo : Place → Nat
  | .testing => 3
  | .announcing => 2
  | .waiting .entering => 2
  | .lastLook => 2
  | .leaving _ => 1
  | _ => 0

/-- A move that stays inside has less to go. -/
theorem Moved.toGo_lt {t : ThreadId} {use : Use} {clock : Clock} {s s' : BinarySemaphore}
    {p p' : Place} (h : Moved t use clock s p s' p') (hp : p.inside = true)
    (hp' : p'.inside = true) : p'.toGo < p.toGo := by
  cases h with
  | enter _ => exact absurd hp Bool.false_ne_true
  | fill _ => exact (show 2 < 3 by decide)
  | take _ _ => exact (show 1 < 3 by decide)
  | refuse _ _ => exact (show 1 < 3 by decide)
  | begin _ _ => exact (show 2 < 3 by decide)
  | announce => exact (show 1 < 2 by decide)
  | reject _ => exact (show 1 < 2 by decide)
  | sleep _ => exact absurd hp' Bool.false_ne_true
  | wake _ => exact absurd hp Bool.false_ne_true
  | tire _ _ => exact absurd hp Bool.false_ne_true
  | retake _ _ => exact absurd hp Bool.false_ne_true
  | takeLast _ => exact (show 1 < 2 by decide)
  | refuseLast _ => exact (show 1 < 2 by decide)

-- A move that leads outside gives the mutex up.
theorem Moved.freed {t : ThreadId} {use : Use} {clock : Clock} {s s' : BinarySemaphore}
    {p p' : Place} (h : Moved t use clock s p s' p') (hfits : p.Fits use)
    (hp : p.inside = true) (hp' : p'.inside = false) : s'.mutex.holder = none := by
  rcases h.holder hfits with ⟨_, hsame⟩ | ⟨_, _, hin⟩ | ⟨hfree, _, _⟩
  · rw [hp, hp'] at hsame
    exact absurd hsame Bool.false_ne_true
  · rw [hp'] at hin
    exact absurd hin Bool.false_ne_true
  · exact hfree

namespace Crowd

/-- A thread that is not stuck and not about to return makes a move. -/
theorem move_step (s : Crowd) (c : Caller) (use : Use) (p : Place) (hs : s.Sane)
    (h : s.activity c.thread = .calling use p)
    (hstuck : ¬Stuck c.thread use s.clock s.slot p) (hleave : ∀ r, p ≠ .leaving r) :
    ∃ slot p', Moved c.thread use s.clock s.slot p slot p' ∧
      s.step (.move c) = some (s.put slot c.thread (.calling use p'), []) := by
  have hin : p.inside = true → s.slot.mutex.holder = some c.thread := by
    intro hp
    rw [hs.holder_iff, h]
    exact hp
  rcases step_cases c use s.clock s.slot p hs.plain hin with
    ⟨slot, p', notes, hstep, hm⟩ | ⟨r, hp, _⟩ | ⟨_, hst⟩
  · refine ⟨slot, p', hm, ?_⟩
    simp only [step, h, hstep]
  · exact absurd hp (hleave r)
  · exact absurd hst hstuck

/-- Every move can be made. -/
theorem moved_step (s : Crowd) (c : Caller) (use : Use) (p p' : Place) (slot : BinarySemaphore)
    (hs : s.Sane) (h : s.activity c.thread = .calling use p)
    (hm : Moved c.thread use s.clock s.slot p slot p') :
    s.step (.move c) = some (s.put slot c.thread (.calling use p'), []) := by
  have hin : p.inside = true → s.slot.mutex.holder = some c.thread := by
    intro hp
    rw [hs.holder_iff, h]
    exact hp
  rcases hm.step_eq hs.plain hin with ⟨notes, hstep⟩
  simp only [step, h, hstep]

/-- A thread that is about to return does so. -/
theorem leave_step (s : Crowd) (c : Caller) (use : Use) (r : Answer Unit) (hs : s.Sane)
    (h : s.activity c.thread = .calling use (.leaving r)) :
    s.step (.move c) = some (s.put { s.slot with mutex := s.slot.mutex.freed } c.thread .idle,
      [.returned c.thread use r]) := by
  have hheld : s.slot.mutex.holder = some c.thread := by
    rw [hs.holder_iff, h]
    rfl
  simp only [step, h, BinarySemaphore.step, hs.plain.unlock_holder c.thread hheld]

/-- A thread that was told to end does so as soon as the mutex is free. -/
theorem abandon_step (s : Crowd) (c : Caller) (use : Use) (p : Place) (hs : s.Sane)
    (h : s.activity c.thread = .ending use p) (hfree : s.slot.mutex.holder = none) :
    s.step (.move c) = some (s.put (abandoned s.slot c.thread) c.thread .ended, []) := by
  rcases hs.recalled c.thread use p h with ⟨_, rfl⟩
  simp only [step, h, stepEnding_eq s c use hs.plain, if_pos hfree]

-- A thread inside gives the mutex up, by induction on the moves that it has to
-- go. No other thread moves meanwhile.
theorem leave_inside (c : Caller) (use : Use) (n : Nat) :
    ∀ (s : Crowd) (p : Place), s.Sane → s.activity c.thread = .calling use p →
      p.inside = true → p.toGo ≤ n →
      ∃ acts s' es, Schedule.play step s acts = some (s', es) ∧ s'.Sane ∧
        s'.slot.mutex.holder = none ∧ ∀ u, u ≠ c.thread → s'.activity u = s.activity u := by
  induction n with
  | zero =>
      intro s p _ _ hp hn
      -- Every place inside has something to go.
      cases p with
      | waiting q =>
          cases q with
          | entering => exact absurd hn (by decide)
          | asleep => exact absurd hp Bool.false_ne_true
          | returning _ => exact absurd hp Bool.false_ne_true
      | entering => exact absurd hp Bool.false_ne_true
      | testing => exact absurd hn (by decide)
      | announcing => exact absurd hn (by decide)
      | lastLook => exact absurd hn (by decide)
      | leaving _ => exact absurd hn (show ¬1 ≤ 0 by decide)
  | succ n ih =>
      intro s p hs h hp hn
      by_cases hleave : ∃ r, p = .leaving r
      · rcases hleave with ⟨r, rfl⟩
        have hstep := leave_step s c use r hs h
        exact ⟨[.move c], _, _, Schedule.play_cons hstep rfl, step_sane s _ _ _ hs hstep, rfl,
          fun u hu => put_other s _ c.thread u _ hu⟩
      · -- Only threads outside are stuck.
        have hstuck : ¬Stuck c.thread use s.clock s.slot p := by
          intro hst
          rw [hst.not_inside] at hp
          exact Bool.false_ne_true hp
        rcases move_step s c use p hs h hstuck (fun r hr => hleave ⟨r, hr⟩) with
          ⟨slot, p', hm, hstep⟩
        have hs' := step_sane s _ _ _ hs hstep
        have hself := put_self s slot c.thread (.calling use p')
        have hother := fun u hu => put_other s slot c.thread u (.calling use p') hu
        cases hin : p'.inside with
        | false =>
            exact ⟨[.move c], _, _, Schedule.play_cons hstep rfl, hs',
              hm.freed (hs.fits c.thread use p h) hp hin, hother⟩
        | true =>
            have hlt := hm.toGo_lt hp hin
            rcases ih (s.put slot c.thread (.calling use p')) p' hs' hself hin (by omega) with
              ⟨acts, s', es, hrun, hsane, hfree, hrest⟩
            exact ⟨.move c :: acts, s', _, Schedule.play_cons hstep hrun, hsane, hfree,
              fun u hu => (hrest u hu).trans (hother u hu)⟩

/-- As long as no thread has ended, the mutex can be freed without any move of a
    thread outside. -/
theorem free_mutex (s : Crowd) (hs : s.Sane) (h : ∀ t, s.activity t ≠ .ended) :
    ∃ acts s' es, Schedule.play step s acts = some (s', es) ∧ s'.Sane ∧
      s'.slot.mutex.holder = none ∧
      ∀ u, (s.activity u).inside = false → s'.activity u = s.activity u := by
  cases hh : s.slot.mutex.holder with
  | none => exact ⟨[], s, [], rfl, hs, hh, fun _ _ => rfl⟩
  | some t =>
      have hin := (hs.holder_iff t).mp hh
      rcases ha : s.activity t with _ | ⟨use, p⟩ | ⟨use, p⟩ | _
      · rw [ha] at hin
        exact absurd hin Bool.false_ne_true
      · rw [ha] at hin
        rcases leave_inside ⟨t, .other, 0, 0⟩ use p.toGo s p hs ha hin (Nat.le_refl _) with
          ⟨acts, s', es, hrun, hsane, hfree, hrest⟩
        refine ⟨acts, s', es, hrun, hsane, hfree, fun u hu => hrest u (fun he => ?_)⟩
        rw [show u = t from he, ha] at hu
        exact Bool.false_ne_true (hu.symm.trans hin)
      · rw [ha] at hin
        exact absurd hin Bool.false_ne_true
      · exact absurd ha (h t)

-- A move and a run from where it leads to.
theorem play_moved (s : Crowd) (c : Caller) (use : Use) (p p' : Place) (slot : BinarySemaphore)
    (acts : List Act) (es : List Report) (hs : s.Sane)
    (h : s.activity c.thread = .calling use p)
    (hm : Moved c.thread use s.clock s.slot p slot p')
    (hrun : (s.put slot c.thread (.calling use p')).Sane →
      ∃ s', Schedule.play step (s.put slot c.thread (.calling use p')) acts = some (s', es)) :
    ∃ s', Schedule.play step s (.move c :: acts) = some (s', es) := by
  have hstep := moved_step s c use p p' slot hs h hm
  rcases hrun (step_sane s _ _ _ hs hstep) with ⟨s', hrest⟩
  exact ⟨s', Schedule.play_cons hstep hrest⟩

/-- A thread that is about to put a token in while the mutex is free is done
    after four moves. -/
theorem post_completes (s : Crowd) (c : Caller) (hs : s.Sane)
    (hcall : s.activity c.thread = .calling .post .entering)
    (hfree : s.slot.mutex.holder = none) :
    ∃ s', Schedule.play step s [.move c, .move c, .move c, .move c]
      = some (s', [.returned c.thread .post (.ok ())]) := by
  refine play_moved s c _ _ _ _ _ _ hs hcall (.enter hfree) fun hs₁ => ?_
  refine play_moved _ c _ _ _ _ _ _ hs₁ (put_self _ _ _ _) (.fill rfl) fun hs₂ => ?_
  refine play_moved _ c _ _ _ _ _ _ hs₂ (put_self _ _ _ _) .announce fun hs₃ => ?_
  exact ⟨_, Schedule.play_cons (leave_step _ c _ _ hs₃ (put_self _ _ _ _)) rfl⟩

/-- A thread that is about to wait for a token, while the mutex is free and the
    slot is empty, is back after seven moves if the host takes its deadline for
    passed. -/
theorem late_returns (s : Crowd) (c : Caller) (d : Timer) (hs : s.Sane)
    (hcall : s.activity c.thread = .calling (.timedWait d) .entering)
    (hfree : s.slot.mutex.holder = none) (hempty : s.slot.flag = false) (hd : d.Normalized)
    (hlate : (HostTime.ofTimer d).reached (s.clock.nanos s.slot.condition.clock) = true) :
    ∃ s', Schedule.play step s
        [.move c, .move c, .move c, .move c, .move c, .move c, .move c]
      = some (s', [.returned c.thread (.timedWait d) (.error .timeout)]) := by
  have haccepts : Condition.accepts (deadline? (.timedWait d)) = true := decide_eq_true hd
  have hin : c.thread ∈ s.slot.condition.sleepers ++ [c.thread] :=
    List.mem_append_right _ (List.mem_singleton.mpr rfl)
  refine play_moved s c _ _ _ _ _ _ hs hcall (.enter hfree) fun hs₁ => ?_
  refine play_moved _ c _ _ _ _ _ _ hs₁ (put_self _ _ _ _) (.begin rfl hempty) fun hs₂ => ?_
  refine play_moved _ c _ _ _ _ _ _ hs₂ (put_self _ _ _ _) (.sleep haccepts) fun hs₃ => ?_
  -- The thread sleeps and is late at once; nobody has taken the mutex.
  refine play_moved _ c _ _ _ _ _ _ hs₃ (put_self _ _ _ _) (.tire hin hlate) fun hs₄ => ?_
  refine play_moved _ c _ _ _ _ _ _ hs₄ (put_self _ _ _ _) (.retake _ rfl) fun hs₅ => ?_
  refine play_moved _ c _ _ _ _ _ _ hs₅ (put_self _ _ _ _) (.refuseLast hempty) fun hs₆ => ?_
  exact ⟨_, Schedule.play_cons (leave_step _ c _ _ hs₆ (put_self _ _ _ _)) rfl⟩

end Crowd

end BinarySemaphore

end HostLayer
