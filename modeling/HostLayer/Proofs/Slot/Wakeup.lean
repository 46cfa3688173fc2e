import HostLayer.Proofs.Slot.Crowd

/-!
# Slot Wakeups

No wakeup of a slot is lost.

A token that is put in wakes one sleeper at most, and much can come between: the
sleeper may find the token taken, it may have been late and look for the last
time, or it may not be the one that the signal was meant for. What stays true
is that while the token is there and somebody sleeps, some thread heeds it.
Either it stands inside and will take the token or announce it, or it has been
woken and will look.

Only threads that find the slot empty go to sleep, so nobody starts to sleep
while the token is there; and whoever is taken out of the sleepers is a thread
that heeds. This is why spurious wakeups and timeouts do no harm. A thread that
was told to end counts as one that heeds until it has ended, and then for ever:
what it does to the others is not a lost wakeup.

## Main definitions

* `BinarySemaphore.Heeds`: A thread will see to the token.
* `BinarySemaphore.Crowd.Alert`: Somebody heeds a token that sleepers wait for.
* `BinarySemaphore.Act.Uncancelled`: Nobody is told to end.

## Theorems

* `BinarySemaphore.Crowd.move_alert`, `BinarySemaphore.Crowd.happened_alert`:
  Every act keeps a crowd alert.
* `BinarySemaphore.Crowd.play_alert`: So does every run.
* `BinarySemaphore.Crowd.woken_of_token`: While the mutex is free, a woken thread
  is on its way.
-/

namespace HostLayer

namespace BinarySemaphore

/-- The thread `t` will look at the slot or announce the token, if `sleepers`
    are those who sleep. -/
def Heeds (sleepers : List ThreadId) (t : ThreadId) : Activity → Prop
  | .calling _ .testing => True
  | .calling _ .announcing => True
  | .calling _ .lastLook => True
  | .calling _ (.waiting .asleep) => t ∉ sleepers
  | .calling _ (.waiting (.returning _)) => True
  | .ending _ _ => True
  | .ended => True
  | _ => False

/-- Nobody is told to end. -/
def Act.Uncancelled : Act → Prop
  | .cancel _ => False
  | _ => True

-- With fewer sleepers there are only more threads that heed.
theorem Heeds.mono {old new : List ThreadId} {t : ThreadId} {a : Activity}
    (h : Heeds old t a) (hsub : new ⊆ old) : Heeds new t a := by
  cases a with
  | idle => exact h
  | ending _ _ => trivial
  | ended => trivial
  | calling use p =>
      cases p with
      | waiting q =>
          cases q with
          | asleep => exact fun hmem => h (hsub hmem)
          | entering => exact h
          | returning _ => trivial
      | _ => exact h

namespace Crowd

/-- Somebody heeds the token, if it is there and somebody sleeps. -/
def Alert (s : Crowd) : Prop :=
  s.slot.flag = true → s.slot.condition.sleepers ≠ [] →
    ∃ t, Heeds s.slot.condition.sleepers t (s.activity t)

-- Whoever heeds the token still does when another thread has done something.
theorem heeds_put {s : Crowd} {slot : BinarySemaphore} {t : ThreadId} {a : Activity}
    (h : ∃ u, Heeds s.slot.condition.sleepers u (s.activity u))
    (hsub : slot.condition.sleepers ⊆ s.slot.condition.sleepers)
    (ht : ¬Heeds s.slot.condition.sleepers t (s.activity t)) :
    ∃ u, Heeds (s.put slot t a).slot.condition.sleepers u ((s.put slot t a).activity u) := by
  rcases h with ⟨u, hu⟩
  have hne : u ≠ t := fun he => ht (he ▸ hu)
  exact ⟨u, by rw [put_other s slot t u a hne]; exact hu.mono hsub⟩

-- A thread that has just come to a place at which it heeds.
theorem heeds_self (s : Crowd) (slot : BinarySemaphore) (t : ThreadId) (a : Activity)
    (h : Heeds slot.condition.sleepers t a) :
    ∃ u, Heeds (s.put slot t a).slot.condition.sleepers u ((s.put slot t a).activity u) :=
  ⟨t, by rw [put_self]; exact h⟩

/-- A move of a thread keeps a crowd alert: after it there is no token, or the
    thread itself heeds, or it has woken another one. -/
theorem move_alert (s : Crowd) (t : ThreadId) (use : Use) (p p' : Place)
    (slot : BinarySemaphore) (hs : s.Sane) (h : s.activity t = .calling use p)
    (hm : Moved t use s.clock s.slot p slot p') : (s.put slot t (.calling use p')).Alert := by
  intro hflag hsleepers
  change slot.flag = true at hflag
  change slot.condition.sleepers ≠ [] at hsleepers
  have hfits := hs.fits t use p h
  cases hm with
  -- Whoever comes inside will look, or announce what it has put in.
  | enter _ => exact heeds_self s _ t _ trivial
  | fill _ => exact heeds_self s _ t _ trivial
  -- Here the slot is empty afterwards.
  | take _ _ => exact absurd hflag Bool.false_ne_true
  | refuse _ hf => exact absurd (hf.symm.trans hflag) Bool.false_ne_true
  | begin _ hf => exact absurd (hf.symm.trans hflag) Bool.false_ne_true
  | announce =>
      -- The thread that sleeps longest is woken, and it is not among the rest.
      rcases hq : s.slot.condition.sleepers with _ | ⟨u, rest⟩
      · refine absurd ?_ hsleepers
        simp only [Condition.signal, hq, List.drop_nil]
      · rcases hs.asleep u (by rw [hq]; exact List.mem_cons_self) with ⟨use', hu⟩
        have hnodup := hs.nodup
        rw [hq] at hnodup
        have hne : u ≠ t := by
          intro he
          rw [he, h, Activity.calling.injEq] at hu
          exact absurd hu.2 (by simp only [reduceCtorEq, not_false_eq_true])
        refine ⟨u, ?_⟩
        rw [put_other s _ t u _ hne, hu]
        simp only [Heeds, put, Condition.signal, hq, List.drop_succ_cons, List.drop_zero]
        exact (List.nodup_cons.mp hnodup).1
  -- Nobody goes to sleep while the token is there.
  | reject _ => exact absurd ((hs.found_empty t use h).symm.trans hflag) Bool.false_ne_true
  | sleep _ => exact absurd ((hs.found_empty t use h).symm.trans hflag) Bool.false_ne_true
  | wake _ => exact heeds_self s _ t _ trivial
  | tire _ _ => exact heeds_self s _ t _ trivial
  | retake why _ =>
      refine heeds_self s _ t _ ?_
      rcases afterWait_woken use why hfits with ⟨_, hp⟩ | ⟨_, hp⟩
      · rw [hp]
        trivial
      · rw [hp]
        trivial
  | takeLast _ => exact absurd hflag Bool.false_ne_true
  | refuseLast hf => exact absurd (hf.symm.trans hflag) Bool.false_ne_true

/-- Every act keeps a crowd alert. -/
theorem happened_alert (s s' : Crowd) (a : Act) (es : List Report) (hs : s.Sane) (h : s.Alert)
    (hh : s.Happened a s' es) : s'.Alert := by
  cases hh with
  | call t use hidle =>
      intro hflag hsleepers
      exact heeds_put (h hflag hsleepers) (List.Subset.refl _) (by rw [hidle]; exact fun hf => hf)
  | move c use p p' slot hcall hm => exact move_alert s c.thread use p p' slot hs hcall hm
  | leave c use r hcall =>
      intro hflag hsleepers
      exact heeds_put (h hflag hsleepers) (List.Subset.refl _) (by rw [hcall]; exact fun hf => hf)
  | abandon c use hend hfree => exact fun _ _ => heeds_self s _ c.thread _ trivial
  | wake t =>
      -- Whoever is woken for no reason heeds, and so do the others as before.
      have hsub : (s.slot.condition.remove t).sleepers ⊆ s.slot.condition.sleepers :=
        fun u hu => (mem_remove s.slot.condition t u hu).2
      intro hflag hsleepers
      rcases h hflag (fun hnil => hsleepers (List.subset_nil.mp (hnil ▸ hsub))) with ⟨u, hu⟩
      exact ⟨u, hu.mono hsub⟩
  | arrange order hperm =>
      intro hflag hsleepers
      rcases h hflag (fun hnil => hsleepers (by rw [hnil] at hperm; exact hperm.eq_nil)) with
        ⟨u, hu⟩
      exact ⟨u, hu.mono hperm.subset⟩
  | pass clock => exact h
  | cancel t use hcall => exact fun _ _ => heeds_self s _ t _ trivial

/-- No thread has been told to end. -/
def Unharmed (s : Crowd) : Prop :=
  ∀ t, (∀ use p, s.activity t ≠ .ending use p) ∧ s.activity t ≠ .ended

-- While nobody is told to end, nobody ends.
theorem happened_unharmed (s s' : Crowd) (a : Act) (es : List Report) (h : s.Unharmed)
    (ha : a.Uncancelled) (hh : s.Happened a s' es) : s'.Unharmed := by
  -- A thread that starts, makes or ends a call has not been told to end.
  have hput : ∀ (slot : BinarySemaphore) (t : ThreadId) (act : Activity),
      (act = .idle ∨ ∃ use p, act = .calling use p) → (s.put slot t act).Unharmed := by
    intro slot t act hact u
    by_cases hu : u = t
    · rw [hu, put_self]
      rcases hact with rfl | ⟨use, p, rfl⟩
      · exact ⟨fun _ _ => by simp only [ne_eq, reduceCtorEq, not_false_eq_true],
          by simp only [ne_eq, reduceCtorEq, not_false_eq_true]⟩
      · exact ⟨fun _ _ => by simp only [ne_eq, reduceCtorEq, not_false_eq_true],
          by simp only [ne_eq, reduceCtorEq, not_false_eq_true]⟩
    · rw [put_other s slot t u act hu]
      exact h u
  cases hh with
  | call t use _ => exact hput _ t _ (Or.inr ⟨use, .entering, rfl⟩)
  | move c use p p' slot _ _ => exact hput _ c.thread _ (Or.inr ⟨use, p', rfl⟩)
  | leave c use r _ => exact hput _ c.thread _ (Or.inl rfl)
  | abandon c use hend _ => exact absurd hend ((h c.thread).1 use _)
  | wake t => exact h
  | arrange order _ => exact h
  | pass clock => exact h
  | cancel t use _ => exact absurd ha (fun hf => hf)

/-- A thread that slept has been woken and is about to take the mutex. -/
def Woken (s : Crowd) (t : ThreadId) : Prop :=
  ∃ use, (s.activity t = .calling use (.waiting .asleep) ∧ t ∉ s.slot.condition.sleepers) ∨
    ∃ why, s.activity t = .calling use (.waiting (.returning why))

/-- While the mutex is free and the token is there, a sleeper that is left has
    another one that was woken. -/
theorem woken_of_token (s : Crowd) (hs : s.Sane) (h : s.Alert) (hu : s.Unharmed)
    (hfree : s.slot.mutex.holder = none) (hflag : s.slot.flag = true)
    (hsleepers : s.slot.condition.sleepers ≠ []) : ∃ t, s.Woken t := by
  rcases h hflag hsleepers with ⟨t, ht⟩
  have hout := hs.outside_of_free hfree t
  refine ⟨t, ?_⟩
  unfold Woken
  rcases ha : s.activity t with _ | ⟨use, p⟩ | ⟨use, p⟩ | _
  · rw [ha] at ht
    exact absurd ht (fun hf => hf)
  · rw [ha] at ht hout
    refine ⟨use, ?_⟩
    -- Of the places at which a thread heeds, those inside are excluded.
    cases p with
    | waiting q =>
        cases q with
        | asleep => exact Or.inl ⟨rfl, ht⟩
        | returning why => exact Or.inr ⟨why, rfl⟩
        | entering => exact absurd ht (fun hf => hf)
    | entering => exact absurd ht (fun hf => hf)
    | leaving r => exact absurd ht (fun hf => hf)
    | testing => exact absurd hout (by simp only [Activity.inside, Place.inside,
        Bool.true_eq_false, not_false_eq_true])
    | announcing => exact absurd hout (by simp only [Activity.inside, Place.inside,
        Bool.true_eq_false, not_false_eq_true])
    | lastLook => exact absurd hout (by simp only [Activity.inside, Place.inside,
        Bool.true_eq_false, not_false_eq_true])
  · exact absurd ha ((hu t).1 use p)
  · exact absurd ha (hu t).2

/-- Every run in which nobody is told to end keeps a crowd sane, alert and
    unharmed. -/
theorem play_alert (slot : BinarySemaphore) (clock : Clock) (source : ClockSource)
    (attr : SyncAttr) (hcreate : create source attr = .ok slot) (acts : List Act)
    (hacts : ∀ act ∈ acts, act.Uncancelled) (s : Crowd) (es : List Report)
    (h : Schedule.play step (start slot clock) acts = some (s, es)) :
    s.Sane ∧ s.Alert ∧ s.Unharmed := by
  have hstart : (start slot clock).Alert := by
    intro _ hsleepers
    rcases create_eq source attr slot hcreate with ⟨m, _, _, rfl⟩
    exact absurd rfl hsleepers
  have hunharmed : (start slot clock).Unharmed := fun t =>
    ⟨fun _ _ => by simp only [start, ne_eq, reduceCtorEq, not_false_eq_true],
      by simp only [start, ne_eq, reduceCtorEq, not_false_eq_true]⟩
  exact Schedule.play_keeps step Act.Uncancelled (fun _ => True)
    (fun s => s.Sane ∧ s.Alert ∧ s.Unharmed)
    (fun s a s' es hI hP _ hstep => by
      have hh := step_happened s s' a es hI.1 hstep
      exact ⟨happened_sane s s' a es hI.1 hh, happened_alert s s' a es hI.1 hI.2.1 hh,
        happened_unharmed s s' a es hI.2.2 hP hh⟩)
    acts (start slot clock) s es
    ⟨start_sane slot clock source attr hcreate, hstart, hunharmed⟩ hacts (fun _ _ => trivial) h

end Crowd

end BinarySemaphore

end HostLayer
