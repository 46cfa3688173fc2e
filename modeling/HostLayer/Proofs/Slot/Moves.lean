import HostLayer.Proofs.Host.PlainMutex
import HostLayer.Sync.BinarySemaphore

/-!
# Slot Moves

The single moves of a call on a binary semaphore.

The step function of a call runs through the rules of the mutex, through the
steps of the wait on the condition variable and through the translation of all
the host's reasons. Here it is taken apart for the only situation that comes
up: the mutex is plain, and a thread that stands inside holds it. What is left
is `Moved`, a list of thirteen moves with nothing of the host in it, and one
more for the end of the call.

Nothing else about the step function is used later. A step is a function of the
place, so `step_cases` says both that there are no other moves and that a thread
that is not `Stuck` makes one.

## Main definitions

* `BinarySemaphore.Place.inside`: The places at which the mutex is held.
* `BinarySemaphore.Use.waits`: The calls that wait for the token.
* `BinarySemaphore.woken`: The answer of the condition variable.
* `BinarySemaphore.Moved`: One move within a call.
* `BinarySemaphore.Stuck`: The reasons for not moving.
* `BinarySemaphore.Place.Fits`: What a place says about the call.

## Theorems

* `BinarySemaphore.step_waiting_cases`: What a step of a wait does.
* `BinarySemaphore.step_cases`: What a step does.
* `BinarySemaphore.Moved.unique`, `BinarySemaphore.Moved.step_eq`: The moves are
  those that are made, one at each place.
* `BinarySemaphore.Stuck.not_inside`: Whoever holds the mutex can move.
* `BinarySemaphore.Moved.plain`, `BinarySemaphore.Moved.clock_eq`: What no move
  changes.
* `BinarySemaphore.Moved.fits`: Calls come only to places that fit them.
* `BinarySemaphore.Moved.holder`: The mutex goes with the place.
* `BinarySemaphore.Moved.sleepers`, `BinarySemaphore.Moved.sleepers_nodup`: Who
  sleeps after a move.
* `BinarySemaphore.Moved.flag_eq`, `BinarySemaphore.Moved.flag_entering`: When
  the token is touched, and who has found none.
-/

namespace HostLayer

namespace BinarySemaphore

/-- A thread that stands here holds the mutex. -/
def Place.inside : Place → Bool
  | .testing => true
  | .announcing => true
  | .waiting .entering => true
  | .lastLook => true
  | .leaving _ => true
  | _ => false

/-- The call waits if it finds the slot empty. -/
def Use.waits : Use → Bool
  | .wait => true
  | .timedWait _ => true
  | _ => false

/-- The answer of a wait on the condition variable that ended for a reason. -/
def woken (use : Use) (why : Except Errno Unit) : Answer Unit :=
  (Errno.answer Condition.waitCause (Condition.call (deadline? use)) why).1

/-- One move of the thread `t` within a call, at a time that `clock` shows: the
    place before, the slot after it, and the place after it. -/
inductive Moved (t : ThreadId) (use : Use) (clock : Clock) (s : BinarySemaphore) :
    Place → BinarySemaphore → Place → Prop
  /-- The mutex is taken. -/
  | enter (h : s.mutex.holder = none) :
      Moved t use clock s .entering { s with mutex := s.mutex.taken t } .testing
  /-- The token is put in. -/
  | fill (h : use = .post) :
      Moved t use clock s .testing { s with flag := true } .announcing
  /-- The token is taken at once. -/
  | take (h : use ≠ .post) (hf : s.flag = true) :
      Moved t use clock s .testing { s with flag := false } (.leaving (.ok ()))
  /-- The slot is empty, and the call does not wait. -/
  | refuse (h : use = .tryWait) (hf : s.flag = false) :
      Moved t use clock s .testing s (.leaving (.error .timeout))
  /-- The slot is empty, and the call waits. -/
  | begin (h : use.waits = true) (hf : s.flag = false) :
      Moved t use clock s .testing s (.waiting .entering)
  /-- A sleeper is woken. -/
  | announce :
      Moved t use clock s .announcing { s with condition := s.condition.signal }
        (.leaving (.ok ()))
  /-- The deadline is none that a wait can have. -/
  | reject (h : Condition.accepts (deadline? use) = false) :
      Moved t use clock s (.waiting .entering) s (.leaving (.error .invalidParam))
  /-- The mutex is given up, and the thread sleeps. -/
  | sleep (h : Condition.accepts (deadline? use) = true) :
      Moved t use clock s (.waiting .entering)
        { s with
          condition := s.condition.putToSleep t
          mutex := { s.mutex.freed with awaited := s.mutex.awaited + 1 } }
        (.waiting .asleep)
  /-- The thread finds itself awake. -/
  | wake (h : t ∉ s.condition.sleepers) :
      Moved t use clock s (.waiting .asleep) s (.waiting (.returning (.ok ())))
  /-- The deadline has passed, and the thread gets up. -/
  | tire (h : t ∈ s.condition.sleepers)
      (hl : s.condition.late clock (deadline? use) = true) :
      Moved t use clock s (.waiting .asleep) { s with condition := s.condition.remove t }
        (.waiting (.returning (.error .timedOut)))
  /-- The thread has the mutex again. -/
  | retake (why : Except Errno Unit) (h : s.mutex.holder = none) :
      Moved t use clock s (.waiting (.returning why))
        { s with mutex := { s.mutex.taken t with awaited := s.mutex.awaited - 1 } }
        (afterWait use (woken use why))
  /-- The token has come in the meantime. -/
  | takeLast (hf : s.flag = true) :
      Moved t use clock s .lastLook { s with flag := false } (.leaving (.ok ()))
  /-- The slot is empty, and the deadline has passed. -/
  | refuseLast (hf : s.flag = false) :
      Moved t use clock s .lastLook s (.leaving (.error .timeout))

/-- What keeps the thread `t` from moving. -/
inductive Stuck (t : ThreadId) (use : Use) (clock : Clock) (s : BinarySemaphore) : Place → Prop
  /-- The mutex is held. -/
  | locked (h : s.mutex.holder ≠ none) : Stuck t use clock s .entering
  /-- The mutex is held, and the thread has been woken. -/
  | relocked (why : Except Errno Unit) (h : s.mutex.holder ≠ none) :
      Stuck t use clock s (.waiting (.returning why))
  /-- The thread sleeps. -/
  | sleeping (h : t ∈ s.condition.sleepers)
      (hl : s.condition.late clock (deadline? use) = false) :
      Stuck t use clock s (.waiting .asleep)

-- A call that takes finds the token or does not.
theorem step_testing (c : Caller) (use : Use) (clock : Clock) (s : BinarySemaphore)
    (h : use ≠ .post) :
    step c use clock s .testing = if s.flag then .goto { s with flag := false } (.leaving (.ok ())) []
      else .goto s (whenEmpty use) [] := by
  cases use with
  | post => exact absurd rfl h
  | wait => rfl
  | tryWait => rfl
  | timedWait d => rfl

-- A reason other than a timeout ends a call, whatever call it is.
theorem afterWait_invalidParam (use : Use) :
    afterWait use (.error .invalidParam) = .leaving (.error .invalidParam) := by
  cases use <;> rfl

/-- The steps at the condition variable. -/
theorem step_waiting_cases (c : Caller) (use : Use) (clock : Clock) (s : BinarySemaphore)
    (p : Condition.Place) (hm : s.mutex.Plain)
    (hin : (Place.waiting p).inside = true → s.mutex.holder = some c.thread) :
    (∃ s' p' notes, step c use clock s (.waiting p) = .goto s' p' notes ∧
      Moved c.thread use clock s (.waiting p) s' p') ∨
    (step c use clock s (.waiting p) = .waits ∧ Stuck c.thread use clock s (.waiting p)) := by
  cases p with
  | entering =>
      -- The deadline is looked at before the mutex is given up.
      refine Or.inl ?_
      cases ha : Condition.accepts (deadline? use) with
      | false =>
          refine ⟨s, _, [], ?_, .reject ha⟩
          rw [← afterWait_invalidParam use]
          simp only [step, Condition.step, ha, Bool.not_false, if_true, Step.lift]
          rfl
      | true =>
          refine ⟨_, _, [], ?_, .sleep ha⟩
          simp only [step, Condition.step, ha, Bool.not_true, Bool.false_eq_true, if_false,
            waitState, hm.releaseToWait_holder c.thread (hin rfl), Step.lift]
          rfl
  | asleep =>
      -- A thread that is still a sleeper can only be late.
      by_cases hs : c.thread ∈ s.condition.sleepers
      · have hc : s.condition.sleepers.contains c.thread = true :=
          List.contains_iff_mem.mpr hs
        cases hl : s.condition.late clock (deadline? use) with
        | true =>
            refine Or.inl ⟨_, _, [], ?_, .tire hs hl⟩
            simp only [step, Condition.step, waitState, hc, Bool.not_true, Bool.false_eq_true,
              if_false, hl, if_true, Step.lift]
            rfl
        | false =>
            refine Or.inr ⟨?_, .sleeping hs hl⟩
            simp only [step, Condition.step, waitState, hc, Bool.not_true, Bool.false_eq_true,
              if_false, hl, Step.lift]
      · have hc : s.condition.sleepers.contains c.thread = false := by
          rw [Bool.eq_false_iff]
          exact fun h => hs (List.contains_iff_mem.mp h)
        refine Or.inl ⟨s, _, [], ?_, .wake hs⟩
        simp only [step, Condition.step, waitState, hc, Bool.not_false, if_true, Step.lift]
        rfl
  | returning why =>
      cases hh : s.mutex.holder with
      | none =>
          refine Or.inl ⟨_, _,
            (Errno.answer Condition.waitCause (Condition.call (deadline? use)) why).2, ?_,
            .retake why hh⟩
          simp only [step, Condition.step, waitState, hm.retake_free c hh, Condition.finish,
            Step.lift]
          rfl
      | some t =>
          refine Or.inr ⟨?_, .relocked why (by rw [hh]; exact Option.some_ne_none t)⟩
          simp only [step, Condition.step, waitState, hm.retake_held c t hh, Step.lift]

/-- A step is one of the moves, or the end of the call, or there is none. -/
theorem step_cases (c : Caller) (use : Use) (clock : Clock) (s : BinarySemaphore) (p : Place)
    (hm : s.mutex.Plain) (hin : p.inside = true → s.mutex.holder = some c.thread) :
    (∃ s' p' notes, step c use clock s p = .goto s' p' notes ∧
      Moved c.thread use clock s p s' p') ∨
    (∃ r, p = .leaving r ∧
      step c use clock s p = .done { s with mutex := s.mutex.freed } r []) ∨
    (step c use clock s p = .waits ∧ Stuck c.thread use clock s p) := by
  cases p with
  | entering =>
      cases hh : s.mutex.holder with
      | none =>
          refine Or.inl ⟨_, _, [], ?_, .enter hh⟩
          simp only [step, hm.lock_free c hh]
      | some t =>
          refine Or.inr (Or.inr ⟨?_, .locked (by rw [hh]; exact Option.some_ne_none t)⟩)
          simp only [step, hm.lock_held c t hh]
  | testing =>
      refine Or.inl ?_
      by_cases hpost : use = .post
      · exact ⟨_, _, [], by rw [hpost]; rfl, .fill hpost⟩
      · rw [step_testing c use clock s hpost]
        cases hf : s.flag with
        | true => exact ⟨_, _, [], rfl, .take hpost hf⟩
        | false =>
            cases use with
            | post => exact absurd rfl hpost
            | wait => exact ⟨s, _, [], rfl, .begin rfl hf⟩
            | tryWait => exact ⟨s, _, [], rfl, .refuse rfl hf⟩
            | timedWait d => exact ⟨s, _, [], rfl, .begin rfl hf⟩
  | announcing => exact Or.inl ⟨_, _, [], rfl, .announce⟩
  | waiting p =>
      rcases step_waiting_cases c use clock s p hm hin with h | h
      · exact Or.inl h
      · exact Or.inr (Or.inr h)
  | lastLook =>
      refine Or.inl ?_
      cases hf : s.flag with
      | true => exact ⟨_, _, [], by simp only [step, hf, if_true], .takeLast hf⟩
      | false =>
          exact ⟨s, _, [], by simp only [step, hf, Bool.false_eq_true, if_false], .refuseLast hf⟩
  | leaving r =>
      refine Or.inr (Or.inl ⟨r, rfl, ?_⟩)
      simp only [step, hm.unlock_holder c.thread (hin rfl)]

/-- A place allows one move only. -/
theorem Moved.unique {t : ThreadId} {use : Use} {clock : Clock} {s s₁ s₂ : BinarySemaphore}
    {p p₁ p₂ : Place} (h1 : Moved t use clock s p s₁ p₁) (h2 : Moved t use clock s p s₂ p₂) :
    s₁ = s₂ ∧ p₁ = p₂ := by
  have hflag : ∀ {P : Prop}, s.flag = true → s.flag = false → P :=
    fun ht hf => absurd (hf.symm.trans ht) Bool.false_ne_true
  cases h1 with
  | fill hp =>
      cases h2 with
      | fill _ => exact ⟨rfl, rfl⟩
      | take hne _ => exact absurd hp hne
      | refuse hp' _ => exact absurd (hp.symm.trans hp') (by simp only [reduceCtorEq,
          not_false_eq_true])
      | begin hw _ => rw [hp] at hw; exact absurd hw Bool.false_ne_true
  | take hne ht =>
      cases h2 with
      | fill hp => exact absurd hp hne
      | take _ _ => exact ⟨rfl, rfl⟩
      | refuse _ hf => exact hflag ht hf
      | begin _ hf => exact hflag ht hf
  | refuse hp hf =>
      cases h2 with
      | fill hp' => exact absurd (hp.symm.trans hp') (by simp only [reduceCtorEq,
          not_false_eq_true])
      | take _ ht => exact hflag ht hf
      | refuse _ _ => exact ⟨rfl, rfl⟩
      | begin hw _ => rw [hp] at hw; exact absurd hw Bool.false_ne_true
  | begin hw hf =>
      cases h2 with
      | fill hp => rw [hp] at hw; exact absurd hw Bool.false_ne_true
      | take _ ht => exact hflag ht hf
      | refuse hp _ => rw [hp] at hw; exact absurd hw Bool.false_ne_true
      | begin _ _ => exact ⟨rfl, rfl⟩
  | reject hr =>
      cases h2 with
      | reject _ => exact ⟨rfl, rfl⟩
      | sleep ha => exact absurd (hr.symm.trans ha) Bool.false_ne_true
  | sleep ha =>
      cases h2 with
      | reject hr => exact absurd (hr.symm.trans ha) Bool.false_ne_true
      | sleep _ => exact ⟨rfl, rfl⟩
  | wake hn =>
      cases h2 with
      | wake _ => exact ⟨rfl, rfl⟩
      | tire hm _ => exact absurd hm hn
  | tire hm _ =>
      cases h2 with
      | wake hn => exact absurd hm hn
      | tire _ _ => exact ⟨rfl, rfl⟩
  | takeLast ht =>
      cases h2 with
      | takeLast _ => exact ⟨rfl, rfl⟩
      | refuseLast hf => exact hflag ht hf
  | refuseLast hf =>
      cases h2 with
      | takeLast ht => exact hflag ht hf
      | refuseLast _ => exact ⟨rfl, rfl⟩
  | enter _ => cases h2 with | enter _ => exact ⟨rfl, rfl⟩
  | announce => cases h2 with | announce => exact ⟨rfl, rfl⟩
  | retake why _ => cases h2 with | retake _ _ => exact ⟨rfl, rfl⟩

-- Whoever can move is not stuck.
theorem Moved.not_stuck {t : ThreadId} {use : Use} {clock : Clock} {s s' : BinarySemaphore}
    {p p' : Place} (h : Moved t use clock s p s' p') : ¬Stuck t use clock s p := by
  intro hst
  cases hst with
  | locked hheld => cases h with | enter hfree => exact hheld hfree
  | relocked _ hheld => cases h with | retake _ hfree => exact hheld hfree
  | sleeping hm hl =>
      cases h with
      | wake hn => exact hn hm
      | tire _ hl' => exact Bool.false_ne_true (hl.symm.trans hl')

/-- Every move is made. -/
theorem Moved.step_eq {c : Caller} {use : Use} {clock : Clock} {s s' : BinarySemaphore}
    {p p' : Place} (h : Moved c.thread use clock s p s' p') (hm : s.mutex.Plain)
    (hin : p.inside = true → s.mutex.holder = some c.thread) :
    ∃ notes, step c use clock s p = .goto s' p' notes := by
  rcases step_cases c use clock s p hm hin with
    ⟨s'', p'', notes, hstep, hmoved⟩ | ⟨r, rfl, _⟩ | ⟨_, hst⟩
  · rcases h.unique hmoved with ⟨rfl, rfl⟩
    exact ⟨notes, hstep⟩
  · cases h
  · exact absurd hst h.not_stuck

/-- A thread that holds the mutex is not stuck. -/
theorem Stuck.not_inside {t : ThreadId} {use : Use} {clock : Clock} {s : BinarySemaphore}
    {p : Place} (h : Stuck t use clock s p) : p.inside = false := by
  cases h <;> rfl

/-- No move touches what kind of mutex it is. -/
theorem Moved.plain {t : ThreadId} {use : Use} {clock : Clock} {s s' : BinarySemaphore}
    {p p' : Place} (h : Moved t use clock s p s' p') (hm : s.mutex.Plain) : s'.mutex.Plain := by
  cases h with
  | enter _ => exact hm.taken t
  | sleep _ => exact hm.freed.withAwaited _
  | retake _ _ => exact (hm.taken t).withAwaited _
  | _ => exact hm

/-- No move touches the clock of the waits. -/
theorem Moved.clock_eq {t : ThreadId} {use : Use} {clock : Clock} {s s' : BinarySemaphore}
    {p p' : Place} (h : Moved t use clock s p s' p') :
    s'.condition.clock = s.condition.clock := by
  cases h <;> rfl

/-- What a place says about the call that stands there. -/
def Place.Fits (use : Use) : Place → Prop
  | .announcing => use = .post
  | .waiting .entering => use.waits = true
  | .waiting .asleep => use.waits = true ∧ Condition.accepts (deadline? use) = true
  | .waiting (.returning why) => use.waits = true ∧
      (why = .ok () ∨ why = .error .timedOut ∧ ∃ d, use = .timedWait d)
  | .lastLook => ∃ d, use = .timedWait d
  | _ => True

-- Only a call with a deadline can be late.
theorem late_timedWait (s : BinarySemaphore) (clock : Clock) (use : Use)
    (h : s.condition.late clock (deadline? use) = true) : ∃ d, use = .timedWait d := by
  cases use with
  | timedWait d => exact ⟨d, rfl⟩
  | post => exact absurd h Bool.false_ne_true
  | wait => exact absurd h Bool.false_ne_true
  | tryWait => exact absurd h Bool.false_ne_true

-- A wait that was woken looks at the slot again, and one that was late does so
-- for the last time.
theorem afterWait_woken (use : Use) (why : Except Errno Unit)
    (h : (Place.waiting (.returning why)).Fits use) :
    (why = .ok () ∧ afterWait use (woken use why) = .testing) ∨
      (why = .error .timedOut ∧ afterWait use (woken use why) = .lastLook) := by
  rcases h.2 with rfl | ⟨rfl, d, rfl⟩
  · refine Or.inl ⟨rfl, ?_⟩
    cases use <;> rfl
  · exact Or.inr ⟨rfl, rfl⟩

/-- A call comes only to places that fit it. -/
theorem Moved.fits {t : ThreadId} {use : Use} {clock : Clock} {s s' : BinarySemaphore}
    {p p' : Place} (h : Moved t use clock s p s' p') (hp : p.Fits use) : p'.Fits use := by
  cases h with
  | enter _ => trivial
  | fill hpost => exact hpost
  | take _ _ => trivial
  | refuse _ _ => trivial
  | begin hw _ => exact hw
  | announce => trivial
  | reject _ => trivial
  | sleep ha => exact ⟨hp, ha⟩
  | wake _ => exact ⟨hp.1, Or.inl rfl⟩
  | tire _ hl => exact ⟨hp.1, Or.inr ⟨rfl, late_timedWait s clock use hl⟩⟩
  | retake why _ =>
      rcases afterWait_woken use why hp with ⟨_, h⟩ | ⟨rfl, h⟩
      · rw [h]
        trivial
      · rw [h]
        rcases hp.2 with hok | ⟨_, hd⟩
        · exact absurd hok (by simp only [reduceCtorEq, not_false_eq_true])
        · exact hd
  | takeLast _ => trivial
  | refuseLast _ => trivial

/-- The mutex goes with the place: it stays where it was, or is taken by a
    thread that comes inside, or is given up by one that leaves. -/
theorem Moved.holder {t : ThreadId} {use : Use} {clock : Clock} {s s' : BinarySemaphore}
    {p p' : Place} (h : Moved t use clock s p s' p') (hp : p.Fits use) :
    (s'.mutex.holder = s.mutex.holder ∧ p'.inside = p.inside) ∨
    (s.mutex.holder = none ∧ s'.mutex.holder = some t ∧ p'.inside = true) ∨
    (s'.mutex.holder = none ∧ p.inside = true ∧ p'.inside = false) := by
  cases h with
  | enter hfree => exact Or.inr (Or.inl ⟨hfree, rfl, rfl⟩)
  | sleep _ => exact Or.inr (Or.inr ⟨rfl, rfl, rfl⟩)
  | retake why hfree =>
      refine Or.inr (Or.inl ⟨hfree, rfl, ?_⟩)
      rcases afterWait_woken use why hp with ⟨_, h⟩ | ⟨_, h⟩
      · rw [h]
        rfl
      · rw [h]
        rfl
  | _ => exact Or.inl ⟨rfl, rfl⟩

/-- Whoever sleeps after a move has just gone to sleep, or has slept before and
    has not got up. -/
theorem Moved.sleepers {t : ThreadId} {use : Use} {clock : Clock} {s s' : BinarySemaphore}
    {p p' : Place} (h : Moved t use clock s p s' p') (u : ThreadId)
    (hu : u ∈ s'.condition.sleepers) :
    (u = t ∧ p' = .waiting .asleep) ∨
      (u ∈ s.condition.sleepers ∧ (u = t → p ≠ .waiting .asleep)) := by
  cases h with
  | sleep _ =>
      rcases List.mem_append.mp hu with hu | hu
      · exact Or.inr ⟨hu, fun _ => by simp only [ne_eq, Place.waiting.injEq, reduceCtorEq,
          not_false_eq_true]⟩
      · exact Or.inl ⟨List.mem_singleton.mp hu, rfl⟩
  | wake hn => exact Or.inr ⟨hu, fun he => absurd (he ▸ hu) hn⟩
  | tire _ _ =>
      rcases List.mem_filter.mp hu with ⟨hmem, hne⟩
      exact Or.inr ⟨hmem, fun he => absurd he (by simpa using hne)⟩
  | announce =>
      exact Or.inr ⟨Condition.signal_sleepers_subset s.condition hu,
        fun _ => by simp only [ne_eq, reduceCtorEq, not_false_eq_true]⟩
  | _ =>
      exact Or.inr ⟨hu, fun _ => by simp only [ne_eq, Place.waiting.injEq, reduceCtorEq,
        not_false_eq_true]⟩

/-- Nobody sleeps twice, if a thread that goes to sleep has not slept before. -/
theorem Moved.sleepers_nodup {t : ThreadId} {use : Use} {clock : Clock}
    {s s' : BinarySemaphore} {p p' : Place} (h : Moved t use clock s p s' p')
    (hn : s.condition.sleepers.Nodup) (ht : p ≠ .waiting .asleep → t ∉ s.condition.sleepers) :
    s'.condition.sleepers.Nodup := by
  cases h with
  | sleep _ =>
      have hout := ht (by simp only [ne_eq, Place.waiting.injEq, reduceCtorEq, not_false_eq_true])
      have hone : [t].Nodup := List.nodup_cons.mpr ⟨List.not_mem_nil, List.nodup_nil⟩
      refine List.nodup_append.mpr ⟨hn, hone, fun a ha b hb => ?_⟩
      rw [List.mem_singleton.mp hb]
      exact fun he => hout (he ▸ ha)
  | tire _ _ => exact hn.filter _
  | announce => exact hn.sublist (List.drop_sublist 1 _)
  | _ => exact hn

/-- The token is touched inside only. -/
theorem Moved.flag_eq {t : ThreadId} {use : Use} {clock : Clock} {s s' : BinarySemaphore}
    {p p' : Place} (h : Moved t use clock s p s' p') (hp : p.inside = false) :
    s'.flag = s.flag := by
  cases h with
  | fill _ => exact absurd hp (by simp only [Place.inside, Bool.true_eq_false, not_false_eq_true])
  | take _ _ =>
      exact absurd hp (by simp only [Place.inside, Bool.true_eq_false, not_false_eq_true])
  | takeLast _ =>
      exact absurd hp (by simp only [Place.inside, Bool.true_eq_false, not_false_eq_true])
  | _ => rfl

/-- A thread that is about to sleep has found the slot empty. -/
theorem Moved.flag_entering {t : ThreadId} {use : Use} {clock : Clock} {s s' : BinarySemaphore}
    {p p' : Place} (h : Moved t use clock s p s' p') (hp : p.Fits use)
    (hp' : p' = .waiting .entering) : s'.flag = false := by
  cases h with
  | begin _ hf => exact hf
  | retake why _ =>
      rcases afterWait_woken use why hp with ⟨_, h⟩ | ⟨_, h⟩
      · rw [h] at hp'
        exact absurd hp' (by simp only [reduceCtorEq, not_false_eq_true])
      · rw [h] at hp'
        exact absurd hp' (by simp only [reduceCtorEq, not_false_eq_true])
  | _ => exact absurd hp' (by simp only [Place.waiting.injEq, reduceCtorEq, not_false_eq_true])

end BinarySemaphore

end HostLayer
