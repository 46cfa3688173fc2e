import HostLayer.Sync.Condition
import Mathlib.Tactic.SplitIfs

/-!
# Refusals around Waits

The reasons for which a wait on a condition variable fails.

A wait gives its mutex up and takes it again, and the mutex can be of any kind, so
both can be refused. What matters to a caller is what the refusal is not: it is
never the passing of a deadline, and it is no malformed request unless the mutex
has a ceiling that does not admit the caller. A ceiling has two reasons not to.

## Theorems

* `Host.Mutex.lock_refused`, `Host.Mutex.unlock_refused`: The reasons of the host.
* `Condition.finish_of_lock`, `Condition.finish_of_unlock`: What becomes of them.
-/

namespace HostLayer

namespace Host

namespace Mutex

-- Only a ceiling keeps a caller out.
theorem protocol_of_not_admits {m : Mutex} {c : Caller} (h : m.admits c = false) :
    m.protocol = .protect := by
  unfold admits at h
  rw [Bool.or_eq_false_iff, bne_eq_false_iff_eq] at h
  exact h.1

-- A free mutex is refused because of what has become of its last holder.
theorem takeFree_refused {m m' : Mutex} {t : ThreadId} {e : Errno}
    (h : m.takeFree t = .settled m' (.error e)) : e = .notRecoverable ∨ e = .ownerDead := by
  unfold takeFree at h
  split at h
  next => exact Or.inl (Except.error.inj (Attempt.settled.inj h).2).symm
  next => exact Or.inr (Except.error.inj (Attempt.settled.inj h).2).symm
  all_goals exact absurd (Attempt.settled.inj h).2 (by simp only [reduceCtorEq, not_false_eq_true])

-- A holder is refused only if it holds the mutex as often as it can.
theorem nest_refused {m m' : Mutex} {e : Errno} (h : m.nest = .settled m' (.error e)) :
    e = .tryAgain := by
  unfold nest at h
  split_ifs at h
  · exact absurd (Attempt.settled.inj h).2 (by simp only [reduceCtorEq, not_false_eq_true])
  · exact (Except.error.inj (Attempt.settled.inj h).2).symm

/-- The reasons for which a mutex is not given to somebody who waits for it. -/
theorem lock_refused {m m' : Mutex} {c : Caller} {e : Errno}
    (h : m.lock c = .settled m' (.error e)) :
    e = .deadlock ∨ e = .tryAgain ∨ e = .notRecoverable ∨ e = .ownerDead ∨
      ((e = .invalid ∨ e = .notPermitted) ∧ m.protocol = .protect) := by
  have hceiling : m.admits c = false → Attempt.settled m (.error (m.barrier c))
      = .settled m' (.error e) → (e = .invalid ∨ e = .notPermitted) ∧ m.protocol = .protect :=
    fun ha h => by
      rw [← Except.error.inj (Attempt.settled.inj h).2]
      exact ⟨m.barrier_cases c, protocol_of_not_admits ha⟩
  unfold lock at h
  cases hby : m.heldBy c.thread with
  | true =>
      -- The holder itself asks again.
      rw [hby, if_pos rfl] at h
      split at h
      next => exact Or.inl (Except.error.inj (Attempt.settled.inj h).2).symm
      next => exact Or.inr (Or.inl (nest_refused h))
      all_goals
        split_ifs at h with ha
        exact Or.inr (Or.inr (Or.inr (Or.inr (hceiling (Bool.eq_false_iff.mpr ha) h))))
  | false =>
      rw [hby, if_neg Bool.false_ne_true] at h
      cases ha : m.admits c with
      | false =>
          rw [ha, Bool.not_false, if_pos rfl] at h
          exact Or.inr (Or.inr (Or.inr (Or.inr (hceiling ha h))))
      | true =>
          rw [ha, Bool.not_true, if_neg Bool.false_ne_true] at h
          split at h
          next => exact Or.inr (Or.inr ((takeFree_refused h).imp id Or.inl))
          next => exact absurd h (by simp only [reduceCtorEq, not_false_eq_true])

/-- The reasons for which a mutex is not taken back. -/
theorem unlock_refused {m m' : Mutex} {t : ThreadId} {e : Errno}
    (h : m.unlock t = (m', .error e)) : e = .notRecoverable ∨ e = .notPermitted := by
  have herror : ∀ {x : Mutex} {r : Except Errno Unit}, (x, r) = (m', .error e) → r = .error e :=
    fun h => (Prod.mk.inj h).2
  unfold unlock at h
  split_ifs at h with hby hdepth hbad hchecks
  · exact Or.inl (Except.error.inj (herror h)).symm
  · exact absurd (herror h) (by simp only [reduceCtorEq, not_false_eq_true])
  · exact absurd (herror h) (by simp only [reduceCtorEq, not_false_eq_true])
  · exact Or.inr (Except.error.inj (herror h)).symm
  · exact absurd (herror h) (by simp only [reduceCtorEq, not_false_eq_true])

end Mutex

end Host

namespace Condition

/-- A wait that does not get its mutex back says why, and that is not its
    deadline. -/
theorem finish_of_lock {m m' : Host.Mutex} {c : Caller} {e : Errno}
    (h : m.lock c = .settled m' (.error e)) (deadline : Option Timer) (s : WaitState) :
    ∃ cause, finish deadline s (.error e) = .done s (.error cause) [] ∧ cause ≠ .timeout ∧
      (cause = .invalidParam → m.protocol = .protect) := by
  rcases Host.Mutex.lock_refused h with rfl | rfl | rfl | rfl | ⟨rfl | rfl, hp⟩
  · exact ⟨_, rfl, by decide, fun h => absurd h (by decide)⟩
  · exact ⟨_, rfl, by decide, fun h => absurd h (by decide)⟩
  · exact ⟨_, rfl, by decide, fun h => absurd h (by decide)⟩
  · exact ⟨_, rfl, by decide, fun h => absurd h (by decide)⟩
  · exact ⟨_, rfl, by decide, fun _ => hp⟩
  · exact ⟨_, rfl, by decide, fun _ => hp⟩

/-- A wait whose mutex cannot be given up says why. -/
theorem finish_of_unlock {m m' : Host.Mutex} {t : ThreadId} {e : Errno}
    (h : m.unlock t = (m', .error e)) (deadline : Option Timer) (s : WaitState) :
    ∃ cause, finish deadline s (.error e) = .done s (.error cause) [] ∧ cause ≠ .timeout ∧
      cause ≠ .invalidParam := by
  rcases Host.Mutex.unlock_refused h with rfl | rfl
  · exact ⟨_, rfl, by decide, by decide⟩
  · exact ⟨_, rfl, by decide, by decide⟩

/-- The steps of a wait whose deadline is normalized. It leads on to sleep, or
    awake to the mutex, and otherwise it is over or waits. -/
inductive Stepped (c : Caller) (d : Timer) (clock : Clock) (s : WaitState) :
    Place → Step WaitState Place (Answer Unit) → Prop
  /-- The mutex is given up, and the thread sleeps. -/
  | sleep (m : Host.Mutex) :
      Stepped c d clock s .entering (.goto ⟨s.condition.putToSleep c.thread, m⟩ .asleep [])
  /-- The mutex is not the thread's to give up. -/
  | refuse (s' : WaitState) (cause : Error) (ht : cause ≠ .timeout) (hi : cause ≠ .invalidParam) :
      Stepped c d clock s .entering (.done s' (.error cause) [])
  /-- The thread finds itself awake. -/
  | wake : Stepped c d clock s .asleep (.goto s (.returning (.ok ())) [])
  /-- The deadline has passed. -/
  | tire (h : s.condition.late clock (some d) = true) :
      Stepped c d clock s .asleep
        (.goto { s with condition := s.condition.remove c.thread }
          (.returning (.error .timedOut)) [])
  | rest (p : Place) : Stepped c d clock s p .waits
  /-- The thread has the mutex again. -/
  | back (why : Except Errno Unit) (m : Host.Mutex) :
      Stepped c d clock s (.returning why) (finish (some d) { s with mutex := m } why)
  /-- The thread cannot have the mutex again. -/
  | lose (why : Except Errno Unit) (s' : WaitState) (cause : Error) (ht : cause ≠ .timeout)
      (hi : cause = .invalidParam → s.mutex.protocol = .protect) :
      Stepped c d clock s (.returning why) (.done s' (.error cause) [])

theorem step_stepped (c : Caller) (d : Timer) (hd : d.Normalized) (clock : Clock) (s : WaitState)
    (p : Place) : Stepped c d clock s p (step c (some d) clock s p) := by
  cases p with
  | entering =>
      have ha : accepts (some d) = true := decide_eq_true hd
      simp only [step, ha, Bool.not_true, Bool.false_eq_true, if_false]
      unfold Host.Mutex.releaseToWait
      rcases hu : s.mutex.unlock c.thread with ⟨m, e | _⟩
      · rcases finish_of_unlock hu (some d) { s with mutex := m } with ⟨cause, hf, ht, hi⟩
        simp only []
        rw [hf]
        exact .refuse _ cause ht hi
      · exact .sleep _
  | asleep =>
      simp only [step]
      split_ifs with hs hl
      · exact .wake
      · exact .tire hl
      · exact .rest _
  | returning why =>
      simp only [step]
      unfold Host.Mutex.retake
      rcases hl : s.mutex.lock c with ⟨m, e | _⟩ | _
      · rcases finish_of_lock hl (some d)
          { s with mutex := { m with awaited := m.awaited - 1 } } with ⟨cause, hf, ht, hi⟩
        simp only []
        rw [hf]
        exact .lose why _ cause ht hi
      · exact .back why _
      · exact .rest _

end Condition

end HostLayer
