import HostLayer.Sync.Mutex

/-!
# Plain Mutexes

What the calls do to a mutex without any frills.

A mutex that is normal, not robust and without a protocol does not look at who
calls. It is free or it is held, and as long as only its holder gives it up
nothing else can be found out about it: taking a free one succeeds, taking a
held one waits, and giving it up frees it. The end of a thread leaves it alone,
and then nobody gives it up.

The mutexes inside other objects are of this kind, whatever marks the object
itself was made with, so these equations stand in for the whole table of rules.

## Main definitions

* `Host.Mutex.Plain`: A mutex without any frills.

## Theorems

* `Mutex.createRaw_plain`: What is made from a plain word is plain and free.
* `Host.Mutex.Plain.lock_free`, `Host.Mutex.Plain.lock_held`: Taking it.
* `Host.Mutex.Plain.unlock_holder`: Giving it up.
* `Host.Mutex.Plain.releaseToWait_holder`, `Host.Mutex.Plain.retake_free`,
  `Host.Mutex.Plain.retake_held`: The same around a wait.
* `Host.Mutex.Plain.holderEnded`: The end of a thread.
-/

namespace HostLayer

namespace Host

namespace Mutex

/-- A normal mutex that is not robust, has no protocol and is in order. -/
structure Plain (m : Mutex) : Prop where
  kind_eq : m.kind = .normal
  robust_eq : m.robust = false
  protocol_eq : m.protocol = .none
  health_eq : m.health = .sound

namespace Plain

theorem taken {m : Mutex} (h : m.Plain) (t : ThreadId) : (m.taken t).Plain :=
  ⟨h.kind_eq, h.robust_eq, h.protocol_eq, h.health_eq⟩

theorem freed {m : Mutex} (h : m.Plain) : m.freed.Plain :=
  ⟨h.kind_eq, h.robust_eq, h.protocol_eq, h.health_eq⟩

-- How many threads will come back does not matter.
theorem withAwaited {m : Mutex} (h : m.Plain) (n : Nat) : { m with awaited := n }.Plain :=
  ⟨h.kind_eq, h.robust_eq, h.protocol_eq, h.health_eq⟩

-- A mutex without a ceiling admits everybody.
theorem admits {m : Mutex} (h : m.Plain) (c : Caller) : m.admits c = true := by
  unfold Mutex.admits
  rw [h.protocol_eq]
  rfl

theorem lock_free {m : Mutex} (h : m.Plain) (c : Caller) (hfree : m.holder = none) :
    m.lock c = .settled (m.taken c.thread) (.ok ()) := by
  have hby : m.heldBy c.thread = false := by
    unfold Mutex.heldBy
    rw [hfree]
    rfl
  unfold Mutex.lock Mutex.takeFree
  simp only [hby, Bool.false_eq_true, if_false, h.admits c, Bool.not_true, hfree, h.health_eq]

/-- Whoever holds it, taking it waits; its own holder waits for itself. -/
theorem lock_held {m : Mutex} (h : m.Plain) (c : Caller) (t : ThreadId)
    (hheld : m.holder = some t) : m.lock c = .waiting := by
  unfold Mutex.lock
  by_cases hby : m.heldBy c.thread
  · simp only [hby, if_true, h.kind_eq, h.admits c]
  · simp only [hby, Bool.false_eq_true, if_false, h.admits c, Bool.not_true, hheld]

theorem unlock_holder {m : Mutex} (h : m.Plain) (t : ThreadId) (hheld : m.holder = some t) :
    m.unlock t = (m.freed, .ok ()) := by
  have hby : m.heldBy t = true := by
    unfold Mutex.heldBy
    rw [hheld]
    exact beq_self_eq_true (some t)
  unfold Mutex.unlock Mutex.release
  simp only [hby, h.health_eq, h.kind_eq, reduceCtorEq, false_and, if_false]
  rfl

theorem releaseToWait_holder {m : Mutex} (h : m.Plain) (t : ThreadId)
    (hheld : m.holder = some t) :
    m.releaseToWait t = ({ m.freed with awaited := m.awaited + 1 }, .ok ()) := by
  unfold Mutex.releaseToWait
  rw [h.unlock_holder t hheld]
  rfl

theorem retake_free {m : Mutex} (h : m.Plain) (c : Caller) (hfree : m.holder = none) :
    m.retake c = .settled { m.taken c.thread with awaited := m.awaited - 1 } (.ok ()) := by
  unfold Mutex.retake
  rw [h.lock_free c hfree]
  rfl

theorem retake_held {m : Mutex} (h : m.Plain) (c : Caller) (t : ThreadId)
    (hheld : m.holder = some t) : m.retake c = .waiting := by
  unfold Mutex.retake
  rw [h.lock_held c t hheld]

/-- The end of a thread is not noticed. -/
theorem holderEnded {m : Mutex} (h : m.Plain) (t : ThreadId) : m.holderEnded t = m := by
  unfold Mutex.holderEnded
  simp only [h.robust_eq, Bool.and_false, Bool.false_and, Bool.false_eq_true, if_false]

end Plain

end Mutex

end Host

/-- A plain word makes a plain mutex that nobody holds, shared or not. -/
theorem Mutex.createRaw_plain (shared : Bool) :
    ∃ m, Mutex.createRaw (SyncAttr.plain.withProcessShared shared) = .ok m ∧ m.Plain ∧
      m.holder = none := by
  cases shared with
  | false => exact ⟨_, rfl, ⟨rfl, rfl, rfl, rfl⟩, rfl⟩
  | true => exact ⟨_, rfl, ⟨rfl, rfl, rfl, rfl⟩, rfl⟩

end HostLayer
