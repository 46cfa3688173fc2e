import HostLayer.Proofs.Schedule
import HostLayer.Proofs.Slot.Moves
import Mathlib.Logic.Function.Basic

/-!
# Crowds

Any number of threads at one binary semaphore, moving one at a time in any
order.

A thread makes no call, or stands at some place of one, or has been told to end
while it slept and is on its way out, or has ended. Whoever is told to end goes
on as every sleeper does that wakes, as far as to have the mutex again, and then
ends; nothing on its stack gives the mutex up.

The host takes part in a run, too. It may wake a sleeper for no reason, it may
choose whom a signal wakes, since the sleepers can be put in any order before,
and time passes as it likes. Nothing is said about a clock being steady, so
what matters about a deadline later is which times a thread has seen.

The moves of a thread are those of `Moved`, and `Happened` adds the other acts,
so that the step function is opened only once more, in `Crowd.step_happened`.
`Crowd.Sane` is what every crowd keeps that began with a new slot: the mutex is
plain, its holder is the thread that stands inside or one that has ended, and
only threads that sleep are kept as sleepers.

## Main definitions

* `BinarySemaphore.Activity`: What a thread does.
* `BinarySemaphore.Crowd`: A slot with the threads at it.
* `BinarySemaphore.Act`, `BinarySemaphore.Report`: What can happen, and what is
  seen of it.
* `BinarySemaphore.Crowd.step`: The crowd after an act.
* `BinarySemaphore.Crowd.Happened`: What an act does.
* `BinarySemaphore.Crowd.Sane`: What every crowd keeps.

## Theorems

* `BinarySemaphore.create_eq`, `BinarySemaphore.create_ok`: A new slot.
* `BinarySemaphore.Crowd.step_happened`: A step does what acts do.
* `BinarySemaphore.Crowd.start_sane`, `BinarySemaphore.Crowd.step_sane`: Every
  crowd is sane.
-/

namespace HostLayer

namespace BinarySemaphore

/-- What a thread does. -/
inductive Activity
  | idle
  /-- The thread makes a call. -/
  | calling (use : Use) (p : Place)
  /-- The thread was told to end while it slept in a call. -/
  | ending (use : Use) (p : Place)
  | ended

/-- The thread holds the mutex. -/
def Activity.inside : Activity → Bool
  | .calling _ p => p.inside
  | .ended => true
  | _ => false

/-- A slot with the threads at it, and the time. -/
structure Crowd where
  slot : BinarySemaphore
  clock : Clock
  activity : ThreadId → Activity

/-- What can happen to a crowd. -/
inductive Act
  /-- A thread starts a call. -/
  | call (t : ThreadId) (use : Use)
  /-- A thread makes a step. -/
  | move (c : Caller)
  /-- The host wakes a thread for no reason. -/
  | wake (t : ThreadId)
  /-- The host puts the sleepers in another order. -/
  | arrange (order : List ThreadId)
  /-- Time passes. -/
  | pass (clock : Clock)
  /-- A thread that sleeps is told to end. -/
  | cancel (t : ThreadId)

/-- What is seen of an act. -/
inductive Report
  | called (t : ThreadId) (use : Use)
  | returned (t : ThreadId) (use : Use) (r : Answer Unit)
  | passed (clock : Clock)
  | cancelled (t : ThreadId)

/-- A new slot is empty, nobody sleeps at it, and its mutex is plain and free. -/
theorem create_eq (source : ClockSource) (attr : SyncAttr) (slot : BinarySemaphore)
    (h : create source attr = .ok slot) : ∃ m : Host.Mutex, m.Plain ∧ m.holder = none ∧
      slot = ⟨m, Condition.create source, false⟩ := by
  rcases Mutex.createRaw_plain attr.processShared with ⟨m, hm, hplain, hfree⟩
  unfold create at h
  rw [hm] at h
  exact ⟨m, hplain, hfree, (Except.ok.inj h).symm⟩

/-- Whatever the word, there is a new slot for it, with a condition on the clock. -/
theorem create_ok (source : ClockSource) (attr : SyncAttr) :
    ∃ slot, create source attr = .ok slot := by
  rcases Mutex.createRaw_plain attr.processShared with ⟨m, hm, _, _⟩
  unfold create
  rw [hm]
  exact ⟨_, rfl⟩

namespace Crowd

/-- A slot that nobody uses yet. -/
def start (slot : BinarySemaphore) (clock : Clock) : Crowd :=
  ⟨slot, clock, fun _ => .idle⟩

/-- The crowd with another slot and another activity of a thread. -/
def put (s : Crowd) (slot : BinarySemaphore) (t : ThreadId) (a : Activity) : Crowd :=
  { s with slot := slot, activity := Function.update s.activity t a }

/-- The slot with some thread awake, or the sleepers in another order. -/
def withSleepers (s : BinarySemaphore) (sleepers : List ThreadId) : BinarySemaphore :=
  { s with condition := { s.condition with sleepers := sleepers } }

/-- A thread that was told to end makes a step. It ends as soon as it has come
    to the end of its wait. -/
def stepEnding (s : Crowd) (c : Caller) (use : Use) (p : Place) : Option (Crowd × List Report) :=
  match BinarySemaphore.step c use s.clock s.slot p with
  | .goto slot (.waiting p') _ => some (s.put slot c.thread (.ending use (.waiting p')), [])
  | .goto slot _ _ => some (s.put (slot.threadEnded c.thread) c.thread .ended, [])
  | .done slot _ _ => some (s.put (slot.threadEnded c.thread) c.thread .ended, [])
  | .waits => none

/-- The crowd after an act, and what is seen of it. -/
def step (s : Crowd) : Act → Option (Crowd × List Report)
  | .call t use =>
      match s.activity t with
      | .idle => some (s.put s.slot t (.calling use .entering), [.called t use])
      | _ => none
  | .move c =>
      match s.activity c.thread with
      | .calling use p =>
          match BinarySemaphore.step c use s.clock s.slot p with
          | .goto slot p' _ => some (s.put slot c.thread (.calling use p'), [])
          | .done slot r _ => some (s.put slot c.thread .idle, [.returned c.thread use r])
          | .waits => none
      | .ending use p => s.stepEnding c use p
      | _ => none
  | .wake t => some ({ s with slot := { s.slot with condition := s.slot.condition.remove t } }, [])
  | .arrange order =>
      if order.Perm s.slot.condition.sleepers then
        some ({ s with slot := withSleepers s.slot order }, [])
      else none
  | .pass clock => some ({ s with clock := clock }, [.passed clock])
  | .cancel t =>
      match s.activity t with
      | .calling use (.waiting .asleep) =>
          let (slot, p) := s.slot.recallThread t
          some (s.put slot t (.ending use p), [.cancelled t])
      | _ => none

/-- The slot that a thread leaves behind which was told to end: it has the
    mutex, and nobody will give it up. -/
def abandoned (slot : BinarySemaphore) (t : ThreadId) : BinarySemaphore :=
  { slot with
    mutex := { slot.mutex.taken t with awaited := slot.mutex.awaited - 1 }
    condition := slot.condition.remove t }

/-- What an act does. -/
inductive Happened (s : Crowd) : Act → Crowd → List Report → Prop
  | call (t : ThreadId) (use : Use) (h : s.activity t = .idle) :
      Happened s (.call t use) (s.put s.slot t (.calling use .entering)) [.called t use]
  | move (c : Caller) (use : Use) (p p' : Place) (slot : BinarySemaphore)
      (h : s.activity c.thread = .calling use p)
      (hm : Moved c.thread use s.clock s.slot p slot p') :
      Happened s (.move c) (s.put slot c.thread (.calling use p')) []
  | leave (c : Caller) (use : Use) (r : Answer Unit)
      (h : s.activity c.thread = .calling use (.leaving r)) :
      Happened s (.move c) (s.put { s.slot with mutex := s.slot.mutex.freed } c.thread .idle)
        [.returned c.thread use r]
  | abandon (c : Caller) (use : Use)
      (h : s.activity c.thread = .ending use (.waiting .recalled))
      (hfree : s.slot.mutex.holder = none) :
      Happened s (.move c) (s.put (abandoned s.slot c.thread) c.thread .ended) []
  | wake (t : ThreadId) :
      Happened s (.wake t)
        { s with slot := { s.slot with condition := s.slot.condition.remove t } } []
  | arrange (order : List ThreadId) (h : order.Perm s.slot.condition.sleepers) :
      Happened s (.arrange order) { s with slot := withSleepers s.slot order } []
  | pass (clock : Clock) : Happened s (.pass clock) { s with clock := clock } [.passed clock]
  | cancel (t : ThreadId) (use : Use) (h : s.activity t = .calling use (.waiting .asleep)) :
      Happened s (.cancel t)
        (s.put { s.slot with condition := s.slot.condition.remove t } t
          (.ending use (.waiting .recalled)))
        [.cancelled t]

/-- What every crowd keeps. -/
structure Sane (s : Crowd) : Prop where
  plain : s.slot.mutex.Plain
  /-- The mutex is held by the thread that stands inside or has ended. -/
  holder_iff : ∀ t, s.slot.mutex.holder = some t ↔ (s.activity t).inside = true
  nodup : s.slot.condition.sleepers.Nodup
  asleep : ∀ t ∈ s.slot.condition.sleepers, ∃ use, s.activity t = .calling use (.waiting .asleep)
  /-- A thread that is about to sleep has found the slot empty. -/
  found_empty : ∀ t use, s.activity t = .calling use (.waiting .entering) → s.slot.flag = false
  fits : ∀ t use p, s.activity t = .calling use p → p.Fits use
  recalled : ∀ t use p, s.activity t = .ending use p →
    use.waits = true ∧ p = .waiting .recalled

-- A thread on its way out takes the mutex as soon as it is free, and ends with
-- it.
theorem stepEnding_eq (s : Crowd) (c : Caller) (use : Use) (hm : s.slot.mutex.Plain) :
    s.stepEnding c use (.waiting .recalled)
      = if s.slot.mutex.holder = none then
          some (s.put (abandoned s.slot c.thread) c.thread .ended, [])
        else none := by
  have hin : (Place.waiting .recalled).inside = true → s.slot.mutex.holder = some c.thread :=
    fun h => absurd h Bool.false_ne_true
  have hplace : afterWait use (woken use (.ok ())) = .testing := by
    cases use <;> rfl
  unfold stepEnding
  rcases step_waiting_cases c use s.clock s.slot (.returning (.ok ())) hm hin with
    ⟨slot, p', notes, hstep, hmoved⟩ | ⟨hstep, hstuck⟩
  · unfold Condition.Place.recalled
    rw [hstep]
    cases hmoved with
    | retake _ hfree =>
        rw [hplace, if_pos hfree]
        simp only [threadEnded, ((hm.taken c.thread).withAwaited _).holderEnded]
        rfl
  · unfold Condition.Place.recalled
    rw [hstep]
    cases hstuck with
    | relocked _ hheld => rw [if_neg hheld]

/-- A step does what acts do. -/
theorem step_happened (s s' : Crowd) (a : Act) (es : List Report) (hs : s.Sane)
    (h : s.step a = some (s', es)) : s.Happened a s' es := by
  cases a with
  | call t use =>
      simp only [step] at h
      split at h
      next hidle =>
        simp only [Option.some.injEq, Prod.mk.injEq] at h
        rcases h with ⟨rfl, rfl⟩
        exact .call t use hidle
      next => exact absurd h (by simp only [reduceCtorEq, not_false_eq_true])
  | move c =>
      simp only [step] at h
      split at h
      next use p hcall =>
        have hin : p.inside = true → s.slot.mutex.holder = some c.thread := by
          intro hp
          rw [hs.holder_iff, hcall]
          exact hp
        rcases step_cases c use s.clock s.slot p hs.plain hin with
          ⟨slot, p', notes, hstep, hm⟩ | ⟨r, rfl, hstep⟩ | ⟨hstep, _⟩
        · simp only [hstep, Option.some.injEq, Prod.mk.injEq] at h
          rcases h with ⟨rfl, rfl⟩
          exact .move c use p p' slot hcall hm
        · simp only [hstep, Option.some.injEq, Prod.mk.injEq] at h
          rcases h with ⟨rfl, rfl⟩
          exact .leave c use r hcall
        · simp only [hstep, reduceCtorEq] at h
      next use p hend =>
        rcases hs.recalled c.thread use p hend with ⟨_, rfl⟩
        rw [stepEnding_eq s c use hs.plain] at h
        split at h
        next hfree =>
          simp only [Option.some.injEq, Prod.mk.injEq] at h
          rcases h with ⟨rfl, rfl⟩
          exact .abandon c use hend hfree
        next => exact absurd h (by simp only [reduceCtorEq, not_false_eq_true])
      next => exact absurd h (by simp only [reduceCtorEq, not_false_eq_true])
  | wake t =>
      simp only [step, Option.some.injEq, Prod.mk.injEq] at h
      rcases h with ⟨rfl, rfl⟩
      exact .wake t
  | arrange order =>
      simp only [step] at h
      split at h
      next hperm =>
        simp only [Option.some.injEq, Prod.mk.injEq] at h
        rcases h with ⟨rfl, rfl⟩
        exact .arrange order hperm
      next => exact absurd h (by simp only [reduceCtorEq, not_false_eq_true])
  | pass clock =>
      simp only [step, Option.some.injEq, Prod.mk.injEq] at h
      rcases h with ⟨rfl, rfl⟩
      exact .pass clock
  | cancel t =>
      simp only [step] at h
      split at h
      next use hcall =>
        simp only [recallThread, Option.some.injEq, Prod.mk.injEq] at h
        rcases h with ⟨rfl, rfl⟩
        exact .cancel t use hcall
      next => exact absurd h (by simp only [reduceCtorEq, not_false_eq_true])

theorem put_self (s : Crowd) (slot : BinarySemaphore) (t : ThreadId) (a : Activity) :
    (s.put slot t a).activity t = a := by
  simp only [put, Function.update_self]

theorem put_other (s : Crowd) (slot : BinarySemaphore) (t u : ThreadId) (a : Activity)
    (h : u ≠ t) : (s.put slot t a).activity u = s.activity u := by
  simp only [put, Function.update_of_ne h]

-- A thread that does not hold the mutex is not inside.
theorem Sane.outside {s : Crowd} (hs : s.Sane) (t u : ThreadId)
    (h : s.slot.mutex.holder = some t) (hne : u ≠ t) : (s.activity u).inside = false := by
  rw [Bool.eq_false_iff]
  intro hu
  rw [(hs.holder_iff u).mpr hu] at h
  exact hne (Option.some.inj h)

-- While nobody holds the mutex, nobody is inside.
theorem Sane.outside_of_free {s : Crowd} (hs : s.Sane) (h : s.slot.mutex.holder = none)
    (u : ThreadId) : (s.activity u).inside = false := by
  rw [Bool.eq_false_iff]
  intro hu
  rw [(hs.holder_iff u).mpr hu] at h
  exact absurd h (Option.some_ne_none u)

-- The mutex stays with its holder where a thread stays inside or outside.
theorem Sane.holder_kept {s : Crowd} (hs : s.Sane) (slot : BinarySemaphore) (t : ThreadId)
    (a : Activity) (h : slot.mutex.holder = s.slot.mutex.holder)
    (ha : a.inside = (s.activity t).inside) (u : ThreadId) :
    (s.put slot t a).slot.mutex.holder = some u ↔ ((s.put slot t a).activity u).inside = true := by
  change slot.mutex.holder = some u ↔ _
  rw [h, hs.holder_iff u]
  by_cases hu : u = t
  · rw [hu, put_self, ha]
  · rw [put_other s slot t u a hu]

-- The mutex goes to a thread that comes inside.
theorem Sane.holder_taken {s : Crowd} (hs : s.Sane) (slot : BinarySemaphore) (t : ThreadId)
    (a : Activity) (hfree : s.slot.mutex.holder = none) (h : slot.mutex.holder = some t)
    (ha : a.inside = true) (u : ThreadId) :
    (s.put slot t a).slot.mutex.holder = some u ↔ ((s.put slot t a).activity u).inside = true := by
  change slot.mutex.holder = some u ↔ _
  rw [h, Option.some.injEq]
  by_cases hu : u = t
  · rw [hu, put_self, ha]
    exact ⟨fun _ => rfl, fun _ => rfl⟩
  · rw [put_other s slot t u a hu, hs.outside_of_free hfree u]
    exact ⟨fun he => absurd he.symm hu, fun he => absurd he Bool.false_ne_true⟩

-- The mutex is free when the thread inside leaves.
theorem Sane.holder_freed {s : Crowd} (hs : s.Sane) (slot : BinarySemaphore) (t : ThreadId)
    (a : Activity) (hin : (s.activity t).inside = true) (h : slot.mutex.holder = none)
    (ha : a.inside = false) (u : ThreadId) :
    (s.put slot t a).slot.mutex.holder = some u ↔ ((s.put slot t a).activity u).inside = true := by
  change slot.mutex.holder = some u ↔ _
  rw [h]
  by_cases hu : u = t
  · rw [hu, put_self, ha]
    exact ⟨fun he => absurd he (by simp only [reduceCtorEq, not_false_eq_true]),
      fun he => absurd he Bool.false_ne_true⟩
  · rw [put_other s slot t u a hu, hs.outside t u ((hs.holder_iff t).mpr hin) hu]
    exact ⟨fun he => absurd he (by simp only [reduceCtorEq, not_false_eq_true]),
      fun he => absurd he Bool.false_ne_true⟩

theorem start_sane (slot : BinarySemaphore) (clock : Clock) (source : ClockSource)
    (attr : SyncAttr) (h : create source attr = .ok slot) : (start slot clock).Sane := by
  rcases create_eq source attr slot h with ⟨m, hplain, hfree, rfl⟩
  refine ⟨hplain, fun t => ?_, List.nodup_nil, fun t ht => absurd ht List.not_mem_nil,
    fun _ _ _ => rfl, fun t use p hc => ?_, fun t use p hc => ?_⟩
  · change m.holder = some t ↔ false = true
    rw [hfree]
    simp only [reduceCtorEq]
  · exact absurd hc (by simp only [start, reduceCtorEq, not_false_eq_true])
  · exact absurd hc (by simp only [start, reduceCtorEq, not_false_eq_true])

-- A move of a thread keeps a crowd sane.
theorem move_sane (s : Crowd) (t : ThreadId) (use : Use) (p p' : Place) (slot : BinarySemaphore)
    (hs : s.Sane) (h : s.activity t = .calling use p)
    (hm : Moved t use s.clock s.slot p slot p') : (s.put slot t (.calling use p')).Sane := by
  have hfits := hs.fits t use p h
  have hin : (s.activity t).inside = p.inside := by
    rw [h]
    rfl
  refine ⟨hm.plain hs.plain, ?_, ?_, fun u hu => ?_, fun u use' hu => ?_, fun u use' q hu => ?_,
    fun u use' q hu => ?_⟩
  -- The holder of the mutex.
  · rcases hm.holder hfits with ⟨hsame, hp⟩ | ⟨hfree, htaken, hp⟩ | ⟨hfreed, hp, hp'⟩
    · exact hs.holder_kept slot t _ hsame (by rw [hin]; exact hp)
    · exact hs.holder_taken slot t _ hfree htaken hp
    · exact hs.holder_freed slot t _ (by rw [hin]; exact hp) hfreed hp'
  -- The sleepers are kept once.
  · refine hm.sleepers_nodup hs.nodup (fun hp ht => ?_)
    rcases hs.asleep t ht with ⟨use', hcall⟩
    rw [h, Activity.calling.injEq] at hcall
    exact hp hcall.2
  -- The sleepers sleep: the thread that moves, or another one as before.
  · rcases hm.sleepers u hu with ⟨rfl, hp'⟩ | ⟨hmem, hp⟩
    · exact ⟨use, by rw [put_self, hp']⟩
    · rcases hs.asleep u hmem with ⟨use', hcall⟩
      have hne : u ≠ t := by
        intro he
        rw [he, h, Activity.calling.injEq] at hcall
        exact hp he hcall.2
      exact ⟨use', by rw [put_other s slot t u _ hne]; exact hcall⟩
  -- Whoever is about to sleep has found the slot empty.
  · by_cases he : u = t
    · rw [he, put_self, Activity.calling.injEq] at hu
      exact hm.flag_entering hfits hu.2
    · rw [put_other s slot t u _ he] at hu
      -- The thread that moves is not inside, since another one is.
      have hout : p.inside = false := by
        have hu' : (s.activity u).inside = true := by
          rw [hu]
          rfl
        rw [← hin]
        exact hs.outside u t ((hs.holder_iff u).mpr hu') (fun ht => he ht.symm)
      change slot.flag = false
      rw [hm.flag_eq hout]
      exact hs.found_empty u use' hu
  · by_cases he : u = t
    · rw [he, put_self, Activity.calling.injEq] at hu
      rw [← hu.1, ← hu.2]
      exact hm.fits hfits
    · rw [put_other s slot t u _ he] at hu
      exact hs.fits u use' q hu
  · by_cases he : u = t
    · rw [he, put_self] at hu
      exact absurd hu (by simp only [reduceCtorEq, not_false_eq_true])
    · rw [put_other s slot t u _ he] at hu
      exact hs.recalled u use' q hu

-- A thread that starts or ends a call, or is told to end, keeps a crowd sane if
-- it is no sleeper afterwards and the token is left alone.
theorem put_sane (s : Crowd) (slot : BinarySemaphore) (t : ThreadId) (a : Activity) (hs : s.Sane)
    (hplain : slot.mutex.Plain)
    (hholder : ∀ u, (s.put slot t a).slot.mutex.holder = some u ↔
      ((s.put slot t a).activity u).inside = true)
    (hnodup : slot.condition.sleepers.Nodup)
    (hsleepers : ∀ u ∈ slot.condition.sleepers, u ≠ t ∧ u ∈ s.slot.condition.sleepers)
    (hflag : slot.flag = s.slot.flag) (hcall : ∀ use p, a = .calling use p → p = .entering)
    (hend : ∀ use p, a = .ending use p → use.waits = true ∧ p = .waiting .recalled) :
    (s.put slot t a).Sane := by
  refine ⟨hplain, hholder, hnodup, fun u hu => ?_, fun u use hu => ?_, fun u use p hu => ?_,
    fun u use p hu => ?_⟩
  · rcases hsleepers u hu with ⟨hne, hmem⟩
    rcases hs.asleep u hmem with ⟨use, h⟩
    exact ⟨use, by rw [put_other s slot t u a hne]; exact h⟩
  · by_cases he : u = t
    · rw [he, put_self] at hu
      exact absurd (hcall use _ hu) (by simp only [reduceCtorEq, not_false_eq_true])
    · rw [put_other s slot t u a he] at hu
      exact hflag.trans (hs.found_empty u use hu)
  · by_cases he : u = t
    · rw [he, put_self] at hu
      rw [hcall use p hu]
      trivial
    · rw [put_other s slot t u a he] at hu
      exact hs.fits u use p hu
  · by_cases he : u = t
    · rw [he, put_self] at hu
      exact hend use p hu
    · rw [put_other s slot t u a he] at hu
      exact hs.recalled u use p hu

-- Fewer sleepers, in whatever order, keep a crowd sane.
theorem sleepers_sane (s : Crowd) (sleepers : List ThreadId) (hs : s.Sane)
    (hnodup : sleepers.Nodup) (hsub : sleepers ⊆ s.slot.condition.sleepers) :
    { s with slot := withSleepers s.slot sleepers }.Sane :=
  ⟨hs.plain, hs.holder_iff, hnodup, fun t ht => hs.asleep t (hsub ht), hs.found_empty, hs.fits,
    hs.recalled⟩

-- The sleepers without one of them.
theorem mem_remove (c : Condition) (t u : ThreadId) (h : u ∈ (c.remove t).sleepers) :
    u ≠ t ∧ u ∈ c.sleepers := by
  rcases List.mem_filter.mp h with ⟨hmem, hne⟩
  exact ⟨by simpa using hne, hmem⟩

-- A thread that does not sleep is none of the sleepers.
theorem Sane.ne_of_mem {s : Crowd} (hs : s.Sane) (t u : ThreadId)
    (h : ∀ use, s.activity t ≠ .calling use (.waiting .asleep))
    (hu : u ∈ s.slot.condition.sleepers) : u ≠ t ∧ u ∈ s.slot.condition.sleepers := by
  rcases hs.asleep u hu with ⟨use, hcall⟩
  exact ⟨fun he => h use (he ▸ hcall), hu⟩

-- Whatever happens, a crowd stays sane.
theorem happened_sane (s s' : Crowd) (a : Act) (es : List Report) (hs : s.Sane)
    (h : s.Happened a s' es) : s'.Sane := by
  cases h with
  | call t use hidle =>
      have hout : (s.activity t).inside = false := by
        rw [hidle]
        rfl
      refine put_sane s s.slot t _ hs hs.plain (hs.holder_kept s.slot t _ rfl hout.symm) hs.nodup
        (fun u hu => hs.ne_of_mem t u (fun use' hc => ?_) hu) rfl (fun use' p hc => ?_)
        (fun use' p hc => ?_)
      · rw [hidle] at hc
        exact absurd hc (by simp only [reduceCtorEq, not_false_eq_true])
      · rw [Activity.calling.injEq] at hc
        exact hc.2.symm
      · exact absurd hc (by simp only [reduceCtorEq, not_false_eq_true])
  | move c use p p' slot hcall hm => exact move_sane s c.thread use p p' slot hs hcall hm
  | leave c use r hcall =>
      -- The thread had the mutex, and gives it up.
      have hin : (s.activity c.thread).inside = true := by
        rw [hcall]
        rfl
      refine put_sane s _ c.thread _ hs hs.plain.freed
        (hs.holder_freed _ c.thread _ hin rfl rfl) hs.nodup
        (fun u hu => hs.ne_of_mem c.thread u (fun use' hc => ?_) hu) rfl
        (fun use' p hc => absurd hc (by simp only [reduceCtorEq, not_false_eq_true]))
        (fun use' p hc => absurd hc (by simp only [reduceCtorEq, not_false_eq_true]))
      rw [hcall, Activity.calling.injEq] at hc
      exact absurd hc.2 (by simp only [reduceCtorEq, not_false_eq_true])
  | abandon c use hend hfree =>
      -- The thread takes the mutex and ends, which counts as being inside.
      exact put_sane s _ c.thread _ hs ((hs.plain.taken c.thread).withAwaited _)
        (hs.holder_taken _ c.thread _ hfree rfl rfl) (hs.nodup.filter _)
        (fun u hu => mem_remove s.slot.condition c.thread u hu) rfl
        (fun use' p hc => absurd hc (by simp only [reduceCtorEq, not_false_eq_true]))
        (fun use' p hc => absurd hc (by simp only [reduceCtorEq, not_false_eq_true]))
  | wake t =>
      exact sleepers_sane s _ hs (hs.nodup.filter _)
        (fun u hu => (mem_remove s.slot.condition t u hu).2)
  | arrange order hperm =>
      exact sleepers_sane s order hs (hperm.nodup_iff.mpr hs.nodup) hperm.subset
  | pass clock =>
      exact ⟨hs.plain, hs.holder_iff, hs.nodup, hs.asleep, hs.found_empty, hs.fits, hs.recalled⟩
  | cancel t use hcall =>
      have hout : (s.activity t).inside = false := by
        rw [hcall]
        rfl
      refine put_sane s _ t _ hs hs.plain (hs.holder_kept _ t _ rfl hout.symm) (hs.nodup.filter _)
        (fun u hu => mem_remove s.slot.condition t u hu) rfl
        (fun use' p hc => absurd hc (by simp only [reduceCtorEq, not_false_eq_true]))
        (fun use' p hc => ?_)
      rw [Activity.ending.injEq] at hc
      rw [← hc.1]
      exact ⟨(hs.fits t use _ hcall).1, hc.2.symm⟩

theorem step_sane (s s' : Crowd) (a : Act) (es : List Report) (hs : s.Sane)
    (h : s.step a = some (s', es)) : s'.Sane :=
  happened_sane s s' a es hs (step_happened s s' a es hs h)

end Crowd

end BinarySemaphore

end HostLayer
