import HostLayer.Kernel
import HostLayer.Proofs.Routine
import HostLayer.Proofs.Trace.Complete

/-!
# Kernel Calls in Steps

What a thread does to the state of the process, one access after the other.

The clock, its pin and the mark that the library has been started are three
words. Choosing the clock looks at the pin, compares the clock and stores the new
one, and pinning stores the pin and reads the clock; each of the two does so in the
critical section of the process. The mark is written outside of it, and an object is
made outside of it as well, on the clock that was read inside.

Alone, the steps come to what `Kernel.setClock`, `Kernel.init`, `Kernel.destroy` and
`Kernel.pin` do at once (`step_alone`). What they come to while other threads are at
work is a question about all of them.

## Main definitions

* `Kernel.Guarded`: The state of the process and its critical section.
* `Kernel.Object`, `Kernel.Made`: What can be made with a condition inside.
* `Kernel.Request`, `Kernel.Place`, `Kernel.step`: The calls.
* `Kernel.Request.atOnce`: A call that nobody interferes with.
* `Kernel.Goes`, `Kernel.Ends`: What a step can do.

## Theorems

* `Kernel.Object.create_clock`: An object has the clock that it was made on.
* `Kernel.step_goes`, `Kernel.step_ends`, `Kernel.step_waits`: The cases of a step.
* `Kernel.step_alone`: A call alone.
-/

namespace HostLayer

namespace Kernel

/-- The state of the process, and who is in its critical section. -/
structure Guarded where
  kernel : Kernel
  inside : Option ThreadId

/-- What can be made with a condition inside. -/
inductive Object
  | condition
  | slot (attr : SyncAttr)
  | recorder (count : Nat)

/-- What has been made. -/
inductive Made
  | condition (c : Condition)
  | slot (s : BinarySemaphore)
  | recorder (r : Recorder)

/-- The clock of the condition inside. -/
def Made.clock : Made → ClockSource
  | condition c => c.clock
  | slot s => s.condition.clock
  | recorder r => r.filledMark.condition.clock

namespace Object

/-- What is asked for can be made at all. -/
def Valid : Object → Prop
  | condition => True
  | slot _ => True
  | recorder count => Recorder.CountInRange count

instance : DecidablePred Valid
  | condition => inferInstanceAs (Decidable True)
  | slot _ => inferInstanceAs (Decidable True)
  | recorder count => inferInstanceAs (Decidable (Recorder.CountInRange count))

/-- A new object whose waits are measured on a clock. -/
def create (clock : ClockSource) : Object → Answer Made
  | condition => .ok (.condition (Condition.create clock))
  | slot attr => (BinarySemaphore.create clock attr).map .slot
  | recorder count => (Recorder.create clock count).map .recorder

/-- An object has the clock that it was made on. -/
theorem create_clock {o : Object} {clock : ClockSource} {m : Made}
    (h : o.create clock = .ok m) : m.clock = clock := by
  cases o with
  | condition => exact (Except.ok.inj h) ▸ rfl
  | slot attr =>
      simp only [create] at h
      rcases hslot : BinarySemaphore.create clock attr with e | slot
      · rw [hslot] at h
        exact absurd h (by simp only [Except.map, reduceCtorEq, not_false_eq_true])
      · rcases BinarySemaphore.create_eq clock attr slot hslot with ⟨mutex, _, _, rfl⟩
        rw [hslot] at h
        exact (Except.ok.inj h) ▸ rfl
  | recorder count =>
      simp only [create] at h
      rcases hrecorder : Recorder.create clock count with e | recorder
      · rw [hrecorder] at h
        exact absurd h (by simp only [Except.map, reduceCtorEq, not_false_eq_true])
      · rcases Recording.create_recorder clock count recorder hrecorder with
          ⟨_, _, mutex, _, _, rfl⟩
        rw [hrecorder] at h
        exact (Except.ok.inj h) ▸ rfl

end Object

/-- The calls. -/
inductive Request
  | init (clock : ClockSource)
  | setClock (clock : ClockSource)
  | destroy
  | make (o : Object)

/-- Where a call stands. -/
inductive Place
  /-- It is about to be checked whether the object can be made at all. -/
  | checking
  /-- The critical section is about to be entered. -/
  | entering
  /-- The pin is about to be looked at. -/
  | looking (wish : ClockSource)
  /-- The clock is about to be compared. -/
  | comparing (wish : ClockSource)
  /-- The clock is about to be stored. -/
  | storing (wish : ClockSource)
  /-- The critical section is about to be left with an answer. -/
  | leaving (r : Answer Unit)
  /-- The mark is about to be set. -/
  | starting (clock : ClockSource)
  /-- The mark is about to be taken back. -/
  | stopping
  /-- The pin is about to be set. -/
  | pinning
  /-- The clock is about to be read. -/
  | reading
  /-- The critical section is about to be left with a clock. -/
  | releasing (clock : ClockSource)
  /-- The object is about to be made on a clock. -/
  | making (clock : ClockSource)

namespace Place

/-- A thread at the place is in the critical section. -/
def isInside : Place → Bool
  | looking _ => true
  | comparing _ => true
  | storing _ => true
  | leaving _ => true
  | pinning => true
  | reading => true
  | releasing _ => true
  | _ => false

/-- How many steps a call at the place can still take. -/
def ahead : Place → Nat
  | checking => 7
  | entering => 6
  | looking _ => 5
  | comparing _ => 4
  | storing _ => 3
  | leaving _ => 2
  | starting _ => 1
  | stopping => 1
  | pinning => 4
  | reading => 3
  | releasing _ => 2
  | making _ => 1

theorem ahead_pos (p : Place) : 0 < p.ahead := by
  cases p <;> exact Nat.succ_pos _

end Place

namespace Request

/-- Where a call begins. -/
def first : Request → Place
  | init _ => .entering
  | setClock _ => .entering
  | destroy => .stopping
  | make _ => .checking

/-- What a call does first in the critical section. -/
def inner : Request → Place
  | init clock => .looking clock
  | setClock clock => .looking clock
  | destroy => .stopping
  | make _ => .pinning

/-- The clock that a call chooses. -/
def wish? : Request → Option ClockSource
  | init clock => some clock
  | setClock clock => some clock
  | destroy => none
  | make _ => none

/-- The object that a call makes on a clock, if it makes one. -/
def create (clock : ClockSource) : Request → Answer (Option Made)
  | make o => (o.create clock).map some
  | _ => .ok none

/-- A call that nobody interferes with. -/
def atOnce (k : Kernel) : Request → Kernel × Answer (Option Made) × List Note
  | init clock => ((k.init clock).1, (k.init clock).2.1.map fun _ => none, (k.init clock).2.2)
  | setClock clock => ((k.setClock clock).1, (k.setClock clock).2.map fun _ => none, [])
  | destroy => (k.destroy, .ok none, [])
  | make o =>
      if o.Valid then (k.pin.1, (o.create k.pin.2).map some, [])
      else (k, .error .invalidParam, [])

end Request

/-- One step of a thread in a call. The host may refuse to make an object, for the
    cause `refusal`. -/
def step (t : ThreadId) (refusal : Option Error) (q : Request) (g : Guarded) :
    Place → Step Guarded Place (Answer (Option Made))
  | .checking =>
      match q with
      | .make o => if o.Valid then .goto g .entering [] else .done g (.error .invalidParam) []
      | _ => .goto g .entering []
  | .entering =>
      match g.inside with
      | none => .goto { g with inside := some t } q.inner []
      | some _ => .waits
  | .looking wish => .goto g (if g.kernel.pinned then .comparing wish else .storing wish) []
  | .comparing wish =>
      .goto g (if g.kernel.clock = wish then .storing wish else .leaving (.error .busy)) []
  | .storing wish =>
      .goto { g with kernel := { g.kernel with clock := wish } } (.leaving (.ok ())) []
  | .leaving (.error e) => .done { g with inside := none } (.error e) []
  | .leaving (.ok ()) =>
      match q with
      | .init clock => .goto { g with inside := none } (.starting clock) []
      | _ => .done { g with inside := none } (.ok none) []
  | .starting clock =>
      .done { g with kernel := { g.kernel with initialized := true } } (.ok none)
        [.debug ("osal initialized with " ++ clock.name ++ " clock")]
  | .stopping => .done { g with kernel := g.kernel.destroy } (.ok none) []
  | .pinning => .goto { g with kernel := { g.kernel with pinned := true } } .reading []
  | .reading => .goto g (.releasing g.kernel.clock) []
  | .releasing clock => .goto { g with inside := none } (.making clock) []
  | .making clock =>
      match refusal with
      | none => .done g (q.create clock) []
      | some e => .done g (.error e) []

/-- The steps with which a call goes on. -/
inductive Goes (t : ThreadId) (q : Request) : Guarded → Place → Guarded → Place → Prop
  | check (g : Guarded) : Goes t q g .checking g .entering
  | enter (k : Kernel) : Goes t q ⟨k, none⟩ .entering ⟨k, some t⟩ q.inner
  | look (g : Guarded) (wish : ClockSource) :
      Goes t q g (.looking wish) g (if g.kernel.pinned then .comparing wish else .storing wish)
  | agree (g : Guarded) : Goes t q g (.comparing g.kernel.clock) g (.storing g.kernel.clock)
  | differ (g : Guarded) (wish : ClockSource) (h : g.kernel.clock ≠ wish) :
      Goes t q g (.comparing wish) g (.leaving (.error .busy))
  | store (g : Guarded) (wish : ClockSource) :
      Goes t q g (.storing wish) { g with kernel := { g.kernel with clock := wish } }
        (.leaving (.ok ()))
  | chosen (g : Guarded) (clock : ClockSource) (h : q = .init clock) :
      Goes t q g (.leaving (.ok ())) { g with inside := none } (.starting clock)
  | pin (g : Guarded) :
      Goes t q g .pinning { g with kernel := { g.kernel with pinned := true } } .reading
  | read (g : Guarded) : Goes t q g .reading g (.releasing g.kernel.clock)
  | release (g : Guarded) (clock : ClockSource) :
      Goes t q g (.releasing clock) { g with inside := none } (.making clock)

/-- The steps with which a call ends. -/
inductive Ends (q : Request) : Guarded → Place → Guarded → Answer (Option Made) → Prop
  | reject (g : Guarded) : Ends q g .checking g (.error .invalidParam)
  | fail (g : Guarded) (e : Error) :
      Ends q g (.leaving (.error e)) { g with inside := none } (.error e)
  | chosen (g : Guarded) : Ends q g (.leaving (.ok ())) { g with inside := none } (.ok none)
  | start (g : Guarded) (clock : ClockSource) :
      Ends q g (.starting clock) { g with kernel := { g.kernel with initialized := true } }
        (.ok none)
  | stop (g : Guarded) : Ends q g .stopping { g with kernel := g.kernel.destroy } (.ok none)
  | make (g : Guarded) (clock : ClockSource) : Ends q g (.making clock) g (q.create clock)
  | refuse (g : Guarded) (clock : ClockSource) (e : Error) : Ends q g (.making clock) g (.error e)

section Cases

variable {t : ThreadId} {refusal : Option Error} {q : Request} {g g' : Guarded} {p p' : Place}
  {notes : List Note}

theorem step_goes (h : step t refusal q g p = .goto g' p' notes) : Goes t q g p g' p' := by
  cases p with
  | checking =>
      simp only [step] at h
      split at h
      next =>
        split at h
        next =>
          simp only [Step.goto.injEq] at h
          exact h.1 ▸ h.2.1 ▸ .check g
        next => exact absurd h (by simp only [reduceCtorEq, not_false_eq_true])
      next =>
        simp only [Step.goto.injEq] at h
        exact h.1 ▸ h.2.1 ▸ .check g
  | entering =>
      rcases g with ⟨k, _ | u⟩
      · simp only [step, Step.goto.injEq] at h
        exact h.1 ▸ h.2.1 ▸ .enter k
      · exact absurd h (by simp only [step, reduceCtorEq, not_false_eq_true])
  | looking wish =>
      simp only [step, Step.goto.injEq] at h
      exact h.1 ▸ h.2.1 ▸ .look g wish
  | comparing wish =>
      simp only [step, Step.goto.injEq] at h
      by_cases hsame : g.kernel.clock = wish
      · rw [if_pos hsame] at h
        exact h.1 ▸ h.2.1 ▸ hsame ▸ .agree g
      · rw [if_neg hsame] at h
        exact h.1 ▸ h.2.1 ▸ .differ g wish hsame
  | storing wish =>
      simp only [step, Step.goto.injEq] at h
      exact h.1 ▸ h.2.1 ▸ .store g wish
  | leaving r =>
      rcases r with e | _
      · exact absurd h (by simp only [step, reduceCtorEq, not_false_eq_true])
      · cases q with
        | init clock =>
            simp only [step, Step.goto.injEq] at h
            exact h.1 ▸ h.2.1 ▸ .chosen g clock rfl
        | _ => exact absurd h (by simp only [step, reduceCtorEq, not_false_eq_true])
  | starting clock => exact absurd h (by simp only [step, reduceCtorEq, not_false_eq_true])
  | stopping => exact absurd h (by simp only [step, reduceCtorEq, not_false_eq_true])
  | pinning =>
      simp only [step, Step.goto.injEq] at h
      exact h.1 ▸ h.2.1 ▸ .pin g
  | reading =>
      simp only [step, Step.goto.injEq] at h
      exact h.1 ▸ h.2.1 ▸ .read g
  | releasing clock =>
      simp only [step, Step.goto.injEq] at h
      exact h.1 ▸ h.2.1 ▸ .release g clock
  | making clock =>
      cases refusal <;> exact absurd h (by simp only [step, reduceCtorEq, not_false_eq_true])

theorem step_ends {r : Answer (Option Made)} (h : step t refusal q g p = .done g' r notes) :
    Ends q g p g' r := by
  cases p with
  | checking =>
      simp only [step] at h
      split at h
      next =>
        split at h
        next => exact absurd h (by simp only [reduceCtorEq, not_false_eq_true])
        next =>
          simp only [Step.done.injEq] at h
          exact h.1 ▸ h.2.1 ▸ .reject g
      next => exact absurd h (by simp only [reduceCtorEq, not_false_eq_true])
  | entering =>
      rcases g with ⟨k, _ | u⟩ <;>
        exact absurd h (by simp only [step, reduceCtorEq, not_false_eq_true])
  | leaving a =>
      rcases a with e | _
      · simp only [step, Step.done.injEq] at h
        exact h.1 ▸ h.2.1 ▸ .fail g e
      · cases q with
        | init clock => exact absurd h (by simp only [step, reduceCtorEq, not_false_eq_true])
        | _ =>
            simp only [step, Step.done.injEq] at h
            exact h.1 ▸ h.2.1 ▸ .chosen g
  | starting clock =>
      simp only [step, Step.done.injEq] at h
      exact h.1 ▸ h.2.1 ▸ .start g clock
  | stopping =>
      simp only [step, Step.done.injEq] at h
      exact h.1 ▸ h.2.1 ▸ .stop g
  | making clock =>
      cases refusal with
      | none =>
          simp only [step, Step.done.injEq] at h
          exact h.1 ▸ h.2.1 ▸ .make g clock
      | some e =>
          simp only [step, Step.done.injEq] at h
          exact h.1 ▸ h.2.1 ▸ .refuse g clock e
  | _ => exact absurd h (by simp only [step, reduceCtorEq, not_false_eq_true])

/-- Only the critical section is waited for. -/
theorem step_waits (h : step t refusal q g p = .waits) : p = .entering ∧ g.inside ≠ none := by
  cases p with
  | checking =>
      simp only [step] at h
      split at h
      next => split at h <;> exact absurd h (by simp only [reduceCtorEq, not_false_eq_true])
      next => exact absurd h (by simp only [reduceCtorEq, not_false_eq_true])
  | entering =>
      rcases g with ⟨k, _ | u⟩
      · exact absurd h (by simp only [step, reduceCtorEq, not_false_eq_true])
      · exact ⟨rfl, Option.some_ne_none u⟩
  | leaving r =>
      rcases r with e | _
      · exact absurd h (by simp only [step, reduceCtorEq, not_false_eq_true])
      · cases q <;> exact absurd h (by simp only [step, reduceCtorEq, not_false_eq_true])
  | making clock =>
      cases refusal <;> exact absurd h (by simp only [step, reduceCtorEq, not_false_eq_true])
  | _ => exact absurd h (by simp only [step, reduceCtorEq, not_false_eq_true])

theorem Goes.ahead_lt (h : Goes t q g p g' p') : p'.ahead < p.ahead := by
  cases h with
  | enter k => cases q <;> simp only [Request.inner, Place.ahead] <;> omega
  | look g wish => split <;> simp only [Place.ahead] <;> omega
  | _ =>
      simp only [Place.ahead]
      omega

end Cases

/-- A call that nobody interferes with does everything at once. -/
theorem step_alone (t : ThreadId) (q : Request) (k : Kernel) :
    runSteps (step t none q) Place.checking.ahead ⟨k, none⟩ q.first []
      = ⟨⟨(q.atOnce k).1, none⟩, .inr (q.atOnce k).2.1, (q.atOnce k).2.2⟩ := by
  cases q with
  | init clock =>
      -- Whether the clock is pinned to the other one decides about all steps.
      rcases k with ⟨source, _ | _, started⟩
      · rfl
      · cases source <;> cases clock <;> rfl
  | setClock clock =>
      rcases k with ⟨source, _ | _, started⟩
      · rfl
      · cases source <;> cases clock <;> rfl
  | destroy => rfl
  | make o =>
      by_cases hvalid : o.Valid
      · simp only [runSteps, Place.ahead, Request.first, step, Request.atOnce, if_pos hvalid,
          Request.inner, Request.create, List.nil_append]
        rfl
      · simp only [runSteps, Place.ahead, Request.first, step, Request.atOnce, if_neg hvalid,
          List.nil_append]

end Kernel

end HostLayer
