import HostLayer.Host.Mutex
import HostLayer.Proofs.Host.Instant
import HostLayer.Proofs.Routine
import HostLayer.Proofs.Schedule

/-!
# Timed Calls

One call with a deadline, and everything that can happen to it.

All calls with a deadline are routines of a few steps that look at the clocks.
What differs is what they work on, so a `TimedCall` is a record of a routine, and
what is said of timed calls is said of all of them. A run is a list of acts: time
passes, somebody sets the time of day, others change what the call works on, a
signal arrives, and the thread makes a step. Others can do anything at all but
what the library keeps them from, and that is `TimedCall.Sane`.

The acts are those of the host and of others, so the clock that a call ends at is
part of what is seen of it. `TimedCall.Invariant.play` is the one induction over
such runs: what a caller may know at each place is kept by time, by signals and by
steps, and gives what is said of the reports. In the other direction, the call
alone is one of its runs (`TimedCall.play_alone`).

## Main definitions

* `TimedCall`: A kind of call with a deadline.
* `TimedCall.Config`: The call, what it works on and the time.
* `TimedCall.Act`, `TimedCall.Seen`, `TimedCall.next`: What can happen, what is
  seen of it, and where the call stands after it.
* `TimedCall.Leads`, `TimedCall.Invariant`: What a caller may know at each place.

## Theorems

* `TimedCall.next_cases`: What acts do.
* `TimedCall.Invariant.play`: What is known holds along every run.
* `TimedCall.seen_of_play`: A call ends once.
* `TimedCall.play_alone`: The call alone, from its start to its end.
-/

namespace HostLayer

/-- A kind of call with a deadline, as its caller sees it. -/
structure TimedCall where
  /-- The clock on which its deadlines are meant. -/
  source : ClockSource
  /-- What the call works on, together with others. -/
  State : Type
  Place : Type
  Result : Type
  /-- Where the call starts. -/
  start : Place
  /-- One step of the call with a deadline, at a time that a clock shows. -/
  step : Timer → Clock → Caller → State → Place → Step State Place (Answer Result)
  /-- A signal arrives at the call. -/
  signalled : Timer → Place → Place ⊕ Error
  /-- What holds of the state while a thread stands at a place, whatever others
      do. -/
  Sane : ThreadId → Place → State → Prop
  /-- What the call works on, or what it asks for, is reason enough to refuse it
      as malformed. -/
  Faulty : State → Prop
  /-- The answer says that the deadline has passed. -/
  Expires : Answer Result → Prop
  decideSane : ∀ t p s, Decidable (Sane t p s)

namespace TimedCall

instance (call : TimedCall) (t : ThreadId) (p : call.Place) (s : call.State) :
    Decidable (call.Sane t p s) :=
  call.decideSane t p s

/-- A call with what it works on, and the time. -/
structure Config (call : TimedCall) where
  clock : Clock
  state : call.State
  /-- Where the call stands, unless it is over. -/
  place : Option call.Place

/-- What can happen to a call. -/
inductive Act (call : TimedCall)
  /-- Time passes on both clocks. -/
  | pass (ns : Nat)
  /-- Somebody sets the time of day. -/
  | set (wall : Nat)
  /-- Others change what the call works on. -/
  | others (s : call.State)
  /-- A signal arrives. -/
  | signal
  /-- The thread makes a step, scheduled as it then is. -/
  | move (policy : Policy) (priority : Int) (reach : Nat)

/-- Nobody sets the time of day. -/
def Act.Steady {call : TimedCall} : call.Act → Prop
  | .set _ => False
  | _ => True

/-- The act is a step of the call itself. -/
def Act.isMove {call : TimedCall} : call.Act → Bool
  | .move _ _ _ => true
  | _ => false

/-- What is seen of a call. -/
inductive Seen (call : TimedCall)
  /-- The call has made a step from one place to another, at a time. -/
  | moved (clock : Clock) (before : call.State) (p : call.Place) (after : call.State)
      (q : call.Place)
  /-- The call is over, at a time. -/
  | ended (clock : Clock) (before : call.State) (r : Answer call.Result) (after : call.State)

/-- The call of the thread `t` with the deadline `d` after an act. The clocks show
    only what a host shows. -/
def next (call : TimedCall) (d : Timer) (t : ThreadId) (k : call.Config) :
    call.Act → Option (call.Config × List call.Seen)
  | .pass ns =>
      if (k.clock.advance ns).InRange then some ({ k with clock := k.clock.advance ns }, [])
      else none
  | .set wall =>
      if Clock.InRange { k.clock with realtime := wall } then
        some ({ k with clock := { k.clock with realtime := wall } }, [])
      else none
  | .others s =>
      match k.place with
      | some p => if call.Sane t p s then some ({ k with state := s }, []) else none
      | none => some ({ k with state := s }, [])
  | .signal =>
      match k.place with
      | none => none
      | some p =>
          match call.signalled d p with
          | .inl q => some ({ k with place := some q }, [])
          | .inr e =>
              some ({ k with place := none }, [.ended k.clock k.state (.error e) k.state])
  | .move policy priority reach =>
      match k.place with
      | none => none
      | some p =>
          match call.step d k.clock ⟨t, policy, priority, reach⟩ k.state p with
          | .goto s q _ => some (⟨k.clock, s, some q⟩, [.moved k.clock k.state p s q])
          | .done s r _ => some (⟨k.clock, s, none⟩, [.ended k.clock k.state r s])
          | .waits => none

/-- The call of the thread `t` is about to start, at a time that a host shows. -/
structure Config.Starts {call : TimedCall} (k : call.Config) (t : ThreadId) : Prop where
  clock : k.clock.InRange
  place : k.place = some call.start
  state : call.Sane t call.start k.state

/-- What can happen, with what it does. -/
inductive Happened (call : TimedCall) (d : Timer) (t : ThreadId) (k : call.Config) :
    call.Act → call.Config → List call.Seen → Prop
  | pass (ns : Nat) (h : (k.clock.advance ns).InRange) :
      Happened call d t k (.pass ns) { k with clock := k.clock.advance ns } []
  | set (wall : Nat) (h : Clock.InRange { k.clock with realtime := wall }) :
      Happened call d t k (.set wall) { k with clock := { k.clock with realtime := wall } } []
  | others (s : call.State) (h : ∀ p, k.place = some p → call.Sane t p s) :
      Happened call d t k (.others s) { k with state := s } []
  | signal (p q : call.Place) (hp : k.place = some p) (h : call.signalled d p = .inl q) :
      Happened call d t k .signal { k with place := some q } []
  | interrupt (p : call.Place) (e : Error) (hp : k.place = some p)
      (h : call.signalled d p = .inr e) :
      Happened call d t k .signal { k with place := none }
        [.ended k.clock k.state (.error e) k.state]
  | move (policy : Policy) (priority : Int) (reach : Nat) (p q : call.Place) (s : call.State)
      (notes : List Note) (hp : k.place = some p)
      (h : call.step d k.clock ⟨t, policy, priority, reach⟩ k.state p = .goto s q notes) :
      Happened call d t k (.move policy priority reach) ⟨k.clock, s, some q⟩
        [.moved k.clock k.state p s q]
  | finish (policy : Policy) (priority : Int) (reach : Nat) (p : call.Place)
      (r : Answer call.Result) (s : call.State) (notes : List Note) (hp : k.place = some p)
      (h : call.step d k.clock ⟨t, policy, priority, reach⟩ k.state p = .done s r notes) :
      Happened call d t k (.move policy priority reach) ⟨k.clock, s, none⟩
        [.ended k.clock k.state r s]

/-- An act does what acts do. -/
theorem next_cases (call : TimedCall) (d : Timer) (t : ThreadId) (k k' : call.Config)
    (a : call.Act) (es : List call.Seen) (h : call.next d t k a = some (k', es)) :
    Happened call d t k a k' es := by
  cases a with
  | pass ns =>
      simp only [next] at h
      split at h
      next hr =>
        simp only [Option.some.injEq, Prod.mk.injEq] at h
        rcases h with ⟨rfl, rfl⟩
        exact .pass ns hr
      next => exact absurd h (by simp only [reduceCtorEq, not_false_eq_true])
  | set wall =>
      simp only [next] at h
      split at h
      next hr =>
        simp only [Option.some.injEq, Prod.mk.injEq] at h
        rcases h with ⟨rfl, rfl⟩
        exact .set wall hr
      next => exact absurd h (by simp only [reduceCtorEq, not_false_eq_true])
  | others s =>
      simp only [next] at h
      split at h
      next p hp =>
        split at h
        next hs =>
          simp only [Option.some.injEq, Prod.mk.injEq] at h
          rcases h with ⟨rfl, rfl⟩
          exact .others s fun q hq => by
            rw [hp, Option.some.injEq] at hq
            exact hq ▸ hs
        next => exact absurd h (by simp only [reduceCtorEq, not_false_eq_true])
      next hp =>
        simp only [Option.some.injEq, Prod.mk.injEq] at h
        rcases h with ⟨rfl, rfl⟩
        exact .others s fun q hq => absurd (hp.symm.trans hq) (by
          simp only [reduceCtorEq, not_false_eq_true])
  | signal =>
      simp only [next] at h
      split at h
      next => exact absurd h (by simp only [reduceCtorEq, not_false_eq_true])
      next p hp =>
        split at h
        next q hq =>
          simp only [Option.some.injEq, Prod.mk.injEq] at h
          rcases h with ⟨rfl, rfl⟩
          exact .signal p q hp hq
        next e he =>
          simp only [Option.some.injEq, Prod.mk.injEq] at h
          rcases h with ⟨rfl, rfl⟩
          exact .interrupt p e hp he
  | move policy priority reach =>
      simp only [next] at h
      split at h
      next => exact absurd h (by simp only [reduceCtorEq, not_false_eq_true])
      next p hp =>
        split at h
        next s q notes hq =>
          simp only [Option.some.injEq, Prod.mk.injEq] at h
          rcases h with ⟨rfl, rfl⟩
          exact .move policy priority reach p q s notes hp hq
        next s r notes hr =>
          simp only [Option.some.injEq, Prod.mk.injEq] at h
          rcases h with ⟨rfl, rfl⟩
          exact .finish policy priority reach p r s notes hp hr
        next => exact absurd h (by simp only [reduceCtorEq, not_false_eq_true])

/-- A step from the place `p` in the state `s` leads to places only at which `Knows`
    holds, and what is seen of it is a `Report`. -/
def Leads (call : TimedCall) (Knows : Clock → call.Place → Prop) (Report : call.Seen → Prop)
    (c : Clock) (t : ThreadId) (s : call.State) (p : call.Place) :
    Step call.State call.Place (Answer call.Result) → Prop
  | .goto s' q _ => Knows c q ∧ call.Sane t q s' ∧ Report (.moved c s p s' q)
  | .done s' r _ => Report (.ended c s r s')
  | .waits => True

/-- What a caller may know at each place, kept by all that happens to the call,
    and what is then reported of it. The time of day is set only if `steps` lets
    it. -/
structure Invariant (call : TimedCall) (d : Timer) (steps : Bool)
    (Knows : Clock → call.Place → Prop) (Report : call.Seen → Prop) : Prop where
  start : ∀ c, c.InRange → Knows c call.start
  pass : ∀ c p n, Knows c p → (c.advance n).InRange → Knows (c.advance n) p
  set : steps = true → ∀ c p wall, Knows c p → Knows { c with realtime := wall } p
  signal : ∀ t c p s, Knows c p → call.Sane t p s → ∃ q, call.signalled d p = .inl q ∧
    Knows c q ∧ call.Sane t q s
  step : ∀ c who s p, c.InRange → Knows c p → call.Sane who.thread p s →
    call.Leads Knows Report c who.thread s p (call.step d c who s p)

/-- Where a caller knows something, nothing has gone wrong so far. -/
structure Config.Knowing {call : TimedCall} (t : ThreadId) (Knows : Clock → call.Place → Prop)
    (k : call.Config) : Prop where
  clock : k.clock.InRange
  known : ∀ p, k.place = some p → Knows k.clock p ∧ call.Sane t p k.state

/-- One act keeps what is known. -/
theorem Invariant.next {call : TimedCall} {d : Timer} {steps : Bool}
    {Knows : Clock → call.Place → Prop} {Report : call.Seen → Prop}
    (I : Invariant call d steps Knows Report) (t : ThreadId) (k k' : call.Config) (a : call.Act)
    (es : List call.Seen) (hk : k.Knowing t Knows) (ha : steps = true ∨ a.Steady)
    (h : call.next d t k a = some (k', es)) : k'.Knowing t Knows ∧ ∀ e ∈ es, Report e := by
  cases next_cases call d t k k' a es h with
  | pass ns hr =>
      refine ⟨⟨hr, fun p hp => ?_⟩, List.forall_mem_nil _⟩
      rcases hk.known p hp with ⟨hknown, hs⟩
      exact ⟨I.pass k.clock p ns hknown hr, hs⟩
  | set wall hr =>
      have hsteps : steps = true := ha.resolve_right fun h => h
      refine ⟨⟨hr, fun p hp => ?_⟩, List.forall_mem_nil _⟩
      rcases hk.known p hp with ⟨hknown, hs⟩
      exact ⟨I.set hsteps k.clock p wall hknown, hs⟩
  | others s hs =>
      exact ⟨⟨hk.clock, fun p hp => ⟨(hk.known p hp).1, hs p hp⟩⟩, List.forall_mem_nil _⟩
  | signal p q hp hq =>
      rcases hk.known p hp with ⟨hknown, hs⟩
      rcases I.signal t k.clock p k.state hknown hs with ⟨q', hq', hknown', hs'⟩
      have hqq : q' = q := Sum.inl.inj (hq'.symm.trans hq)
      refine ⟨⟨hk.clock, fun x hx => ?_⟩, List.forall_mem_nil _⟩
      rw [← Option.some.inj hx, ← hqq]
      exact ⟨hknown', hs'⟩
  | interrupt p e hp he =>
      -- A signal never ends the call.
      rcases hk.known p hp with ⟨hknown, hs⟩
      rcases I.signal t k.clock p k.state hknown hs with ⟨q', hq', _⟩
      exact absurd (hq'.symm.trans he) (by simp only [reduceCtorEq, not_false_eq_true])
  | move policy priority reach p q s notes hp hq =>
      rcases hk.known p hp with ⟨hknown, hs⟩
      have hleads := I.step k.clock ⟨t, policy, priority, reach⟩ k.state p hk.clock hknown hs
      rw [hq] at hleads
      rcases hleads with ⟨hknown', hs', hreport⟩
      refine ⟨⟨hk.clock, fun x hx => ?_⟩, List.forall_mem_singleton.mpr hreport⟩
      rw [← Option.some.inj hx]
      exact ⟨hknown', hs'⟩
  | finish policy priority reach p r s notes hp hr =>
      rcases hk.known p hp with ⟨hknown, hs⟩
      have hleads := I.step k.clock ⟨t, policy, priority, reach⟩ k.state p hk.clock hknown hs
      rw [hr] at hleads
      exact ⟨⟨hk.clock, fun x hx => absurd hx (by simp only [reduceCtorEq, not_false_eq_true])⟩,
        List.forall_mem_singleton.mpr hleads⟩

/-- What is known is kept along every run, and everything that is seen is as it
    should be. -/
theorem Invariant.play {call : TimedCall} {d : Timer} {steps : Bool}
    {Knows : Clock → call.Place → Prop} {Report : call.Seen → Prop}
    (I : Invariant call d steps Knows Report) (t : ThreadId) (k k' : call.Config)
    (acts : List call.Act) (es : List call.Seen) (hk : k.Knowing t Knows)
    (ha : ∀ a ∈ acts, steps = true ∨ a.Steady)
    (h : Schedule.play (call.next d t) k acts = some (k', es)) :
    k'.Knowing t Knows ∧ ∀ e ∈ es, Report e :=
  Schedule.play_shows (call.next d t) (fun a => steps = true ∨ a.Steady)
    (fun k => k.Knowing t Knows) Report (fun k a k' es hk ha h => I.next t k k' a es hk ha h)
    acts k k' es hk ha h

/-- The same from the start of a call. -/
theorem Invariant.knowing_of_starts {call : TimedCall} {d : Timer} {steps : Bool}
    {Knows : Clock → call.Place → Prop} {Report : call.Seen → Prop}
    (I : Invariant call d steps Knows Report) (t : ThreadId) (k : call.Config)
    (hk : k.Starts t) : k.Knowing t Knows := by
  refine ⟨hk.clock, fun p hp => ?_⟩
  rw [hk.place, Option.some.injEq] at hp
  rw [← hp]
  exact ⟨I.start k.clock hk.clock, hk.state⟩

/-- Of a call that is over nothing is seen any more. Of one that is not, moves are
    seen, and then its end if it has come to that. -/
theorem seen_of_play (call : TimedCall) (d : Timer) (t : ThreadId) :
    ∀ (acts : List call.Act) (k k' : call.Config) (es : List call.Seen),
      Schedule.play (call.next d t) k acts = some (k', es) →
      (k.place = none → k'.place = none ∧ es = []) ∧
      (k.place ≠ none → ∃ moves, (∀ e ∈ moves, ∃ c b p a q, e = .moved c b p a q) ∧
        (k'.place ≠ none ∧ es = moves ∨
          k'.place = none ∧ ∃ c b r a, es = moves ++ [.ended c b r a])) := by
  have hnil : ∀ e ∈ ([] : List call.Seen), ∃ c b p a q, e = .moved c b p a q :=
    fun e he => absurd he List.not_mem_nil
  intro acts
  induction acts with
  | nil =>
      intro k k' es h
      simp only [Schedule.play, Option.some.injEq, Prod.mk.injEq] at h
      rcases h with ⟨rfl, rfl⟩
      exact ⟨fun hp => ⟨hp, rfl⟩, fun hp => ⟨[], hnil, Or.inl ⟨hp, rfl⟩⟩⟩
  | cons a rest ih =>
      intro k k' es h
      rcases (Schedule.play_cons_iff (call.next d t) k k' a rest es).mp h with
        ⟨m, first, later, hfirst, hrest, rfl⟩
      have hlater := ih m k' later hrest
      -- An act of others shows nothing and leaves the place alone.
      have hquiet : m.place = k.place → first = [] →
          (k.place = none → k'.place = none ∧ first ++ later = []) ∧
          (k.place ≠ none → ∃ moves, (∀ e ∈ moves, ∃ c b p a q, e = .moved c b p a q) ∧
            (k'.place ≠ none ∧ first ++ later = moves ∨
              k'.place = none ∧ ∃ c b r a, first ++ later = moves ++ [.ended c b r a])) := by
        rintro hplace rfl
        rw [← hplace]
        exact hlater
      cases next_cases call d t k m a first hfirst with
      | pass ns _ => exact hquiet rfl rfl
      | set wall _ => exact hquiet rfl rfl
      | others s _ => exact hquiet rfl rfl
      | signal p q hp _ =>
          rw [hp]
          refine ⟨fun h => absurd h (by simp only [reduceCtorEq, not_false_eq_true]), fun _ => ?_⟩
          exact hlater.2 (by simp only [ne_eq, reduceCtorEq, not_false_eq_true])
      | interrupt p e hp _ =>
          rw [hp]
          refine ⟨fun h => absurd h (by simp only [reduceCtorEq, not_false_eq_true]), fun _ => ?_⟩
          rcases hlater.1 rfl with ⟨hover, rfl⟩
          exact ⟨[], hnil, Or.inr ⟨hover, _, _, _, _, rfl⟩⟩
      | move policy priority reach p q s notes hp _ =>
          rw [hp]
          refine ⟨fun h => absurd h (by simp only [reduceCtorEq, not_false_eq_true]), fun _ => ?_⟩
          rcases hlater.2 (by simp only [ne_eq, reduceCtorEq, not_false_eq_true]) with
            ⟨moves, hmoves, hend⟩
          refine ⟨.moved k.clock k.state p s q :: moves, fun e he => ?_, ?_⟩
          · rcases List.mem_cons.mp he with rfl | he
            · exact ⟨_, _, _, _, _, rfl⟩
            · exact hmoves e he
          · rcases hend with ⟨hp', rfl⟩ | ⟨hp', c, b, r, a, rfl⟩
            · exact Or.inl ⟨hp', rfl⟩
            · exact Or.inr ⟨hp', c, b, r, a, rfl⟩
      | finish policy priority reach p r s notes hp _ =>
          rw [hp]
          refine ⟨fun h => absurd h (by simp only [reduceCtorEq, not_false_eq_true]), fun _ => ?_⟩
          rcases hlater.1 rfl with ⟨hover, rfl⟩
          exact ⟨[], hnil, Or.inr ⟨hover, _, _, _, _, rfl⟩⟩

/-- A call that nobody interferes with goes its way, and is over. -/
theorem play_alone {call : TimedCall} {d : Timer} {c : Clock} {who : Caller} {n : Nat}
    {s b a : call.State} {p q : call.Place} {r : Answer call.Result} {notes : List Note}
    (hway : Walk (call.step d c who) n s p b q) (hend : call.step d c who b q = .done a r notes) :
    ∃ es, Schedule.play (call.next d who.thread) ⟨c, s, some p⟩
        (List.replicate (n + 1) (.move who.policy who.priority who.reach)) =
          some (⟨c, a, none⟩, es) ∧
      .ended c b r a ∈ es := by
  induction hway with
  | here s p =>
      refine ⟨[.ended c s r a], ?_, List.mem_singleton.mpr rfl⟩
      simp only [List.replicate, Schedule.play, next, hend, List.append_nil]
  | cons n s s' b p p' q more hfirst _ ih =>
      rcases ih hend with ⟨es, hplay, hmem⟩
      refine ⟨.moved c s p s' p' :: es, ?_, List.mem_cons_of_mem _ hmem⟩
      rw [List.replicate_succ, Schedule.play_cons_iff]
      exact ⟨⟨c, s', some p'⟩, [.moved c s p s' p'], es, by simp only [next, hfirst], hplay, rfl⟩

end TimedCall

end HostLayer
