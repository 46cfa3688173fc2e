import HostLayer.Proofs.Timed.Patience

/-!
# Retries

Calls that a signal interrupts, and that ask the host again.

A wait for a token and a call that sends or receives give the host a deadline on
the time of day. When a signal arrives, they compute that deadline anew and ask
again, so that the host can be asked any number of times, while time passes and
somebody sets the time of day. `TimedCall.Retry.Exactly` is what a caller notices
of all that. The call is answered once, and never with an interruption. What it
was to move is moved once if it succeeds, and else nothing is. The host is given
as much time as is left on the steady clock, so after the last interruption the
wait ends at the instant that was meant from the beginning.

A deadline that is not normalized never gets as far as the host. Such a call fails
whatever there is to be had, and it does not sleep.

## Main definitions

* `TimedCall.Retry`: How a call asks again, and what it delivers.
* `TimedCall.Exact`: The deadline for the host is as far ahead as the caller's.
* `TimedCall.Retry.Exactly`: What can be relied on.

## Theorems

* `TimedCall.moves_le`: How often a call moves that comes closer to its end.
* `TimedCall.Retry.exactly_of`: Where the parts of it come from.
* `TimedCall.retries_exact`: Tokens and messages are moved exactly once.
-/

namespace HostLayer

namespace TimedCall

/-- A call that gives the host a deadline on the time of day, sleeps with it, and
    asks again after a signal. -/
structure Retry (call : TimedCall) where
  /-- The host is about to be asked. -/
  asking : call.Place
  /-- The thread sleeps with a deadline for the host. -/
  asleep : Option HostTime → call.Place
  /-- What the call works on before and after it has succeeded with a result. -/
  Delivers : call.State → call.Result → call.State → Prop

/-- A deadline for the host, given at the time `c`. It is normalized, and as far
    ahead of the time of day as the caller's is ahead on the steady clock, where
    that is cut to what a word of nanoseconds holds. -/
structure Exact (d : Timer) (c : Clock) (limit : HostTime) : Prop where
  normalized : limit.nsec < nanosPerSecond
  not_negative : limit.negative = false
  nanos_eq : limit.nanos = (c.realtime + (min d.value (word64 - 1) - c.monotonic) : Nat)

namespace Retry

variable {call : TimedCall} (R : Retry call) (d : Timer)

/-- The end of a call: it has delivered once, or it has failed and changed nothing,
    and no interruption is what it says. -/
def Settles (before : call.State) : Answer call.Result → call.State → Prop
  | .ok x, after => R.Delivers before x after
  | .error e, after => after = before ∧ e ≠ .interrupted

/-- What a caller can rely on with the deadline `d`, however often the call is
    interrupted and whatever happens to the clocks in between. -/
structure Exactly : Prop where
  /-- A signal makes a sleeper ask again. -/
  again : ∀ limit, call.signalled d (R.asleep limit) = .inl R.asking
  /-- The steps of a call change nothing, except for the last one. -/
  once : ∀ t k k' acts es, k.Starts t → Schedule.play (call.next d t) k acts = some (k', es) →
    ∃ quiet, (∀ e ∈ quiet, ∃ c s p q, e = .moved c s p s q) ∧
      (k'.place ≠ none ∧ es = quiet ∨
        k'.place = none ∧ ∃ c b r a, es = quiet ++ [.ended c b r a] ∧ R.Settles b r a)
  /-- At any time, the host can be given the deadline that is meant. -/
  deadline : call.source = .monotonic → d.Normalized → ∀ c, c.InRange →
    ∃ limit, c.wallDeadline? call.source d = some limit ∧ Exact d c limit
  /-- Whoever goes to sleep has given the host the deadline of that time. -/
  sleeps : ∀ t k k' acts es, k.Starts t → Schedule.play (call.next d t) k acts = some (k', es) →
    ∀ c b p a limit, .moved c b p a (R.asleep limit) ∈ es →
      p = R.asking ∧ ∃ l, limit = some l ∧ c.wallDeadline? call.source d = some l
  /-- From an attempt on after which nobody sets the time of day, the call gives up
      no earlier than the deadline, and once that has expired nobody sleeps on. -/
  instant : call.source = .monotonic → d.Normalized → ∀ t k m k' acts later es fs, k.Starts t →
    Schedule.play (call.next d t) k acts = some (m, es) → m.place = some R.asking →
    (∀ a ∈ later, a.Steady) → Schedule.play (call.next d t) m later = some (k', fs) →
      (∀ c b a, .ended c b (.error .timeout) a ∈ fs →
        d.expired (c.now .monotonic) = .error .timeout) ∧
      ∀ limit, k'.place = some (R.asleep limit) →
        d.expired (k'.clock.now .monotonic) = .error .timeout → ∀ policy priority reach,
          ∃ r a, call.next d t k' (.move policy priority reach)
            = some (⟨k'.clock, a, none⟩, [.ended k'.clock k'.state r a])
  /-- With a deadline that is not normalized, the call fails after two steps at most
      and never waits. -/
  refused : ¬d.Normalized → ∀ t k k' acts es, k.Starts t →
    Schedule.play (call.next d t) k acts = some (k', es) →
      (∀ c b r a, .ended c b r a ∈ es → r = .error .invalidParam ∧ a = b) ∧
      acts.countP Act.isMove ≤ 2 ∧
      (k'.place ≠ none → ∀ policy priority reach,
        (call.next d t k' (.move policy priority reach)).isSome)

/-- What is seen of a call step by step: steps that change nothing, sleeps with the
    deadline of the time they began at, and an end that settles the call. -/
def Fair : call.Seen → Prop
  | .moved c b p a q => a = b ∧ ∀ limit, q = R.asleep limit →
      p = R.asking ∧ ∃ l, limit = some l ∧ c.wallDeadline? call.source d = some l
  | .ended _ b r a => R.Settles b r a ∧ (d.Normalized ∨ r = .error .invalidParam)

/-- A call sleeps with normalized deadlines only. -/
def Awake (p : call.Place) : Prop :=
  d.Normalized ∨ ∀ limit, p ≠ R.asleep limit

end Retry

/-- From places with `Knows` a call never waits, and only steps of its own bring it
    closer to its end. -/
structure Brisk (call : TimedCall) (d : Timer) (Knows : call.Place → Prop)
    (toGo : call.Place → Nat) : Prop where
  signal : ∀ p q, Knows p → call.signalled d p = .inl q → toGo q ≤ toGo p
  step : ∀ c who s p, Knows p → (call.step d c who s p).Closer toGo p

/-- The steps that are left, none if the call is over. -/
def Config.toGo {call : TimedCall} (toGo : call.Place → Nat) (k : call.Config) : Nat :=
  match k.place with
  | none => 0
  | some p => toGo p

/-- A call makes no more steps than are left. -/
theorem moves_le {call : TimedCall} {d : Timer} {Knows : call.Place → Prop}
    {Report : call.Seen → Prop} {toGo : call.Place → Nat} (B : Brisk call d Knows toGo)
    (I : Invariant call d true (fun _ p => Knows p) Report) (t : ThreadId) (k k' : call.Config)
    (acts : List call.Act) (es : List call.Seen) (hk : k.Knowing t fun _ p => Knows p)
    (h : Schedule.play (call.next d t) k acts = some (k', es)) :
    k'.toGo toGo + acts.countP Act.isMove ≤ k.toGo toGo := by
  refine Schedule.play_countP_le (call.next d t) (fun _ => True) Act.isMove (Config.toGo toGo)
    (fun k => k.Knowing t fun _ p => Knows p) (fun k a k' es hk _ h => ?_) acts k k' es hk
    (fun _ _ => trivial) h
  refine ⟨(I.next t k k' a es hk (Or.inl rfl) h).1, ?_⟩
  cases next_cases call d t k k' a es h with
  | pass ns _ => exact Nat.le_refl _
  | set wall _ => exact Nat.le_refl _
  | others s _ => exact Nat.le_refl _
  | signal p q hp hq =>
      simp only [Config.toGo, hp]
      exact B.signal p q (hk.known p hp).1 hq
  | interrupt p e hp _ =>
      simp only [Config.toGo, hp]
      exact Nat.zero_le _
  | move policy priority reach p q s notes hp hstep =>
      have hcloser := B.step k.clock ⟨t, policy, priority, reach⟩ k.state p (hk.known p hp).1
      rw [hstep] at hcloser
      simp only [Config.toGo, hp]
      exact hcloser
  | finish policy priority reach p r s notes hp hstep =>
      have hcloser := B.step k.clock ⟨t, policy, priority, reach⟩ k.state p (hk.known p hp).1
      rw [hstep] at hcloser
      simp only [Config.toGo, hp]
      exact hcloser

namespace Retry

variable {call : TimedCall} {R : Retry call} {d : Timer}

/-- A fair call on which nothing gets lost is all that is needed. -/
theorem exactly_of {Knows : Clock → call.Place → Prop} {toGo : call.Place → Nat}
    (he : call.Expires = fun r => r = .error .timeout)
    (hsane : ∀ t p s, call.Sane t p s)
    (hagain : ∀ limit, call.signalled d (R.asleep limit) = .inl R.asking)
    (hfair : Invariant call d true (fun _ p => R.Awake d p) (R.Fair d))
    (htimely : call.source = .monotonic → d.Normalized →
      Invariant call d false Knows (call.Timely d))
    (hasking : ∀ c, Knows c R.asking)
    (hlate : ∀ c who s limit, c.InRange → d.Normalized → Knows c (R.asleep limit) →
      d.expired (c.now call.source) = .error .timeout →
      ∃ a r notes, call.step d c who s (R.asleep limit) = .done a r notes)
    (hbrisk : ¬d.Normalized → Brisk call d (R.Awake d) toGo) (htwo : toGo call.start ≤ 2) :
    R.Exactly d where
  again := hagain
  once t k k' acts es hk h := by
    have hreports := (hfair.play t k k' acts es (hfair.knowing_of_starts t k hk)
      (fun _ _ => Or.inl rfl) h).2
    rcases (seen_of_play call d t acts k k' es h).2 (by
      rw [hk.place]; simp only [ne_eq, reduceCtorEq, not_false_eq_true]) with
      ⟨moves, hmoves, hend⟩
    have hsub : ∀ e ∈ moves, e ∈ es := by
      intro e he
      rcases hend with ⟨_, rfl⟩ | ⟨_, _, _, _, _, rfl⟩
      · exact he
      · exact List.mem_append_left _ he
    refine ⟨moves, fun e he => ?_, ?_⟩
    · rcases hmoves e he with ⟨c, b, p, a, q, rfl⟩
      have hquiet := (hreports _ (hsub _ he)).1
      exact ⟨c, b, p, q, by rw [hquiet]⟩
    · rcases hend with hnone | ⟨hover, c, b, r, a, rfl⟩
      · exact Or.inl hnone
      · have hsettles := (hreports _ (List.mem_append_right _ (List.mem_singleton.mpr rfl))).1
        exact Or.inr ⟨hover, c, b, r, a, rfl, hsettles⟩
  deadline hsource hd c hc := by
    rw [hsource]
    rcases Clock.wallDeadline?_monotonic c d hd hc with ⟨limit, hlimit, hn, hneg, hnanos⟩
    exact ⟨limit, hlimit, hn, hneg, hnanos⟩
  sleeps t k k' acts es hk h c b p a limit hmem := by
    have hreports := (hfair.play t k k' acts es (hfair.knowing_of_starts t k hk)
      (fun _ _ => Or.inl rfl) h).2
    exact (hreports _ hmem).2 limit rfl
  instant hsource hd t k m k' acts later es fs hk h hm hsteady hlater := by
    have hclock := (hfair.play t k m acts es (hfair.knowing_of_starts t k hk)
      (fun _ _ => Or.inl rfl) h).1.clock
    have hknowing : m.Knowing t Knows := by
      refine ⟨hclock, fun p hp => ?_⟩
      rw [hm, Option.some.injEq] at hp
      exact hp ▸ ⟨hasking m.clock, hsane t _ _⟩
    rcases (htimely hsource hd).play t m k' later fs hknowing (fun a ha => Or.inr (hsteady a ha))
      hlater with ⟨hk', hreports⟩
    refine ⟨fun c b a hmem => ?_, fun limit hp hexpired policy priority reach => ?_⟩
    · rw [← hsource]
      exact (hreports _ hmem).1 (by rw [he])
    · rw [← hsource] at hexpired
      rcases hlate k'.clock ⟨t, policy, priority, reach⟩ k'.state limit hk'.clock hd
        (hk'.known _ hp).1 hexpired with ⟨a, r, notes, hstep⟩
      exact ⟨r, a, by simp only [next, hp, hstep]⟩
  refused hd t k k' acts es hk h := by
    have hstarts := hfair.knowing_of_starts t k hk
    rcases hfair.play t k k' acts es hstarts (fun _ _ => Or.inl rfl) h with ⟨hk', hreports⟩
    refine ⟨fun c b r a hmem => ?_, ?_, fun hp policy priority reach => ?_⟩
    · rcases hreports _ hmem with ⟨hsettles, hr⟩
      have hrefused := hr.resolve_left hd
      rw [hrefused] at hsettles
      exact ⟨hrefused, hsettles.1⟩
    · have hle := moves_le (hbrisk hd) hfair t k k' acts es hstarts h
      have hstart : k.toGo toGo = toGo call.start := by
        unfold Config.toGo
        rw [hk.place]
      omega
    · rcases hplace : k'.place with _ | p
      · exact absurd hplace hp
      · have hcloser := (hbrisk hd).step k'.clock ⟨t, policy, priority, reach⟩ k'.state p
          (hk'.known p hplace).1
        simp only [next, hplace]
        cases hstep : call.step d k'.clock ⟨t, policy, priority, reach⟩ k'.state p with
        | goto s q notes => rfl
        | done s r notes => rfl
        | waits =>
            rw [hstep] at hcloser
            exact hcloser.elim

end Retry

/-- A wait for a token takes one. -/
@[reducible] def tokensRetry (source : ClockSource) : Retry (tokens source) where
  asking := .asking
  asleep := .asleep
  Delivers before _ after := before.value = after.value + 1

/-- A call that sends or receives moves one message. -/
@[reducible] def transferRetry (source : ClockSource) (h : QueueHandle)
    (r : QueueHandle.Request) : Retry (transfer source h r) where
  asking := .asking
  asleep := .asleep
  Delivers before result after := QueueHandle.Transferred before r result after

-- No call is at the same time over and on its way.
theorem Retry.Awake.normalized {call : TimedCall} {R : Retry call} {d : Timer}
    {limit : Option HostTime} (h : R.Awake d (R.asleep limit)) : d.Normalized :=
  h.resolve_right fun hno => hno limit rfl

section

variable (source : ClockSource) (d : Timer)

theorem tokens_fair : Invariant (tokens source) d true (fun _ p => (tokensRetry source).Awake d p)
    ((tokensRetry source).Fair d) where
  start _ _ := Or.inr fun limit h => absurd h (by simp only [reduceCtorEq, not_false_eq_true])
  pass _ _ _ hk _ := hk
  set _ _ _ _ hk := hk
  signal _ _ p _ _ _ := by
    refine ⟨.asking, ?_, Or.inr fun limit h => absurd h (by
      simp only [reduceCtorEq, not_false_eq_true]), trivial⟩
    cases p <;> rfl
  step c who s p _ hk _ := by
    have hstep := Semaphore.step_stepped source d c s p
    change (tokens source).Leads _ _ c _ s _ (Semaphore.step source (some d) c s p)
    generalize Semaphore.step source (some d) c s p = x at hstep ⊢
    cases hstep with
    | refuse _ => exact ⟨⟨rfl, by decide⟩, Or.inr rfl⟩
    | take p s' hp ht =>
        refine ⟨Semaphore.take?_value ht, Or.inl ?_⟩
        cases p with
        | asking =>
            rcases hp rfl with ⟨limit, hlimit⟩
            exact Clock.normalized_of_wallDeadline? hlimit
        | asleep limit => exact Retry.Awake.normalized hk
    | sleep limit hlimit _ =>
        refine ⟨Or.inl (Clock.normalized_of_wallDeadline? hlimit), trivial, rfl,
          fun l hl => ⟨rfl, limit, ?_, hlimit⟩⟩
        exact (Semaphore.Place.asleep.inj hl).symm
    | tire limit _ _ => exact ⟨⟨rfl, by decide⟩, Or.inl (Retry.Awake.normalized hk)⟩
    | rest _ _ _ => trivial

-- A wait that cannot have its deadline is over with its first step.
theorem tokens_brisk (hd : ¬d.Normalized) :
    Brisk (tokens source) d ((tokensRetry source).Awake d) fun _ => 1 where
  signal _ _ _ _ := Nat.le_refl _
  step c who s p hk := by
    cases p with
    | asking =>
        have hstep : Semaphore.step source (some d) c s .asking
            = .done s (.error .invalidParam) [] := by
          simp only [Semaphore.step, Semaphore.limit?,
            Clock.wallDeadline?_of_not_normalized c source d hd, Option.map_none]
        change (Semaphore.step source (some d) c s .asking).Closer _ _
        rw [hstep]
        exact Nat.one_pos
    | asleep limit => exact absurd (Retry.Awake.normalized hk) hd

theorem transfer_fair (h : QueueHandle) (r : QueueHandle.Request) :
    Invariant (transfer source h r) d true (fun _ p => (transferRetry source h r).Awake d p)
      ((transferRetry source h r).Fair d) where
  start _ _ := Or.inr fun limit h => absurd h (by simp only [reduceCtorEq, not_false_eq_true])
  pass _ _ _ hk _ := hk
  set _ _ _ _ hk := hk
  signal _ _ p _ hk _ := by
    have hasking : (transferRetry source h r).Awake d .asking :=
      Or.inr fun limit h => absurd h (by simp only [reduceCtorEq, not_false_eq_true])
    cases p with
    | checking => exact ⟨.checking, rfl, hk, trivial⟩
    | asking => exact ⟨.asking, rfl, hasking, trivial⟩
    | asleep limit => exact ⟨.asking, rfl, hasking, trivial⟩
  step c who q p _ hk _ := by
    -- Wherever the host is asked, the deadline is normalized.
    have hasks : ∀ limit, p.asks source d c = some limit → d.Normalized := by
      intro limit hp
      cases p with
      | checking => exact absurd hp (by simp only [QueueHandle.Place.asks, reduceCtorEq,
          not_false_eq_true])
      | asking =>
          rcases hl : c.wallDeadline? source d with _ | l
          · rw [QueueHandle.Place.asks, hl] at hp
            exact absurd hp (by simp only [Option.map_none, reduceCtorEq, not_false_eq_true])
          · exact Clock.normalized_of_wallDeadline? hl
      | asleep limit' => exact Retry.Awake.normalized hk
    have hstep := QueueHandle.step_stepped h r source d c q p
    change (transfer source h r).Leads _ _ c _ q _ (h.step r source (some d) c q p)
    generalize h.step r source (some d) c q p = x at hstep ⊢
    cases hstep with
    | accept _ =>
        exact ⟨Or.inr fun limit h => absurd h (by simp only [reduceCtorEq, not_false_eq_true]),
          trivial, rfl, fun limit h => absurd h (by simp only [reduceCtorEq, not_false_eq_true])⟩
    | tooLong _ => exact ⟨⟨rfl, by decide⟩, Or.inr rfl⟩
    | refuse _ => exact ⟨⟨rfl, by decide⟩, Or.inr rfl⟩
    | deliver _ limit q' result hp ht => exact ⟨ht, Or.inl (hasks limit hp)⟩
    | fail _ limit cause hp hi _ _ => exact ⟨⟨rfl, hi⟩, Or.inl (hasks limit hp)⟩
    | sleep limit hlimit =>
        refine ⟨Or.inl (Clock.normalized_of_wallDeadline? hlimit), trivial, rfl,
          fun l hl => ⟨rfl, limit, ?_, hlimit⟩⟩
        exact (QueueHandle.Place.asleep.inj hl).symm
    | rest _ _ => trivial

/-- The steps that a call which cannot have its deadline makes over a queue. -/
def transferToGo : QueueHandle.Place → Nat
  | .checking => 2
  | _ => 1

-- A call that cannot have its deadline is over when the host is to be asked.
theorem transfer_brisk (h : QueueHandle) (r : QueueHandle.Request) (hd : ¬d.Normalized) :
    Brisk (transfer source h r) d ((transferRetry source h r).Awake d) transferToGo where
  signal p q hk hq := by
    cases p with
    | checking => exact Nat.le_of_eq (congrArg transferToGo (Sum.inl.inj hq).symm)
    | asking => exact Nat.le_of_eq (congrArg transferToGo (Sum.inl.inj hq).symm)
    | asleep limit => exact absurd (Retry.Awake.normalized hk) hd
  step c who q p hk := by
    have hstep := QueueHandle.step_stepped h r source d c q p
    change (h.step r source (some d) c q p).Closer _ _
    generalize h.step r source (some d) c q p = x at hstep ⊢
    cases hstep with
    | accept _ => exact Nat.lt_succ_self 1
    | tooLong _ => exact Nat.two_pos
    | refuse _ => exact Nat.one_pos
    | deliver p _ _ _ _ _ => cases p <;> exact Nat.succ_pos _
    | fail p _ _ _ _ _ _ => cases p <;> exact Nat.succ_pos _
    | sleep limit hlimit => exact absurd (Clock.normalized_of_wallDeadline? hlimit) hd
    | rest _ _ => exact absurd (Retry.Awake.normalized hk) hd

-- A sleeper whose deadline has expired has its answer, a token or a timeout.
theorem tokens_late (c : Clock) (s : Semaphore) (limit : Option HostTime) (hc : c.InRange)
    (hd : d.Normalized) (hk : Heeded source d c limit)
    (hexpired : d.expired (c.now source) = .error .timeout) :
    ∃ a r notes, Semaphore.step source (some d) c s (.asleep limit) = .done a r notes := by
  rcases hk with ⟨l, rfl, hheeds⟩
  have hpassed := (Clock.expired_now_iff c source d hd hc).mp hexpired
  have hreached := (hheeds.reached_iff hc).mpr hpassed
  have hstep := Semaphore.step_stepped source d c s (.asleep (some l))
  generalize Semaphore.step source (some d) c s (.asleep (some l)) = x at hstep ⊢
  cases hstep with
  | take _ s' _ _ => exact ⟨_, _, _, rfl⟩
  | tire _ _ _ => exact ⟨_, _, _, rfl⟩
  | rest _ _ hl => exact absurd (hreached.symm.trans hl) (by decide)

theorem transfer_late (h : QueueHandle) (r : QueueHandle.Request) (c : Clock) (q : Host.Queue)
    (limit : Option HostTime) (hc : c.InRange) (hd : d.Normalized) (hk : Heeded source d c limit)
    (hexpired : d.expired (c.now source) = .error .timeout) :
    ∃ a x notes, h.step r source (some d) c q (.asleep limit) = .done a x notes := by
  rcases hk with ⟨l, rfl, hheeds⟩
  have hpassed := (Clock.expired_now_iff c source d hd hc).mp hexpired
  have hreached := (hheeds.reached_iff hc).mpr hpassed
  have hstep := QueueHandle.step_stepped h r source d c q (.asleep (some l))
  generalize h.step r source (some d) c q (.asleep (some l)) = x at hstep ⊢
  cases hstep with
  | deliver _ _ _ _ _ _ => exact ⟨_, _, _, rfl⟩
  | fail _ _ _ _ _ _ _ => exact ⟨_, _, _, rfl⟩
  | rest _ hl => exact absurd (hreached.symm.trans hl) (by decide)

end

/-- However often a wait for a token, or a call that sends or receives, is
    interrupted, and whatever happens to the clocks and to what it works on: with
    any deadline, it moves exactly one token or message if it succeeds and none
    otherwise, is never answered with an interruption, and keeps its deadline. -/
theorem retries_exact (source : ClockSource) (d : Timer) :
    (tokensRetry source).Exactly d ∧ ∀ h r, (transferRetry source h r).Exactly d := by
  refine ⟨?_, fun h r => ?_⟩
  · exact Retry.exactly_of rfl (fun _ _ _ => trivial) (fun _ => rfl) (tokens_fair source d)
      (fun hsource hd => tokens_invariant source d hd (Or.inl hsource)) (fun _ => trivial)
      (fun c _ s limit hc hd hk => tokens_late source d c s limit hc hd hk)
      (tokens_brisk source d) (by decide)
  · exact Retry.exactly_of rfl (fun _ _ _ => trivial) (fun _ => rfl) (transfer_fair source d h r)
      (fun hsource hd => transfer_invariant source d h r hd (Or.inl hsource)) (fun _ => trivial)
      (fun c _ q limit hc hd hk => transfer_late source d h r c q limit hc hd hk)
      (transfer_brisk source d h r) (Nat.le_refl 2)

-- A wait with a deadline of five seconds sleeps after one second. The time of day is
-- set forward, a signal comes after two seconds, and the wait asks again. It times
-- out after five.
theorem retries_exact_interrupted : ∃ m k' es fs,
    (⟨⟨1000000000, 7⟩, ⟨0⟩, some .asking⟩ : (tokens .monotonic).Config).Starts 1 ∧
    Schedule.play ((tokens .monotonic).next ⟨5, 0⟩ 1) ⟨⟨1000000000, 7⟩, ⟨0⟩, some .asking⟩
        [.move .other 0 0, .pass 1000000000, .set 100000000000, .signal] = some (m, es) ∧
    m.place = some .asking ∧
    Schedule.play ((tokens .monotonic).next ⟨5, 0⟩ 1) m
        [.move .other 0 0, .pass 3000000000, .move .other 0 0] = some (k', fs) ∧
    .ended ⟨5000000000, 103000000000⟩ ⟨0⟩ (.error .timeout) ⟨0⟩ ∈ fs ∧
    Timer.expired ⟨5, 0⟩ (Clock.now ⟨5000000000, 103000000000⟩ .monotonic)
      = .error .timeout := by
  have hstarts : (⟨⟨1000000000, 7⟩, ⟨0⟩, some .asking⟩ : (tokens .monotonic).Config).Starts 1 :=
    ⟨by decide, rfl, trivial⟩
  have hrun : ∃ m k' es fs,
      Schedule.play ((tokens .monotonic).next ⟨5, 0⟩ 1) ⟨⟨1000000000, 7⟩, ⟨0⟩, some .asking⟩
        [.move .other 0 0, .pass 1000000000, .set 100000000000, .signal] = some (m, es) ∧
      m.place = some .asking ∧
      Schedule.play ((tokens .monotonic).next ⟨5, 0⟩ 1) m
        [.move .other 0 0, .pass 3000000000, .move .other 0 0] = some (k', fs) ∧
      .ended ⟨5000000000, 103000000000⟩ ⟨0⟩ (.error .timeout) ⟨0⟩ ∈ fs :=
    ⟨_, _, _, _, rfl, rfl, rfl, List.mem_cons_of_mem _ (List.mem_singleton.mpr rfl)⟩
  rcases hrun with ⟨m, k', es, fs, hplay, hm, hlater, hmem⟩
  have hsteady : ∀ a ∈ [Act.move .other 0 0, .pass 3000000000, .move .other 0 0],
      (a : (tokens .monotonic).Act).Steady := by
    simp [Act.Steady]
  exact ⟨m, k', es, fs, hstarts, hplay, hm, hlater, hmem,
    ((retries_exact .monotonic ⟨5, 0⟩).1.instant rfl (by decide) 1 _ m k' _ _ es fs hstarts hplay
      hm hsteady hlater).1 _ _ _ hmem⟩

end TimedCall

end HostLayer
