import HostLayer.Proofs.Sync.Refusals
import HostLayer.Proofs.Sync.Tokens
import HostLayer.Proofs.Timed.Kinds
import Mathlib.Tactic.ByContra
import Mathlib.Tactic.SplitIfs

/-!
# Patience

No timed call gives up before its deadline, as far as the host counts it.

A call that says that its deadline has passed says so at a time that its caller
finds no earlier either, and no call takes a normalized deadline for a malformed
one. Neither is so for all deadlines. Where the seconds of a deadline are handed to
the host as they are, those in the upper half of the words are negative ones to it,
and it takes the deadline for one that has passed, or refuses it. The calls that
are given a deadline on the time of day only are spared that on the steady clock,
because there a deadline is moved by what is left of it and cut to what a word
holds.

`TimedCall.patient_iff` says so for all five kinds of calls at once. One direction
is an invariant for each kind: what a place says about the deadline. The other one
is the call alone at the zero of the clocks.

## Main definitions

* `TimedCall.Timely`: What is seen of a call that keeps to its deadline.
* `TimedCall.Patient`: All runs with a deadline are like that.

## Theorems

* `TimedCall.patient_of_invariant`, `TimedCall.not_patient_of_walk`: Ways to find
  out.
* `TimedCall.tokens_invariant`, `TimedCall.transfer_invariant`: The deadline that
  the host has heeds the caller's.
* `TimedCall.condition_invariant`, `TimedCall.slot_invariant`,
  `TimedCall.sleep_invariant`: The host has the deadline itself.
* `TimedCall.patient_iff`: Which calls are patient with which deadlines.
* `TimedCall.upper_half_impatient`: None of them is with `2 ^ 63` seconds.
-/

namespace HostLayer

namespace TimedCall

/-- Nothing is seen that is against the deadline `d`: a call that says that the
    deadline has passed says so at a time at which it has expired, and one that
    says that it was asked in a malformed way was not so because of the deadline. -/
def Timely (call : TimedCall) (d : Timer) : call.Seen → Prop
  | .moved _ _ _ _ _ => True
  | .ended c before r _ =>
      (call.Expires r → d.expired (c.now call.source) = .error .timeout) ∧
      (r = .error .invalidParam → call.Faulty before)

/-- No call gives up before the deadline `d`, as long as nobody sets the time of
    day, whatever else happens. -/
def Patient (call : TimedCall) (d : Timer) : Prop :=
  ∀ (t : ThreadId) (k k' : call.Config) (acts : List call.Act) (es : List call.Seen),
    k.Starts t → (∀ a ∈ acts, a.Steady) →
    Schedule.play (call.next d t) k acts = some (k', es) → ∀ e ∈ es, call.Timely d e

theorem patient_of_invariant {call : TimedCall} {d : Timer} {Knows : Clock → call.Place → Prop}
    (I : Invariant call d false Knows (call.Timely d)) : call.Patient d :=
  fun t k k' acts es hk hsteady hrun =>
    (I.play t k k' acts es (I.knowing_of_starts t k hk) (fun a ha => Or.inr (hsteady a ha))
      hrun).2

/-- A call alone that ends against its deadline is not patient. -/
theorem not_patient_of_walk {call : TimedCall} {d : Timer} {c : Clock} (who : Caller) {n : Nat}
    {s b a : call.State} {q : call.Place} {r : Answer call.Result} {notes : List Note}
    (hc : c.InRange) (hs : call.Sane who.thread call.start s)
    (hway : Walk (call.step d c who) n s call.start b q)
    (hend : call.step d c who b q = .done a r notes)
    (hbad : ¬call.Timely d (.ended c b r a)) : ¬call.Patient d := by
  intro h
  rcases play_alone hway hend with ⟨es, hrun, hmem⟩
  refine hbad (h who.thread _ _ _ es ⟨hc, rfl, hs⟩ (fun x hx => ?_) hrun _ hmem)
  rw [(List.mem_replicate.mp hx).2]
  trivial

section

variable {call : TimedCall} {d : Timer} {Knows : Clock → call.Place → Prop} {c : Clock}
  {t : ThreadId} {b a : call.State} {p : call.Place} {notes : List Note}

-- A call that gets what it wants does not give up.
theorem leads_ok {x : call.Result} (he : call.Expires = fun r => r = .error .timeout) :
    call.Leads Knows (call.Timely d) c t b p (.done a (.ok x) notes) := by
  refine ⟨fun hr => ?_, fun hr => absurd hr (by simp only [reduceCtorEq, not_false_eq_true])⟩
  rw [he] at hr
  exact absurd hr (by simp only [reduceCtorEq, not_false_eq_true])

-- One that fails gives up if it says so.
theorem leads_error (he : call.Expires = fun r => r = .error .timeout) (cause : Error)
    (ht : cause = .timeout → d.expired (c.now call.source) = .error .timeout)
    (hi : cause = .invalidParam → call.Faulty b) :
    call.Leads Knows (call.Timely d) c t b p (.done a (.error cause) notes) := by
  refine ⟨fun hr => ?_, fun hr => hi (Except.error.inj hr)⟩
  rw [he] at hr
  exact ht (Except.error.inj hr)

end

variable (source : ClockSource) (d : Timer)

/-- What is known of the deadline that the host has been given: there is one, and
    it heeds the caller's. -/
def Heeded (c : Clock) (limit : Option HostTime) : Prop :=
  ∃ l, limit = some l ∧ Clock.Heeds source d l c

section

variable {source d}

theorem Heeded.advance {c : Clock} {limit : Option HostTime} (h : Heeded source d c limit)
    (n : Nat) : Heeded source d (c.advance n) limit := by
  rcases h with ⟨l, rfl, hl⟩
  exact ⟨l, rfl, hl.advance n⟩

-- Once the host takes its deadline for passed, the caller's has expired.
theorem Heeded.expired {c : Clock} {limit : HostTime} (h : Heeded source d c (some limit))
    (hd : d.Normalized) (hc : c.InRange) (hl : limit.reached c.realtime = true) :
    d.expired (c.now source) = .error .timeout := by
  rcases h with ⟨l, hlimit, hheeds⟩
  rw [Option.some.injEq] at hlimit
  rw [hlimit] at hl
  exact (Clock.expired_now_iff c source d hd hc).mpr ((hheeds.reached_iff hc).mp hl)

-- What the host counts as its caller does has expired when it has passed for the
-- host.
theorem expired_of_reached {c : Clock} (hd : d.Normalized) (hcount : d.Countable)
    (hc : c.InRange) (h : (HostTime.ofTimer d).reached (c.nanos source) = true) :
    d.expired (c.now source) = .error .timeout :=
  (Clock.expired_now_iff c source d hd hc).mpr ((HostTime.reached_iff d _ hcount).mp h)

end

/-- What is known at the places of a wait for a token. -/
def TokensKnow (c : Clock) : Semaphore.Place → Prop
  | .asking => True
  | .asleep limit => Heeded source d c limit

theorem tokens_invariant (hd : d.Normalized) (h : source = .monotonic ∨ d.Countable) :
    Invariant (tokens source) d false (TokensKnow source d) ((tokens source).Timely d) where
  start _ _ := trivial
  pass _ p n hk _ := by
    cases p with
    | asking => trivial
    | asleep limit => exact Heeded.advance hk n
  set hsteps := absurd hsteps Bool.false_ne_true
  signal _ _ p _ _ _ := by
    cases p <;> exact ⟨.asking, rfl, trivial, trivial⟩
  step c who s p hc hk _ := by
    rcases Clock.wallDeadline?_heeds c source d hd hc h with ⟨l, hl, hheeds⟩
    have hstep := Semaphore.step_stepped source d c s p
    change (tokens source).Leads _ _ c _ s _ (Semaphore.step source (some d) c s p)
    generalize Semaphore.step source (some d) c s p = x at hstep ⊢
    cases hstep with
    | refuse hnone =>
        exact absurd (hl.symm.trans hnone) (by simp only [reduceCtorEq, not_false_eq_true])
    | take _ s' _ _ => exact leads_ok rfl
    | sleep limit hlimit _ =>
        rw [hl, Option.some.injEq] at hlimit
        exact ⟨⟨limit, rfl, hlimit ▸ hheeds⟩, trivial, trivial⟩
    | tire limit _ hlate =>
        rcases hk with ⟨l', rfl, hl'⟩
        exact leads_error rfl .timeout (fun _ => Heeded.expired ⟨l', rfl, hl'⟩ hd hc hlate)
          (fun h => absurd h (by decide))
    | rest => trivial

/-- What is known at the places of a call that sends or receives. -/
def TransferKnow (c : Clock) : QueueHandle.Place → Prop
  | .checking => True
  | .asking => True
  | .asleep limit => Heeded source d c limit

theorem transfer_invariant (h : QueueHandle) (r : QueueHandle.Request) (hd : d.Normalized)
    (hs : source = .monotonic ∨ d.Countable) :
    Invariant (transfer source h r) d false (TransferKnow source d)
      ((transfer source h r).Timely d) where
  start _ _ := trivial
  pass _ p n hk _ := by
    cases p with
    | checking => trivial
    | asking => trivial
    | asleep limit => exact Heeded.advance hk n
  set hsteps := absurd hsteps Bool.false_ne_true
  signal _ _ p _ _ _ := by
    cases p with
    | checking => exact ⟨.checking, rfl, trivial, trivial⟩
    | asking => exact ⟨.asking, rfl, trivial, trivial⟩
    | asleep limit => exact ⟨.asking, rfl, trivial, trivial⟩
  step c who q p hc hk _ := by
    rcases Clock.wallDeadline?_heeds c source d hd hc hs with ⟨l, hl, hheeds⟩
    -- Wherever the host is asked, its deadline heeds the caller's.
    have hasks : ∀ limit, p.asks source d c = some limit → Heeded source d c limit := by
      intro limit hp
      cases p with
      | checking => exact absurd hp (by simp only [QueueHandle.Place.asks, reduceCtorEq,
          not_false_eq_true])
      | asking =>
          simp only [QueueHandle.Place.asks, hl, Option.map_some, Option.some.injEq] at hp
          exact ⟨l, hp.symm, hheeds⟩
      | asleep limit' =>
          simp only [QueueHandle.Place.asks, Option.some.injEq] at hp
          exact hp ▸ hk
    have hstep := QueueHandle.step_stepped h r source d c q p
    change (transfer source h r).Leads _ _ c _ q _ (h.step r source (some d) c q p)
    generalize h.step r source (some d) c q p = x at hstep ⊢
    cases hstep with
    | accept _ => exact ⟨trivial, trivial, trivial⟩
    | tooLong hf =>
        exact leads_error rfl .invalidParam (fun h => absurd h (by decide)) (fun _ => Or.inl hf)
    | refuse hnone =>
        exact absurd (hl.symm.trans hnone) (by simp only [reduceCtorEq, not_false_eq_true])
    | deliver _ limit q' result _ _ => exact leads_ok rfl
    | fail _ limit cause hp _ hlate hbad =>
        rcases hasks limit hp with ⟨l', rfl, hl'⟩
        refine leads_error rfl cause (fun h => ?_) (fun h => ?_)
        · exact Heeded.expired ⟨l', rfl, hl'⟩ hd hc (hlate h)
        · refine Or.inr ((hbad h).resolve_left fun hneg => ?_)
          exact Bool.false_ne_true (hl'.not_negative.symm.trans hneg)
    | sleep limit hlimit =>
        rw [hl, Option.some.injEq] at hlimit
        exact ⟨⟨limit, rfl, hlimit ▸ hheeds⟩, trivial, trivial⟩
    | rest _ _ => trivial

/-- What is known at the places of a wait on a condition variable. -/
def ConditionKnow (c : Clock) : Condition.Place → Prop
  | .returning (.error e) => e = .timedOut ∧ Clock.Passed source d c
  | _ => True

theorem condition_invariant (hd : d.Normalized) (hcount : d.Countable) :
    Invariant (condition source) d false (ConditionKnow source d)
      ((condition source).Timely d) where
  start _ _ := trivial
  pass _ p n hk _ := by
    cases p with
    | entering => trivial
    | asleep => trivial
    | returning why =>
        cases why with
        | ok _ => trivial
        | error e => exact ⟨hk.1, Clock.passed_advance hk.2 n⟩
  set hsteps := absurd hsteps Bool.false_ne_true
  signal _ _ p _ hk hsane := ⟨p, rfl, hk, hsane⟩
  step c who s p hc hk hsane := by
    have hstep := Condition.step_stepped who d hd c s p
    change (condition source).Leads _ _ c _ s _ (Condition.step who (some d) c s p)
    generalize Condition.step who (some d) c s p = x at hstep ⊢
    cases hstep with
    | sleep m => exact ⟨trivial, hsane, trivial⟩
    | refuse s' cause ht hi =>
        exact leads_error rfl cause (fun h => absurd h ht) (fun h => absurd h hi)
    | wake => exact ⟨trivial, hsane, trivial⟩
    | tire hlate =>
        have hreached : (HostTime.ofTimer d).reached (c.nanos source) = true := by
          rw [← hsane]
          exact hlate
        exact ⟨⟨rfl, (HostTime.reached_iff d _ hcount).mp hreached⟩, hsane, trivial⟩
    | rest p => trivial
    | back why m =>
        cases why with
        | ok _ => exact leads_ok rfl
        | error e =>
            rcases hk with ⟨rfl, hpassed⟩
            exact leads_error rfl .timeout
              (fun _ => (Clock.expired_now_iff c source d hd hc).mpr hpassed)
              (fun h => absurd h (by decide))
    | lose why s' cause ht hi => exact leads_error rfl cause (fun h => absurd h ht) hi

/-- What is known at the places of a wait for the token of a slot: whoever has got
    up because of the deadline, or is about to say so, was right. -/
def SlotKnow (c : Clock) : BinarySemaphore.Place → Prop
  | .waiting (.returning (.error _)) => Clock.Passed source d c
  | .lastLook => Clock.Passed source d c
  | .leaving (.error e) => e = .timeout ∧ Clock.Passed source d c
  | _ => True

section

variable {source d}

theorem SlotKnow.advance {c : Clock} {p : BinarySemaphore.Place} (h : SlotKnow source d c p)
    (n : Nat) : SlotKnow source d (c.advance n) p := by
  cases p with
  | lastLook => exact Clock.passed_advance h n
  | waiting q =>
      cases q with
      | returning why =>
          cases why with
          | ok _ => trivial
          | error e => exact Clock.passed_advance h n
      | _ => trivial
  | leaving r =>
      cases r with
      | ok _ => trivial
      | error e => exact ⟨h.1, Clock.passed_advance h.2 n⟩
  | _ => trivial

theorem SlotKnow.moved {t : ThreadId} {c : Clock} {s s' : BinarySemaphore}
    {p p' : BinarySemaphore.Place} (h : SlotKnow source d c p)
    (hm : BinarySemaphore.Moved t (.timedWait d) c s p s' p') (hf : p.Fits (.timedWait d))
    (hsource : s.condition.clock = source) (hd : d.Normalized) (hcount : d.Countable) :
    SlotKnow source d c p' := by
  cases hm with
  | tire _ hlate =>
      have hreached : (HostTime.ofTimer d).reached (c.nanos source) = true := by
        rw [← hsource]
        exact hlate
      exact (HostTime.reached_iff d _ hcount).mp hreached
  | retake why _ =>
      rcases BinarySemaphore.afterWait_woken _ why hf with ⟨_, hp⟩ | ⟨rfl, hp⟩
      · rw [hp]
        trivial
      · rw [hp]
        exact h
  | refuseLast _ => exact ⟨rfl, h⟩
  -- A normalized deadline is not refused, and the call is none that never waits.
  | reject ha => exact absurd (decide_eq_true hd) (Bool.eq_false_iff.mp ha)
  | refuse hu _ => exact absurd hu (by simp only [reduceCtorEq, not_false_eq_true])
  | _ => trivial

end

theorem slot_invariant (hd : d.Normalized) (hcount : d.Countable) :
    Invariant (slot source) d false
      (fun c p => p.Fits (.timedWait d) ∧ SlotKnow source d c p) ((slot source).Timely d) where
  start _ _ := ⟨trivial, trivial⟩
  pass _ _ n hk _ := ⟨hk.1, hk.2.advance n⟩
  set hsteps := absurd hsteps Bool.false_ne_true
  signal _ _ p _ hk hsane := ⟨p, rfl, hk, hsane⟩
  step c who s p hc hk hsane := by
    rcases hsane with ⟨hsource, hplain, hin⟩
    rcases hk with ⟨hf, hk⟩
    change (slot source).Leads _ _ c _ s _ (BinarySemaphore.step who (.timedWait d) c s p)
    rcases BinarySemaphore.step_cases who (.timedWait d) c s p hplain hin with
      ⟨s', p', notes, hstep, hm⟩ | ⟨r, rfl, hstep⟩ | ⟨hstep, _⟩
    · rw [hstep]
      refine ⟨⟨hm.fits hf, hk.moved hm hf hsource hd hcount⟩,
        ⟨hm.clock_eq.trans hsource, hm.plain hplain, fun hin' => ?_⟩, trivial⟩
      rcases hm.holder hf with ⟨hsame, hp⟩ | ⟨_, htaken, _⟩ | ⟨_, _, hout⟩
      · rw [hsame]
        exact hin (hp ▸ hin')
      · exact htaken
      · exact absurd (hout.symm.trans hin') Bool.false_ne_true
    · rw [hstep]
      cases r with
      | ok _ => exact leads_ok rfl
      | error e =>
          exact leads_error rfl e
            (fun _ => (Clock.expired_now_iff c source d hd hc).mpr hk.2)
            (fun h => absurd (hk.1.symm.trans h) (by decide))
    · rw [hstep]
      trivial

theorem sleep_invariant (hd : d.Normalized) (hcount : d.Countable) :
    Invariant (sleep source) d false (fun _ _ => True) ((sleep source).Timely d) where
  start _ _ := trivial
  pass _ _ _ _ _ := trivial
  set hsteps := absurd hsteps Bool.false_ne_true
  signal _ _ p _ _ _ := ⟨p, rfl, trivial, trivial⟩
  step c who s p hc _ _ := by
    cases p with
    | asking =>
        have hr : ¬Sleep.Refused d := by
          rintro (h | h)
          · exact h hd
          · exact Bool.false_ne_true ((HostTime.nanos_ofTimer d hcount).2.symm.trans h)
        change (sleep source).Leads _ _ c _ s _ (Sleep.step source d c .asking)
        simp only [Sleep.step, if_neg hr]
        exact ⟨trivial, trivial, trivial⟩
    | asleep =>
        change (sleep source).Leads _ _ c _ s _ (Sleep.step source d c .asleep)
        simp only [Sleep.step]
        split_ifs with h
        · exact ⟨fun _ => expired_of_reached hd hcount hc h,
            fun h => absurd h (by simp only [reduceCtorEq, not_false_eq_true])⟩
        · trivial

/-! ## Deadlines in the upper half -/

section

variable {source d}

-- A timeout is against a deadline that the clocks never show.
theorem not_timely_timeout {call : TimedCall} {c : Clock} {b a : call.State}
    (he : call.Expires (.error .timeout)) (hd : d.Normalized) (hcount : ¬d.Countable)
    (hc : c.InRange) : ¬call.Timely d (.ended c b (.error .timeout) a) := fun h =>
  Clock.not_passed_of_not_countable call.source d c hc hcount
    ((Clock.expired_now_iff c call.source d hd hc).mp (h.1 he))

theorem not_timely_malformed {call : TimedCall} {c : Clock} {b a : call.State}
    (hf : ¬call.Faulty b) : ¬call.Timely d (.ended c b (.error .invalidParam) a) :=
  fun h => hf (h.2 rfl)

theorem zero_inRange : (⟨0, 0⟩ : Clock).InRange := by decide

/-- A wait for a token sleeps and is late at once. -/
theorem tokens_impatient (hd : d.Normalized) (hcount : ¬d.Countable) :
    ¬(tokens .realtime).Patient d := by
  have hlimit := Clock.wallDeadline?_realtime ⟨0, 0⟩ d hd
  have hlate : Semaphore.late ⟨0, 0⟩ (some (HostTime.ofTimer d)) = true :=
    HostTime.reached_of_not_countable d 0 hd hcount
  have hsleep : Semaphore.step .realtime (some d) ⟨0, 0⟩ ⟨0⟩ .asking
      = .goto ⟨0⟩ (.asleep (some (HostTime.ofTimer d))) [] := by
    simp only [Semaphore.step, Semaphore.limit?, hlimit, Option.map_some, Semaphore.take?]
  have hend : Semaphore.step .realtime (some d) ⟨0, 0⟩ ⟨0⟩
      (.asleep (some (HostTime.ofTimer d))) = .done ⟨0⟩ (.error .timeout) [] := by
    simp only [Semaphore.step, Semaphore.take?, hlate, if_true]
  exact not_patient_of_walk ⟨0, .other, 0, 0⟩ zero_inRange trivial (Walk.one hsleep) hend
    (not_timely_timeout rfl hd hcount zero_inRange)

-- A queue refuses such a deadline before it looks at anything else.
theorem ask_upper_half (h : QueueHandle) (r : QueueHandle.Request) (c : Clock) (q : Host.Queue)
    (hcount : ¬d.Countable)
    (stalled : Step Host.Queue QueueHandle.Place (Answer (Option Host.QueueMessage))) :
    h.ask r c q (some (HostTime.ofTimer d)) stalled = .done q (.error .invalidParam) [] := by
  have hbad : Host.Queue.badDeadline (some (HostTime.ofTimer d)) = true :=
    HostTime.negative_ofTimer d hcount
  cases r with
  | send m =>
      simp only [QueueHandle.ask, QueueHandle.attempt, Host.Queue.send, hbad, if_true]
      rfl
  | receive room =>
      simp only [QueueHandle.ask, QueueHandle.attempt, Host.Queue.receive, hbad, if_true]
      rfl

-- So a call over a queue is asked once, and never sleeps.
theorem asking_upper_half (h : QueueHandle) (r : QueueHandle.Request) (c : Clock)
    (q : Host.Queue) (hd : d.Normalized) (hcount : ¬d.Countable) :
    h.step r .realtime (some d) c q .asking = .done q (.error .invalidParam) [] := by
  simp only [QueueHandle.step, Clock.wallDeadline?_realtime c d hd]
  exact ask_upper_half h r c q hcount _

/-- A request that could be served is refused as malformed. -/
theorem transfer_impatient (h : QueueHandle) (r : QueueHandle.Request) (q : Host.Queue)
    (hf : ¬(transfer .realtime h r).Faulty q) (hd : d.Normalized) (hcount : ¬d.Countable) :
    ¬(transfer .realtime h r).Patient d := by
  have hfits : h.fits r = true := Bool.ne_false_iff.mp fun hno => hf (Or.inl hno)
  have hadmit : h.step r .realtime (some d) ⟨0, 0⟩ q .checking = .goto q .asking [] := by
    simp only [QueueHandle.step, hfits, if_true]
  exact not_patient_of_walk ⟨0, .other, 0, 0⟩ zero_inRange trivial (Walk.one hadmit)
    (asking_upper_half h r ⟨0, 0⟩ q hd hcount) (not_timely_malformed hf)

/-- A request that no queue can serve is refused for that, with every deadline. -/
theorem transfer_faulty_invariant (h : QueueHandle) (r : QueueHandle.Request)
    (hf : ∀ q, (transfer .realtime h r).Faulty q) (hd : d.Normalized) (hcount : ¬d.Countable) :
    Invariant (transfer .realtime h r) d false (fun _ p => p = .checking ∨ p = .asking)
      ((transfer .realtime h r).Timely d) where
  start _ _ := Or.inl rfl
  pass _ _ _ hk _ := hk
  set hsteps := absurd hsteps Bool.false_ne_true
  signal _ _ p _ hk _ := by
    rcases hk with rfl | rfl
    · exact ⟨.checking, rfl, Or.inl rfl, trivial⟩
    · exact ⟨.asking, rfl, Or.inr rfl, trivial⟩
  step c _ q p _ hk _ := by
    have hrefused : ∀ {a : Host.Queue}, (transfer .realtime h r).Leads
        (fun _ p => p = .checking ∨ p = .asking) ((transfer .realtime h r).Timely d) c 0 q p
        (.done a (.error .invalidParam) []) :=
      leads_error rfl .invalidParam (fun h => absurd h (by decide)) (fun _ => hf q)
    change (transfer .realtime h r).Leads _ _ c _ q _ (h.step r .realtime (some d) c q p)
    rcases hk with rfl | rfl
    · simp only [QueueHandle.step]
      split_ifs
      · exact ⟨Or.inr rfl, trivial, trivial⟩
      · exact hrefused
    · rw [asking_upper_half h r c q hd hcount]
      exact hrefused

/-- A wait on a condition variable gets up as soon as it sleeps. -/
theorem condition_impatient (hd : d.Normalized) (hcount : ¬d.Countable) :
    ¬(condition source).Patient d := by
  let m : Host.Mutex := ⟨.normal, false, .none, 0, some 0, 1, .sound, 0⟩
  let s : Condition.WaitState := ⟨⟨source, []⟩, m⟩
  let s' : Condition.WaitState := ⟨⟨source, [0]⟩, { m.freed with awaited := 1 }⟩
  have ha : Condition.accepts (some d) = true := decide_eq_true hd
  have hlate : s'.condition.late ⟨0, 0⟩ (some d) = true :=
    HostTime.reached_of_not_countable d _ hd hcount
  have hsleep : Condition.step ⟨0, .other, 0, 0⟩ (some d) ⟨0, 0⟩ s .entering
      = .goto s' .asleep [] := by
    simp only [Condition.step, ha, Bool.not_true, Bool.false_eq_true, if_false]
    rfl
  have htire : Condition.step ⟨0, .other, 0, 0⟩ (some d) ⟨0, 0⟩ s' .asleep
      = .goto { s' with condition := ⟨source, []⟩ } (.returning (.error .timedOut)) [] := by
    simp only [Condition.step, hlate, if_true]
    rfl
  exact not_patient_of_walk ⟨0, .other, 0, 0⟩ zero_inRange rfl
    ((Walk.one hsleep).append (Walk.one htire)) rfl
    (not_timely_timeout rfl hd hcount zero_inRange)

-- A move within a call on a slot, as a step of the call.
theorem slot_walk {n : Nat} {c : Clock} {who : Caller} {s s' b : BinarySemaphore}
    {p p' q : BinarySemaphore.Place}
    (hm : BinarySemaphore.Moved who.thread (.timedWait d) c s p s' p') (hplain : s.mutex.Plain)
    (hin : p.inside = true → s.mutex.holder = some who.thread)
    (hrest : s'.mutex.Plain → Walk ((slot source).step d c who) n s' p' b q) :
    Walk ((slot source).step d c who) (n + 1) s p b q := by
  rcases hm.step_eq hplain hin with ⟨notes, hstep⟩
  exact .cons n s s' b p p' q notes hstep (hrest (hm.plain hplain))

/-- So does a wait for the token of a slot, and it looks at the slot once more. -/
theorem slot_impatient (hd : d.Normalized) (hcount : ¬d.Countable) :
    ¬(slot source).Patient d := by
  have hplain : (⟨.normal, false, .none, 0, none, 0, .sound, 0⟩ : Host.Mutex).Plain :=
    ⟨rfl, rfl, rfl, rfl⟩
  have ha : Condition.accepts (some d) = true := decide_eq_true hd
  have hlate : Condition.late ⟨source, [0]⟩ ⟨0, 0⟩ (some d) = true :=
    HostTime.reached_of_not_countable d _ hd hcount
  have hway : ∃ b, b.mutex.Plain ∧ b.mutex.holder = some 0 ∧
      Walk ((slot source).step d ⟨0, 0⟩ ⟨0, .other, 0, 0⟩) 6
        ⟨⟨.normal, false, .none, 0, none, 0, .sound, 0⟩, ⟨source, []⟩, false⟩ .entering
        b (.leaving (.error .timeout)) := by
    refine ⟨_, ?_, ?_, slot_walk (.enter rfl) hplain (fun h => absurd h Bool.false_ne_true)
      fun h => slot_walk (.begin rfl rfl) h (fun _ => rfl)
      fun h => slot_walk (.sleep ha) h (fun _ => rfl)
      fun h => slot_walk (.tire (List.mem_singleton.mpr rfl) hlate) h
        (fun h => absurd h Bool.false_ne_true)
      fun h => slot_walk (.retake _ rfl) h (fun h => absurd h Bool.false_ne_true)
      fun h => slot_walk (.refuseLast rfl) h (fun _ => rfl)
      fun _ => .here _ _⟩
    · exact ⟨rfl, rfl, rfl, rfl⟩
    · rfl
  rcases hway with ⟨b, hb, hheld, hway⟩
  have hend : BinarySemaphore.step ⟨0, .other, 0, 0⟩ (.timedWait d) ⟨0, 0⟩ b
      (.leaving (.error .timeout))
      = .done { b with mutex := b.mutex.freed } (.error .timeout) [] := by
    simp only [BinarySemaphore.step, hb.unlock_holder 0 hheld]
  exact not_patient_of_walk ⟨0, .other, 0, 0⟩ zero_inRange
    ⟨rfl, hplain, fun h => absurd h Bool.false_ne_true⟩ hway hend
    (not_timely_timeout rfl hd hcount zero_inRange)

/-- A sleep is refused. -/
theorem sleep_impatient (hcount : ¬d.Countable) : ¬(sleep source).Patient d := by
  have hr : Sleep.Refused d := Or.inr (HostTime.negative_ofTimer d hcount)
  have hend : Sleep.step source d ⟨0, 0⟩ .asking = .done () (.error .invalidParam) [] := by
    simp only [Sleep.step, if_pos hr]
  exact not_patient_of_walk ⟨0, .other, 0, 0⟩ zero_inRange trivial (Walk.here () _) hend
    (not_timely_malformed id)

end

/-- Which calls keep to which deadlines, as long as nobody sets the time of day.

    Calls that hand the deadline to the host as it is keep to it exactly if the
    host counts its seconds as their caller does. Those that move it to the time of
    day keep to all deadlines on the steady clock, too. A request that no queue can
    serve is refused in any case. -/
theorem patient_iff (source : ClockSource) (d : Timer) (hd : d.Normalized) :
    ((tokens source).Patient d ↔ source = .monotonic ∨ d.Countable) ∧
    ((slot source).Patient d ↔ d.Countable) ∧
    ((condition source).Patient d ↔ d.Countable) ∧
    (∀ h r, (transfer source h r).Patient d ↔
      source = .monotonic ∨ d.Countable ∨ ∀ q, (transfer source h r).Faulty q) ∧
    ((sleep source).Patient d ↔ d.Countable) := by
  refine ⟨⟨fun h => ?_, fun h => patient_of_invariant (tokens_invariant source d hd h)⟩,
    ⟨fun h => ?_, fun h => patient_of_invariant (slot_invariant source d hd h)⟩,
    ⟨fun h => ?_, fun h => patient_of_invariant (condition_invariant source d hd h)⟩,
    fun handle r => ⟨fun h => ?_, fun h => ?_⟩,
    ⟨fun h => ?_, fun h => patient_of_invariant (sleep_invariant source d hd h)⟩⟩
  · by_contra hno
    rw [not_or] at hno
    cases source with
    | monotonic => exact hno.1 rfl
    | realtime => exact tokens_impatient hd hno.2 h
  · by_contra hno
    exact slot_impatient hd hno h
  · by_contra hno
    exact condition_impatient hd hno h
  · by_contra hno
    rw [not_or, not_or] at hno
    cases source with
    | monotonic => exact hno.1 rfl
    | realtime =>
        refine hno.2.2 fun q => ?_
        by_contra hq
        exact transfer_impatient handle r q hq hd hno.2.1 h
  · by_cases hheeds : source = .monotonic ∨ d.Countable
    · exact patient_of_invariant (transfer_invariant source d handle r hd hheeds)
    · rw [not_or] at hheeds
      cases source with
      | monotonic => exact absurd rfl hheeds.1
      | realtime =>
          have hall := (h.resolve_left hheeds.1).resolve_left hheeds.2
          exact patient_of_invariant (transfer_faulty_invariant handle r hall hd hheeds.2)
  · by_contra hno
    exact sleep_impatient hno h

-- The last deadline that the host counts as its caller does.
theorem patient_iff_last_counted : (⟨9223372036854775807, 999999999⟩ : Timer).Normalized ∧
    (tokens .realtime).Patient ⟨9223372036854775807, 999999999⟩ ∧
    (slot .monotonic).Patient ⟨9223372036854775807, 999999999⟩ ∧
    (condition .realtime).Patient ⟨9223372036854775807, 999999999⟩ ∧
    (sleep .monotonic).Patient ⟨9223372036854775807, 999999999⟩ := by
  have hd : (⟨9223372036854775807, 999999999⟩ : Timer).Normalized := by decide
  have hcount : (⟨9223372036854775807, 999999999⟩ : Timer).Countable := by decide
  exact ⟨hd, (patient_iff .realtime _ hd).1.mpr (Or.inr hcount),
    (patient_iff .monotonic _ hd).2.1.mpr hcount, (patient_iff .realtime _ hd).2.2.1.mpr hcount,
    (patient_iff .monotonic _ hd).2.2.2.2.mpr hcount⟩

/-- A deadline of `2 ^ 63` seconds, at the zero of the clocks. A wait for a token
    sleeps and times out in its second step, and a sleep is refused in its first
    one, although the deadline has not expired; on no clock do the calls that hand
    it to the host as it is keep to it. -/
theorem upper_half_impatient :
    (⟨9223372036854775808, 0⟩ : Timer).Normalized ∧
    Timer.expired ⟨9223372036854775808, 0⟩ (Clock.now ⟨0, 0⟩ .realtime) = .ok () ∧
    Schedule.play ((tokens .realtime).next ⟨9223372036854775808, 0⟩ 1) ⟨⟨0, 0⟩, ⟨0⟩, some .asking⟩
        [.move .other 0 0, .move .other 0 0]
      = some (⟨⟨0, 0⟩, ⟨0⟩, none⟩,
          [.moved ⟨0, 0⟩ ⟨0⟩ .asking ⟨0⟩ (.asleep (some ⟨-9223372036854775808, 0⟩)),
            .ended ⟨0, 0⟩ ⟨0⟩ (.error .timeout) ⟨0⟩]) ∧
    Schedule.play ((sleep .realtime).next ⟨9223372036854775808, 0⟩ 1) ⟨⟨0, 0⟩, (), some .asking⟩
        [.move .other 0 0]
      = some (⟨⟨0, 0⟩, (), none⟩, [.ended ⟨0, 0⟩ () (.error .invalidParam) ()]) ∧
    ¬(tokens .realtime).Patient ⟨9223372036854775808, 0⟩ ∧
    ∀ source, ¬(slot source).Patient ⟨9223372036854775808, 0⟩ ∧
      ¬(condition source).Patient ⟨9223372036854775808, 0⟩ ∧
      ¬(sleep source).Patient ⟨9223372036854775808, 0⟩ := by
  have hd : (⟨9223372036854775808, 0⟩ : Timer).Normalized := by decide
  have hcount : ¬(⟨9223372036854775808, 0⟩ : Timer).Countable := by decide
  exact ⟨hd, rfl, rfl, rfl, tokens_impatient hd hcount,
    fun source => ⟨slot_impatient hd hcount, condition_impatient hd hcount,
      sleep_impatient hcount⟩⟩

end TimedCall

end HostLayer
