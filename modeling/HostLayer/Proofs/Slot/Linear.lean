import HostLayer.Proofs.Slot.Atomic

/-!
# Linear Crowds

The calls of a crowd take effect at one point each.

A crowd is matched by an atomic slot that moves along with it. Most moves of a
thread are nothing to the atomic slot: taking the mutex, sleeping and waking up
are the crowd's own business. Six of them are effects, and each lies inside:
the token is put in or taken, or a thread that has found the slot empty turns
to leave. Which moves these are can be read off the places, since from there on
`Place.decided?` knows the answer.

A call that times out decides at its last look and not when it gets up, because
the token may have come while it waited for the mutex. That its deadline has
passed is therefore remembered from one to the other, as a time that it has
seen.

How the host counts a deadline is not how a caller does. The relation `due` is
therefore only asked to hold of deadlines that the host takes for passed, and
only of those that are `allowed` in calls.

## Main definitions

* `BinarySemaphore.Place.decided?`: The answer that a call will have.
* `BinarySemaphore.Place.tired`: The places of a call that is late.
* `BinarySemaphore.Suits`: A phase suits an activity.
* `BinarySemaphore.Crowd.Explains`: Reports are those of an atomic slot.
* `BinarySemaphore.Crowd.Mirrors`: An atomic slot moves along with a crowd.

## Theorems

* `BinarySemaphore.Moved.pending`: A move is nothing to the slot, or an effect.
* `BinarySemaphore.Crowd.happened_mirrors`: An act is matched.
* `BinarySemaphore.Crowd.play_mirrors`: A run is matched.
-/

namespace HostLayer

namespace BinarySemaphore

/-- The answer that a call will have, if it has had its effect. -/
def Place.decided? : Place → Option (Answer Unit)
  | .announcing => some (.ok ())
  | .leaving r => some r
  | _ => none

/-- A call stands here after its deadline has passed. -/
def Place.tired : Place → Bool
  | .waiting (.returning (.error _)) => true
  | .lastLook => true
  | _ => false

/-- The call has a deadline, and the host takes it for passed. -/
def LateAt (source : ClockSource) (use : Use) (now : Clock) : Prop :=
  ∃ d, use = .timedWait d ∧ d.Normalized ∧
    (HostTime.ofTimer d).reached (now.nanos source) = true

/-- The phase of a call that stands at a place: it is decided, or it has seen
    the time that it is now and, if it is late, one at which it was. -/
def Pending (source : ClockSource) (clock : Clock) (use : Use) (p : Place) (ph : Phase) : Prop :=
  match p.decided? with
  | some r => ph = .decided use r
  | none => ∃ seen, ph = .called use seen ∧ clock ∈ seen ∧
      (p.tired = true → ∃ now ∈ seen, LateAt source use now)

/-- A phase suits an activity. -/
def Suits (source : ClockSource) (allowed : Timer → Prop) (clock : Clock) :
    Activity → Phase → Prop
  | .idle, ph => ph = .idle
  | .calling use p, ph => (∀ d, use = .timedWait d → allowed d) ∧ Pending source clock use p ph
  | .ending _ _, ph => ph = .gone
  | .ended, ph => ph = .gone

-- The host accepts a deadline that is one.
theorem accepts_iff (d : Timer) :
    Condition.accepts (deadline? (.timedWait d)) = true ↔ d.Normalized := by
  simp only [Condition.accepts, deadline?, decide_eq_true_eq]

-- A call that the host refuses has a deadline that is none.
theorem not_accepts (use : Use) (h : Condition.accepts (deadline? use) = false) :
    ∃ d, use = .timedWait d ∧ ¬d.Normalized := by
  cases use with
  | timedWait d =>
      refine ⟨d, rfl, ?_⟩
      rw [← accepts_iff, h]
      exact Bool.false_ne_true
  | post => exact absurd h.symm Bool.false_ne_true
  | wait => exact absurd h.symm Bool.false_ne_true
  | tryWait => exact absurd h.symm Bool.false_ne_true

-- A call that is not decided and not late yet is where it was.
theorem Pending.move {source : ClockSource} {clock : Clock} {use : Use} {p p' : Place}
    {ph : Phase} (h : Pending source clock use p ph) (hp : p.decided? = none)
    (hp' : p'.decided? = none) (ht : p'.tired = true → p.tired = true) :
    Pending source clock use p' ph := by
  unfold Pending at h ⊢
  rw [hp] at h
  rw [hp']
  rcases h with ⟨seen, hph, hmem, hlate⟩
  exact ⟨seen, hph, hmem, fun h => hlate (ht h)⟩

-- What a call that is not decided has seen.
theorem Pending.seen {source : ClockSource} {clock : Clock} {use : Use} {p : Place}
    {ph : Phase} (h : Pending source clock use p ph) (hp : p.decided? = none) :
    ∃ seen, ph = .called use seen ∧ clock ∈ seen ∧
      (p.tired = true → ∃ now ∈ seen, LateAt source use now) := by
  unfold Pending at h
  rw [hp] at h
  exact h

/-- A move within a call is nothing to the slot, or it is the effect of the
    call. -/
theorem Moved.pending {source : ClockSource} {due : Timer → Clock → Prop} {t : ThreadId}
    {use : Use} {clock : Clock} {s s' : BinarySemaphore} {p p' : Place} {ph : Phase}
    (h : Moved t use clock s p s' p') (hsource : s.condition.clock = source)
    (hdue : ∀ now, LateAt source use now → ∀ d, use = .timedWait d → due d now)
    (hp : p.Fits use) (hempty : p = .waiting .entering → s.flag = false)
    (hph : Pending source clock use p ph) :
    (s'.flag = s.flag ∧ Pending source clock use p' ph) ∨
      ∃ seen r, ph = .called use seen ∧ Effect due seen use s.flag r s'.flag ∧
        Pending source clock use p' (.decided use r) := by
  cases h with
  | enter _ => exact Or.inl ⟨rfl, hph.move rfl rfl (fun h => h)⟩
  -- A call that puts a token in is decided before it announces the token.
  | fill hpost =>
      rcases hph.seen rfl with ⟨seen, hcalled, _⟩
      refine Or.inr ⟨seen, .ok (), hcalled, ?_, rfl⟩
      rw [hpost]
      exact .post s.flag
  | take hne hf =>
      rcases hph.seen rfl with ⟨seen, hcalled, _⟩
      refine Or.inr ⟨seen, .ok (), hcalled, ?_, rfl⟩
      rw [hf]
      exact .take use hne
  | refuse htry hf =>
      rcases hph.seen rfl with ⟨seen, hcalled, _⟩
      refine Or.inr ⟨seen, .error .timeout, hcalled, ?_, rfl⟩
      rw [hf, htry]
      exact .empty
  | begin _ _ => exact Or.inl ⟨rfl, hph.move rfl rfl (fun h => h)⟩
  | announce => exact Or.inl ⟨rfl, hph⟩
  | reject ha =>
      rcases not_accepts use ha with ⟨d, rfl, hd⟩
      rcases hph.seen rfl with ⟨seen, hcalled, _⟩
      refine Or.inr ⟨seen, .error .invalidParam, hcalled, ?_, rfl⟩
      rw [hempty rfl]
      exact .refused d hd
  | sleep _ => exact Or.inl ⟨rfl, hph.move rfl rfl (fun h => h)⟩
  | wake _ => exact Or.inl ⟨rfl, hph.move rfl rfl (fun h => h)⟩
  | tire _ hl =>
      -- The time that it is now is one at which the call is late.
      rcases late_timedWait s clock use hl with ⟨d, rfl⟩
      rcases hph.seen rfl with ⟨seen, hcalled, hmem, _⟩
      refine Or.inl ⟨rfl, seen, hcalled, hmem,
        fun _ => ⟨clock, hmem, d, rfl, (accepts_iff d).mp hp.2, ?_⟩⟩
      rw [← hsource]
      exact hl
  | retake why _ =>
      -- The token is not looked at yet, and being late is not forgotten.
      refine Or.inl ⟨rfl, ?_⟩
      rcases afterWait_woken use why hp with ⟨_, h⟩ | ⟨rfl, h⟩
      · rw [h]
        exact hph.move rfl rfl (fun h => absurd h Bool.false_ne_true)
      · rw [h]
        exact hph.move rfl rfl (fun _ => rfl)
  | takeLast hf =>
      rcases hph.seen rfl with ⟨seen, hcalled, _⟩
      rcases hp with ⟨d, rfl⟩
      refine Or.inr ⟨seen, .ok (), hcalled, ?_, rfl⟩
      rw [hf]
      exact .take _ (by simp only [ne_eq, reduceCtorEq, not_false_eq_true])
  | refuseLast hf =>
      rcases hph.seen rfl with ⟨seen, hcalled, _, hlate⟩
      rcases hlate rfl with ⟨now, hnow, d, rfl, hreached⟩
      refine Or.inr ⟨seen, .error .timeout, hcalled, ?_, rfl⟩
      rw [hf]
      exact .late d now hnow (hdue now ⟨d, rfl, hreached⟩ d rfl)

-- A call that goes on while time passes has seen the new time.
theorem Suits.pass {source : ClockSource} {allowed : Timer → Prop} {clock : Clock}
    {a : Activity} {ph : Phase} (h : Suits source allowed clock a ph) (later : Clock) :
    Suits source allowed later a (ph.pass later) := by
  cases a with
  | idle =>
      rw [show ph = .idle from h]
      rfl
  | ending use p =>
      rw [show ph = .gone from h]
      rfl
  | ended =>
      rw [show ph = .gone from h]
      rfl
  | calling use p =>
      rcases h with ⟨hallowed, hpending⟩
      refine ⟨hallowed, ?_⟩
      unfold Pending at hpending ⊢
      cases hd : p.decided? with
      | some r =>
          rw [hd] at hpending
          rw [show ph = .decided use r from hpending]
          rfl
      | none =>
          rw [hd] at hpending
          rcases hpending with ⟨seen, rfl, _, hlate⟩
          refine ⟨later :: seen, rfl, List.mem_cons_self, fun ht => ?_⟩
          rcases hlate ht with ⟨now, hnow, hl⟩
          exact ⟨now, List.mem_cons_of_mem later hnow, hl⟩

/-- The deadline of a call that is started is allowed. -/
def Act.Allowed (allowed : Timer → Prop) : Act → Prop
  | .call _ (.timedWait d) => allowed d
  | _ => True

namespace Crowd

/-- The atomic slot is where the crowd is. -/
structure Mirrors (source : ClockSource) (allowed : Timer → Prop) (s : Crowd) (a : Atomic) :
    Prop where
  sane : s.Sane
  source_eq : s.slot.condition.clock = source
  token_eq : a.token = s.slot.flag
  clock_eq : a.clock = s.clock
  suits : ∀ t, Suits source allowed s.clock (s.activity t) (a.phase t)

/-- What the deeds of an atomic slot show. -/
def Explains (due : Timer → Clock → Prop) (a : Atomic) (es : List Report) (a' : Atomic) : Prop :=
  ∃ ds, Atomic.Run due a ds a' ∧ ds.filterMap Deed.report? = es

theorem Explains.append {due : Timer → Clock → Prop} {a b c : Atomic} {es fs : List Report}
    (h1 : Explains due a es b) (h2 : Explains due b fs c) : Explains due a (es ++ fs) c := by
  rcases h1 with ⟨ds, hrun, rfl⟩
  rcases h2 with ⟨ds', hrun', rfl⟩
  exact ⟨ds ++ ds', hrun.trans hrun', List.filterMap_append⟩

-- One deed that is seen.
theorem Explains.seen {due : Timer → Clock → Prop} {a a' : Atomic} {e : Report}
    (h : Atomic.Step due a (.seen e) a') : Explains due a [e] a' :=
  ⟨[.seen e], Atomic.Run.snoc .refl h, rfl⟩

-- The phases suit the activities when one thread has got another one of each.
theorem Mirrors.suits_put {source : ClockSource} {allowed : Timer → Prop} {s : Crowd}
    {a : Atomic} (h : s.Mirrors source allowed a) (slot : BinarySemaphore) (a' : Atomic)
    (t : ThreadId) (act : Activity) (ph : Phase) (ha : a'.phase = a.phase)
    (hs : Suits source allowed s.clock act ph) (u : ThreadId) :
    Suits source allowed s.clock ((s.put slot t act).activity u) ((a'.put t ph).phase u) := by
  by_cases hu : u = t
  · rw [hu, put_self, Atomic.put_self]
    exact hs
  · rw [put_other s slot t u act hu, Atomic.put_other a' t u ph hu, ha]
    exact h.suits u

-- The same where only the activity is another one.
theorem Mirrors.suits_activity {source : ClockSource} {allowed : Timer → Prop} {s : Crowd}
    {a : Atomic} (h : s.Mirrors source allowed a) (slot : BinarySemaphore) (t : ThreadId)
    (act : Activity) (hs : Suits source allowed s.clock act (a.phase t)) (u : ThreadId) :
    Suits source allowed s.clock ((s.put slot t act).activity u) (a.phase u) := by
  by_cases hu : u = t
  · rw [hu, put_self]
    exact hs
  · rw [put_other s slot t u act hu]
    exact h.suits u

-- A move of a thread is matched by no deed, or by an effect.
theorem move_mirrors {source : ClockSource} {allowed : Timer → Prop}
    {due : Timer → Clock → Prop} (s : Crowd) (a : Atomic) (t : ThreadId) (use : Use)
    (p p' : Place) (slot : BinarySemaphore) (h : s.Mirrors source allowed a)
    (hdue : ∀ d now, allowed d → d.Normalized →
      (HostTime.ofTimer d).reached (now.nanos source) = true → due d now)
    (hcall : s.activity t = .calling use p) (hm : Moved t use s.clock s.slot p slot p') :
    ∃ a', Explains due a [] a' ∧ (s.put slot t (.calling use p')).Mirrors source allowed a' := by
  have hsane := move_sane s t use p p' slot h.sane hcall hm
  have hsuits := h.suits t
  rw [hcall] at hsuits
  have hlate : ∀ now, LateAt source use now → ∀ d, use = .timedWait d → due d now := by
    rintro now ⟨d, rfl, hd, hr⟩ d' hd'
    rw [Use.timedWait.injEq] at hd'
    rw [← hd']
    exact hdue d now (hsuits.1 d rfl) hd hr
  have hclock : slot.condition.clock = source := hm.clock_eq.trans h.source_eq
  rcases hm.pending h.source_eq hlate (h.sane.fits t use p hcall)
      (fun hp => h.sane.found_empty t use (hp ▸ hcall)) hsuits.2 with
    ⟨hflag, hpending⟩ | ⟨seen, r, hcalled, heffect, hpending⟩
  · refine ⟨a, ⟨[], .refl, rfl⟩, hsane, hclock, h.token_eq.trans hflag.symm, h.clock_eq, ?_⟩
    exact h.suits_activity slot t _ ⟨hsuits.1, hpending⟩
  · -- The effect is the crowd's own move of the token.
    rw [← h.token_eq] at heffect
    refine ⟨_, ⟨[.effect t use r], Atomic.Run.snoc .refl
      (Atomic.Step.effect t use seen r slot.flag hcalled heffect), rfl⟩, hsane, hclock, rfl,
      h.clock_eq, ?_⟩
    exact h.suits_put slot { a with token := slot.flag } t _ _ rfl ⟨hsuits.1, hpending⟩

/-- Every act is matched by deeds that show the same. -/
theorem happened_mirrors {source : ClockSource} {allowed : Timer → Prop}
    {due : Timer → Clock → Prop} (s s' : Crowd) (a : Atomic) (act : Act) (es : List Report)
    (h : s.Mirrors source allowed a)
    (hdue : ∀ d now, allowed d → d.Normalized →
      (HostTime.ofTimer d).reached (now.nanos source) = true → due d now)
    (hallowed : act.Allowed allowed) (hs : s.Happened act s' es) :
    ∃ a', Explains due a es a' ∧ s'.Mirrors source allowed a' := by
  have hsane := happened_sane s s' act es h.sane hs
  cases hs with
  | call t use hidle =>
      have hphase := h.suits t
      rw [hidle] at hphase
      refine ⟨_, .seen (.call t use hphase), hsane, h.source_eq, h.token_eq, h.clock_eq, ?_⟩
      refine h.suits_put s.slot a t _ _ rfl ⟨fun d hd => ?_, ?_⟩
      · rw [hd] at hallowed
        exact hallowed
      · refine ⟨[a.clock], rfl, ?_, fun ht => absurd ht Bool.false_ne_true⟩
        rw [h.clock_eq]
        exact List.mem_singleton.mpr rfl
  | move c use p p' slot hcall hm =>
      exact move_mirrors s a c.thread use p p' slot h hdue hcall hm
  | leave c use r hcall =>
      have hphase := h.suits c.thread
      rw [hcall] at hphase
      refine ⟨_, .seen (.return c.thread use r hphase.2), hsane, h.source_eq, h.token_eq,
        h.clock_eq, ?_⟩
      exact h.suits_put _ a c.thread _ _ rfl rfl
  | abandon c use hend hfree =>
      -- The atomic slot has seen the thread go when it was told to.
      have hphase := h.suits c.thread
      rw [hend] at hphase
      exact ⟨a, ⟨[], .refl, rfl⟩, hsane, h.source_eq, h.token_eq, h.clock_eq,
        h.suits_activity _ c.thread _ hphase⟩
  | wake t => exact ⟨a, ⟨[], .refl, rfl⟩, hsane, h.source_eq, h.token_eq, h.clock_eq, h.suits⟩
  | arrange order hperm =>
      exact ⟨a, ⟨[], .refl, rfl⟩, hsane, h.source_eq, h.token_eq, h.clock_eq, h.suits⟩
  | pass clock =>
      exact ⟨_, .seen (.pass clock), hsane, h.source_eq, h.token_eq, rfl,
        fun t => (h.suits t).pass clock⟩
  | cancel t use hcall =>
      have hphase := h.suits t
      rw [hcall] at hphase
      rcases hphase.2.seen rfl with ⟨seen, hcalled, _⟩
      refine ⟨_, .seen (.cancel t use seen hcalled), hsane, h.source_eq, h.token_eq, h.clock_eq,
        ?_⟩
      exact h.suits_put _ a t _ _ rfl rfl

-- A new slot is an empty atomic one.
theorem start_mirrors (source : ClockSource) (allowed : Timer → Prop) (attr : SyncAttr)
    (slot : BinarySemaphore) (clock : Clock) (h : create source attr = .ok slot) :
    (start slot clock).Mirrors source allowed (Atomic.start clock) := by
  have hsane := start_sane slot clock source attr h
  rcases create_eq source attr slot h with ⟨m, _, _, rfl⟩
  exact ⟨hsane, rfl, rfl, rfl, fun t => rfl⟩

/-- Every run of a crowd at a new slot shows what a run of an atomic slot
    shows. -/
theorem play_mirrors (source : ClockSource) (allowed : Timer → Prop)
    (due : Timer → Clock → Prop)
    (hdue : ∀ d now, allowed d → d.Normalized →
      (HostTime.ofTimer d).reached (now.nanos source) = true → due d now)
    (attr : SyncAttr) (slot : BinarySemaphore) (hcreate : create source attr = .ok slot)
    (clock : Clock) (acts : List Act) (hallowed : ∀ act ∈ acts, act.Allowed allowed) (s : Crowd)
    (es : List Report) (h : Schedule.play step (start slot clock) acts = some (s, es)) :
    ∃ a, Explains due (Atomic.start clock) es a ∧ s.Mirrors source allowed a :=
  Schedule.play_simulates step (Act.Allowed allowed) (fun s a => s.Mirrors source allowed a)
    (fun a es a' => Explains due a es a') (fun _ => ⟨[], .refl, rfl⟩)
    (fun _ _ _ _ _ h1 h2 => h1.append h2)
    (fun s a act s' es hR hP hstep =>
      happened_mirrors s s' a act es hR hdue hP (step_happened s s' act es hR.sane hstep))
    acts (start slot clock) s (Atomic.start clock) es
    (start_mirrors source allowed attr slot clock hcreate) hallowed h

end Crowd

end BinarySemaphore

end HostLayer
