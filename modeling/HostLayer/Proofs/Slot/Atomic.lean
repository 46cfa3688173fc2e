import HostLayer.Proofs.Slot.Crowd

/-!
# Atomic Slots

What a slot for one token ought to be.

Here a call has three moments. It is made, at one point after that it takes
effect, and then it returns; nothing happens in between. `Effect` is all that a
slot can do: a token put in makes it full, a token taken makes it empty, and
whoever finds it empty may be told so, either at once or because a deadline has
passed. What "passed" means is left open, as a relation `due` between deadlines
and the times that a clock has shown since the call was made.

A run of an atomic slot is a list of deeds, of which the calls and returns are
seen and the effects are not. That a crowd's reports are those of such a run is
the statement that each of its calls takes effect at one point; the lemmas here
say what follows for the run. Whatever returns was called and took effect in
between, once (`Run.returned_between`). Tokens are not taken more often than
they are put in (`Run.takes_le_posts`). A timeout has found the slot empty and
has a time at which the deadline was due (`Run.timeout_due`), and on a clock that
does not go back it still is (`Run.shown_le`).

## Main definitions

* `BinarySemaphore.Phase`, `BinarySemaphore.Atomic`: A slot that is atomic.
* `BinarySemaphore.Effect`: What calls do to a slot.
* `BinarySemaphore.Deed`: What happens in a run.
* `BinarySemaphore.Atomic.Step`, `BinarySemaphore.Atomic.Run`: The runs.
* `BinarySemaphore.Atomic.Shown`, `BinarySemaphore.Atomic.Steady`: The times of a
  run.

## Theorems

* `BinarySemaphore.Atomic.Run.trans`, `BinarySemaphore.Atomic.Run.split`: Runs
  are put together and taken apart.
* `BinarySemaphore.Atomic.Run.returned_between`: Effects lie between calls and
  returns.
* `BinarySemaphore.Atomic.Run.takes_le_posts`: Tokens are taken once.
* `BinarySemaphore.Atomic.Run.timeout_due`: Timeouts have a reason.
* `BinarySemaphore.Atomic.Run.shown_le`: The last time is the latest.
-/

namespace HostLayer

namespace BinarySemaphore

/-- What a thread does at an atomic slot. -/
inductive Phase
  | idle
  /-- The call has had no effect yet; the clock has shown the times `seen`
      since it was made. -/
  | called (use : Use) (seen : List Clock)
  /-- The call has had its effect, and will return `r`. -/
  | decided (use : Use) (r : Answer Unit)
  /-- The thread was told to end. -/
  | gone

/-- An atomic slot with its threads, and the time. -/
structure Atomic where
  token : Bool
  clock : Clock
  phase : ThreadId → Phase

/-- What a call does to a slot: the token before, the answer, and the token
    after. Deadlines that are due are those in the relation `due` with a time
    that was seen. -/
inductive Effect (due : Timer → Clock → Prop) (seen : List Clock) :
    Use → Bool → Answer Unit → Bool → Prop
  /-- The token is put in, whether there is one or not. -/
  | post (token : Bool) : Effect due seen .post token (.ok ()) true
  /-- The token is taken. -/
  | take (use : Use) (h : use ≠ .post) : Effect due seen use true (.ok ()) false
  /-- The slot is empty. -/
  | empty : Effect due seen .tryWait false (.error .timeout) false
  /-- The slot is empty, and the deadline has passed. -/
  | late (d : Timer) (now : Clock) (h : now ∈ seen) (hd : due d now) :
      Effect due seen (.timedWait d) false (.error .timeout) false
  /-- The slot is empty, and the deadline is none. -/
  | refused (d : Timer) (h : ¬d.Normalized) :
      Effect due seen (.timedWait d) false (.error .invalidParam) false

/-- What happens in a run of an atomic slot. -/
inductive Deed
  | seen (e : Report)
  | effect (t : ThreadId) (use : Use) (r : Answer Unit)

namespace Deed

/-- What is seen of a deed. -/
def report? : Deed → Option Report
  | seen e => some e
  | effect _ _ _ => none

/-- The thread whose call is concerned. -/
def thread? : Deed → Option ThreadId
  | seen (.called t _) => some t
  | seen (.returned t _ _) => some t
  | seen (.passed _) => none
  | seen (.cancelled t) => some t
  | effect t _ _ => some t

/-- A token is put in. -/
def posts : Deed → Bool
  | effect _ .post (.ok ()) => true
  | _ => false

/-- A token is taken. -/
def takes : Deed → Bool
  | effect _ .post _ => false
  | effect _ _ (.ok ()) => true
  | _ => false

end Deed

/-- A call in progress sees the new time. -/
def Phase.pass (clock : Clock) : Phase → Phase
  | .called use seen => .called use (clock :: seen)
  | p => p

namespace Atomic

/-- An empty slot that nobody uses. -/
def start (clock : Clock) : Atomic :=
  ⟨false, clock, fun _ => .idle⟩

/-- The slot with another phase of a thread. -/
def put (s : Atomic) (t : ThreadId) (p : Phase) : Atomic :=
  { s with phase := Function.update s.phase t p }

/-- One deed at an atomic slot. -/
inductive Step (due : Timer → Clock → Prop) (s : Atomic) : Deed → Atomic → Prop
  | call (t : ThreadId) (use : Use) (h : s.phase t = .idle) :
      Step due s (.seen (.called t use)) (s.put t (.called use [s.clock]))
  | effect (t : ThreadId) (use : Use) (seen : List Clock) (r : Answer Unit) (token : Bool)
      (h : s.phase t = .called use seen) (he : Effect due seen use s.token r token) :
      Step due s (.effect t use r) ({ s with token := token }.put t (.decided use r))
  | return (t : ThreadId) (use : Use) (r : Answer Unit) (h : s.phase t = .decided use r) :
      Step due s (.seen (.returned t use r)) (s.put t .idle)
  | pass (clock : Clock) :
      Step due s (.seen (.passed clock))
        { s with clock := clock, phase := fun t => (s.phase t).pass clock }
  | cancel (t : ThreadId) (use : Use) (seen : List Clock) (h : s.phase t = .called use seen) :
      Step due s (.seen (.cancelled t)) (s.put t .gone)

/-- Deeds at an atomic slot, one after the other. -/
inductive Run (due : Timer → Clock → Prop) (s : Atomic) : List Deed → Atomic → Prop
  | refl : Run due s [] s
  | snoc {ds : List Deed} {m s' : Atomic} {d : Deed} (h : Run due s ds m)
      (hd : Step due m d s') : Run due s (ds ++ [d]) s'

theorem put_self (s : Atomic) (t : ThreadId) (p : Phase) : (s.put t p).phase t = p := by
  simp only [put, Function.update_self]

theorem put_other (s : Atomic) (t u : ThreadId) (p : Phase) (h : u ≠ t) :
    (s.put t p).phase u = s.phase u := by
  simp only [put, Function.update_of_ne h]

namespace Run

variable {due : Timer → Clock → Prop}

theorem trans {s m s' : Atomic} {ds es : List Deed} (h1 : Run due s ds m)
    (h2 : Run due m es s') : Run due s (ds ++ es) s' := by
  induction h2 with
  | refl =>
      rw [List.append_nil]
      exact h1
  | snoc _ hd ih =>
      rw [← List.append_assoc]
      exact ih.snoc hd

/-- A run through a deed reaches the state before it and the one after it. -/
theorem split {s s' : Atomic} {ds : List Deed} (h : Run due s ds s') :
    ∀ (before after : List Deed) (d : Deed), ds = before ++ d :: after →
      ∃ m m', Run due s before m ∧ Step due m d m' := by
  induction h with
  | refl =>
      intro before after d he
      exact absurd he.symm (List.append_ne_nil_of_right_ne_nil before (List.cons_ne_nil d after))
  | @snoc ds m s' d' hrun hd ih =>
      intro before after d he
      -- The deed is the last one, or it is among those before.
      rcases List.eq_nil_or_concat after with rfl | ⟨init, last, rfl⟩
      · rcases List.append_inj' he rfl with ⟨rfl, heq⟩
        rw [(List.cons.inj heq).1] at hd
        exact ⟨m, s', hrun, hd⟩
      · have hsplit : ds ++ [d'] = (before ++ d :: init) ++ [last] := by
          rw [he]
          simp only [List.concat_eq_append, List.append_assoc, List.cons_append]
        exact ih before init d (List.append_inj' hsplit rfl).1

end Run

/-- What the deeds so far say about a thread in a phase: its call was made, and
    if it has had its effect, that came later; and nothing else of the thread
    has happened since. -/
def Told (ds : List Deed) (t : ThreadId) : Phase → Prop
  | .called use _ => ∃ before between, ds = before ++ .seen (.called t use) :: between ∧
      ∀ d ∈ between, d.thread? ≠ some t
  | .decided use r => ∃ before between after,
      ds = before ++ .seen (.called t use) :: (between ++ .effect t use r :: after) ∧
        ∀ d ∈ between ++ after, d.thread? ≠ some t
  | _ => True

-- A deed of somebody else changes nothing about it.
theorem Told.append {ds : List Deed} {t : ThreadId} {p : Phase} (h : Told ds t p) (d : Deed)
    (hd : d.thread? ≠ some t) : Told (ds ++ [d]) t p := by
  cases p with
  | idle => trivial
  | gone => trivial
  | called use seen =>
      rcases h with ⟨before, between, rfl, hb⟩
      refine ⟨before, between ++ [d], by rw [List.append_assoc, List.cons_append], fun x hx => ?_⟩
      rcases List.mem_append.mp hx with hx | hx
      · exact hb x hx
      · rw [List.mem_singleton.mp hx]
        exact hd
  | decided use r =>
      rcases h with ⟨before, between, after, rfl, hb⟩
      refine ⟨before, between, after ++ [d], ?_, fun x hx => ?_⟩
      · simp only [List.append_assoc, List.cons_append]
      · rw [← List.append_assoc] at hx
        rcases List.mem_append.mp hx with hx | hx
        · exact hb x hx
        · rw [List.mem_singleton.mp hx]
          exact hd

-- One more deed tells what the phases say.
theorem Step.told {due : Timer → Clock → Prop} {s s' : Atomic} {d : Deed} {ds : List Deed}
    (h : Step due s d s') (ht : ∀ t, Told ds t (s.phase t)) (t : ThreadId) :
    Told (ds ++ [d]) t (s'.phase t) := by
  -- For all threads but one the phase is the one before.
  have hother : ∀ (m : Atomic) (u : ThreadId) (p : Phase), d.thread? = some u → t ≠ u →
      m.phase = s.phase → Told (ds ++ [d]) t ((m.put u p).phase t) := by
    intro m u p hu hne hm
    rw [put_other m u t p hne, hm]
    refine (ht t).append d ?_
    rw [hu, ne_eq, Option.some.injEq]
    exact fun he => hne he.symm
  cases h with
  | call u use hidle =>
      by_cases hne : t = u
      · rw [hne, put_self]
        exact ⟨ds, [], rfl, fun x hx => absurd hx List.not_mem_nil⟩
      · exact hother s u _ rfl hne rfl
  | effect u use seen r token hcalled he =>
      by_cases hne : t = u
      · have hu := ht u
        rw [hcalled] at hu
        rcases hu with ⟨before, between, rfl, hb⟩
        rw [hne, put_self]
        refine ⟨before, between, [], by rw [List.append_assoc, List.cons_append], ?_⟩
        rw [List.append_nil]
        exact hb
      · exact hother _ u _ rfl hne rfl
  | «return» u use r hdecided =>
      by_cases hne : t = u
      · rw [hne, put_self]
        trivial
      · exact hother s u _ rfl hne rfl
  | pass clock =>
      have hsame := (ht t).append (.seen (.passed clock))
        (by simp only [Deed.thread?, ne_eq, reduceCtorEq, not_false_eq_true])
      change Told _ t ((s.phase t).pass clock)
      cases hp : s.phase t with
      | called use seen =>
          rw [hp] at hsame
          exact hsame
      | decided use r =>
          rw [hp] at hsame
          exact hsame
      | idle => trivial
      | gone => trivial
  | cancel u use seen hcalled =>
      by_cases hne : t = u
      · rw [hne, put_self]
        trivial
      · exact hother s u _ rfl hne rfl

/-- The time was shown: at the beginning, or later. -/
def Shown (clock : Clock) (ds : List Deed) (now : Clock) : Prop :=
  now = clock ∨ .seen (.passed now) ∈ ds

theorem Shown.append {clock : Clock} {ds : List Deed} {now : Clock} (h : Shown clock ds now)
    (d : Deed) : Shown clock (ds ++ [d]) now := by
  rcases h with h | h
  · exact Or.inl h
  · exact Or.inr (List.mem_append_left _ h)

-- Whatever a call has seen was shown.
theorem Step.shown {due : Timer → Clock → Prop} {s s' : Atomic} {d : Deed} {ds : List Deed}
    {clock : Clock} (h : Step due s d s') (hnow : Shown clock ds s.clock)
    (hseen : ∀ t use seen, s.phase t = .called use seen → ∀ now ∈ seen, Shown clock ds now) :
    Shown clock (ds ++ [d]) s'.clock ∧
      ∀ t use seen, s'.phase t = .called use seen →
        ∀ now ∈ seen, Shown clock (ds ++ [d]) now := by
  have hother : ∀ (m : Atomic) (u : ThreadId) (p : Phase), m.phase = s.phase →
      (∀ use seen, p = .called use seen → ∀ now ∈ seen, Shown clock ds now) →
      ∀ t use seen, (m.put u p).phase t = .called use seen →
        ∀ now ∈ seen, Shown clock (ds ++ [d]) now := by
    intro m u p hm hp t use seen ht now hmem
    by_cases hne : t = u
    · rw [hne, put_self] at ht
      exact (hp use seen ht now hmem).append d
    · rw [put_other m u t p hne, hm] at ht
      exact (hseen t use seen ht now hmem).append d
  cases h with
  | call u use hidle =>
      refine ⟨hnow.append _, hother s u _ rfl (fun use' seen hp now hmem => ?_)⟩
      rw [Phase.called.injEq] at hp
      rw [← hp.2, List.mem_singleton] at hmem
      rw [hmem]
      exact hnow
  | effect u use seen r token hcalled he =>
      exact ⟨hnow.append _, hother _ u _ rfl
        (fun _ _ hp => absurd hp (by simp only [reduceCtorEq, not_false_eq_true]))⟩
  | «return» u use r hdecided =>
      exact ⟨hnow.append _, hother s u _ rfl
        (fun _ _ hp => absurd hp (by simp only [reduceCtorEq, not_false_eq_true]))⟩
  | pass later =>
      have hlater : Shown clock (ds ++ [.seen (.passed later)]) later :=
        Or.inr (List.mem_append_right ds (List.mem_singleton.mpr rfl))
      refine ⟨hlater, fun t use seen ht now hmem => ?_⟩
      change (s.phase t).pass later = _ at ht
      cases hp : s.phase t with
      | called use' seen' =>
          rw [hp, Phase.pass, Phase.called.injEq] at ht
          rw [← ht.2] at hmem
          rcases List.mem_cons.mp hmem with rfl | hmem
          · exact hlater
          · exact (hseen t use' seen' hp now hmem).append _
      | idle =>
          rw [hp] at ht
          exact absurd ht (by simp only [Phase.pass, reduceCtorEq, not_false_eq_true])
      | gone =>
          rw [hp] at ht
          exact absurd ht (by simp only [Phase.pass, reduceCtorEq, not_false_eq_true])
      | decided _ _ =>
          rw [hp] at ht
          exact absurd ht (by simp only [Phase.pass, reduceCtorEq, not_false_eq_true])
  | cancel u use seen hcalled =>
      exact ⟨hnow.append _, hother s u _ rfl
        (fun _ _ hp => absurd hp (by simp only [reduceCtorEq, not_false_eq_true]))⟩

-- A time that was shown was seen to pass.
theorem Shown.report {clock : Clock} {ds : List Deed} {now : Clock} (h : Shown clock ds now) :
    now = clock ∨ .passed now ∈ ds.filterMap Deed.report? :=
  h.imp_right fun hmem => List.mem_filterMap.mpr ⟨_, hmem, rfl⟩

/-- The clock does not go back. -/
def Steady (source : ClockSource) (clock : Clock) (es : List Report) : Prop :=
  ∀ earlier now later, es = earlier ++ .passed now :: later →
    ∀ before, before = clock ∨ .passed before ∈ earlier →
      before.nanos source ≤ now.nanos source

theorem Steady.earlier {source : ClockSource} {clock : Clock} {es fs : List Report}
    (h : Steady source clock (es ++ fs)) : Steady source clock es := by
  intro earlier now later he
  refine h earlier now (later ++ fs) ?_
  rw [he, List.append_assoc, List.cons_append]

-- An effect takes a token only where one is, and leaves none.
theorem effect_balance {due : Timer → Clock → Prop} {seen : List Clock} {use : Use}
    {token token' : Bool} {r : Answer Unit} (h : Effect due seen use token r token')
    (t : ThreadId) :
    (if (Deed.effect t use r).takes then 1 else 0) + token'.toNat
      ≤ (if (Deed.effect t use r).posts then 1 else 0) + token.toNat := by
  cases h with
  | post _ => exact Nat.le_add_right 1 _
  | take _ hne =>
      cases use with
      | post => exact absurd rfl hne
      | wait => exact Nat.le_refl 1
      | tryWait => exact Nat.le_refl 1
      | timedWait _ => exact Nat.le_refl 1
  | empty => exact Nat.le_refl 0
  | late _ _ _ _ => exact Nat.le_refl 0
  | refused _ _ => exact Nat.le_refl 0

-- A timeout has found the slot empty, and has seen its deadline pass.
theorem effect_timeout {due : Timer → Clock → Prop} {seen : List Clock} {use : Use}
    {token token' : Bool} (h : Effect due seen use token (.error .timeout) token') :
    token = false ∧ token' = false ∧ ∀ d, use = .timedWait d → ∃ now ∈ seen, due d now := by
  cases h with
  | empty =>
      exact ⟨rfl, rfl, fun d hd => absurd hd (by simp only [reduceCtorEq, not_false_eq_true])⟩
  | late d now hnow hdue =>
      refine ⟨rfl, rfl, fun d' hd => ⟨now, hnow, ?_⟩⟩
      rw [Use.timedWait.injEq] at hd
      rw [← hd]
      exact hdue

theorem Step.balance {due : Timer → Clock → Prop} {s s' : Atomic} {d : Deed}
    (h : Step due s d s') :
    (if d.takes then 1 else 0) + s'.token.toNat ≤ (if d.posts then 1 else 0) + s.token.toNat := by
  cases h with
  | effect t use seen r token hcalled he => exact effect_balance he t
  | call _ _ _ => exact Nat.le_refl _
  | «return» _ _ _ _ => exact Nat.le_refl _
  | pass _ => exact Nat.le_refl _
  | cancel _ _ _ _ => exact Nat.le_refl _

namespace Run

variable {due : Timer → Clock → Prop} {clock : Clock} {s : Atomic} {ds : List Deed}

theorem told (h : Run due (start clock) ds s) (t : ThreadId) : Told ds t (s.phase t) := by
  induction h generalizing t with
  | refl => trivial
  | snoc _ hd ih => exact hd.told ih t

theorem shown (h : Run due (start clock) ds s) : Shown clock ds s.clock ∧
    ∀ t use seen, s.phase t = .called use seen → ∀ now ∈ seen, Shown clock ds now := by
  induction h with
  | refl =>
      refine ⟨Or.inl rfl, fun t use seen ht => ?_⟩
      exact absurd ht (by simp only [start, reduceCtorEq, not_false_eq_true])
  | snoc _ hd ih => exact hd.shown ih.1 ih.2

/-- A call that returns was made before and has had its effect in between, with
    nothing else of the same thread around it. -/
theorem returned_between (h : Run due (start clock) ds s) (t : ThreadId) (use : Use)
    (r : Answer Unit) (earlier later : List Deed)
    (hds : ds = earlier ++ .seen (.returned t use r) :: later) :
    ∃ before between after,
      earlier = before ++ .seen (.called t use) :: (between ++ .effect t use r :: after) ∧
        ∀ d ∈ between ++ after, d.thread? ≠ some t := by
  rcases h.split earlier later _ hds with ⟨m, m', hrun, hstep⟩
  have htold := hrun.told t
  cases hstep with
  | «return» _ _ _ hdecided =>
      rw [hdecided] at htold
      exact htold

/-- Tokens are not taken more often than they are put in. -/
theorem takes_le_posts (h : Run due (start clock) ds s) :
    ds.countP Deed.takes + s.token.toNat ≤ ds.countP Deed.posts := by
  induction h with
  | refl => exact Nat.le_refl 0
  | snoc _ hd ih =>
      have hone := hd.balance
      simp only [List.countP_append, List.countP_singleton]
      omega

/-- On a clock that does not go back, the time that it is now is the latest one
    that was shown. -/
theorem shown_le (source : ClockSource) (h : Run due (start clock) ds s) :
    Steady source clock (ds.filterMap Deed.report?) →
      ∀ now, Shown clock ds now → now.nanos source ≤ s.clock.nanos source := by
  induction h with
  | refl =>
      intro _ now hnow
      rcases hnow with rfl | hmem
      · exact Nat.le_refl _
      · exact absurd hmem List.not_mem_nil
  | @snoc ds m s' d _ hd ih =>
      intro hsteady now hnow
      rw [List.filterMap_append] at hsteady
      have hearlier := ih hsteady.earlier
      -- Only a deed of the clock shows another time.
      have hsame : (∀ c, d ≠ .seen (.passed c)) → s'.clock = m.clock →
          now.nanos source ≤ s'.clock.nanos source := by
        intro hne hclock
        rw [hclock]
        refine hearlier now (hnow.imp_right fun hmem => ?_)
        rcases List.mem_append.mp hmem with hmem | hmem
        · exact hmem
        · exact absurd (List.mem_singleton.mp hmem).symm (hne now)
      cases hd with
      | pass later =>
          rcases hnow with rfl | hmem
          · exact hsteady _ later [] rfl _ (Or.inl rfl)
          · rcases List.mem_append.mp hmem with hmem | hmem
            · exact hsteady _ later [] rfl now (Shown.report (Or.inr hmem))
            · rw [List.mem_singleton, Deed.seen.injEq, Report.passed.injEq] at hmem
              exact Nat.le_of_eq (by rw [hmem])
      | call _ _ _ =>
          exact hsame (fun _ => by simp only [ne_eq, Deed.seen.injEq, reduceCtorEq,
            not_false_eq_true]) rfl
      | effect _ _ _ _ _ _ _ =>
          exact hsame (fun _ => by simp only [ne_eq, reduceCtorEq, not_false_eq_true]) rfl
      | «return» _ _ _ _ =>
          exact hsame (fun _ => by simp only [ne_eq, Deed.seen.injEq, reduceCtorEq,
            not_false_eq_true]) rfl
      | cancel _ _ _ _ =>
          exact hsame (fun _ => by simp only [ne_eq, Deed.seen.injEq, reduceCtorEq,
            not_false_eq_true]) rfl

/-- A call times out only at a point at which the slot is empty, and if it has a
    deadline, that was due at some time that was shown before. -/
theorem timeout_due (h : Run due (start clock) ds s) (t : ThreadId) (use : Use)
    (earlier later : List Deed) (hds : ds = earlier ++ .effect t use (.error .timeout) :: later) :
    ∃ m, Run due (start clock) earlier m ∧ m.token = false ∧
      ∀ d, use = .timedWait d → ∃ now, due d now ∧ Shown clock earlier now := by
  rcases h.split earlier later _ hds with ⟨m, m', hrun, hstep⟩
  cases hstep with
  | effect _ _ seen _ token hcalled he =>
      rcases effect_timeout he with ⟨hempty, _, hlate⟩
      refine ⟨m, hrun, hempty, fun d hd => ?_⟩
      rcases hlate d hd with ⟨now, hnow, hdue⟩
      exact ⟨now, hdue, hrun.shown.2 t _ seen hcalled now hnow⟩

end Run

end Atomic

end BinarySemaphore

end HostLayer
