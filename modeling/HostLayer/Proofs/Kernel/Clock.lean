import HostLayer.Proofs.Kernel.Calls
import HostLayer.Proofs.Schedule
import Mathlib.Logic.Function.Basic

/-!
# One Clock

Which clock the conditions of a process are made on, whatever its threads do.

Any number of threads start the library, shut it down, choose the clock and make
objects, one access at a time and in any order. A thread that makes an object reads
the clock in the critical section and makes the object after it has left that, so
others have all the time to choose another clock in between. They cannot, because the
pin was set before the clock was read: a clock that is stored under a pin is the one
that is there already (`Kernel.Place.Fits`).

Each call keeps a book of its own that no step looks at. In it are the state that
the call has found when it entered the critical section, and whether one of its steps
has changed anything.

## Main definitions

* `Kernel.Book`, `Kernel.Pending`: A call of a thread, with its book.
* `Process`, `Process.step`: All threads at work.
* `Kernel.Steady`: What may become of the state.
* `Kernel.Place.Fits`, `Process.Kept`: What is kept along every run.
* `Kernel.Book.Explains`: A choice is refused for the reason for which it should be.
* `Process.OneClock`: What holds of the conditions and the clock.

## Theorems

* `Process.step_happened`: The cases of a step.
* `Process.Kept.moved`: A thread moves on, and the others stay where they are.
* `Process.happened_kept`, `Process.play_kept`: What a step keeps, and a run.
* `Process.happened_steady`, `Process.play_steady`: A clock that is pinned stays.
* `Process.Kept.goes_on`, `Process.happened_ahead`: Calls come to an end.
* `Process.one_clock`: All conditions are made on the clock, which stays.
-/

namespace HostLayer

namespace Kernel

/-- What is noted about a call. -/
structure Book where
  /-- The state in which the critical section was entered. -/
  found : Option Kernel
  /-- A step of the call has changed the state. -/
  changed : Bool

/-- The book after a step of the call. -/
def Book.after (b : Book) (g g' : Guarded) : Book where
  found := if g.inside = none ∧ g'.inside ≠ none then some g.kernel else b.found
  changed := b.changed || decide (g'.kernel ≠ g.kernel)

/-- A call that a thread has made. -/
structure Pending where
  request : Request
  place : Place
  book : Book

/-- The thread with the call is in the critical section. -/
def isInside : Option Pending → Bool
  | none => false
  | some c => c.place.isInside

/-- How many steps a thread can still take in its call. -/
def ahead : Option Pending → Nat
  | none => 0
  | some c => c.place.ahead

theorem ahead_le (c : Option Pending) : ahead c ≤ Place.checking.ahead := by
  rcases c with _ | ⟨q, p, b⟩
  · exact Nat.zero_le _
  · cases p <;> simp only [ahead, Place.ahead] <;> omega

/-- What has been made by a call that has ended. -/
def gained : Answer (Option Made) → List Made
  | .ok (some m) => [m]
  | _ => []

end Kernel

open Kernel

/-- A process whose threads are in calls. -/
structure Process where
  guarded : Guarded
  pending : ThreadId → Option Pending
  /-- All that has been made. -/
  made : List Made

namespace Process

/-- What can happen. -/
inductive Act
  /-- A thread makes a call. -/
  | call (t : ThreadId) (q : Request)
  /-- A thread makes one step. If it is about to make an object, it may be refused. -/
  | move (t : ThreadId) (refusal : Option Error)

/-- Is it a move of the thread? -/
def Act.moves (t : ThreadId) : Act → Bool
  | call _ _ => false
  | move u _ => u = t

/-- What can be seen. -/
inductive Seen
  /-- A call has ended. -/
  | returned (t : ThreadId) (q : Request) (r : Answer (Option Made)) (b : Book)

/-- Nothing has been made, and nobody is in a call. -/
def start (k : Kernel) : Process := ⟨⟨k, none⟩, fun _ => none, []⟩

/-- One act, and what can be seen of it. -/
def step (s : Process) : Act → Option (Process × List Seen)
  | .call t q =>
      match s.pending t with
      | none =>
          some (⟨s.guarded, Function.update s.pending t (some ⟨q, q.first, none, false⟩),
            s.made⟩, [])
      | some _ => none
  | .move t refusal =>
      match s.pending t with
      | none => none
      | some c =>
          match Kernel.step t refusal c.request s.guarded c.place with
          | .goto g p _ =>
              some (⟨g, Function.update s.pending t (some ⟨c.request, p, c.book.after s.guarded g⟩),
                s.made⟩, [])
          | .done g r _ =>
              some (⟨g, Function.update s.pending t none, s.made ++ gained r⟩,
                [.returned t c.request r (c.book.after s.guarded g)])
          | .waits => none

/-- What an act can come to. -/
inductive Happened (s : Process) : Act → Process → List Seen → Prop
  | call (t : ThreadId) (q : Request) (h : s.pending t = none) :
      Happened s (.call t q)
        ⟨s.guarded, Function.update s.pending t (some ⟨q, q.first, none, false⟩), s.made⟩ []
  | go (t : ThreadId) (refusal : Option Error) (c : Pending) (g : Guarded) (p : Place)
      (h : s.pending t = some c) (hgoes : Goes t c.request s.guarded c.place g p) :
      Happened s (.move t refusal)
        ⟨g, Function.update s.pending t (some ⟨c.request, p, c.book.after s.guarded g⟩), s.made⟩ []
  | finish (t : ThreadId) (refusal : Option Error) (c : Pending) (g : Guarded)
      (r : Answer (Option Made)) (h : s.pending t = some c)
      (hends : Ends c.request s.guarded c.place g r) :
      Happened s (.move t refusal) ⟨g, Function.update s.pending t none, s.made ++ gained r⟩
        [.returned t c.request r (c.book.after s.guarded g)]

end Process

namespace Kernel

/-- What may become of the state: a clock that is pinned stays, and so does the pin. -/
def Steady (k k' : Kernel) : Prop :=
  k.pinned = true → k'.pinned = true ∧ k'.clock = k.clock

namespace Book

/-- The clock and its pin are as they were found. -/
def Shows (b : Book) (k : Kernel) : Prop :=
  ∃ k₀, b.found = some k₀ ∧ k₀.pinned = k.pinned ∧ k₀.clock = k.clock

/-- The choice of a clock ends as it should: it is refused exactly if the other clock
    was found pinned, for that reason only, and with nothing changed. -/
def Explains {α : Type} (b : Book) (wish : ClockSource) (r : Answer α) : Prop :=
  ∃ k, b.found = some k ∧ (r = .error .busy ↔ k.pinned = true ∧ k.clock ≠ wish) ∧
    ∀ e, r = .error e → e = .busy ∧ b.changed = false

theorem after_self (b : Book) (g : Guarded) : b.after g g = b := by
  simp [after]

theorem after_enter (b : Book) (k : Kernel) (t : ThreadId) :
    b.after ⟨k, none⟩ ⟨k, some t⟩ = ⟨some k, b.changed⟩ := by
  simp [after]

theorem after_leave (b : Book) (g : Guarded) : b.after g { g with inside := none } = b := by
  simp [after]

-- Only who enters finds something.
theorem after_found (b : Book) (g : Guarded) (k : Kernel) :
    (b.after g { g with kernel := k }).found = b.found := by
  simp [after]

-- An answer without an object is the same answer.
theorem Explains.error {b : Book} {wish : ClockSource} {e : Error}
    (h : b.Explains wish (.error e : Answer Unit)) :
    b.Explains wish (.error e : Answer (Option Made)) := by
  rcases h with ⟨k, hk, hiff, hall⟩
  refine ⟨k, hk, ?_, fun e' he => hall e' (congrArg Except.error (Except.error.inj he))⟩
  simpa using hiff

theorem Explains.ok {b b' : Book} {wish : ClockSource}
    (h : b.Explains wish (.ok () : Answer Unit)) (hfound : b'.found = b.found) :
    b'.Explains wish (.ok none : Answer (Option Made)) := by
  rcases h with ⟨k, hk, hiff, _⟩
  refine ⟨k, hfound.trans hk, ?_, fun e he => absurd he (by
    simp only [reduceCtorEq, not_false_eq_true])⟩
  simpa using hiff

end Book

/-- What a call at a place knows about the state, and its book. -/
def Place.Fits (q : Request) (b : Book) (k : Kernel) : Place → Prop
  | checking => q.wish? = none ∧ q.inner.isInside = true ∧ b.changed = false
  | entering => q.inner.isInside = true ∧ b.changed = false
  | looking wish => q.wish? = some wish ∧ b.changed = false ∧ b.Shows k
  | comparing wish => q.wish? = some wish ∧ b.changed = false ∧ b.Shows k ∧ k.pinned = true
  | storing wish => q.wish? = some wish ∧ b.Shows k ∧ (k.pinned = true → k.clock = wish)
  | leaving r => ∀ wish, q.wish? = some wish → b.Explains wish r
  | starting _ => ∀ wish, q.wish? = some wish → b.Explains wish (.ok () : Answer Unit)
  | stopping => q.wish? = none
  | pinning => q.wish? = none
  | reading => q.wish? = none ∧ k.pinned = true
  | releasing clock => q.wish? = none ∧ k.pinned = true ∧ k.clock = clock
  | making clock => q.wish? = none ∧ k.pinned = true ∧ k.clock = clock

-- What a call knows outside of the critical section stays true.
theorem Place.Fits.steady {q : Request} {b : Book} {k k' : Kernel} {p : Place}
    (h : p.Fits q b k) (hout : p.isInside = false) (hk : k.Steady k') : p.Fits q b k' := by
  cases p with
  | checking => exact h
  | entering => exact h
  | starting clock => exact h
  | stopping => exact h
  | making clock => exact ⟨h.1, (hk h.2.1).1, (hk h.2.1).2.trans h.2.2⟩
  | _ => exact absurd hout (Bool.noConfusion)

-- Nobody knows whether the library has been started.
theorem Place.Fits.same {q : Request} {b : Book} {k k' : Kernel} {p : Place} (h : p.Fits q b k)
    (hpinned : k'.pinned = k.pinned) (hclock : k'.clock = k.clock) : p.Fits q b k' := by
  rcases k with ⟨clock, pinned, started⟩
  rcases k' with ⟨clock', pinned', started'⟩
  obtain rfl : clock' = clock := hclock
  obtain rfl : pinned' = pinned := hpinned
  cases p <;> exact h

-- What a call has made is on the clock that it has read.
theorem gained_clock {q : Request} {clock : ClockSource} {m : Made}
    (h : m ∈ gained (q.create clock)) : m.clock = clock := by
  cases q with
  | make o =>
      rcases ho : o.create clock with e | m'
      · simp only [Request.create, ho, Except.map, gained, List.not_mem_nil] at h
      · simp only [Request.create, ho, Except.map, gained, List.mem_singleton] at h
        exact h ▸ Object.create_clock ho
  | _ => simp only [Request.create, gained, List.not_mem_nil] at h

end Kernel

namespace Process

/-- A call has ended as it should. -/
def Seen.Right : Seen → Prop
  | returned _ q r b => ∀ wish, q.wish? = some wish → b.Explains wish r

/-- What is kept along every run. -/
structure Kept (s : Process) : Prop where
  inside_iff : ∀ t, s.guarded.inside = some t ↔ isInside (s.pending t) = true
  fits : ∀ t c, s.pending t = some c → c.place.Fits c.request c.book s.guarded.kernel
  made : ∀ m ∈ s.made, s.guarded.kernel.pinned = true ∧ m.clock = s.guarded.kernel.clock

/-- All conditions are made on the clock of the process, which stays. -/
structure OneClock (s : Process) : Prop where
  made : ∀ m ∈ s.made, s.guarded.kernel.pinned = true ∧ m.clock = s.guarded.kernel.clock
  lasting : ∀ m ∈ s.made, ∀ acts t es, Schedule.play step s acts = some (t, es) →
    m.clock = t.guarded.kernel.clock
  pinned : s.guarded.kernel.pinned = true → ∀ acts t es,
    Schedule.play step s acts = some (t, es) →
      t.guarded.kernel.pinned = true ∧ t.guarded.kernel.clock = s.guarded.kernel.clock
  /-- A thread in a call can move, or another one can that is in its way. -/
  goes_on : ∀ t, s.pending t ≠ none → ∀ refusal, s.step (.move t refusal) ≠ none ∨
    ∃ u, s.guarded.inside = some u ∧ s.step (.move u refusal) ≠ none
  /-- A call is over after a few moves. -/
  ends : ∀ t acts s' es, Schedule.play step s acts = some (s', es) →
    (∀ q, .call t q ∉ acts) → acts.countP (Act.moves t) ≤ Place.checking.ahead

section Steps

variable {s s' : Process} {a : Act} {es : List Seen}

theorem step_happened (h : s.step a = some (s', es)) : s.Happened a s' es := by
  cases a with
  | call t q =>
      simp only [step] at h
      split at h
      next hidle =>
        simp only [Option.some.injEq, Prod.mk.injEq] at h
        exact h.1 ▸ h.2 ▸ .call t q hidle
      next => exact absurd h (by simp only [reduceCtorEq, not_false_eq_true])
  | move t refusal =>
      simp only [step] at h
      split at h
      next => exact absurd h (by simp only [reduceCtorEq, not_false_eq_true])
      next c hc =>
        split at h
        next g p notes hgo =>
          simp only [Option.some.injEq, Prod.mk.injEq] at h
          exact h.1 ▸ h.2 ▸ .go t refusal c g p hc (step_goes hgo)
        next g r notes hdone =>
          simp only [Option.some.injEq, Prod.mk.injEq] at h
          exact h.1 ▸ h.2 ▸ .finish t refusal c g r hc (step_ends hdone)
        next => exact absurd h (by simp only [reduceCtorEq, not_false_eq_true])

namespace Kept

variable {t : ThreadId} {q : Request} {p p' : Place} {b : Book} {g : Guarded}

theorem start (k : Kernel) : Kept (start k) where
  inside_iff t := by simp [Process.start, isInside]
  fits t c h := absurd h (by simp [Process.start])
  made m h := absurd h (by simp [Process.start])

-- What has been made stays on the clock.
theorem made_steady (hk : s.Kept) {k : Kernel} (h : s.guarded.kernel.Steady k) :
    ∀ m ∈ s.made, k.pinned = true ∧ m.clock = k.clock := by
  intro m hm
  rcases hk.made m hm with ⟨hpinned, hclock⟩
  exact ⟨(h hpinned).1, hclock.trans (h hpinned).2.symm⟩

/-- A thread moves on or ends. It may change the clock and the pin only if it is in the
    critical section, and a clock that is pinned only for itself. -/
theorem moved (hk : s.Kept) (t : ThreadId) (k : Kernel) (i : Option ThreadId)
    (c' : Option Pending) (hsteady : s.guarded.kernel.Steady k)
    (hsame : s.guarded.inside = some t ∨
      (k.pinned = s.guarded.kernel.pinned ∧ k.clock = s.guarded.kernel.clock))
    (hself : i = some t ↔ isInside c' = true)
    (hother : ∀ u, u ≠ t → (i = some u ↔ s.guarded.inside = some u))
    (hfits : ∀ c, c' = some c → c.place.Fits c.request c.book k) :
    Kept ⟨⟨k, i⟩, Function.update s.pending t c', s.made⟩ := by
  refine ⟨?_, ?_, hk.made_steady hsteady⟩
  · exact (Function.forall_update_iff s.pending fun u c => i = some u ↔ isInside c = true).mpr
      ⟨hself, fun u hu => (hother u hu).trans (hk.inside_iff u)⟩
  · refine (Function.forall_update_iff s.pending fun u c => ∀ d, c = some d →
      d.place.Fits d.request d.book k).mpr ⟨hfits, fun u hu c hc => ?_⟩
    have hfit := hk.fits u c hc
    rcases hsame with hin | ⟨hpinned, hclock⟩
    · -- Nobody else is in the critical section.
      refine hfit.steady (Bool.eq_false_iff.mpr fun hinside => hu ?_) hsteady
      have hu' : s.guarded.inside = some u := (hk.inside_iff u).mpr (by rw [hc]; exact hinside)
      exact Option.some.inj (hu'.symm.trans hin)
    · exact hfit.same hpinned hclock

/-- A thread moves on and changes nothing, and it does not enter or leave the critical
    section. -/
theorem quiet (hk : s.Kept) (t : ThreadId) (c' : Option Pending)
    (hself : isInside c' = isInside (s.pending t))
    (hfits : ∀ c, c' = some c → c.place.Fits c.request c.book s.guarded.kernel) :
    Kept ⟨s.guarded, Function.update s.pending t c', s.made⟩ :=
  hk.moved t s.guarded.kernel s.guarded.inside c' (fun h => ⟨h, rfl⟩) (Or.inr ⟨rfl, rfl⟩)
    (by rw [hself]; exact hk.inside_iff t) (fun _ _ => Iff.rfl) hfits

/-- A thread ends its call and writes the mark. -/
theorem mark (hk : s.Kept) (t : ThreadId) (started : Bool)
    (hself : isInside none = isInside (s.pending t)) :
    Kept ⟨⟨{ s.guarded.kernel with initialized := started }, s.guarded.inside⟩,
      Function.update s.pending t none, s.made⟩ :=
  hk.moved t _ s.guarded.inside none (fun h => ⟨h, rfl⟩) (Or.inr ⟨rfl, rfl⟩)
    (by rw [hself]; exact hk.inside_iff t) (fun _ _ => Iff.rfl)
    (fun c hc => absurd hc.symm (Option.some_ne_none c))

/-- A thread leaves the critical section. -/
theorem leave (hk : s.Kept) (t : ThreadId) (c' : Option Pending)
    (hin : s.guarded.inside = some t) (hself : isInside c' = false)
    (hfits : ∀ c, c' = some c → c.place.Fits c.request c.book s.guarded.kernel) :
    Kept ⟨{ s.guarded with inside := none }, Function.update s.pending t c', s.made⟩ := by
  refine hk.moved t s.guarded.kernel none c' (fun h => ⟨h, rfl⟩) (Or.inr ⟨rfl, rfl⟩) ?_
    (fun u hu => ?_) hfits
  · rw [hself]
    exact ⟨fun h => absurd h.symm (Option.some_ne_none t), fun h => absurd h Bool.false_ne_true⟩
  · rw [hin]
    exact ⟨fun h => absurd h.symm (Option.some_ne_none u),
      fun h => absurd (Option.some.inj h).symm hu⟩

/-- A thread that goes on with its call keeps what is kept. -/
theorem goes (hk : s.Kept) (hp : s.pending t = some ⟨q, p, b⟩)
    (h : Goes t q s.guarded p g p') :
    Kept ⟨g, Function.update s.pending t (some ⟨q, p', b.after s.guarded g⟩), s.made⟩ := by
  have hfit := hk.fits t _ hp
  have hin := hk.inside_iff t
  rw [hp] at hin
  rcases s with ⟨⟨k, i⟩, pending, made⟩
  -- A thread that does not enter or leave looks and writes nothing.
  have hquiet : ∀ p', p'.isInside = p.isInside → p'.Fits q b k →
      Kept ⟨⟨k, i⟩, Function.update pending t (some ⟨q, p', b.after ⟨k, i⟩ ⟨k, i⟩⟩), made⟩ := by
    intro p' hself hfit'
    refine hk.quiet t _ (by rw [hp]; exact hself) (fun c hc => Option.some.inj hc ▸ ?_)
    rw [Book.after_self]
    exact hfit'
  cases h with
  | check => exact hquiet .entering rfl hfit.2
  | enter =>
      refine hk.moved t k (some t) _ (fun h => ⟨h, rfl⟩) (Or.inr ⟨rfl, rfl⟩) ?_ (fun u hu => ?_)
        (fun c hc => Option.some.inj hc ▸ ?_)
      · exact ⟨fun _ => hfit.1, fun _ => rfl⟩
      · exact ⟨fun h => absurd (Option.some.inj h).symm hu,
          fun h => absurd h.symm (Option.some_ne_none u)⟩
      · rw [Book.after_enter]
        have hshows : Book.Shows ⟨some k, b.changed⟩ k := ⟨k, rfl, rfl, rfl⟩
        cases q with
        | init clock => exact ⟨rfl, hfit.2, hshows⟩
        | setClock clock => exact ⟨rfl, hfit.2, hshows⟩
        | _ => exact rfl
  | look _ wish =>
      rcases hfit with ⟨hwish, hunchanged, hshows⟩
      refine hquiet _ (by split <;> rfl) ?_
      by_cases hpinned : k.pinned = true
      · rw [if_pos hpinned]
        exact ⟨hwish, hunchanged, hshows, hpinned⟩
      · rw [if_neg hpinned]
        exact ⟨hwish, hshows, fun h => absurd h hpinned⟩
  | agree =>
      rcases hfit with ⟨hwish, _, hshows, _⟩
      exact hquiet _ rfl ⟨hwish, hshows, fun _ => rfl⟩
  | differ _ wish hne =>
      rcases hfit with ⟨hwish, hunchanged, ⟨k₀, hfound, hpinned, hclock⟩, hpin⟩
      refine hquiet _ rfl fun wish' hwish' => ⟨k₀, hfound, ?_, fun e he => ?_⟩
      · obtain rfl : wish = wish' := Option.some.inj (hwish.symm.trans hwish')
        rw [hpinned, hclock]
        exact ⟨fun _ => ⟨hpin, hne⟩, fun _ => rfl⟩
      · exact ⟨(Except.error.inj he).symm, hunchanged⟩
  | store _ wish =>
      rcases hfit with ⟨hwish, ⟨k₀, hfound, hpinned, hclock⟩, hsame⟩
      refine hk.moved t _ i _ (fun h => ⟨h, (hsame h).symm⟩) (Or.inl (hin.mpr rfl)) hin
        (fun _ _ => Iff.rfl) (fun c hc => Option.some.inj hc ▸ ?_)
      intro wish' hwish'
      obtain rfl : wish = wish' := Option.some.inj (hwish.symm.trans hwish')
      refine ⟨k₀, (b.after_found _ _).trans hfound, ?_, fun e he => absurd he (by
        simp only [reduceCtorEq, not_false_eq_true])⟩
      rw [hpinned, hclock]
      exact ⟨fun h => absurd h (by simp only [reduceCtorEq, not_false_eq_true]),
        fun h => absurd (hsame h.1) h.2⟩
  | chosen _ clock hq =>
      refine hk.leave t _ (hin.mpr rfl) rfl (fun c hc => Option.some.inj hc ▸ ?_)
      rw [Book.after_leave]
      exact hfit
  | pin =>
      refine hk.moved t _ i _ (fun _ => ⟨rfl, rfl⟩) (Or.inl (hin.mpr rfl)) hin
        (fun _ _ => Iff.rfl) (fun c hc => Option.some.inj hc ▸ ?_)
      exact ⟨hfit, rfl⟩
  | read => exact hquiet _ rfl ⟨hfit.1, hfit.2, rfl⟩
  | release _ clock =>
      refine hk.leave t _ (hin.mpr rfl) rfl (fun c hc => Option.some.inj hc ▸ ?_)
      exact hfit

-- What a call has made is added.
theorem gain (hk : s.Kept) {more : List Made}
    (h : ∀ m ∈ more, s.guarded.kernel.pinned = true ∧ m.clock = s.guarded.kernel.clock) :
    Kept ⟨s.guarded, s.pending, s.made ++ more⟩ :=
  ⟨hk.inside_iff, hk.fits, fun m hm => (List.mem_append.mp hm).elim (hk.made m) (h m)⟩

/-- A thread that ends its call keeps what is kept, and the call ends as it should. -/
theorem ends (hk : s.Kept) {r : Answer (Option Made)} (hp : s.pending t = some ⟨q, p, b⟩)
    (h : Ends q s.guarded p g r) :
    Kept ⟨g, Function.update s.pending t none, s.made ++ gained r⟩ ∧
      Seen.Right (.returned t q r (b.after s.guarded g)) := by
  have hfit := hk.fits t _ hp
  have hin := hk.inside_iff t
  rw [hp] at hin
  rcases s with ⟨⟨k, i⟩, pending, made⟩
  have hnone : ∀ c k, (none : Option Pending) = some c → c.place.Fits c.request c.book k :=
    fun c _ hc => absurd hc.symm (Option.some_ne_none c)
  -- A call that chooses no clock says nothing about that.
  have hright : ∀ r b', q.wish? = none → Seen.Right (.returned t q r b') :=
    fun r b' hq wish hwish => absurd (hwish.symm.trans hq) (Option.some_ne_none wish)
  have hout : p.isInside = false → isInside none = isInside (pending t) := by
    intro hp'
    rw [show pending t = _ from hp]
    exact hp'.symm
  have hnothing : ∀ (k : Kernel) (m : Made), m ∈ ([] : List Made) →
      k.pinned = true ∧ m.clock = k.clock := fun _ m hm => absurd hm List.not_mem_nil
  cases h with
  | reject =>
      exact ⟨(hk.quiet t none (hout rfl) (hnone · k)).gain (hnothing k), hright _ _ hfit.1⟩
  | fail e =>
      refine ⟨(hk.leave t none (hin.mpr rfl) rfl (hnone · k)).gain (hnothing k),
        fun wish hwish => ?_⟩
      rw [Book.after_leave]
      exact (hfit wish hwish).error
  | chosen =>
      refine ⟨(hk.leave t none (hin.mpr rfl) rfl (hnone · k)).gain (hnothing k),
        fun wish hwish => ?_⟩
      exact (hfit wish hwish).ok (congrArg Book.found (b.after_leave _))
  | start clock =>
      exact ⟨(hk.mark t true (hout rfl)).gain (hnothing _),
        fun wish hwish => (hfit wish hwish).ok (b.after_found _ _)⟩
  | stop => exact ⟨(hk.mark t false (hout rfl)).gain (hnothing _), hright _ _ hfit⟩
  | make clock =>
      refine ⟨(hk.quiet t none (hout rfl) (hnone · k)).gain (fun m hm => ⟨hfit.2.1, ?_⟩),
        hright _ _ hfit.1⟩
      exact (gained_clock hm).trans hfit.2.2.symm
  | refuse clock e =>
      exact ⟨(hk.quiet t none (hout rfl) (hnone · k)).gain (hnothing k), hright _ _ hfit.1⟩

end Kept

/-- Whatever happens keeps what is kept, and the calls that end do so as they should. -/
theorem happened_kept (hk : s.Kept) (h : s.Happened a s' es) : s'.Kept ∧ ∀ e ∈ es, e.Right := by
  have hnone : ∀ e : Seen, e ∈ [] → e.Right := fun e he => absurd he List.not_mem_nil
  cases h with
  | call t q hidle =>
      refine ⟨hk.quiet t _ ?_ (fun c hc => Option.some.inj hc ▸ ?_), hnone⟩
      · rw [hidle]
        cases q <;> rfl
      · cases q with
        | init clock => exact ⟨rfl, rfl⟩
        | setClock clock => exact ⟨rfl, rfl⟩
        | destroy => exact rfl
        | make o => exact ⟨rfl, rfl, rfl⟩
  | go t refusal c g p hc hgoes => exact ⟨hk.goes hc hgoes, hnone⟩
  | finish t refusal c g r hc hends =>
      rcases hk.ends hc hends with ⟨hk', hright⟩
      exact ⟨hk', fun e he => List.mem_singleton.mp he ▸ hright⟩

/-- No act changes a clock that is pinned. -/
theorem happened_steady (hk : s.Kept) (h : s.Happened a s' es) :
    s.guarded.kernel.Steady s'.guarded.kernel := by
  cases h with
  | call t q hidle => exact fun h => ⟨h, rfl⟩
  | go t refusal c g p hc hgoes =>
      have hfit := hk.fits t c hc
      rcases s with ⟨⟨k, i⟩, pending, made⟩
      rcases c with ⟨q, p₀, b⟩
      cases hgoes with
      | store _ wish => exact fun h => ⟨h, (hfit.2.2 h).symm⟩
      | pin => exact fun _ => ⟨rfl, rfl⟩
      | _ => exact fun h => ⟨h, rfl⟩
  | finish t refusal c g r hc hends =>
      rcases s with ⟨⟨k, i⟩, pending, made⟩
      rcases c with ⟨q, p₀, b⟩
      cases hends <;> exact fun h => ⟨h, rfl⟩

/-- The moves of a thread bring its call to an end. -/
theorem happened_ahead (t : ThreadId) (hcall : ∀ q, a ≠ .call t q) (h : s.Happened a s' es) :
    ahead (s'.pending t) + (if a.moves t then 1 else 0) ≤ ahead (s.pending t) := by
  -- Somebody else leaves the call where it is.
  have hother : ∀ u (c' : Option Pending), u ≠ t →
      ahead (Function.update s.pending u c' t) ≤ ahead (s.pending t) := by
    intro u c' hu
    exact Nat.le_of_eq (congrArg ahead (Function.update_of_ne hu.symm _ _))
  cases h with
  | call u q hidle => exact hother u _ (fun hu => hcall q (hu ▸ rfl))
  | go u refusal c g p hc hgoes =>
      by_cases hu : u = t
      · subst hu
        simp only [Act.moves, decide_true, if_true, Function.update_self, hc]
        exact hgoes.ahead_lt
      · simp only [Act.moves, hu, decide_false, Bool.false_eq_true, if_false]
        exact hother u _ hu
  | finish u refusal c g r hc hends =>
      by_cases hu : u = t
      · subst hu
        simp only [Act.moves, decide_true, if_true, Function.update_self, hc]
        exact c.place.ahead_pos
      · simp only [Act.moves, hu, decide_false, Bool.false_eq_true, if_false]
        exact hother u _ hu

theorem play_kept {acts : List Act} (hk : s.Kept) (h : Schedule.play step s acts = some (s', es)) :
    s'.Kept ∧ ∀ e ∈ es, e.Right := by
  have hrun := Schedule.play_simulates step (fun _ => True) (fun s (_ : Unit) => s.Kept)
    (fun _ es _ => ∀ e ∈ es, e.Right) (fun _ e he => absurd he List.not_mem_nil)
    (fun _ _ _ es fs h1 h2 e he => (List.mem_append.mp he).elim (h1 e) (h2 e))
    (fun s _ a s' es hk _ hstep => by
      rcases happened_kept hk (step_happened hstep) with ⟨hk', hright⟩
      exact ⟨(), hright, hk'⟩)
    acts s s' () es hk (fun _ _ => trivial) h
  rcases hrun with ⟨_, hright, hk'⟩
  exact ⟨hk', hright⟩

/-- A clock that is pinned stays along every run. -/
theorem play_steady {acts : List Act} (hk : s.Kept) (h : Schedule.play step s acts = some (s', es))
    (hpinned : s.guarded.kernel.pinned = true) :
    s'.guarded.kernel.pinned = true ∧ s'.guarded.kernel.clock = s.guarded.kernel.clock := by
  have hrun := Schedule.play_keeps step (fun _ => True) (fun _ => True)
    (fun s' => s'.Kept ∧ s'.guarded.kernel.pinned = true ∧
      s'.guarded.kernel.clock = s.guarded.kernel.clock)
    (fun s₁ a s₂ es hs _ _ hstep => by
      rcases hs with ⟨hk₁, hpinned₁, hclock₁⟩
      have hh := step_happened hstep
      rcases happened_steady hk₁ hh hpinned₁ with ⟨hpinned₂, hclock₂⟩
      exact ⟨(happened_kept hk₁ hh).1, hpinned₂, hclock₂.trans hclock₁⟩)
    acts s s' es ⟨hk, hpinned, rfl⟩ (fun _ _ => trivial) (fun _ _ => trivial) h
  exact hrun.2

namespace Kept

/-- A thread that is in the critical section can move. -/
theorem inside_moves (hk : s.Kept) {u : ThreadId} (h : s.guarded.inside = some u)
    (refusal : Option Error) : s.step (.move u refusal) ≠ none := by
  have hin := (hk.inside_iff u).mp h
  rcases hc : s.pending u with _ | c
  · rw [hc] at hin
    exact absurd hin Bool.false_ne_true
  · rw [hc] at hin
    simp only [step, hc]
    rcases hs : Kernel.step u refusal c.request s.guarded c.place with _ | _ | _
    · exact Option.some_ne_none _
    · exact Option.some_ne_none _
    · rw [isInside, (step_waits hs).1] at hin
      exact absurd hin Bool.false_ne_true

/-- A thread in a call can move, or whoever is in the critical section. -/
theorem goes_on (hk : s.Kept) (t : ThreadId) (h : s.pending t ≠ none) (refusal : Option Error) :
    s.step (.move t refusal) ≠ none ∨
      ∃ u, s.guarded.inside = some u ∧ s.step (.move u refusal) ≠ none := by
  rcases hc : s.pending t with _ | c
  · exact absurd hc h
  rcases hs : Kernel.step t refusal c.request s.guarded c.place with _ | _ | _
  · refine Or.inl ?_
    simp only [step, hc, hs]
    exact Option.some_ne_none _
  · refine Or.inl ?_
    simp only [step, hc, hs]
    exact Option.some_ne_none _
  · rcases hin : s.guarded.inside with _ | u
    · exact absurd hin (step_waits hs).2
    · exact Or.inr ⟨u, rfl, hk.inside_moves hin refusal⟩

theorem oneClock (hk : s.Kept) : s.OneClock := by
  refine ⟨hk.made, fun m hm acts t es h => ?_, fun hpinned acts t es h => play_steady hk h hpinned,
    hk.goes_on, fun t acts s' es h hcall => ?_⟩
  · rcases hk.made m hm with ⟨hpinned, hclock⟩
    exact hclock.trans (play_steady hk h hpinned).2.symm
  · have hle := Schedule.play_countP_le step (fun a => ∀ q, a ≠ .call t q) (Act.moves t)
      (fun s => ahead (s.pending t)) (fun _ => True)
      (fun _ _ _ _ _ hP hstep => ⟨trivial, happened_ahead t hP (step_happened hstep)⟩)
      acts s s' es trivial (fun a ha q hq => hcall q (hq ▸ ha)) h
    exact Nat.le_trans (Nat.le_of_add_left_le hle) (ahead_le _)

end Kept

/-- Whatever calls any number of threads make, and in whatever order they move, all
    conditions are made on one clock, and each call that chooses the clock ends as it
    should. -/
theorem one_clock (k : Kernel) (acts : List Act) (s : Process) (es : List Seen)
    (h : Schedule.play step (start k) acts = some (s, es)) :
    s.OneClock ∧ ∀ e ∈ es, e.Right := by
  rcases play_kept (Kept.start k) h with ⟨hk, hright⟩
  exact ⟨hk.oneClock, hright⟩

/-- While a thread is on its way from the pin to its condition, another one wants to have
    the other clock. -/
theorem one_clock_late : ∃ (acts : List Act) (s : Process) (es : List Seen),
    Schedule.play step (start Kernel.fresh) acts = some (s, es) ∧
    es = [.returned 2 (.init .realtime) (.error .busy) ⟨some ⟨.monotonic, true, false⟩, false⟩,
      .returned 1 (.make .condition) (.ok (some (.condition (Condition.create .monotonic))))
        ⟨some Kernel.fresh, true⟩] ∧
    s.guarded.kernel = ⟨.monotonic, true, false⟩ ∧ s.OneClock ∧ ∀ e ∈ es, e.Right := by
  refine ⟨[.call 1 (.make .condition), .move 1 none, .move 1 none, .call 2 (.init .realtime),
    .move 1 none, .move 1 none, .move 1 none, .move 2 none, .move 2 none, .move 2 none,
    .move 2 none, .move 1 none], ?s, ?es, ?run, ?seen, ?kernel, one_clock _ _ _ _ ?run⟩
  case run => rfl
  case seen => rfl
  case kernel => rfl

end Steps

end Process

end HostLayer
