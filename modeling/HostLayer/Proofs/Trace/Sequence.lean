import HostLayer.Proofs.Slot.Alone
import HostLayer.Proofs.Trace.Analysis
import Mathlib.Data.List.DropRight

/-!
# Recording in Sequence

A recorder whose calls are made one after the other is a list of stamps.

What a recorder does with two buffers, a word and a slot for a token looks simple
from outside as long as no call is made during another one. The stamps form one
list, which falls into blocks. What is analyzed is the last block that is complete,
or zeros before there is one (`lastBlock`), and it stays the same while the next
block is being recorded. A wait succeeds, and does not sleep, just if a block has
been completed since the last wait that did so (`Unnoticed`); however many blocks
that are, the next wait will wait for another one. Whether it is refused, ends late
or sleeps on is then a matter of its deadline.

The induction is along the calls. What ties the recorder to the list is `Follows`:
the slots hold the youngest stamps, and the mark says whether a block has not been
noticed.

## Main definitions

* `Recorder.Call`, `Recorder.Report`: A call, and what has come of it.
* `Recorder.perform`: A call that is made alone.
* `Recorder.stampsOf`, `Recorder.lastBlock`: The stamps and their last block.
* `Recorder.Unnoticed`: A block that no wait has noticed.
* `Recorder.Follows`: A recorder and the reports of its calls.
* `Recorder.Shows`, `Recorder.Serves`: What can be read, and how waits end.

## Theorems

* `Recorder.unnoticed_recorded`, `Recorder.not_unnoticed_ok`,
  `Recorder.unnoticed_error`: One more report.
* `Recorder.Follows.record`: A stamp can always be recorded.
* `Recorder.Follows.wait_unnoticed`, `Recorder.Follows.wait_noticed`: A wait with
  something new to notice, and one without.
* `Recorder.Follows.perform_follows`, `Recorder.play_follows`: One more call, and a
  sequence of calls.
* `Recorder.Follows.shows`, `Recorder.Follows.serves`: What follows.
* `Recorder.sequence_exact`: Every sequence of calls at a new recorder.
-/

namespace HostLayer

namespace Recorder

open BinarySemaphore (Resting alone asleep Ends StaysAt)
open Stats (words differences ofSamples?)

/-- A call at a recorder. -/
inductive Call
  /-- The thread `c` records a stamp. -/
  | record (c : Caller) (clock : Clock) (ns : UInt64)
  /-- The thread `c` waits for a full buffer, with the steps of the wait made at
  the times `times`. -/
  | wait (c : Caller) (deadline : Timer) (times : Nat → Clock)

/-- What has come of a call. -/
inductive Report
  | recorded (ns : UInt64)
  | waited (answer : Answer Unit)

/-- The stamp that has been recorded. -/
def Report.stamp? : Report → Option UInt64
  | .recorded ns => some ns
  | .waited _ => none

/-- A full buffer has been noticed. -/
def Report.noticed : Report → Bool
  | .waited (.ok ()) => true
  | _ => false

/-- The steps of a wait that sleeps once. -/
def waitSteps : Nat := 7

/-- The recorder after a call that is made alone, and what has come of the call.
    There is nothing after a wait that goes on sleeping. -/
def perform (r : Recorder) : Call → Option (Recorder × List Report)
  | .record c clock ns =>
      match runSteps (step c clock ns) steps r .looking [] with
      | ⟨r', .inr (), _⟩ => some (r', [.recorded ns])
      | ⟨_, .inl _, _⟩ => none
  | .wait c deadline times =>
      match runSteps (alone c (.timedWait deadline) times) waitSteps (r.filledMark, 0)
        .entering [] with
      | ⟨s, .inr answer, _⟩ => some (r.withMark s.1, [.waited answer])
      | ⟨_, .inl _, _⟩ => none

/-- All stamps that have been recorded. -/
def stampsOf (es : List Report) : List UInt64 := es.filterMap Report.stamp?

/-- The reports up to the last full buffer that has been noticed. -/
def upToNotice (es : List Report) : List Report := es.rdropWhile fun e => !e.noticed

/-- A block of stamps has been completed since a wait last succeeded, or since the
    beginning. -/
def Unnoticed (count : Nat) (es : List Report) : Prop :=
  (stampsOf (upToNotice es)).length / count < (stampsOf es).length / count

instance (count : Nat) (es : List Report) : Decidable (Unnoticed count es) :=
  inferInstanceAs (Decidable (_ < _))

/-- The last complete block of stamps, or zeros if there is none. -/
def lastBlock (count : Nat) (stamps : List UInt64) : List UInt64 :=
  if stamps.length / count = 0 then List.replicate count 0
  else (stamps.drop ((stamps.length / count - 1) * count)).take count

theorem stampsOf_recorded (es : List Report) (ns : UInt64) :
    stampsOf (es ++ [.recorded ns]) = stampsOf es ++ [ns] := by
  unfold stampsOf
  rw [List.filterMap_append]
  rfl

theorem stampsOf_waited (es : List Report) (a : Answer Unit) :
    stampsOf (es ++ [.waited a]) = stampsOf es := by
  unfold stampsOf
  rw [List.filterMap_append]
  exact List.append_nil _

-- Nothing that is noticed is still to come.
theorem length_upToNotice_le (es : List Report) :
    (stampsOf (upToNotice es)).length ≤ (stampsOf es).length :=
  ((List.rdropWhile_prefix _ _).sublist.filterMap Report.stamp?).length_le

/-- One more stamp. -/
theorem unnoticed_recorded (count : Nat) (hc : 0 < count) (es : List Report) (ns : UInt64) :
    Unnoticed count (es ++ [.recorded ns]) ↔
      Unnoticed count es ∨ (stampsOf es).length % count + 1 = count := by
  have hsame : upToNotice (es ++ [.recorded ns]) = upToNotice es :=
    List.rdropWhile_concat_pos _ _ _ rfl
  have hle : (stampsOf (upToNotice es)).length / count ≤ (stampsOf es).length / count :=
    Nat.div_le_div_right (length_upToNotice_le es)
  unfold Unnoticed
  rw [hsame, stampsOf_recorded, List.length_append, List.length_singleton]
  rcases succ_div_mod count (stampsOf es).length hc with ⟨hfull, hdiv, _⟩ | ⟨hroom, hdiv, _⟩
  · rw [hdiv]
    exact iff_of_true (Nat.lt_succ_of_le hle) (Or.inr hfull)
  · rw [hdiv, or_iff_left (Nat.ne_of_lt hroom)]

/-- A wait that succeeds notices all blocks. -/
theorem not_unnoticed_ok (count : Nat) (es : List Report) :
    ¬Unnoticed count (es ++ [.waited (.ok ())]) := by
  have hall : upToNotice (es ++ [.waited (.ok ())]) = es ++ [.waited (.ok ())] :=
    List.rdropWhile_concat_neg _ _ _ Bool.false_ne_true
  unfold Unnoticed
  rw [hall]
  exact Nat.lt_irrefl _

/-- A wait that fails notices none. -/
theorem unnoticed_error (count : Nat) (es : List Report) (e : Error) :
    Unnoticed count (es ++ [.waited (.error e)]) ↔ Unnoticed count es := by
  have hsame : upToNotice (es ++ [.waited (.error e)]) = upToNotice es :=
    List.rdropWhile_concat_pos _ _ _ rfl
  unfold Unnoticed
  rw [hsame, stampsOf_waited]

/-- A recorder whose calls have come to these reports, one after the other. -/
structure Follows (source : ClockSource) (count : Nat) (es : List Report) (r : Recorder) :
    Prop where
  recorded : Recorded count (stampsOf es) r
  clock_eq : r.filledMark.condition.clock = source
  /-- The mark is set if somebody who waits would find something new. -/
  flag_iff : r.filledMark.flag = true ↔ Unnoticed count es

-- The mark has nothing to do with the stamps.
theorem Recorded.withMark {count : Nat} {stamps : List UInt64} {r : Recorder}
    (h : Recorded count stamps r) (s : BinarySemaphore) (hplain : s.mutex.Plain)
    (hfree : s.mutex.holder = none) : Recorded count stamps (r.withMark s) :=
  ⟨h.positive, h.limit, h.count_eq, h.word_eq, h.last_eq, hplain, hfree, h.held, h.blank⟩

variable {source : ClockSource} {count : Nat} {es : List Report} {r r' : Recorder}

theorem perform_of_concludes {c : Caller} {d : Timer} {times : Nat → Clock}
    {t : BinarySemaphore × Nat} {a : Answer Unit} {n k : Nat}
    (h : Concludes (alone c (.timedWait d) times) asleep (r.filledMark, 0) .entering t a n k)
    (hn : n ≤ waitSteps) :
    perform r (.wait c d times) = some (r.withMark t.1, [.waited a]) := by
  rcases h.run with ⟨more, hrun⟩
  simp only [perform, hrun waitSteps [] hn]

theorem perform_of_staysAt {c : Caller} {d : Timer} {times : Nat → Clock}
    {q : BinarySemaphore.Place} {k : Nat}
    (h : StaysAt c (.timedWait d) times r.filledMark 0 .entering q k) (hk : k < waitSteps) :
    perform r (.wait c d times) = none := by
  have hout := h waitSteps [] hk
  simp only [perform]
  split
  next heq =>
    rw [heq] at hout
    exact absurd hout (by simp only [reduceCtorEq, not_false_eq_true])
  next => rfl

namespace Follows

theorem of_create (h : create source count = .ok r) : Follows source count [] r := by
  have hrecorded := create_recorded source count r h
  rcases Recording.create_recorder source count r h with ⟨_, _, _, _, _, rfl⟩
  exact ⟨hrecorded, rfl, iff_of_false Bool.false_ne_true (Nat.lt_irrefl _)⟩

theorem resting (h : Follows source count es r) :
    Resting source r.filledMark.flag r.filledMark :=
  ⟨h.recorded.plain, h.recorded.free, h.clock_eq, rfl⟩

/-- A stamp can always be recorded. -/
theorem record (h : Follows source count es r) (c : Caller) (clock : Clock) (ns : UInt64) :
    ∃ r', perform r (.record c clock ns) = some (r', [.recorded ns]) ∧
      Follows source count (es ++ [.recorded ns]) r' := by
  rcases h.recorded.record_run c clock ns with ⟨hout, hrecorded, hclock, hflag⟩
  refine ⟨r.record c clock ns, ?_, ?_, hclock.trans h.clock_eq, ?_⟩
  · unfold Recorder.record
    simp only [perform]
    split
    next heq => rw [heq]
    next heq =>
      rw [heq] at hout
      exact absurd hout (by simp only [reduceCtorEq, not_false_eq_true])
  · rw [stampsOf_recorded]
    exact hrecorded
  · rw [hflag, Bool.or_eq_true, h.flag_iff, beq_iff_eq,
      unnoticed_recorded count h.recorded.positive]

-- A wait leaves the mark clear, and so there must not be anything to notice.
theorem after_wait (h : Follows source count es r) {c : Caller} {d : Timer}
    {times : Nat → Clock} {a : Answer Unit} {n k : Nat}
    (hends : Ends source false c (.timedWait d) times r.filledMark 0 .entering a n k)
    (hn : n ≤ waitSteps) (hnone : ¬Unnoticed count (es ++ [.waited a])) :
    ∃ t, Concludes (alone c (.timedWait d) times) asleep (r.filledMark, 0) .entering t a n k ∧
      perform r (.wait c d times) = some (r.withMark t.1, [.waited a]) ∧
      Follows source count (es ++ [.waited a]) (r.withMark t.1) := by
  rcases hends with ⟨t, ht, hrun⟩
  refine ⟨t, hrun, perform_of_concludes hrun hn, ?_, ht.clock_eq, ?_⟩
  · rw [stampsOf_waited]
    exact h.recorded.withMark t.1 ht.plain ht.free
  · exact iff_of_false (fun hset => absurd (ht.flag_eq.symm.trans hset) Bool.false_ne_true) hnone

/-- A block that nobody has noticed makes a wait succeed without sleep. -/
theorem wait_unnoticed (h : Follows source count es r) (hnew : Unnoticed count es) (c : Caller)
    (d : Timer) (times : Nat → Clock) :
    ∃ t, Concludes (alone c (.timedWait d) times) asleep (r.filledMark, 0) .entering t (.ok ())
        3 0 ∧
      perform r (.wait c d times) = some (r.withMark t.1, [.waited (.ok ())]) ∧
      Follows source count (es ++ [.waited (.ok ())]) (r.withMark t.1) := by
  have hresting := h.resting
  rw [h.flag_iff.mpr hnew] at hresting
  exact h.after_wait (hresting.wait_full d c times) (by decide) (not_unnoticed_ok count es)

/-- Otherwise its deadline decides how a wait fails. -/
theorem wait_noticed (h : Follows source count es r) (hold : ¬Unnoticed count es) (c : Caller)
    (d : Timer) (times : Nat → Clock) :
    (∃ r' e, perform r (.wait c d times) = some (r', [.waited (.error e)]) ∧
      Follows source count (es ++ [.waited (.error e)]) r' ∧
      ((e = .invalidParam ∧ ¬d.Normalized) ∨
        (e = .timeout ∧ d.Normalized ∧
          (HostTime.ofTimer d).reached ((times 3).nanos source) = true))) ∨
    (perform r (.wait c d times) = none ∧ d.Normalized ∧
      (HostTime.ofTimer d).reached ((times 3).nanos source) = false) := by
  have hresting := h.resting
  rw [Bool.eq_false_iff.mpr (fun hset => hold (h.flag_iff.mp hset))] at hresting
  have hfail : ∀ e, ¬Unnoticed count (es ++ [.waited (.error e)]) :=
    fun e hnew => hold ((unnoticed_error count es e).mp hnew)
  by_cases hd : d.Normalized
  · cases hlate : (HostTime.ofTimer d).reached ((times 3).nanos source) with
    | true =>
        rcases h.after_wait (hresting.wait_late d c times hd hlate) (by decide) (hfail _) with
          ⟨t, _, hp, hfollows⟩
        exact Or.inl ⟨_, .timeout, hp, hfollows, Or.inr ⟨rfl, hd, rfl⟩⟩
    | false =>
        exact Or.inr ⟨perform_of_staysAt (hresting.wait_sleeps d c times hd hlate) (by decide),
          hd, rfl⟩
  · rcases h.after_wait (hresting.wait_rejected d c times hd) (by decide) (hfail _) with
      ⟨t, _, hp, hfollows⟩
    exact Or.inl ⟨_, .invalidParam, hp, hfollows, Or.inl ⟨rfl, hd⟩⟩

/-- One more call, and what is seen of it. -/
theorem perform_follows (h : Follows source count es r) (call : Call) (fs : List Report)
    (hp : perform r call = some (r', fs)) :
    ∃ f, fs = [f] ∧ Follows source count (es ++ [f]) r' ∧
      ∀ a, f = .waited a → (a = .ok () ↔ Unnoticed count es) := by
  cases call with
  | record c clock ns =>
      rcases h.record c clock ns with ⟨r₁, hp₁, hfollows⟩
      rw [hp₁, Option.some.injEq, Prod.mk.injEq] at hp
      rcases hp with ⟨rfl, rfl⟩
      exact ⟨_, rfl, hfollows, fun a ha => absurd ha (by simp only [reduceCtorEq,
        not_false_eq_true])⟩
  | wait c d times =>
      by_cases hnew : Unnoticed count es
      · rcases h.wait_unnoticed hnew c d times with ⟨t, _, hp₁, hfollows⟩
        rw [hp₁, Option.some.injEq, Prod.mk.injEq] at hp
        rcases hp with ⟨rfl, rfl⟩
        refine ⟨_, rfl, hfollows, fun a ha => iff_of_true ?_ hnew⟩
        rw [Report.waited.injEq] at ha
        exact ha.symm
      · rcases h.wait_noticed hnew c d times with ⟨r₁, e, hp₁, hfollows, _⟩ | ⟨hp₁, _⟩
        · rw [hp₁, Option.some.injEq, Prod.mk.injEq] at hp
          rcases hp with ⟨rfl, rfl⟩
          refine ⟨_, rfl, hfollows, fun a ha => iff_of_false ?_ hnew⟩
          rw [Report.waited.injEq] at ha
          rw [← ha]
          simp only [reduceCtorEq, not_false_eq_true]
        · rw [hp₁] at hp
          exact absurd hp (by simp only [reduceCtorEq, not_false_eq_true])

end Follows

-- The induction is along the calls, with the reports of those before them.
theorem play_follows (calls : List Call) :
    ∀ (past : List Report) (r r' : Recorder) (es : List Report), Follows source count past r →
      Schedule.play perform r calls = some (r', es) →
      Follows source count (past ++ es) r' ∧
        ∀ before a after, es = before ++ .waited a :: after →
          (a = .ok () ↔ Unnoticed count (past ++ before)) := by
  induction calls with
  | nil =>
      intro past r r' es h hplay
      simp only [Schedule.play, Option.some.injEq, Prod.mk.injEq] at hplay
      rcases hplay with ⟨rfl, rfl⟩
      rw [List.append_nil]
      refine ⟨h, fun before a after hes => ?_⟩
      exact absurd hes.symm (List.append_ne_nil_of_right_ne_nil before (List.cons_ne_nil _ after))
  | cons call rest ih =>
      intro past r r' es h hplay
      rcases (Schedule.play_cons_iff perform r r' call rest es).mp hplay with
        ⟨r₁, first, later, hfirst, hrest, rfl⟩
      rcases h.perform_follows call first hfirst with ⟨f, rfl, hfollows, hseen⟩
      rcases ih (past ++ [f]) r₁ r' later hfollows hrest with ⟨hend, hlater⟩
      rw [List.append_assoc] at hend
      refine ⟨hend, fun before a after hes => ?_⟩
      cases before with
      | nil =>
          rw [List.append_nil]
          exact hseen a (List.cons.inj hes).1
      | cons g before =>
          rcases List.cons.inj hes with ⟨rfl, htail⟩
          have hiff := hlater before a after htail
          rw [List.append_assoc] at hiff
          exact hiff

/-- What can be read from a recorder is what the list of stamps says. -/
structure Shows (count : Nat) (stamps : List UInt64) (r : Recorder) : Prop where
  last_eq : r.last = stamps.getLast?.getD 0
  length_block : (lastBlock count stamps).length = count
  analyze_eq : r.analyze = ofSamples? (words (lastBlock count stamps))
  length_steps : (differences (lastBlock count stamps)).length = count - 1
  analyzeSteps_eq : r.analyzeSteps = ofSamples? (words (differences (lastBlock count stamps)))

/-- What becomes of the next call is what the reports of the calls before say. -/
structure Serves (source : ClockSource) (count : Nat) (es : List Report) (r : Recorder) :
    Prop where
  /-- A stamp can be recorded. -/
  records : ∀ c clock ns, ∃ r', perform r (.record c clock ns) = some (r', [.recorded ns])
  /-- A block that is new is noticed in three steps, none of them asleep. -/
  succeeds : Unnoticed count es → ∀ c d times, ∃ t,
    Concludes (alone c (.timedWait d) times) asleep (r.filledMark, 0) .entering t (.ok ()) 3 0 ∧
      perform r (.wait c d times) = some (r.withMark t.1, [.waited (.ok ())])
  /-- Without one a wait fails, or sleeps as long as its deadline has not passed. -/
  fails : ¬Unnoticed count es → ∀ c d times,
    (∃ r' e, perform r (.wait c d times) = some (r', [.waited (.error e)]) ∧
      ((e = .invalidParam ∧ ¬d.Normalized) ∨
        (e = .timeout ∧ d.Normalized ∧
          (HostTime.ofTimer d).reached ((times 3).nanos source) = true))) ∨
    (perform r (.wait c d times) = none ∧ d.Normalized ∧
      (HostTime.ofTimer d).reached ((times 3).nanos source) = false)

-- The buffer that is looked at holds the last block.
theorem Recorded.filled_lastBlock {stamps : List UInt64} (h : Recorded count stamps r) :
    r.filled = lastBlock count stamps := by
  unfold lastBlock
  by_cases hq : stamps.length / count = 0
  · rw [if_pos hq]
    exact h.filled_blank ((Nat.div_eq_zero_iff_lt h.positive).mp hq)
  · rw [if_neg hq]
    exact h.filled_block (stamps.length / count - 1)
      (Nat.sub_add_cancel (Nat.pos_of_ne_zero hq)).symm

theorem Follows.shows (h : Follows source count es r) : Shows count (stampsOf es) r := by
  have hfilled := h.recorded.filled_lastBlock
  have hlength : (lastBlock count (stampsOf es)).length = count := by
    rw [← hfilled, length_filled, h.recorded.count_eq]
  refine ⟨h.recorded.last_eq, hlength, ?_, ?_, ?_⟩
  · rw [← hfilled]
    rfl
  · rw [Stats.length_differences, hlength]
  · rw [analyzeSteps_eq_words, hfilled]

theorem Follows.serves (h : Follows source count es r) : Serves source count es r := by
  refine ⟨fun c clock ns => ?_, fun hnew c d times => ?_, fun hold c d times => ?_⟩
  · rcases h.record c clock ns with ⟨r', hp, _⟩
    exact ⟨r', hp⟩
  · rcases h.wait_unnoticed hnew c d times with ⟨t, hrun, hp, _⟩
    exact ⟨t, hrun, hp⟩
  · rcases h.wait_noticed hold c d times with ⟨r', e, hp, _, hwhy⟩ | hsleep
    · exact Or.inl ⟨_, e, hp, hwhy⟩
    · exact Or.inr hsleep

/-- A recorder in sequence is a list of stamps.

    After every sequence of calls at a new recorder, of whatever threads and with
    whatever deadlines, the last stamp is the last one of the list, and what is
    analyzed is its last complete block, or a block of zeros if there is none. Of
    all waits in the sequence just those have succeeded before which a block had been
    completed since a wait last succeeded, and the next wait succeeds, without sleep,
    under the same condition. -/
theorem sequence_exact (source : ClockSource) (count : Nat) (hcount : CountInRange count) :
    ∃ r, create source count = .ok r ∧ ∀ calls r' es,
      Schedule.play perform r calls = some (r', es) →
      Shows count (stampsOf es) r' ∧
      (∀ before a after, es = before ++ .waited a :: after →
        (a = .ok () ↔ Unnoticed count before)) ∧
      Serves source count es r' := by
  rcases create_ok source count hcount with ⟨r, hr⟩
  refine ⟨r, hr, fun calls r' es hplay => ?_⟩
  rcases play_follows calls [] r r' es (Follows.of_create hr) hplay with ⟨hend, hwaits⟩
  rw [List.nil_append] at hend
  exact ⟨hend.shows, hwaits, hend.serves⟩

-- Two blocks are completed before a wait that succeeds, and the next wait does not.
-- The fifth stamp is the last one, and belongs to a block that is not complete; a
-- wait for that would sleep.
theorem sequence_exact_two_blocks :
    let c : Caller := ⟨0, .other, 0, 0⟩
    let now : Clock := ⟨7, 7⟩
    let calls : List Call := [.record c now 5, .record c now 9, .record c now 8,
      .record c now 1, .wait c Timer.zero (fun _ => now), .wait c Timer.zero (fun _ => now),
      .record c now 7]
    CountInRange 2 ∧ ∃ r r' es, create .monotonic 2 = .ok r ∧
      Schedule.play perform r calls = some (r', es) ∧
      es.map Report.noticed = [false, false, false, false, true, false, false] ∧
      r'.last = 7 ∧ r'.analyze = ofSamples? [8, 1] ∧ r'.analyzeSteps = ofSamples? [word64 - 7] ∧
      perform r' (.wait c ⟨1, 0⟩ (fun _ => now)) = none := by
  intro c now calls
  have hcount : CountInRange 2 := by decide
  rcases sequence_exact .monotonic 2 hcount with ⟨r, hr, hall⟩
  have hrun : (create .monotonic 2).toOption.bind (fun r =>
      (Schedule.play perform r calls).map fun q =>
        (q.2.map Report.noticed, stampsOf q.2, decide (Unnoticed 2 q.2)))
      = some ([false, false, false, false, true, false, false], [5, 9, 8, 1, 7], false) := by
    decide +kernel
  rw [hr] at hrun
  rcases Option.map_eq_some_iff.mp hrun with ⟨⟨r', es⟩, hplay, hes⟩
  simp only [Prod.mk.injEq] at hes
  rcases hes with ⟨hnoticed, hstamps, hold⟩
  rcases hall calls r' es hplay with ⟨hshows, _, hserves⟩
  rw [hstamps] at hshows
  refine ⟨hcount, r, r', es, hr, hplay, hnoticed, hshows.last_eq, hshows.analyze_eq,
    hshows.analyzeSteps_eq, ?_⟩
  rcases hserves.fails (of_decide_eq_false hold) c ⟨1, 0⟩ (fun _ => now) with
    ⟨_, _, _, ⟨_, hd⟩ | ⟨_, _, hlate⟩⟩ | ⟨hsleeps, _⟩
  · exact absurd (by decide) hd
  · exact absurd hlate (by decide)
  · exact hsleeps

end Recorder

end HostLayer
