import HostLayer.Proofs.Slot.Linear
import HostLayer.Proofs.Slot.Progress
import HostLayer.Proofs.Slot.Wakeup
import HostLayer.Trace.Recorder

/-!
# Cancelled Sleepers

What becomes of a slot when a sleeper is told to end.

The sleeper wakes, waits for the mutex as every sleeper does, and then ends with
it in its hands, because nothing on its stack gives the mutex up. The mutex is
not robust, so nobody is told, and from then on nobody can take it. The token
is left alone all the while, and what returns until then returns as it should:
the harm is that nothing returns any more.

`cancelled_sleepers` says both halves for every state of every run. A slot is as
good as ever up to the moment in which the first thread that was told to end has
ended, and lost from that moment on; and a thread that was told to end brings
the moment about unless another one has done so before.

## Theorems

* `BinarySemaphore.Crowd.happened_lost`, `BinarySemaphore.Crowd.play_lost`: A
  slot that is lost stays so, and nothing returns.
* `BinarySemaphore.Crowd.cancel_flag`, `BinarySemaphore.Crowd.ending_flag`: The
  token is left alone.
* `BinarySemaphore.Crowd.post_returns`: A slot that is not lost takes tokens.
* `BinarySemaphore.Crowd.ending_ends`: Whoever is told to end can do so.
* `BinarySemaphore.Crowd.cancelled_waiter_keeps_mark`: The same at the mark of a
  recorder.
* `BinarySemaphore.Crowd.cancelled_sleepers`: All of this, for every run.
* `BinarySemaphore.Crowd.cancelled_sleeper_keeps_mutex`: A run in which it
  happens.
-/

namespace HostLayer

namespace BinarySemaphore

namespace Crowd

-- A thread that has ended has the mutex.
theorem Sane.ended_holder {s : Crowd} (hs : s.Sane) (u : ThreadId)
    (h : s.activity u = .ended) : s.slot.mutex.holder = some u := by
  rw [hs.holder_iff, h]
  rfl

/-- Where a thread has ended, no act gives the mutex back, and nothing
    returns. -/
theorem happened_lost (s s' : Crowd) (a : Act) (es : List Report) (u : ThreadId) (hs : s.Sane)
    (hu : s.activity u = .ended) (hh : s.Happened a s' es) :
    s'.activity u = .ended ∧ ∀ t use r, .returned t use r ∉ es := by
  have hheld := hs.ended_holder u hu
  -- Whoever does something has not ended, so it is somebody else.
  have hkept : ∀ (slot : BinarySemaphore) (t : ThreadId) (a : Activity),
      s.activity t ≠ .ended → (s.put slot t a).activity u = .ended := by
    intro slot t a ht
    rw [put_other s slot t u a (fun he => ht (he ▸ hu))]
    exact hu
  have hnone : ∀ t use r, .returned t use r ∉ ([] : List Report) :=
    fun _ _ _ => List.not_mem_nil
  have hone : ∀ e : Report, (∀ t use r, e ≠ .returned t use r) →
      ∀ t use r, .returned t use r ∉ [e] :=
    fun e he t use r hmem => he t use r (List.mem_singleton.mp hmem).symm
  cases hh with
  | call t use hidle =>
      refine ⟨hkept _ t _ ?_, hone _ (fun _ _ _ => by
        simp only [ne_eq, reduceCtorEq, not_false_eq_true])⟩
      rw [hidle]
      simp only [ne_eq, reduceCtorEq, not_false_eq_true]
  | move c use p p' slot hcall hm =>
      refine ⟨hkept _ c.thread _ ?_, hnone⟩
      rw [hcall]
      simp only [ne_eq, reduceCtorEq, not_false_eq_true]
  | leave c use r hcall =>
      -- Whoever is about to return holds the mutex.
      have hin : s.slot.mutex.holder = some c.thread := by
        rw [hs.holder_iff, hcall]
        rfl
      rw [hheld, Option.some.injEq] at hin
      rw [← hin, hu] at hcall
      exact absurd hcall (by simp only [reduceCtorEq, not_false_eq_true])
  | abandon c use hend hfree =>
      -- Nobody else gets as far, since that takes the mutex.
      rw [hheld] at hfree
      exact absurd hfree (Option.some_ne_none u)
  | wake t => exact ⟨hu, hnone⟩
  | arrange order _ => exact ⟨hu, hnone⟩
  | pass clock =>
      exact ⟨hu, hone _ (fun _ _ _ => by simp only [ne_eq, reduceCtorEq, not_false_eq_true])⟩
  | cancel t use hcall =>
      refine ⟨hkept _ t _ ?_, hone _ (fun _ _ _ => by
        simp only [ne_eq, reduceCtorEq, not_false_eq_true])⟩
      rw [hcall]
      simp only [ne_eq, reduceCtorEq, not_false_eq_true]

/-- A slot that is lost stays so along every run, and nothing returns. -/
theorem play_lost (u : ThreadId) (acts : List Act) (s s' : Crowd) (es : List Report)
    (hs : s.Sane) (hu : s.activity u = .ended)
    (h : Schedule.play step s acts = some (s', es)) :
    s'.slot.mutex.holder = some u ∧ ∀ t use r, .returned t use r ∉ es := by
  have hrun := Schedule.play_simulates step (fun _ => True)
    (fun s (_ : Unit) => s.Sane ∧ s.activity u = .ended)
    (fun _ es _ => ∀ t use r, .returned t use r ∉ es) (fun _ _ _ _ => List.not_mem_nil)
    (fun _ _ _ es fs h1 h2 t use r hmem => by
      rcases List.mem_append.mp hmem with hmem | hmem
      · exact h1 t use r hmem
      · exact h2 t use r hmem)
    (fun s _ a s' es hR _ hstep => by
      have hh := step_happened s s' a es hR.1 hstep
      have hlost := happened_lost s s' a es u hR.1 hR.2 hh
      exact ⟨(), hlost.2, happened_sane s s' a es hR.1 hh, hlost.1⟩)
    acts s s' () es ⟨hs, hu⟩ (fun _ _ => trivial) h
  rcases hrun with ⟨_, hnone, hsane, hended⟩
  exact ⟨hsane.ended_holder u hended, hnone⟩

/-- Telling a thread to end leaves the token alone. -/
theorem cancel_flag (s s' : Crowd) (t : ThreadId) (es : List Report) (hs : s.Sane)
    (h : s.step (.cancel t) = some (s', es)) : s'.slot.flag = s.slot.flag := by
  cases step_happened s s' _ es hs h with
  | cancel _ _ _ => rfl

/-- So does a thread on its way out. -/
theorem ending_flag (s s' : Crowd) (c : Caller) (use : Use) (p : Place) (es : List Report)
    (hs : s.Sane) (hend : s.activity c.thread = .ending use p)
    (h : s.step (.move c) = some (s', es)) : s'.slot.flag = s.slot.flag := by
  cases step_happened s s' _ es hs h with
  | move _ use' p' _ _ hcall _ =>
      rw [hend] at hcall
      exact absurd hcall (by simp only [reduceCtorEq, not_false_eq_true])
  | leave _ use' r hcall =>
      rw [hend] at hcall
      exact absurd hcall (by simp only [reduceCtorEq, not_false_eq_true])
  | abandon _ _ _ _ => rfl

/-- While no thread has ended, a thread that puts a token in can come back. -/
theorem post_returns (s : Crowd) (t : ThreadId) (hs : s.Sane)
    (hnone : ∀ u, s.activity u ≠ .ended) (hidle : s.activity t = .idle) :
    ∃ acts s' es, Schedule.play step s (.call t .post :: acts) = some (s', es) ∧
      .returned t .post (.ok ()) ∈ es := by
  -- The call is made, whoever holds the mutex gives it up, and the rest is the
  -- thread's own.
  have hcall : s.step (.call t .post)
      = some (s.put s.slot t (.calling .post .entering), [.called t .post]) := by
    simp only [step, hidle]
  have hs₁ := step_sane s _ _ _ hs hcall
  have hself := put_self s s.slot t (.calling .post .entering)
  have hnone₁ : ∀ u, (s.put s.slot t (.calling .post .entering)).activity u ≠ .ended := by
    intro u
    by_cases hu : u = t
    · rw [hu, hself]
      simp only [ne_eq, reduceCtorEq, not_false_eq_true]
    · rw [put_other s s.slot t u _ hu]
      exact hnone u
  rcases free_mutex _ hs₁ hnone₁ with ⟨acts, s₂, es, hrun, hs₂, hfree, hrest⟩
  have hwaits : s₂.activity t = .calling .post .entering :=
    (hrest t (by rw [hself]; rfl)).trans hself
  rcases post_completes s₂ ⟨t, .other, 0, 0⟩ hs₂ hwaits hfree with ⟨s', hpost⟩
  refine ⟨_, s', _,
    Schedule.play_cons hcall (Schedule.play_append step _ _ _ _ _ _ _ hrun hpost), ?_⟩
  exact List.mem_append_right _ (List.mem_append_right _ (List.mem_singleton.mpr rfl))

/-- While no thread has ended, one that was told to can do so. -/
theorem ending_ends (s : Crowd) (t : ThreadId) (use : Use) (p : Place) (hs : s.Sane)
    (hnone : ∀ u, s.activity u ≠ .ended) (hend : s.activity t = .ending use p) :
    ∃ acts s' es, Schedule.play step s acts = some (s', es) ∧ s'.activity t = .ended := by
  rcases free_mutex s hs hnone with ⟨acts, s₁, es, hrun, hs₁, hfree, hrest⟩
  have hstill : s₁.activity t = .ending use p :=
    (hrest t (by rw [hend]; rfl)).trans hend
  have hlast : Schedule.play step s₁ [.move ⟨t, .other, 0, 0⟩]
      = some (s₁.put (abandoned s₁.slot t) t .ended, []) :=
    Schedule.play_cons (abandon_step s₁ ⟨t, .other, 0, 0⟩ use p hs₁ hstill hfree) rfl
  exact ⟨_, _, _, Schedule.play_append step _ _ _ _ _ _ _ hrun hlast, put_self s₁ _ t .ended⟩

-- Every run at a new slot keeps it sane.
theorem play_sane (source : ClockSource) (attr : SyncAttr) (slot : BinarySemaphore)
    (hcreate : create source attr = .ok slot) (clock : Clock) (acts : List Act) (s : Crowd)
    (es : List Report) (h : Schedule.play step (start slot clock) acts = some (s, es)) : s.Sane :=
  Schedule.play_keeps step (fun _ => True) (fun _ => True) Sane
    (fun s a s' es hI _ _ hstep => step_sane s s' a es hI hstep) acts (start slot clock) s es
    (start_sane slot clock source attr hcreate) (fun _ _ => trivial) (fun _ _ => trivial) h

-- The mark of a recorder is a new slot.
theorem create_filledMark (source : ClockSource) (count : Nat) (r : Recorder)
    (h : Recorder.create source count = .ok r) :
    create source SyncAttr.plain = .ok r.filledMark := by
  unfold Recorder.create at h
  by_cases hc : Recorder.CountInRange count
  · rw [if_pos hc] at h
    rcases hm : create source SyncAttr.plain with e | mark
    · rw [hm] at h
      exact absurd h (by simp only [bind, Except.bind, reduceCtorEq, not_false_eq_true])
    · rw [hm] at h
      rw [← Except.ok.inj h]
  · rw [if_neg hc] at h
    exact absurd h (by simp only [reduceCtorEq, not_false_eq_true])

/-- A task that has been told to end while it waited for a full buffer, and has ended,
    leaves nobody a way to the mark of the recorder: whoever wants to wait for a full
    buffer is stuck, and so is whoever has filled one and is about to say so. -/
theorem cancelled_waiter_keeps_mark (source : ClockSource) (count : Nat) (r : Recorder)
    (hcreate : Recorder.create source count = .ok r) (clock : Clock) (acts : List Act)
    (s : Crowd) (es : List Report)
    (h : Schedule.play step (start r.filledMark clock) acts = some (s, es)) (u : ThreadId)
    (hu : s.activity u = .ended) (later : List Act) (s' : Crowd) (es' : List Report)
    (hlater : Schedule.play step s later = some (s', es')) (r' : Recorder)
    (hmark : r'.filledMark = s'.slot) (c : Caller) (now : Clock) :
    (∀ use, BinarySemaphore.step c use now r'.filledMark .entering = .waits) ∧
    ∀ ns, r'.step c now ns (.waking .entering) = .waits := by
  have hplay := Schedule.play_append step _ _ _ _ _ _ _ h hlater
  have hmade := create_filledMark source count r hcreate
  have hs := play_sane source SyncAttr.plain r.filledMark hmade clock acts s es h
  have hs' := play_sane source SyncAttr.plain r.filledMark hmade clock _ s' _ hplay
  have hheld := (play_lost u later s s' es' hs hu hlater).1
  have hstuck : ∀ use, BinarySemaphore.step c use now r'.filledMark .entering = .waits := by
    intro use
    rw [hmark]
    simp only [BinarySemaphore.step, hs'.plain.lock_held c u hheld]
  exact ⟨hstuck, fun ns => by rw [Recorder.step, hstuck .post]; rfl⟩

/-- What becomes of a slot whose sleepers are told to end, in every state that a
    run of any crowd leads to.

    Telling a thread to end and its way out leave the token alone, and what has
    been seen is what an atomic slot shows, with deadlines as the host counts
    them. Whoever has ended holds the mutex, so it is held by a thread that has
    ended exactly if there is one. A thread that puts a token in can come back
    exactly if there is none; if there is one, nothing returns any more,
    whatever happens, and the mutex stays where it is. And whoever is told to
    end can bring this about, if nobody has before. -/
theorem cancelled_sleepers (source : ClockSource) (attr : SyncAttr) (slot : BinarySemaphore)
    (hcreate : create source attr = .ok slot) (clock : Clock) (acts : List Act) (s : Crowd)
    (es : List Report) (h : Schedule.play step (start slot clock) acts = some (s, es)) :
    (∀ t s' es', s.step (.cancel t) = some (s', es') → s'.slot.flag = s.slot.flag) ∧
    (∀ c use p s' es', s.activity c.thread = .ending use p →
      s.step (.move c) = some (s', es') → s'.slot.flag = s.slot.flag) ∧
    (∃ a, Explains (fun d now => (HostTime.ofTimer d).reached (now.nanos source) = true)
      (Atomic.start clock) es a ∧ a.token = s.slot.flag) ∧
    ((∃ t, s.activity t = .ended ∧ s.slot.mutex.holder = some t) ↔
      ∃ t, s.activity t = .ended) ∧
    (∀ t, s.activity t = .idle →
      ((∃ later s' es', Schedule.play step s (.call t .post :: later) = some (s', es') ∧
        .returned t .post (.ok ()) ∈ es') ↔ ¬∃ u, s.activity u = .ended)) ∧
    (∀ u, s.activity u = .ended → ∀ later s' es', Schedule.play step s later = some (s', es') →
      s'.slot.mutex.holder = some u ∧ ∀ t use r, .returned t use r ∉ es') ∧
    (∀ t use p, s.activity t = .ending use p → (¬∃ u, s.activity u = .ended) →
      ∃ later s' es', Schedule.play step s later = some (s', es') ∧ s'.activity t = .ended) := by
  have hs := play_sane source attr slot hcreate clock acts s es h
  have hatomic := play_mirrors source (fun _ => True)
    (fun d now => (HostTime.ofTimer d).reached (now.nanos source) = true) (fun _ _ _ _ hr => hr)
    attr slot hcreate clock acts (fun act _ => by cases act with
      | call t use => cases use <;> trivial
      | _ => trivial) s es h
  refine ⟨fun t s' es' => cancel_flag s s' t es' hs,
    fun c use p s' es' => ending_flag s s' c use p es' hs, ?_, ?_, fun t hidle => ?_,
    fun u hu later s' es' hrun => play_lost u later s s' es' hs hu hrun,
    fun t use p hend hnone => ?_⟩
  · rcases hatomic with ⟨a, hexplains, hmirrors⟩
    exact ⟨a, hexplains, hmirrors.token_eq⟩
  · constructor
    · rintro ⟨t, ht, _⟩
      exact ⟨t, ht⟩
    · rintro ⟨t, ht⟩
      exact ⟨t, ht, hs.ended_holder t ht⟩
  · constructor
    · rintro ⟨later, s', es', hrun, hmem⟩ ⟨u, hu⟩
      exact (play_lost u _ s s' es' hs hu hrun).2 t .post (.ok ()) hmem
    · intro hnone
      exact post_returns s t hs (fun u hu => hnone ⟨u, hu⟩) hidle
  · exact ending_ends s t use p hs (fun u hu => hnone ⟨u, hu⟩) hend

-- While the first thread only sleeps, the second one can put a token in.
theorem cancelled_sleepers_asleep : ∃ slot s es, create .monotonic SyncAttr.plain = .ok slot ∧
    Schedule.play step (start slot ⟨0, 0⟩)
      [.call 1 .wait, .move ⟨1, .other, 0, 0⟩, .move ⟨1, .other, 0, 0⟩, .move ⟨1, .other, 0, 0⟩]
      = some (s, es) ∧
    s.slot.condition.sleepers = [1] ∧ s.activity 2 = .idle ∧
    ∃ later s' es', Schedule.play step s (.call 2 .post :: later) = some (s', es') ∧
      .returned 2 .post (.ok ()) ∈ es' := by
  have hrun : ∃ slot s es, create .monotonic SyncAttr.plain = .ok slot ∧
      Schedule.play step (start slot ⟨0, 0⟩)
        [.call 1 .wait, .move ⟨1, .other, 0, 0⟩, .move ⟨1, .other, 0, 0⟩, .move ⟨1, .other, 0, 0⟩]
        = some (s, es) ∧ s.slot.condition.sleepers = [1] ∧ s.activity 2 = .idle :=
    ⟨_, _, _, rfl, rfl, rfl, rfl⟩
  rcases hrun with ⟨slot, s, es, hcreate, hplay, hsleepers, hidle⟩
  have hunharmed := (play_alert slot ⟨0, 0⟩ .monotonic SyncAttr.plain hcreate _
    (by simp [Act.Uncancelled]) s es hplay).2.2
  have hall := cancelled_sleepers .monotonic SyncAttr.plain slot hcreate ⟨0, 0⟩ _ s es hplay
  refine ⟨slot, s, es, hcreate, hplay, hsleepers, hidle, (hall.2.2.2.2.1 2 hidle).mpr ?_⟩
  rintro ⟨u, hu⟩
  exact (hunharmed u).2 hu

/-- A thread that sleeps at a new slot is told to end, and ends with the mutex:
    no token can be put in any more, although nobody uses the slot. -/
theorem cancelled_sleeper_keeps_mutex : ∃ slot s es,
    create .monotonic SyncAttr.plain = .ok slot ∧
    Schedule.play step (start slot ⟨0, 0⟩)
      [.call 1 .wait, .move ⟨1, .other, 0, 0⟩, .move ⟨1, .other, 0, 0⟩, .move ⟨1, .other, 0, 0⟩,
        .cancel 1, .move ⟨1, .other, 0, 0⟩] = some (s, es) ∧
    s.activity 1 = .ended ∧ s.slot.mutex.holder = some 1 ∧ s.activity 2 = .idle ∧
    ∀ use later s' es', Schedule.play step s (.call 2 use :: later) = some (s', es') →
      ∀ r, .returned 2 use r ∉ es' := by
  have hrun : ∃ slot s es, create .monotonic SyncAttr.plain = .ok slot ∧
      Schedule.play step (start slot ⟨0, 0⟩)
        [.call 1 .wait, .move ⟨1, .other, 0, 0⟩, .move ⟨1, .other, 0, 0⟩, .move ⟨1, .other, 0, 0⟩,
          .cancel 1, .move ⟨1, .other, 0, 0⟩] = some (s, es) ∧
      s.activity 1 = .ended ∧ s.slot.mutex.holder = some 1 ∧ s.activity 2 = .idle :=
    ⟨_, _, _, rfl, rfl, rfl, rfl, rfl⟩
  rcases hrun with ⟨slot, s, es, hcreate, hplay, hended, hheld, hidle⟩
  have hs := play_sane .monotonic SyncAttr.plain slot hcreate ⟨0, 0⟩ _ s es hplay
  exact ⟨slot, s, es, hcreate, hplay, hended, hheld, hidle, fun use later s' es' h r =>
    (play_lost 1 _ s s' es' hs hended h).2 2 use r⟩

end Crowd

end BinarySemaphore

end HostLayer
