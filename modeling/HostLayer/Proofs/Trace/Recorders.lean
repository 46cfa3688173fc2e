import HostLayer.Proofs.Trace.Complete
import Mathlib.Data.Set.Subsingleton

/-!
# Recorders Together

How many threads may record with one recorder, if buffers are to be complete.

One thread that records does everything in order: it stores a stamp before it
claims another slot. Two are too many, whatever the size of the buffers. The
first one claims a slot and is stopped before its store. The second one fills up
the buffer, announces it, and comes back from waiting for it; the slot still has
what was in it before. `rivals_incomplete` builds this run from pieces in which
one thread moves alone.

So the number of threads decides (`filled_complete_iff`), unless they agree among
themselves on the order in which they close buffers, which the recorder leaves
to them.

## Main definitions

* `Recording.Truthful`: A success means that buffers are complete.
* `Recording.Only`: Only some threads record.
* `Recording.Stalled`: One stamp is owed while a buffer is being filled.

## Theorems

* `Recording.inOrder_truthful`: A run in order is truthful.
* `Recording.inOrder_of_subsingleton`: One thread does everything in order.
* `Recording.record_run`, `Recording.announce_run`, `Recording.wait_run`: What a
  thread does alone.
* `Recording.rivals_incomplete`: Two threads.
* `Recording.filled_complete_iff`: How many threads may record.
-/

namespace HostLayer

namespace Recording

/-- Whoever comes back with success has been told of a buffer, and a buffer that
    has been announced is complete until the next one is full. -/
def Truthful (s : Recording) (es : List Seen) : Prop :=
  (∃ t, .returned t (.ok ()) ∈ es) → s.announced ≠ [] ∧
    ∀ k ∈ s.announced, s.claims.length < (k + 2) * s.recorder.count → s.Complete k

/-- A run in order is truthful. -/
theorem inOrder_truthful (source : ClockSource) (count : Nat) (r : Recorder)
    (h : Recorder.create source count = .ok r) (acts : List Act) (s : Recording) (es : List Seen)
    (horder : (start r).InOrder acts) (hrun : Schedule.play step (start r) acts = some (s, es)) :
    s.Truthful es := by
  rcases play_kept acts (start r) s es (start_kept source r h) horder hrun with ⟨hk, _, hback⟩
  refine fun ht => ⟨hback ht, fun k hmem hopen => hk.complete k hmem ?_⟩
  rw [← hk.count_eq]
  exact hopen

/-- Only threads of a set record stamps. -/
def Only (recorders : Set ThreadId) (s : Recording) : Prop :=
  ∀ t ns n p, s.role t = .recording ns n p → t ∈ recorders

theorem happened_only {recorders : Set ThreadId} {s s' : Recording} {a : Act} {es : List Seen}
    (h : s.Happened a s' es) (ha : ∀ t ns, a = .record t ns → t ∈ recorders)
    (hs : s.Only recorders) : s'.Only recorders := by
  have hput : ∀ (r : Recorder) (t : ThreadId) (ρ : Role) (claims : List Claim)
      (announced : List Nat), ((∃ ns n p, ρ = .recording ns n p) → t ∈ recorders) →
      Only recorders ⟨r, Function.update s.role t ρ, claims, announced⟩ := by
    intro r t ρ claims announced hρ
    refine (Function.forall_update_iff s.role fun u ρ' => ∀ ns n p, ρ' = .recording ns n p →
      u ∈ recorders).mpr ⟨fun ns n p hp => hρ ⟨ns, n, p, hp⟩, fun u _ => hs u⟩
  cases h with
  | record t ns hidle => exact hput _ t _ _ _ (fun _ => ha t ns rfl)
  | claim c clock ns n b i hrole hbi => exact hput _ _ _ _ _ (fun _ => hs _ _ _ _ hrole)
  | store c clock ns n b i hrole => exact hput _ _ _ _ _ (fun _ => hs _ _ _ _ hrole)
  | announce c clock ns n m q hrole => exact hput _ _ _ _ _ (fun _ => hs _ _ _ _ hrole)
  | quiet _ t r ρ _ hr hgoes =>
      refine hput r t ρ _ _ ?_
      rintro ⟨ns, n, p, rfl⟩
      rcases hgoes.recorded with ⟨q, hq⟩
      exact hs t ns n q hq
  | host _ r hr => exact hs

/-- One thread alone that records does everything in order. -/
theorem inOrder_of_subsingleton {recorders : Set ThreadId} (hone : recorders.Subsingleton) :
    ∀ (acts : List Act) (s : Recording), s.Only recorders →
      (∀ t ns, .record t ns ∈ acts → t ∈ recorders) → s.InOrder acts := by
  intro acts
  induction acts with
  | nil => exact fun _ _ _ => trivial
  | cons a rest ih =>
      intro s hs hacts
      refine ⟨fun c clock ns n _ hc _ t => ?_, fun s' es hstep => ?_⟩
      · rw [Option.eq_none_iff_forall_ne_some]
        intro m hm
        rcases hrole : s.role t with _ | ⟨ns', m', p⟩ | ⟨d, p⟩
        · exact absurd hm (by simp only [hrole, Role.owed?, reduceCtorEq, not_false_eq_true])
        · have htc : t = c.thread := hone (hs t ns' m' p hrole) (hs c.thread ns n _ hc)
          rw [htc, hc] at hm
          exact absurd hm (by simp only [Role.owed?, reduceCtorEq, not_false_eq_true])
        · exact absurd hm (by simp only [hrole, Role.owed?, reduceCtorEq, not_false_eq_true])
      · exact ih s' (happened_only (step_happened s s' a es hstep)
          (fun t ns ha => hacts t ns (ha ▸ List.mem_cons_self)) hs)
          (fun t ns h => hacts t ns (List.mem_cons_of_mem a h))

/-- Only the two threads record. -/
def Between (t u : ThreadId) (acts : List Act) : Prop :=
  ∀ v ns, .record v ns ∈ acts → v = t ∨ v = u

theorem Between.append {t u : ThreadId} {acts acts' : List Act} (h : Between t u acts)
    (h' : Between t u acts') : Between t u (acts ++ acts') := by
  intro v ns hmem
  rcases List.mem_append.mp hmem with hmem | hmem
  · exact h v ns hmem
  · exact h' v ns hmem

theorem between_moves (t u : ThreadId) (n : Nat) (c : Caller) (clock : Clock) :
    Between t u (List.replicate n (.move c clock)) := by
  intro v ns hmem
  exact absurd (List.eq_of_mem_replicate hmem) (by simp only [reduceCtorEq, not_false_eq_true])

theorem between_cons {t u : ThreadId} {a : Act} {acts : List Act}
    (ha : ∀ v ns, a = .record v ns → v = t ∨ v = u) (h : Between t u acts) :
    Between t u (a :: acts) := by
  intro v ns hmem
  rcases List.mem_cons.mp hmem with heq | hmem
  · exact ha v ns heq.symm
  · exact h v ns hmem

/-- Some steps of a thread while nobody else moves. -/
def alone (u : ThreadId) (n : Nat) : List Act :=
  List.replicate n (.move ⟨u, .other, 0, 0⟩ ⟨0, 0⟩)

/-- A thread records a stamp. -/
theorem record_run (s : Recording) (u : ThreadId) (ns : UInt64) (b i : Nat)
    (hidle : s.role u = .idle) (hbi : Recorder.unpack s.recorder.word = (b, i)) :
    ∃ s', Schedule.play step s (.record u ns :: alone u 4) = some (s', []) ∧
      s'.role u = (if i + 1 = s.recorder.count then
        .recording ns s.claims.length (.waking .entering) else .idle) ∧
      s'.claims = s.claims ++ [⟨b, i, ns⟩] ∧ s'.announced = s.announced ∧
      s'.recorder.count = s.recorder.count ∧
      s'.recorder.word = Recorder.advance s.recorder.count s.recorder.word ∧
      s'.recorder.slot = (s.recorder.setSlot b i ns).slot ∧
      s'.recorder.filledMark = s.recorder.filledMark := by
  refine ⟨⟨{ s.recorder.setSlot b i ns with
      word := Recorder.advance s.recorder.count s.recorder.word
      last := ns }, Function.update s.role u (if i + 1 = s.recorder.count then
        .recording ns s.claims.length (.waking .entering) else .idle), s.claims ++ [⟨b, i, ns⟩],
    s.announced⟩, ?_, Function.update_self _ _ _, rfl, rfl, rfl, rfl, rfl, rfl⟩
  by_cases hi : i + 1 = s.recorder.count
  · simp only [alone, Schedule.play, List.replicate, step, hidle, put, Function.update_self,
      Recorder.step, if_true, booked, Function.update_idem, hbi, Recorder.setSlot, hi,
      List.append_nil]
  · simp only [alone, Schedule.play, List.replicate, step, hidle, put, Function.update_self,
      Recorder.step, if_true, booked, Function.update_idem, hbi, Recorder.setSlot, hi, if_false,
      List.append_nil]

/-- A thread that has filled a buffer announces it. -/
theorem announce_run (s : Recording) (u : ThreadId) (ns : UInt64) (n : Nat)
    (hrole : s.role u = .recording ns n (.waking .entering))
    (hplain : s.recorder.filledMark.mutex.Plain)
    (hfree : s.recorder.filledMark.mutex.holder = none) :
    ∃ mark s', Schedule.play step s (alone u 4) = some (s', []) ∧
      s'.role u = .idle ∧ s'.claims = s.claims ∧
      s'.announced = s.announced ++ [n / s.recorder.count] ∧
      s'.recorder = s.recorder.withMark mark ∧
      mark.mutex.Plain ∧ mark.mutex.holder = none ∧ mark.flag = true := by
  refine ⟨⟨(s.recorder.filledMark.mutex.taken u).freed, s.recorder.filledMark.condition.signal,
    true⟩, ⟨_, Function.update s.role u .idle, s.claims, s.announced ++ [n / s.recorder.count]⟩, ?_,
    Function.update_self _ _ _, rfl, rfl, rfl, (hplain.taken u).freed, rfl, rfl⟩
  have hunlock := (hplain.taken u).unlock_holder u rfl
  simp only [alone, Schedule.play, List.replicate, step, hrole, put, Function.update_self,
    Recorder.step, BinarySemaphore.step, hplain.lock_free _ hfree, Step.lift, Recorder.withMark,
    hunlock, booked, Function.update_idem, List.append_nil]

/-- A thread takes the token. -/
theorem wait_run (s : Recording) (u : ThreadId) (d : Timer) (hidle : s.role u = .idle)
    (hplain : s.recorder.filledMark.mutex.Plain)
    (hfree : s.recorder.filledMark.mutex.holder = none)
    (hflag : s.recorder.filledMark.flag = true) :
    ∃ mark s', Schedule.play step s (.wait u d :: alone u 3)
        = some (s', [.returned u (.ok ())]) ∧
      s'.claims = s.claims ∧ s'.announced = s.announced ∧
      s'.recorder = s.recorder.withMark mark := by
  refine ⟨⟨(s.recorder.filledMark.mutex.taken u).freed, s.recorder.filledMark.condition, false⟩,
    ⟨_, Function.update s.role u .idle, s.claims, s.announced⟩, ?_, rfl, rfl, rfl⟩
  have hunlock := (hplain.taken u).unlock_holder u rfl
  simp only [alone, Schedule.play, List.replicate, step, hidle, put, Function.update_self,
    BinarySemaphore.step, hplain.lock_free _ hfree, hflag, if_true, Recorder.withMark, hunlock,
    Function.update_idem, List.append_nil, List.nil_append]

/-- The first slot has been claimed for a stamp that is not stored. The thread `u`
    makes no call, and `i` slots of the first buffer are claimed. -/
structure Stalled (count i : Nat) (u : ThreadId) (s : Recording) : Prop where
  count_eq : s.recorder.count = count
  word_eq : Recorder.unpack s.recorder.word = (0, i)
  length_eq : s.claims.length = i
  first : s.claims[0]? = some ⟨0, 0, 1⟩
  empty : s.recorder.slot 0 0 = 0
  idle : s.role u = .idle
  unannounced : s.announced = []
  plain : s.recorder.filledMark.mutex.Plain
  free : s.recorder.filledMark.mutex.holder = none

theorem stalled_start (source : ClockSource) (count : Nat) (r : Recorder)
    (h : Recorder.create source count = .ok r) (t u : ThreadId) (htu : u ≠ t) :
    ∃ s, Schedule.play step (start r) (.record t 1 :: alone t 2) = some (s, []) ∧
      Stalled count 1 u s := by
  rcases create_recorder source count r h with ⟨htwo, hlimit, m, hplain, hfree, rfl⟩
  have hword : Recorder.unpack (Recorder.pack 0 0) = (0, 0) :=
    Recorder.unpack_pack 0 0 (by decide) (by decide)
  refine ⟨⟨⟨count, fun _ _ => 0, Recorder.advance count (Recorder.pack 0 0), 0,
      ⟨m, Condition.create source, false⟩⟩,
    Function.update (fun _ => .idle) t (.recording 1 0 (.storing 0 0)), [⟨0, 0, 1⟩], []⟩, ?_,
    rfl, ?_, rfl, rfl, rfl, ?_, rfl, hplain, hfree⟩
  · simp only [alone, Schedule.play, List.replicate, step, start, put, Function.update_self,
      Recorder.step, if_true, booked, hword, Function.update_idem, List.append_nil,
      List.nil_append, List.length_nil]
  · have hnext := Recorder.unpack_advance count 0 (Recorder.pack 0 0)
      (Nat.lt_of_lt_of_le (by decide) htwo) hlimit
      (by rw [hword, Nat.zero_div, Nat.zero_mod, Nat.zero_mod])
    rw [Nat.zero_add, Nat.div_eq_of_lt htwo, Nat.mod_eq_of_lt htwo] at hnext
    exact hnext
  · change Function.update (fun _ => Role.idle) t _ u = _
    rw [Function.update_of_ne htu]

-- A stamp of the second thread goes into another slot than the first one.
theorem Stalled.slot_empty {count i : Nat} {u : ThreadId} {s s' : Recording}
    (hs : Stalled count i u s) (hpos : 0 < i)
    (hslot : s'.recorder.slot = (s.recorder.setSlot 0 i 0).slot) : s'.recorder.slot 0 0 = 0 := by
  rw [hslot]
  exact (if_neg (fun h => Nat.ne_of_lt hpos h.2)).trans hs.empty

theorem Stalled.first_append {count i : Nat} {u : ThreadId} {s : Recording}
    (hs : Stalled count i u s) (hpos : 0 < i) (c : Claim) :
    (s.claims ++ [c])[0]? = some ⟨0, 0, 1⟩ := by
  rw [List.getElem?_append_left (by rw [hs.length_eq]; exact hpos)]
  exact hs.first

theorem Stalled.word_advance {count i : Nat} {u : ThreadId} {s : Recording}
    (hs : Stalled count i u s) (hlimit : count < word32) (hi : i < count) :
    Recorder.unpack (Recorder.advance count s.recorder.word)
      = ((i + 1) / count % 2, (i + 1) % count) := by
  refine Recorder.unpack_advance count i s.recorder.word (Nat.zero_lt_of_lt hi) hlimit ?_
  rw [hs.word_eq, Nat.div_eq_of_lt hi, Nat.mod_eq_of_lt hi, Nat.zero_mod]

theorem stalled_step (count i : Nat) (u : ThreadId) (s : Recording) (hs : Stalled count i u s)
    (hlimit : count < word32) (hpos : 0 < i) (hi : i + 1 < count) :
    ∃ s', Schedule.play step s (.record u 0 :: alone u 4) = some (s', []) ∧
      Stalled count (i + 1) u s' := by
  rcases record_run s u 0 0 i hs.idle hs.word_eq with
    ⟨s', hrun, hrole, hclaims, hann, hcount, hword, hslot, hmark⟩
  rw [hs.count_eq, if_neg (Nat.ne_of_lt hi)] at hrole
  refine ⟨s', hrun, hcount.trans hs.count_eq, ?_, ?_, ?_, hs.slot_empty hpos hslot, hrole,
    hann.trans hs.unannounced, hmark ▸ hs.plain, hmark ▸ hs.free⟩
  · rw [hword, hs.count_eq, hs.word_advance hlimit (Nat.lt_of_succ_lt hi), Nat.div_eq_of_lt hi,
      Nat.mod_eq_of_lt hi, Nat.zero_mod]
  · rw [hclaims, List.length_append, hs.length_eq]
    rfl
  · rw [hclaims]
    exact hs.first_append hpos _

/-- While the first thread does not store its stamp the second one can go on,
    with as many stamps as the buffer has room for. -/
theorem stalled_run (source : ClockSource) (count : Nat) (r : Recorder)
    (h : Recorder.create source count = .ok r) (t u : ThreadId) (htu : u ≠ t) :
    ∀ i, i + 1 < count → ∃ acts s, Between t u acts ∧
      Schedule.play step (start r) acts = some (s, []) ∧ Stalled count (i + 1) u s := by
  intro i
  induction i with
  | zero =>
      intro _
      rcases stalled_start source count r h t u htu with ⟨s, hrun, hs⟩
      exact ⟨_, s, between_cons (fun v ns hv => Or.inl (Act.record.inj hv).1.symm)
        (between_moves t u 2 _ _), hrun, hs⟩
  | succ i ih =>
      intro hi
      rcases ih (by omega) with ⟨acts, s, hby, hrun, hs⟩
      rcases stalled_step count (i + 1) u s hs (create_recorder source count r h).2.1
        (Nat.succ_pos i) hi with ⟨s', hrun', hs'⟩
      exact ⟨_, s', hby.append (between_cons (fun v ns hv => Or.inr (Act.record.inj hv).1.symm)
        (between_moves t u 4 _ _)), Schedule.play_append step _ _ _ _ _ _ _ hrun hrun', hs'⟩

/-- Two threads that record are enough for a buffer that is announced and lacks a
    stamp: the one that takes the last slot does not wait for the other one. -/
theorem rivals_incomplete (source : ClockSource) (count : Nat) (r : Recorder)
    (h : Recorder.create source count = .ok r) (t u : ThreadId) (htu : u ≠ t) :
    ∃ acts s es, Between t u acts ∧ Schedule.play step (start r) acts = some (s, es) ∧
      .returned u (.ok ()) ∈ es ∧ s.announced = [0] ∧ s.claims.length = count ∧
      s.recorder.count = count ∧ ¬s.Complete 0 := by
  rcases create_recorder source count r h with ⟨htwo, hlimit, _⟩
  rcases stalled_run source count r h t u htu (count - 2) (by omega) with ⟨acts, s, hby, hrun, hs⟩
  have hlast : count - 2 + 1 + 1 = count := by omega
  have hpos : 0 < count - 2 + 1 := Nat.succ_pos _
  -- The second thread takes the last slot, announces the buffer, and looks at it.
  rcases record_run s u 0 0 (count - 2 + 1) hs.idle hs.word_eq with
    ⟨s₁, hrun₁, hrole, hclaims₁, hann₁, hcount₁, hword, hslot, hmark⟩
  rw [hs.count_eq, if_pos hlast, hs.length_eq] at hrole
  rcases announce_run s₁ u 0 _ hrole (hmark ▸ hs.plain) (hmark ▸ hs.free) with
    ⟨mark₂, s₂, hrun₂, hidle, hclaims₂, hann₂, hr₂, hplain, hfree, hflag⟩
  rcases wait_run s₂ u ⟨0, 0⟩ hidle (hr₂ ▸ hplain) (hr₂ ▸ hfree) (hr₂ ▸ hflag) with
    ⟨mark₃, s₃, hrun₃, hclaims₃, hann₃, hr₃⟩
  have hr : s₃.recorder = s₁.recorder.withMark mark₃ := by
    rw [hr₃, hr₂]
    rfl
  have hcount : s₃.recorder.count = count := by
    rw [hr]
    exact hcount₁.trans hs.count_eq
  have hclaims : s₃.claims = s.claims ++ [⟨0, count - 2 + 1, 0⟩] := by
    rw [hclaims₃, hclaims₂, hclaims₁]
  refine ⟨_, s₃, _, ((hby.append (between_cons (fun v ns hv => Or.inr (Act.record.inj hv).1.symm)
      (between_moves t u 4 _ _))).append (between_moves t u 4 _ _)).append
      (between_cons (fun v ns hv => absurd hv (by simp only [reduceCtorEq, not_false_eq_true]))
        (between_moves t u 3 _ _)),
    Schedule.play_append step _ _ _ _ _ _ _ (Schedule.play_append step _ _ _ _ _ _ _
      (Schedule.play_append step _ _ _ _ _ _ _ hrun hrun₁) hrun₂) hrun₃,
    List.mem_append_right _ (List.mem_singleton_self _), ?_, ?_, hcount, fun hcomplete => ?_⟩
  · rw [hann₃, hann₂, hann₁, hs.unannounced, hcount₁, hs.count_eq, Nat.div_eq_of_lt (by omega)]
    rfl
  · rw [hclaims, List.length_append, hs.length_eq]
    exact hlast
  · -- The first slot is as it was, and has been claimed for another stamp.
    have hword' : Recorder.unpack s₃.recorder.word = (1, 0) := by
      rw [hr]
      change Recorder.unpack s₁.recorder.word = _
      rw [hword, hs.count_eq, hs.word_advance hlimit (by omega), hlast,
        Nat.div_self (by omega), Nat.mod_self]
    have hfound : s₃.recorder.filled[0]? = some 0 := by
      unfold Recorder.filled
      rw [hword', List.getElem?_map, List.getElem?_range (by omega), hr]
      exact congrArg some (hs.slot_empty hpos hslot)
    have hclaimed : ((s₃.fill 0).map Claim.stamp)[0]? = some 1 := by
      unfold fill
      rw [Nat.zero_mul, List.drop_zero, List.getElem?_map, List.getElem?_take, if_pos (by omega),
        hclaims, hs.first_append hpos]
      rfl
    rw [hcomplete.stamps, hclaimed, Option.some.injEq] at hfound
    exact absurd hfound (by decide)

/-- Buffers are complete when they are announced exactly if no two threads record.
    With more of them they still are in every run in which the last slot of a
    buffer is claimed only when no stamp is owed. -/
theorem filled_complete_iff (source : ClockSource) (count : Nat) (r : Recorder)
    (h : Recorder.create source count = .ok r) (recorders : Set ThreadId) :
    ((∀ acts s es, (∀ t ns, .record t ns ∈ acts → t ∈ recorders) →
      Schedule.play step (start r) acts = some (s, es) → s.Truthful es) ↔
        recorders.Subsingleton) ∧
    ∀ acts s es, (start r).InOrder acts → Schedule.play step (start r) acts = some (s, es) →
      s.Truthful es := by
  refine ⟨⟨fun htruth => ?_, fun hone acts s es hby hrun => ?_⟩, inOrder_truthful source count r h⟩
  · intro t ht u hu
    by_cases htu : u = t
    · exact htu.symm
    · rcases rivals_incomplete source count r h t u htu with
        ⟨acts, s, es, hby, hrun, hback, hann, hlen, hcount, hno⟩
      have hin : ∀ v ns, .record v ns ∈ acts → v ∈ recorders := by
        intro v ns hmem
        rcases hby v ns hmem with rfl | rfl
        · exact ht
        · exact hu
      have htwo := (create_recorder source count r h).1
      refine absurd ((htruth acts s es hin hrun ⟨u, hback⟩).2 0 ?_ ?_) hno
      · rw [hann]
        exact List.mem_singleton_self 0
      · rw [hlen, hcount]
        omega
  · exact inOrder_truthful source count r h acts s es
      (inOrder_of_subsingleton hone acts (start r) (fun t ns n p hrole => absurd hrole (by
        simp only [start, reduceCtorEq, not_false_eq_true])) hby) hrun

/-- A thread waits, another one records three stamps, and the first two are
    found. -/
theorem filled_complete_alone : ∃ r s es, Recorder.create .monotonic 2 = .ok r ∧
    Schedule.play step (start r)
      (.wait 2 ⟨9, 0⟩ :: alone 2 3 ++ .record 1 7 :: alone 1 4 ++ .record 1 8 :: alone 1 8 ++
        .record 1 9 :: alone 1 4 ++ alone 2 4) = some (s, es) ∧
    .returned 2 (.ok ()) ∈ es ∧ s.recorder.filled = [7, 8] ∧ s.Complete 0 := by
  have hrun : ∃ r s es, Recorder.create .monotonic 2 = .ok r ∧
      Schedule.play step (start r)
        (.wait 2 ⟨9, 0⟩ :: alone 2 3 ++ .record 1 7 :: alone 1 4 ++ .record 1 8 :: alone 1 8 ++
          .record 1 9 :: alone 1 4 ++ alone 2 4) = some (s, es) ∧
      .returned 2 (.ok ()) ∈ es ∧ s.recorder.filled = [7, 8] ∧ s.announced = [0] ∧
      s.claims.length = 3 ∧ s.recorder.count = 2 :=
    ⟨_, _, _, rfl, rfl, List.mem_singleton_self _, rfl, rfl, rfl, rfl⟩
  rcases hrun with ⟨r, s, es, hcreate, hplay, hback, hfilled, hann, hlen, hcount⟩
  refine ⟨r, s, es, hcreate, hplay, hback, hfilled, ?_⟩
  have htruth := (filled_complete_iff .monotonic 2 r hcreate {1}).1.mpr Set.subsingleton_singleton
  refine (htruth _ s es ?_ hplay ⟨2, hback⟩).2 0 (by rw [hann]; decide)
    (by rw [hlen, hcount]; decide)
  intro t ns hmem
  have hstamp : (t = 1 ∧ ns = 7) ∨ (t = 1 ∧ ns = 8) ∨ (t = 1 ∧ ns = 9) := by
    simpa [alone, List.replicate] using hmem
  rcases hstamp with ⟨rfl, _⟩ | ⟨rfl, _⟩ | ⟨rfl, _⟩ <;> rfl

/-- One thread claims the first slot, another one fills the buffer and announces
    it, and a third one that is told so finds a slot that has never been
    written. -/
theorem two_recorders_incomplete : ∃ r s es, Recorder.create .monotonic 2 = .ok r ∧
    Schedule.play step (start r)
      (.record 1 7 :: alone 1 2 ++ .record 2 8 :: alone 2 8 ++ .wait 3 ⟨9, 0⟩ :: alone 3 3)
      = some (s, es) ∧
    .returned 3 (.ok ()) ∈ es ∧ s.announced = [0] ∧ s.claims = [⟨0, 0, 7⟩, ⟨0, 1, 8⟩] ∧
    s.recorder.filled = [0, 8] ∧ ¬s.Truthful es := by
  have hrun : ∃ r s es, Recorder.create .monotonic 2 = .ok r ∧
      Schedule.play step (start r)
        (.record 1 7 :: alone 1 2 ++ .record 2 8 :: alone 2 8 ++ .wait 3 ⟨9, 0⟩ :: alone 3 3)
        = some (s, es) ∧
      .returned 3 (.ok ()) ∈ es ∧ s.announced = [0] ∧ s.claims = [⟨0, 0, 7⟩, ⟨0, 1, 8⟩] ∧
      s.recorder.filled = [0, 8] ∧ s.recorder.count = 2 :=
    ⟨_, _, _, rfl, rfl, List.mem_singleton_self _, rfl, rfl, rfl, rfl⟩
  rcases hrun with ⟨r, s, es, hcreate, hplay, hback, hann, hclaims, hfilled, hcount⟩
  refine ⟨r, s, es, hcreate, hplay, hback, hann, hclaims, hfilled, fun htruth => ?_⟩
  have hcomplete := (htruth ⟨3, hback⟩).2 0 (by rw [hann]; decide)
    (by rw [hclaims, hcount]; decide)
  have hstamps := hcomplete.stamps
  rw [hfilled, fill, hclaims, hcount] at hstamps
  exact absurd hstamps (by decide)

end Recording

end HostLayer
