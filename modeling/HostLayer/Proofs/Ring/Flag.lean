import HostLayer.Proofs.Ring.Bounds
import HostLayer.Proofs.Ring.Wakeup

/-!
# Ring Flag

The flag of a ring says whether a message is there.

Whoever asks whether a message is there looks at the flag alone, without the
lock. So the flag is kept beside the indices, and every change under the lock has
to see to both of them. Inserting sets it whatever it was, because a ring into
which a message has been put is never empty. Removing clears it when the last
message goes and also when there is none. In between, when some messages are left,
removing does not touch it and relies on what it says; this is where an invariant
is needed. `Signals` is that invariant, and it says nothing of a memory in which an
index is out of range.

Such an index comes from a stranger. Nobody notices it until somebody takes the
lock, and up to then the flag says what it said before. `unnoticed` follows a run
and tells whether it is so at its end; the flag is right whenever it is not, and
right again after the next change.

## Main definitions

* `Ring.Signals`: The flag says whether the indices differ.
* `Ring.Flagged`: The flag says whether a message is there.
* `Ring.Sight.changed`: Somebody has been under the lock.
* `Ring.Traffic.unnoticed`: A stranger's index that nobody has come upon.

## Theorems

* `Ring.enter_signals`: The lock is taken.
* `Ring.insert_signals`, `Ring.remove_signals`: The two changes.
* `Ring.Signals.flagged`: What the flag says where the indices are in range.
* `Ring.callStep_signals`, `Ring.Traffic.step_signals`: A step of a call, and any
  act.
* `Ring.Traffic.step_unnoticed`, `Ring.Traffic.play_unnoticed`: When an index is
  out of range.
* `Ring.flag_exact`: The flag along every run.
-/

namespace HostLayer

namespace Ring

theorem hasMessage_congr (m m' : Memory) (h : m.AgreeOn m' flagAt (flagAt + 1)) :
    hasMessage m' = hasMessage m := by
  unfold hasMessage
  rw [h flagAt (Nat.le_refl flagAt) (Nat.lt_succ_self flagAt)]

-- A store beside the flag.
theorem hasMessage_apply (m : Memory) (s : Store) (h : s.Misses flagAt (flagAt + 1)) :
    hasMessage (s.apply m) = hasMessage m :=
  hasMessage_congr m _ (Memory.apply_agreeOn m s _ _ h)

theorem hasMessage_setFlag (m : Memory) (b : Bool) : hasMessage ((setFlag b).apply m) = b := by
  have hbyte : ((setFlag b).apply m).byte flagAt = if b then 1 else 0 := by
    have hone : 0 < (littleEndian 1 (if b then 1 else 0)).length := by
      rw [length_littleEndian]
      exact Nat.zero_lt_one
    have hfirst : ((setFlag b).apply m).byte (flagAt + 0)
        = (littleEndian 1 (if b then 1 else 0))[0] := Memory.store_byte_of_mem m _ hone
    exact hfirst.trans (by cases b <;> rfl)
  unfold hasMessage
  rw [hbyte]
  cases b <;> rfl

/-- The flag says whether the indices differ, as long as both are in range. -/
def Signals (g : Geometry) (m : Memory) : Prop :=
  ∀ read write, indices? g m = some (read, write) → (hasMessage m = true ↔ read ≠ write)

-- Memories with the same flag and the same indices.
theorem Signals.congr {g : Geometry} {m m' : Memory} (h : Signals g m)
    (hflag : hasMessage m' = hasMessage m) (hindices : indices? g m' = indices? g m) :
    Signals g m' := by
  intro read write hi
  rw [hflag]
  exact h read write (hindices.symm.trans hi)

/-- Whoever has the lock finds a flag that fits the indices to work with. -/
theorem enter_signals (g : Geometry) (m : Memory) (h : Signals g m) :
    hasMessage (enter g m).2.2.1 = true ↔ (enter g m).1 ≠ (enter g m).2.1 := by
  have hrepair : Signals g (repair m).1 := by
    refine h.congr ?_ (repair_same g m).1
    rcases repair_cases m with hm | hm
    · rw [hm]
    · rw [hm]
      exact hasMessage_apply m (.number lockAt 4 0) (Or.inl (show lockAt + 4 ≤ flagAt by decide))
  unfold enter
  rcases hm : repair m with ⟨mr, notes⟩
  rw [hm] at hrepair
  cases hi : indices? g mr with
  | none =>
      -- The flag is cleared together with the indices.
      have hclear : hasMessage (mr.storeAll resetStores) = false := hasMessage_setFlag _ false
      simp only [hi, hclear, Bool.false_eq_true, ne_eq, not_true_eq_false]
  | some i =>
      simp only [hi]
      exact hrepair i.1 i.2 hi

/-- After a message has been inserted the indices differ and the flag is set,
    whatever both were before. -/
theorem insert_signals (g : Geometry) (hg : g.InRange) (m : Memory) (msg : List UInt8) :
    Signals g (insert g m msg).1 := by
  rcases enter_cases g hg m with ⟨read, write, m', notes, he, hi, _, _⟩
  rcases (indices?_eq_some_iff g m' read write).mp hi with ⟨_, _, hr, hw⟩
  have hresult : (insert g m msg).1 = m'.storeAll (insertStores g read write msg) := by
    rw [insert_eq, he]
  have hset : hasMessage (insert g m msg).1 = true := by
    rw [hresult, insertStores, Memory.storeAll_append, Memory.storeAll_cons, Memory.storeAll_cons,
      Memory.storeAll_nil]
    exact hasMessage_setFlag _ true
  intro read' write' hi'
  rw [hresult, indices?_insertStores g hg m' read write msg hi, Option.some.injEq,
    Prod.mk.injEq] at hi'
  rcases hi' with ⟨rfl, rfl⟩
  refine iff_of_true hset ?_
  by_cases hf : full g read write = true
  · have heq : g.next write = read := by simpa only [full, beq_iff_eq] using hf
    rw [if_pos hf, heq]
    exact next_ne g read hg.1 hr
  · have hne : g.next write ≠ read := by simpa only [full, beq_iff_eq] using hf
    rw [if_neg hf]
    exact hne.symm

/-- After a message has been removed, or none was there, the flag is cleared just
    if the indices are equal. It is not touched where a message is left. -/
theorem remove_signals (g : Geometry) (hg : g.InRange) (m : Memory) (h : Signals g m) :
    Signals g (remove g m).1 := by
  have henter := enter_signals g m h
  rcases enter_cases g hg m with ⟨read, write, m', notes, he, hi, _, _⟩
  have hresult : (remove g m).1 = m'.storeAll (removeStores g read write) := by
    rw [remove_eq, he]
  rw [he] at henter
  intro read' write' hi'
  rw [hresult, indices?_removeStores g hg m' read write hi, Option.some.injEq,
    Prod.mk.injEq] at hi'
  rcases hi' with ⟨rfl, rfl⟩
  rw [hresult, removeStores]
  by_cases hrw : read = write
  · rw [if_pos hrw, if_pos hrw, Memory.storeAll_cons, Memory.storeAll_nil, hasMessage_setFlag]
    exact iff_of_false Bool.false_ne_true (fun hne => hne hrw)
  · rw [if_neg hrw, if_neg hrw, Memory.storeAll_cons]
    by_cases hlast : g.next read = write
    · rw [if_pos hlast, Memory.storeAll_cons, Memory.storeAll_nil, hasMessage_setFlag]
      exact iff_of_false Bool.false_ne_true (fun hne => hne hlast)
    · rw [if_neg hlast, Memory.storeAll_nil,
        hasMessage_apply m' (setRead (g.next read)) (Or.inr (show flagAt + 1 ≤ readAt by decide))]
      exact iff_of_true (henter.mpr hrw) hlast

/-- Both indices are in range, and the flag says whether a message is there: just
    if the indices differ, and just if a reader under the lock would find one. -/
structure Flagged (g : Geometry) (m : Memory) : Prop where
  in_range : m.loadNat readAt 4 < g.slots ∧ m.loadNat writeAt 4 < g.slots
  differs : hasMessage m = true ↔ m.loadNat readAt 4 ≠ m.loadNat writeAt 4
  pending : hasMessage m = true ↔ pending g m ≠ []
  found : hasMessage m = true ↔ ∃ msg, (remove g m).2.1 = some msg

/-- Where the indices are in range, the flag says whether a message is there. -/
theorem Signals.flagged {g : Geometry} {m : Memory} (h : Signals g m) (hg : g.InRange)
    (hi : ∃ i, indices? g m = some i) : Flagged g m := by
  rcases hi with ⟨⟨read, write⟩, hi⟩
  have hflag := h read write hi
  have hempty : read ≠ write ↔ Ring.pending g m ≠ [] := by
    rcases (indices?_eq_some_iff g m read write).mp hi with ⟨_, _, hr, hw⟩
    rw [pending_of_indices g m read write hi, ne_eq, ne_eq, ← List.length_eq_zero_iff,
      length_texts, countBetween_eq_zero_iff g read write hr hw]
  rcases (indices?_eq_some_iff g m read write).mp hi with ⟨rfl, rfl, hr, hw⟩
  refine ⟨⟨hr, hw⟩, hflag, hflag.trans hempty, (hflag.trans hempty).trans ?_⟩
  rw [(pending_remove g hg m).2.1, ← Option.ne_none_iff_exists', ne_eq, ne_eq,
    List.head?_eq_none_iff]

/-- No step of a call leaves a flag behind that does not fit the indices. -/
theorem callStep_signals (g : Geometry) (hg : g.InRange) (source : ClockSource) (clock : Clock)
    (m m' : Memory) (c : Call) (c' : Option Call) (es : List Sight) (h : Signals g m)
    (hc : callStep g source clock m c = some (m', c', es)) : Signals g m' := by
  have htokens : ∀ s : Semaphore, Signals g (setTokens m s) := fun s =>
    h.congr (hasMessage_apply m (.number tokensAt 4 s.value)
      (Or.inl (show tokensAt + 4 ≤ flagAt by decide))) (pending_setTokens g m s).1
  rcases callStep_cases g source clock m m' c c' es hc with
    ⟨msg, _, rfl, _⟩ | ⟨_, _, _, rfl, _⟩ | ⟨_, _, rfl, _⟩ | ⟨_, _, _, n, _, _, rfl, _⟩ |
      ⟨_, _, _, _, rfl, _⟩ | ⟨_, _, _, rfl, _⟩
  · exact insert_signals g hg m msg
  · exact htokens _
  · exact h
  · exact htokens ⟨n⟩
  · exact h
  · exact remove_signals g hg m h

/-- Somebody is seen to have been under the lock. -/
def Sight.changed : Sight → Bool
  | .stored _ => true
  | .looked _ _ => true
  | .unwoken => false

-- Whoever has been under the lock leaves indices in range behind. Nobody else
-- touches an index.
theorem callStep_changed (g : Geometry) (hg : g.InRange) (source : ClockSource) (clock : Clock)
    (m m' : Memory) (c : Call) (c' : Option Call) (es : List Sight)
    (hc : callStep g source clock m c = some (m', c', es)) :
    (es.any Sight.changed = true ∧ ∃ i, indices? g m' = some i) ∨
      (es.any Sight.changed = false ∧ indices? g m' = indices? g m) := by
  rcases callStep_cases g source clock m m' c c' es hc with
    ⟨msg, _, rfl, _, rfl⟩ | ⟨_, _, _, rfl, _, rfl⟩ | ⟨_, _, rfl, _, rfl⟩ |
      ⟨_, _, _, n, _, _, rfl, _, rfl⟩ | ⟨_, _, _, _, rfl, _, rfl⟩ | ⟨_, _, _, rfl, _, rfl⟩
  · exact Or.inl ⟨rfl, indices?_insert g hg m msg⟩
  · exact Or.inr ⟨rfl, (pending_setTokens g m _).1⟩
  · exact Or.inr ⟨rfl, rfl⟩
  · exact Or.inr ⟨rfl, (pending_setTokens g m ⟨n⟩).1⟩
  · exact Or.inr ⟨rfl, rfl⟩
  · exact Or.inl ⟨rfl, indices?_remove g hg m⟩

/-- The act is one of a stranger. -/
def Act.ofStranger : Act → Bool
  | .stray _ _ => true
  | _ => false

namespace Traffic

/-- Along the acts a stranger has stored an index, and nobody has been under the
    lock since; `before` says whether it was so at their beginning. -/
def unnoticed (before : Bool) (s : Traffic) : List Act → Bool
  | [] => before
  | a :: acts =>
      match s.step a with
      | none => before
      | some (s', es) => unnoticed (a.ofStranger || (before && !es.any Sight.changed)) s' acts

/-- What an act does to the flag and to the indices. Nothing but a stranger brings
    an index out of range, and nothing but a change brings it back. -/
theorem step_signals (g : Geometry) (hg : g.InRange) (s s' : Traffic) (a : Act)
    (es : List Sight) (hagreed : s.Agreed g) (h : Signals g s.memory)
    (hs : s.step a = some (s', es)) :
    Signals g s'.memory ∧
    ((es.any Sight.changed = true ∧ a.ofStranger = false ∧ ∃ i, indices? g s'.memory = some i) ∨
      (es.any Sight.changed = false ∧ a.ofStranger = false ∧
        indices? g s'.memory = indices? g s.memory) ∨
      (es.any Sight.changed = false ∧ a.ofStranger = true ∧ indices? g s'.memory = none)) := by
  cases a with
  | stray off value =>
      simp only [step] at hs
      split at hs
      next hc =>
        simp only [Option.some.injEq, Prod.mk.injEq] at hs
        rcases hs with ⟨rfl, rfl⟩
        have hv := hc.2.1
        rw [hagreed.stated_eq] at hv
        have hnone := indices?_stray g s.memory off value hc.1 hv hc.2.2
        refine ⟨fun read write hi => ?_, Or.inr (Or.inr ⟨rfl, rfl, hnone⟩)⟩
        rw [hnone] at hi
        exact absurd hi (by simp only [reduceCtorEq, not_false_eq_true])
      next => exact absurd hs (by simp only [reduceCtorEq, not_false_eq_true])
  | _ =>
      rcases step_cases s s' _ es hs with
        ⟨_, _, _, _, rfl, rfl⟩ | ⟨_, _, _, _, rfl, _, _, rfl⟩ |
          ⟨i, source, clock, g', c, m', c', _, hi, hc, rfl⟩ | ⟨_, _, ha, _⟩
      · exact ⟨h, Or.inr (Or.inl ⟨rfl, rfl, rfl⟩)⟩
      · exact ⟨h, Or.inr (Or.inl ⟨rfl, rfl, rfl⟩)⟩
      · have hgeo : g' = g := hagreed.geometry_eq _ (List.mem_of_getElem? hi)
        rw [hgeo] at hc
        refine ⟨callStep_signals g hg source clock _ m' c c' es h hc, ?_⟩
        rcases callStep_changed g hg source clock _ m' c c' es hc with ⟨hes, hi'⟩ | ⟨hes, hi'⟩
        · exact Or.inl ⟨hes, rfl, hi'⟩
        · exact Or.inr (Or.inl ⟨hes, rfl, hi'⟩)
      · exact absurd ha (by simp only [reduceCtorEq, not_false_eq_true])

/-- An index is out of range after an act just if a stranger has stored it by that
    act, or if it was so before and nobody has been under the lock. -/
theorem step_unnoticed (g : Geometry) (hg : g.InRange) (s s' : Traffic) (a : Act)
    (es : List Sight) (before : Bool) (hagreed : s.Agreed g) (h : Signals g s.memory)
    (hbefore : indices? g s.memory = none ↔ before = true) (hs : s.step a = some (s', es)) :
    indices? g s'.memory = none ↔
      (a.ofStranger || (before && !es.any Sight.changed)) = true := by
  rcases (step_signals g hg s s' a es hagreed h hs).2 with
    ⟨hes, ha, i, hi⟩ | ⟨hes, ha, hi⟩ | ⟨hes, ha, hi⟩
  · simp only [hes, ha, hi, reduceCtorEq, Bool.not_true, Bool.and_false, Bool.or_false,
      Bool.false_eq_true]
  · simp only [hes, ha, hi, hbefore, Bool.not_false, Bool.and_true, Bool.false_or]
  · simp only [ha, hi, Bool.true_or]

-- The induction follows the acts. The flag has to be carried along, because the
-- next act relies on it.
theorem play_unnoticed (g : Geometry) (hg : g.InRange) (acts : List Act) :
    ∀ (s s' : Traffic) (es : List Sight) (before : Bool), s.Agreed g → Signals g s.memory →
      (indices? g s.memory = none ↔ before = true) →
      Schedule.play step s acts = some (s', es) →
      s'.Agreed g ∧ Signals g s'.memory ∧
        (indices? g s'.memory = none ↔ unnoticed before s acts = true) := by
  induction acts with
  | nil =>
      intro s s' es before hagreed h hbefore hplay
      simp only [Schedule.play, Option.some.injEq, Prod.mk.injEq] at hplay
      rw [← hplay.1]
      exact ⟨hagreed, h, hbefore⟩
  | cons a rest ih =>
      intro s s' es before hagreed h hbefore hplay
      rcases (Schedule.play_cons_iff step s s' a rest es).mp hplay with
        ⟨s₁, first, later, hfirst, hrest, _⟩
      have hnext := ih s₁ s' later _ (step_agreed g s s₁ a first hagreed hfirst)
        (step_signals g hg s s₁ a first hagreed h hfirst).1
        (step_unnoticed g hg s s₁ a first before hagreed h hbefore hfirst) hrest
      simp only [unnoticed, hfirst]
      exact hnext

-- The flag of a new ring is clear, and its indices are equal.
theorem fresh_signals (g : Geometry) (m : Memory) (hg : g.Valid) :
    Signals g (fresh g m).memory := by
  have hclear : hasMessage (m.storeAll (headerStores g)) = false := by
    have hsplit : headerStores g = (headerStores g).take 5 ++ setFlag false ::
        (headerStores ⟨2, 1⟩).drop 6 := rfl
    rw [hsplit, Memory.storeAll_append, Memory.storeAll_cons,
      hasMessage_congr _ _ (Memory.storeAll_agreeOn _ _ _ _ (by decide)), hasMessage_setFlag]
  intro read write hi
  rw [fresh, indices?_header m g hg, Option.some.injEq, Prod.mk.injEq] at hi
  rcases hi with ⟨rfl, rfl⟩
  exact iff_of_false (by rw [fresh, hclear]; exact Bool.false_ne_true) (fun hne => hne rfl)

end Traffic

/-- The flag of a ring says whether a message is there.

    Any number of parties write and read at a ring that has just been laid out,
    in whatever order they move, and strangers store indices that are out of range
    whenever they like. After every change under the lock both indices are in range
    and the flag is set just if they differ, which is just if a message is there,
    and just if a reader under the lock would get one. Between two changes the same
    holds, unless a stranger has stored an index since the last one and nobody has
    come upon it; and no index is out of range at any other time. -/
theorem flag_exact (g : Geometry) (hg : g.Valid) (m : Memory) (acts : List Act) (s : Traffic)
    (es : List Sight) (h : Schedule.play Traffic.step (Traffic.fresh g m) acts = some (s, es)) :
    (∀ a s' fs, s.step a = some (s', fs) → fs.any Sight.changed = true → Flagged g s'.memory) ∧
      (indices? g s.memory = none ↔
        Traffic.unnoticed false (Traffic.fresh g m) acts = true) ∧
      (Traffic.unnoticed false (Traffic.fresh g m) acts = false → Flagged g s.memory) := by
  have hbefore : indices? g (Traffic.fresh g m).memory = none ↔ false = true := by
    rw [Traffic.fresh, indices?_header m g hg]
    simp only [reduceCtorEq, Bool.false_eq_true]
  rcases Traffic.play_unnoticed g hg.1 acts _ s es false (Traffic.fresh_agreed g m hg)
    (Traffic.fresh_signals g m hg) hbefore h with ⟨hagreed, hsignals, hnone⟩
  refine ⟨fun a s' fs hstep hfs => ?_, hnone, fun hseen => ?_⟩
  · rcases Traffic.step_signals g hg.1 s s' a fs hagreed hsignals hstep with ⟨hs', hact⟩
    refine hs'.flagged hg.1 ?_
    rcases hact with ⟨_, _, hi⟩ | ⟨hno, _⟩ | ⟨hno, _⟩
    · exact hi
    · exact absurd hfs (by rw [hno]; exact Bool.false_ne_true)
    · exact absurd hfs (by rw [hno]; exact Bool.false_ne_true)
  · refine hsignals.flagged hg.1 (Option.ne_none_iff_exists'.mp (fun hi => ?_))
    exact absurd (hnone.mp hi) (by rw [hseen]; exact Bool.false_ne_true)

-- One message of two is taken, and the flag stays. A stranger then makes the other
-- one go, which the flag does not say until the next reader has looked.
theorem flag_exact_after_stray :
    let acts : List Act :=
      [.write 0 [1], .move 0 .realtime ⟨0, 0⟩, .move 0 .realtime ⟨0, 0⟩, .write 0 [2],
        .move 0 .realtime ⟨0, 0⟩, .move 0 .realtime ⟨0, 0⟩, .read 0 10 none,
        .move 0 .realtime ⟨0, 0⟩, .move 0 .realtime ⟨0, 0⟩, .read 0 10 none,
        .move 0 .realtime ⟨0, 0⟩]
    ∃ s es t fs, Schedule.play Traffic.step (Traffic.fresh ⟨3, 4⟩ (Memory.zeros 124)) acts
        = some (s, es) ∧
      Flagged ⟨3, 4⟩ s.memory ∧ hasMessage s.memory = true ∧ pending ⟨3, 4⟩ s.memory = [[2]] ∧
      Schedule.play Traffic.step (Traffic.fresh ⟨3, 4⟩ (Memory.zeros 124))
        (acts ++ [.stray readAt 7]) = some (t, fs) ∧
      indices? ⟨3, 4⟩ t.memory = none ∧ hasMessage t.memory = true ∧
      ∃ t' gs, t.step (.move 0 .realtime ⟨0, 0⟩) = some (t', gs) ∧
        Flagged ⟨3, 4⟩ t'.memory ∧ hasMessage t'.memory = false := by
  intro acts
  have hbefore : (Schedule.play Traffic.step (Traffic.fresh ⟨3, 4⟩ (Memory.zeros 124)) acts).map
      (fun r => (hasMessage r.1.memory, pending ⟨3, 4⟩ r.1.memory)) = some (true, [[2]]) := by
    decide +kernel
  have hafter : (Schedule.play Traffic.step (Traffic.fresh ⟨3, 4⟩ (Memory.zeros 124))
      (acts ++ [.stray readAt 7])).map (fun r => (hasMessage r.1.memory,
        (r.1.step (.move 0 .realtime ⟨0, 0⟩)).map fun q => (q.2, hasMessage q.1.memory)))
      = some (true, some ([.looked 10 none], false)) := by
    decide +kernel
  rcases Option.map_eq_some_iff.mp hbefore with ⟨⟨s, es⟩, hplay, hs⟩
  simp only [Prod.mk.injEq] at hs
  rcases Option.map_eq_some_iff.mp hafter with ⟨⟨t, fs⟩, hplay', ht⟩
  simp only [Prod.mk.injEq] at ht
  rcases Option.map_eq_some_iff.mp ht.2 with ⟨⟨t', gs⟩, hstep, ht'⟩
  simp only [Prod.mk.injEq] at ht'
  have hseen := flag_exact ⟨3, 4⟩ (by decide) (Memory.zeros 124) acts s es hplay
  have hstray := flag_exact ⟨3, 4⟩ (by decide) (Memory.zeros 124) _ t fs hplay'
  exact ⟨s, es, t, fs, hplay, hseen.2.2 (by decide +kernel), hs.1, hs.2, hplay',
    hstray.2.1.mpr (by decide +kernel), ht.1, t', gs, hstep,
    hstray.1 _ t' gs hstep (by rw [ht'.1]; rfl), ht'.2⟩

end Ring

end HostLayer
