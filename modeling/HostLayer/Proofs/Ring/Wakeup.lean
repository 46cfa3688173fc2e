import HostLayer.Proofs.Ring.Traffic

/-!
# Ring Wakeups

No message waits in a ring for a reader that nobody wakes.

A message and the token that announces it are put into the ring in two steps,
and they are taken out in two steps, so the numbers of both are equal only by
accident. What holds at all times is an inequality: `Balanced` says that every
message is covered by a token, by a writer that has still to put its token
down, or by a reader that has a token in its hand. Dropped messages and readers
that find nothing leave more tokens than messages, which the inequality
permits, and a reader may take a message whose token is still to come, because
its own token then covers the message that is left.

Strangers only ever help here. An index that is out of range makes all messages
go, and so does the party that comes next and sets the indices to zero.

What is needed for readers follows at the end: once nobody is between two
steps, every message is covered by a token that lies there, and a reader in
whatever place of its wait takes it with its next step.

## Main definitions

* `Ring.Traffic.Balanced`: Every message is covered.

## Theorems

* `Ring.Traffic.countP_setCall`: One party's call in the count of all.
* `Ring.pending_stray`: A ring with an index out of range is empty.
* `Ring.Traffic.step_balanced`: Every act keeps the balance.
* `Ring.wait_with_token`, `Ring.read_with_token`: A reader that finds a token.
* `Ring.no_message_stranded`: The balance of every run, and what readers get.
-/

namespace HostLayer

namespace Ring

namespace Traffic

/-- Every message is covered by a token, by a writer that will put one down, or
    by a reader that has taken one. -/
def Balanced (g : Geometry) (s : Traffic) : Prop :=
  (pending g s.memory).length ≤ (tokens s.memory).value
    + s.parties.countP Party.posting + s.parties.countP Party.holding

/-- The count of parties changes by the party whose call changes. -/
theorem countP_setCall (q : Party → Bool) (s : Traffic) (i : Nat) (p : Party)
    (c' : Option Call) (h : s.parties[i]? = some p) :
    (s.setCall i p.geometry c').parties.countP q + (if q p then 1 else 0)
      = s.parties.countP q + (if q ⟨p.geometry, c'⟩ then 1 else 0) := by
  rcases List.getElem?_eq_some_iff.mp h with ⟨hi, hp⟩
  have hone : (if q p then 1 else 0) ≤ s.parties.countP q := by
    by_cases hq : q p
    · rw [if_pos hq]
      exact List.countP_pos_iff.mpr ⟨p, List.mem_of_getElem? h, hq⟩
    · rw [if_neg hq]
      exact Nat.zero_le _
  simp only [setCall]
  rw [List.countP_set hi, hp]
  omega

end Traffic

-- A stranger's index is out of range.
theorem indices?_stray (g : Geometry) (m : Memory) (off value : Nat)
    (hoff : off = readAt ∨ off = writeAt) (hv : g.slots ≤ value) (hw : value < word32) :
    indices? g (m.storeNat off 4 value) = none := by
  have hload := Memory.loadNat_storeNat_word32 m off value hw
  unfold indices?
  rcases hoff with rfl | rfl
  · rw [hload]
    simp only [show ¬value < g.slots by omega, false_and, if_false]
  · rw [hload]
    simp only [show ¬value < g.slots by omega, and_false, if_false]

/-- A stranger's index makes the ring empty. -/
theorem pending_stray (g : Geometry) (m : Memory) (off value : Nat)
    (hoff : off = readAt ∨ off = writeAt) (hv : g.slots ≤ value) (hw : value < word32) :
    pending g (m.storeNat off 4 value) = [] := by
  unfold pending
  rw [indices?_stray g m off value hoff hv hw]

-- One message more at most, however many have to go.
theorem length_pending_insert_le (g : Geometry) (hg : g.InRange) (m : Memory)
    (msg : List UInt8) : (pending g (insert g m msg).1).length ≤ (pending g m).length + 1 := by
  rw [pending_insert g hg, List.length_append, List.length_singleton]
  unfold makeRoom
  by_cases h : (pending g m).length = g.slots - 1
  · rw [if_pos h, List.length_tail]
    omega
  · exact Nat.le_of_eq (by rw [if_neg h])

namespace Traffic

-- A step of a call keeps the balance, unless a token is not put down. What a
-- step adds to the messages or takes from the tokens, it adds to the parties
-- between two steps, and the other way around.
theorem callStep_balanced (g : Geometry) (hg : g.InRange) (s : Traffic) (i : Nat)
    (source : ClockSource) (clock : Clock) (c : Call) (m' : Memory) (c' : Option Call)
    (es : List Sight) (h : s.Balanced g) (hi : s.parties[i]? = some ⟨g, some c⟩)
    (hposts : ∀ e ∈ es, e ≠ .unwoken)
    (hc : callStep g source clock s.memory c = some (m', c', es)) :
    ({ s with memory := m' }.setCall i g c').Balanced g := by
  have hposting := countP_setCall Party.posting { s with memory := m' } i _ c' hi
  have hholding := countP_setCall Party.holding { s with memory := m' } i _ c' hi
  unfold Balanced at h ⊢
  change (pending g m').length ≤ (tokens m').value + _ + _
  rcases callStep_cases g source clock s.memory m' c c' es hc with
    ⟨msg, rfl, rfl, rfl, _⟩ | ⟨msg, rfl, hlt, rfl, rfl, _⟩ | ⟨_, _, _, _, rfl⟩ |
      ⟨room, deadline, p, n, rfl, hn, rfl, rfl, _⟩ | ⟨room, deadline, p, rfl, rfl, hc', _⟩ |
      ⟨room, deadline, rfl, rfl, hc', _⟩
  · -- The message is new, and its writer has still to put down the token.
    have hlen := length_pending_insert_le g hg s.memory msg
    simp only [Party.posting, Party.holding, Bool.false_eq_true, if_false, if_true]
      at hposting hholding
    rw [tokens_insert]
    omega
  · -- The writer has done so.
    have hword : (tokens s.memory).value + 1 < word32 := by
      unfold Semaphore.maximum at hlt
      unfold word32
      omega
    simp only [Party.posting, Party.holding, Bool.false_eq_true, if_false, if_true]
      at hposting hholding
    rw [(pending_setTokens g s.memory _).2, tokens_setTokens s.memory _ hword]
    simp only []
    omega
  · exact absurd rfl (hposts .unwoken (List.mem_singleton.mpr rfl))
  · -- The token is now in the reader's hand.
    have hword : n < word32 := by
      have hload := s.memory.loadNat_lt tokensAt 4
      rw [Memory.widthLimit_word32] at hload
      unfold tokens at hn
      simp only [] at hn
      omega
    simp only [Party.posting, Party.holding, Bool.false_eq_true, if_false, if_true]
      at hposting hholding
    rw [(pending_setTokens g s.memory ⟨n⟩).2, tokens_setTokens s.memory ⟨n⟩ hword]
    simp only []
    omega
  · -- The reader has no token, whether it waits on or not.
    have hsame : Party.posting ⟨g, c'⟩ = false ∧ Party.holding ⟨g, c'⟩ = false := by
      rcases hc' with rfl | ⟨p', rfl⟩
      · exact ⟨rfl, rfl⟩
      · exact ⟨rfl, rfl⟩
    rw [hsame.1] at hposting
    rw [hsame.2] at hholding
    simp only [Party.posting, Party.holding, Bool.false_eq_true, if_false] at hposting hholding
    omega
  · -- The reader's token goes, and so does a message if there is one.
    have hnone : Party.posting ⟨g, c'⟩ = false ∧ Party.holding ⟨g, c'⟩ = false := by
      rw [hc']
      by_cases hf : (remove g s.memory).2.1.isSome
      · rw [if_pos hf]
        exact ⟨rfl, rfl⟩
      · rw [if_neg hf]
        exact ⟨rfl, rfl⟩
    rw [hnone.1] at hposting
    rw [hnone.2] at hholding
    simp only [Party.posting, Party.holding, Bool.false_eq_true, if_false, if_true]
      at hposting hholding
    rw [tokens_remove, (pending_remove g hg s.memory).1, List.length_tail]
    omega

/-- Every act keeps the balance, unless a token is not put down. -/
theorem step_balanced (g : Geometry) (hg : g.InRange) (s s' : Traffic) (a : Act)
    (es : List Sight) (hagreed : s.Agreed g) (h : s.Balanced g)
    (hposts : ∀ e ∈ es, e ≠ .unwoken) (hs : s.step a = some (s', es)) : s'.Balanced g := by
  rcases step_cases s s' a es hs with
    ⟨_, g', _, _, rfl, _⟩ | ⟨i, p, c', hi, rfl, hpost, hhold, _⟩ |
      ⟨i, source, clock, g', c, m', c', _, hi, hc, rfl⟩ | ⟨off, value, _, hoff, hv, hw, rfl, _⟩
  -- Whoever joins is not between two steps, and nobody gets there without a move.
  · unfold Balanced at h ⊢
    simp only [List.countP_append, List.countP_singleton, Party.posting, Party.holding,
      Bool.false_eq_true, if_false, Nat.add_zero]
    exact h
  · have hposting := countP_setCall Party.posting s i p c' hi
    have hholding := countP_setCall Party.holding s i p c' hi
    rw [hpost] at hposting
    rw [hhold] at hholding
    unfold Balanced at h ⊢
    change (pending g s.memory).length ≤ (tokens s.memory).value + _ + _
    omega
  · have hgeo : g' = g := hagreed.geometry_eq _ (List.mem_of_getElem? hi)
    rw [hgeo] at hi hc ⊢
    exact callStep_balanced g hg s i source clock c m' c' es h hi hposts hc
  -- After a stranger's index there is no message to cover.
  · rw [hagreed.stated_eq] at hv
    unfold Balanced
    simp only [pending_stray g s.memory off value hoff hv hw, List.length_nil]
    exact Nat.zero_le _

-- Every run of a new ring keeps the balance.
theorem play_balanced (g : Geometry) (hg : g.Valid) (m : Memory) (acts : List Act) (s : Traffic)
    (es : List Sight) (hposts : ∀ e ∈ es, e ≠ .unwoken)
    (h : Schedule.play step (fresh g m) acts = some (s, es)) : s.Balanced g := by
  have hfresh : (fresh g m).Balanced g := by
    unfold Balanced fresh
    simp only [pending_header m g hg, List.length_nil]
    exact Nat.zero_le _
  have hrun := Schedule.play_keeps step (fun _ => True) (fun e => e ≠ .unwoken)
    (fun s => s.Agreed g ∧ s.Balanced g)
    (fun s a s' es hI _ hQ hstep =>
      ⟨step_agreed g s s' a es hI.1 hstep, step_balanced g hg.1 s s' a es hI.1 hI.2 hQ hstep⟩)
    acts (fresh g m) s es ⟨fresh_agreed g m hg, hfresh⟩ (fun _ _ => trivial) hposts h
  exact hrun.2

/-- No party is between its two steps. -/
def Settled (s : Traffic) : Prop :=
  ∀ p ∈ s.parties, p.posting = false ∧ p.holding = false

-- Once nobody is between two steps, a message has a token.
theorem Balanced.tokens_pos {g : Geometry} {s : Traffic} (h : s.Balanced g) (hs : s.Settled)
    (hp : pending g s.memory ≠ []) : 0 < (tokens s.memory).value := by
  have hposting : s.parties.countP Party.posting = 0 :=
    List.countP_eq_zero.mpr (fun p hm => by rw [(hs p hm).1]; exact Bool.false_ne_true)
  have hholding : s.parties.countP Party.holding = 0 :=
    List.countP_eq_zero.mpr (fun p hm => by rw [(hs p hm).2]; exact Bool.false_ne_true)
  have hlen : 0 < (pending g s.memory).length := List.length_pos_iff.mpr hp
  unfold Balanced at h
  omega

end Traffic

/-- A reader that finds a token takes it with its next step, wherever it stands
    in its wait, unless the host refuses its deadline. -/
theorem wait_with_token (g : Geometry) (room : Nat) (source : ClockSource)
    (deadline : Option Timer) (clock : Clock) (m : Memory) (p : Semaphore.Place)
    (h : 0 < (tokens m).value) :
    readStep g room source deadline clock m (.waiting p)
        = .goto (setTokens m ⟨(tokens m).value - 1⟩) .holding [] ∨
      (p = .asking ∧ Semaphore.limit? source deadline clock = none ∧
        readStep g room source deadline clock m (.waiting p)
          = .done m (.error .invalidParam) []) := by
  have htake : (tokens m).take? = some ⟨(tokens m).value - 1⟩ := by
    unfold Semaphore.take?
    rcases hv : (tokens m).value with _ | n
    · exact absurd hv (by omega)
    · rfl
  cases p with
  | asking =>
      cases hl : Semaphore.limit? source deadline clock with
      | none =>
          refine Or.inr ⟨rfl, rfl, ?_⟩
          simp only [readStep, Semaphore.step, hl, waitFailure]
      | some limit =>
          refine Or.inl ?_
          simp only [readStep, Semaphore.step, hl, htake]
  | asleep limit =>
      refine Or.inl ?_
      simp only [readStep, Semaphore.step, htake]

/-- A reader that runs alone, where a token and a message lie, is done after
    two steps: it gets the message, unless the host refuses its deadline. -/
theorem read_with_token (g : Geometry) (hg : g.InRange) (room : Nat) (source : ClockSource)
    (deadline : Option Timer) (clock : Clock) (m : Memory) (msg : List UInt8)
    (rest : List (List UInt8)) (h : 0 < (tokens m).value) (hp : pending g m = msg :: rest) :
    (read g room source deadline clock m).outcome
      = .inr (if (Semaphore.limit? source deadline clock).isSome then .ok (msg.take room)
          else .error .invalidParam) := by
  have hsteps : readSteps m = 2 * (tokens m).value + 1 + 1 := rfl
  unfold read Read.start
  rw [hsteps, runSteps]
  cases hl : Semaphore.limit? source deadline clock with
  | none =>
      simp only [readStep, Semaphore.step, hl, waitFailure]
      rfl
  | some limit =>
      rcases wait_with_token g room source deadline clock m .asking h with hw | ⟨_, hnone, _⟩
      · -- The token is gone, the messages are still there.
        have hafter := (pending_remove g hg (setTokens m ⟨(tokens m).value - 1⟩)).2.1
        rw [(pending_setTokens g m _).2, hp, List.head?_cons] at hafter
        rw [hw]
        simp only [runSteps, readStep]
        rcases hr : remove g (setTokens m ⟨(tokens m).value - 1⟩) with ⟨m', found, notes⟩
        rw [hr] at hafter
        simp only [] at hafter
        rw [hafter]
        rfl
      · rw [hl] at hnone
        exact absurd hnone (by simp only [reduceCtorEq, not_false_eq_true])

/-- No message is stranded in a ring.

    In every state that any number of parties and strangers bring about, in
    whatever order they move, there are at most as many messages as there are
    tokens, writers that have stored a message and not yet put down its token,
    and readers that have a token and have not yet looked, provided that no
    token failed to be put down. So when no party is between its two steps and
    a message is there, so is a token; no reader that waits goes on waiting or
    is told that there is nothing, and a call to read comes back with the
    oldest message. Only a deadline that the host does not accept is refused. -/
theorem no_message_stranded (g : Geometry) (hg : g.Valid) (m : Memory) (acts : List Act)
    (s : Traffic) (es : List Sight) (hposts : ∀ e ∈ es, e ≠ .unwoken)
    (h : Schedule.play Traffic.step (Traffic.fresh g m) acts = some (s, es)) :
    (pending g s.memory).length ≤ (tokens s.memory).value
        + s.parties.countP Party.posting + s.parties.countP Party.holding ∧
      (s.Settled → ∀ msg rest, pending g s.memory = msg :: rest →
        0 < (tokens s.memory).value ∧
        (∀ room source deadline clock p,
          (∃ m', readStep g room source deadline clock s.memory (.waiting p)
            = .goto m' .holding []) ∨
          (Semaphore.limit? source deadline clock = none ∧
            readStep g room source deadline clock s.memory (.waiting p)
              = .done s.memory (.error .invalidParam) [])) ∧
        ∀ room source deadline clock, (read g room source deadline clock s.memory).outcome
          = .inr (if (Semaphore.limit? source deadline clock).isSome then .ok (msg.take room)
              else .error .invalidParam)) := by
  have hbalanced := Traffic.play_balanced g hg m acts s es hposts h
  refine ⟨hbalanced, fun hsettled msg rest hp => ?_⟩
  have hpos := hbalanced.tokens_pos hsettled (by rw [hp]; exact List.cons_ne_nil msg rest)
  refine ⟨hpos, fun room source deadline clock p => ?_, fun room source deadline clock => ?_⟩
  · rcases wait_with_token g room source deadline clock s.memory p hpos with hw | ⟨_, hl, hw⟩
    · exact Or.inl ⟨_, hw⟩
    · exact Or.inr ⟨hl, hw⟩
  · exact read_with_token g hg.1 room source deadline clock s.memory msg rest hpos hp

-- A stranger makes the first message go while its writer has still to put down
-- the token; the second one is found.
theorem no_message_stranded_after_stray :
    ∃ s es, Schedule.play Traffic.step (Traffic.fresh ⟨3, 4⟩ (Memory.zeros 124))
        [.join 124, .write 0 [1], .move 0 .realtime ⟨0, 0⟩, .stray readAt 7, .write 1 [2],
          .move 1 .realtime ⟨0, 0⟩, .move 1 .realtime ⟨0, 0⟩, .move 0 .realtime ⟨0, 0⟩]
        = some (s, es) ∧
      (∀ e ∈ es, e ≠ .unwoken) ∧ s.Settled ∧ pending ⟨3, 4⟩ s.memory = [[2]] ∧
      (read ⟨3, 4⟩ 10 .realtime none ⟨0, 0⟩ s.memory).outcome = .inr (.ok [2]) := by
  have hrun : (Schedule.play Traffic.step (Traffic.fresh ⟨3, 4⟩ (Memory.zeros 124))
      [.join 124, .write 0 [1], .move 0 .realtime ⟨0, 0⟩, .stray readAt 7, .write 1 [2],
        .move 1 .realtime ⟨0, 0⟩, .move 1 .realtime ⟨0, 0⟩, .move 0 .realtime ⟨0, 0⟩]).map
      (fun r => (r.2, pending ⟨3, 4⟩ r.1.memory,
        r.1.parties.all fun p => !p.posting && !p.holding))
      = some ([.stored [1], .stored [2]], [[2]], true) := by
    decide +kernel
  rcases Option.map_eq_some_iff.mp hrun with ⟨⟨s, es⟩, hplay, hes⟩
  simp only [Prod.mk.injEq] at hes
  rcases hes with ⟨rfl, hp, hall⟩
  have hsettled : s.Settled := by
    intro p hm
    have hone := List.all_eq_true.mp hall p hm
    simpa using hone
  have hposts : ∀ e ∈ [Sight.stored [1], Sight.stored [2]], e ≠ .unwoken := by decide
  exact ⟨s, _, hplay, hposts, hsettled, hp,
    (((no_message_stranded ⟨3, 4⟩ (by decide) (Memory.zeros 124) _ s _ hposts hplay).2 hsettled
      [2] [] hp).2.2 10 .realtime none ⟨0, 0⟩)⟩

end Ring

end HostLayer
