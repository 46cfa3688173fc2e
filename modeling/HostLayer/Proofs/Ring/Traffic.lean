import HostLayer.Proofs.Ring.Header
import HostLayer.Proofs.Schedule

/-!
# Ring Traffic

Any number of parties at one ring, moving one at a time in any order.

A party has found the ring and remembers its geometry. It makes calls, one
after the other, and each move of a party is one step of its call, as the call
makes it: a writer inserts its message and later puts down a token, a reader
takes a token and later looks for a message. Signals arrive at readers, more
parties join, and a stranger may store an index that is out of range. Nothing
is said about who moves next, so what holds along every schedule holds of every
interleaving of the steps.

What can be seen of a step is what a change under the lock has done: a message
has been stored, or a reader has looked and has found so much of a message as
its buffer has room for. It can also be seen that a token was not put down.

`callStep_cases` lists what a step of a call can do. It is the only place where
the steps of writers and readers are taken apart.

## Main definitions

* `Ring.Call`, `Ring.Party`: A call in progress, and who makes it.
* `Ring.Party.posting`, `Ring.Party.holding`: The party is between its two
  steps.
* `Ring.Traffic`: A ring with its parties.
* `Ring.Act`, `Ring.Sight`: What can happen, and what is seen of it.
* `Ring.Traffic.step`: The traffic after an act.
* `Ring.Traffic.fresh`: A ring that has just been laid out.
* `Ring.Traffic.Agreed`: All parties have the geometry that the ring states.

## Theorems

* `Ring.wait_cases`: What a step of a wait for a token can do.
* `Ring.callStep_cases`: What a step of a call can do.
* `Ring.Traffic.step_cases`: What an act can do.
* `Ring.callStep_agreeOn`: No call touches the geometry.
* `Ring.Traffic.fresh_agreed`, `Ring.Traffic.step_agreed`: The parties agree.
-/

namespace HostLayer

namespace Ring

/-- A call in progress. -/
inductive Call
  | write (msg : List UInt8) (p : Write)
  | read (room : Nat) (deadline : Option Timer) (p : Read)

/-- Somebody who has found the ring, with the geometry found and the call that
    is being made, if any. -/
structure Party where
  geometry : Geometry
  call : Option Call

namespace Party

/-- The party has stored a message and not yet put down its token. -/
def posting (p : Party) : Bool :=
  match p.call with
  | some (.write _ .posting) => true
  | _ => false

/-- The party has a token and has not yet looked for a message. -/
def holding (p : Party) : Bool :=
  match p.call with
  | some (.read _ _ .holding) => true
  | _ => false

end Party

/-- A ring with its parties. -/
structure Traffic where
  memory : Memory
  parties : List Party

/-- What can happen to a ring. -/
inductive Act
  /-- One more party finds the ring in the first `length` bytes of an object. -/
  | join (length : Nat)
  /-- A party starts to write a message. -/
  | write (i : Nat) (msg : List UInt8)
  /-- A party starts to read a message into a buffer of `room` bytes. -/
  | read (i room : Nat) (deadline : Option Timer)
  /-- A party makes one step of its call, at a time that `clock` shows. -/
  | move (i : Nat) (source : ClockSource) (clock : Clock)
  /-- A signal arrives at a reader. -/
  | interrupt (i : Nat)
  /-- A stranger stores an index that is out of range. -/
  | stray (off value : Nat)

/-- A stranger has no part in the act. -/
def Act.OfParties : Act → Prop
  | .stray _ _ => False
  | _ => True

/-- What is seen of a step. -/
inductive Sight
  /-- A message has been put into the ring. -/
  | stored (msg : List UInt8)
  /-- A reader has looked for a message, and this is what its buffer holds. -/
  | looked (room : Nat) (found : Option (List UInt8))
  /-- A token could not be put down. -/
  | unwoken
  deriving DecidableEq

/-- One step of a call through a handle with the geometry `g`, unless the call
    has to wait: the memory, where the call then stands if it is not over, and
    what is seen. -/
def callStep (g : Geometry) (source : ClockSource) (clock : Clock) (m : Memory) :
    Call → Option (Memory × Option Call × List Sight)
  | .write msg p =>
      match writeStep g msg m p with
      | .goto m' p' _ => some (m', some (.write msg p'), [.stored msg])
      | .done m' _ notes => some (m', none, if notes.isEmpty then [] else [.unwoken])
      | .waits => none
  | .read room deadline .holding =>
      match readStep g room source deadline clock m .holding with
      | .goto m' p' _ => some (m', some (.read room deadline p'), [.looked room none])
      | .done m' r _ => some (m', none, [.looked room r.toOption])
      | .waits => none
  | .read room deadline (.waiting p) =>
      match readStep g room source deadline clock m (.waiting p) with
      | .goto m' p' _ => some (m', some (.read room deadline p'), [])
      | .done m' _ _ => some (m', none, [])
      | .waits => none

namespace Traffic

/-- The traffic with another call of a party. -/
def setCall (s : Traffic) (i : Nat) (g : Geometry) (c : Option Call) : Traffic :=
  { s with parties := s.parties.set i ⟨g, c⟩ }

/-- A party that makes no call starts one. -/
def start (s : Traffic) (i : Nat) (c : Call) : Option (Traffic × List Sight) :=
  match s.parties[i]? with
  | some ⟨g, none⟩ => some (s.setCall i g (some c), [])
  | _ => none

/-- The traffic after an act, and what is seen of it. -/
def step (s : Traffic) : Act → Option (Traffic × List Sight)
  | .join length =>
      (adopt? length s.memory).map fun g => ({ s with parties := s.parties ++ [⟨g, none⟩] }, [])
  | .write i msg => s.start i (.write msg .storing)
  | .read i room deadline => s.start i (.read room deadline .start)
  | .move i source clock =>
      match s.parties[i]? with
      | some ⟨g, some c⟩ =>
          (callStep g source clock s.memory c).map fun r =>
            ({ s with memory := r.1 }.setCall i g r.2.1, r.2.2)
      | _ => none
  | .interrupt i =>
      match s.parties[i]? with
      | some ⟨g, some (.read room deadline p)⟩ =>
          some (s.setCall i g (some (.read room deadline (readInterrupted p))), [])
      | _ => none
  | .stray off value =>
      if (off = readAt ∨ off = writeAt) ∧ (stated s.memory).slots ≤ value ∧ value < word32 then
        some ({ s with memory := s.memory.storeNat off 4 value }, [])
      else none

/-- A ring that has just been laid out in a memory, with the party that did
    so. -/
def fresh (g : Geometry) (m : Memory) : Traffic :=
  ⟨m.storeAll (headerStores g), [⟨g, none⟩]⟩

/-- All parties have the geometry that the ring states, and the ring is one. -/
structure Agreed (g : Geometry) (s : Traffic) : Prop where
  marked : s.memory.loadNat magicAt 4 = magic
  stated_eq : stated s.memory = g
  geometry_eq : ∀ p ∈ s.parties, p.geometry = g

end Traffic

/-- What one step of a wait for a token can do. -/
theorem wait_cases (source : ClockSource) (deadline : Option Timer) (clock : Clock)
    (s : Semaphore) (p : Semaphore.Place) :
    (∃ n, s.value = n + 1 ∧ Semaphore.step source deadline clock s p = .done ⟨n⟩ (.ok ()) []) ∨
    (∃ e, Semaphore.step source deadline clock s p = .done s (.error e) []) ∨
    (∃ p', Semaphore.step source deadline clock s p = .goto s p' []) ∨
    Semaphore.step source deadline clock s p = .waits := by
  have htake : ∀ s', s.take? = some s' → ∃ n, s.value = n + 1 ∧ s' = ⟨n⟩ :=
    fun s' h => ⟨s'.value, Semaphore.take?_value h, rfl⟩
  cases p with
  | asking =>
      simp only [Semaphore.step]
      cases Semaphore.limit? source deadline clock with
      | none => exact Or.inr (Or.inl ⟨.invalidParam, rfl⟩)
      | some limit =>
          cases ht : s.take? with
          | none => exact Or.inr (Or.inr (Or.inl ⟨.asleep limit, rfl⟩))
          | some s' =>
              rcases htake s' ht with ⟨n, hn, rfl⟩
              exact Or.inl ⟨n, hn, rfl⟩
  | asleep limit =>
      simp only [Semaphore.step]
      cases ht : s.take? with
      | some s' =>
          rcases htake s' ht with ⟨n, hn, rfl⟩
          exact Or.inl ⟨n, hn, rfl⟩
      | none =>
          by_cases hl : Semaphore.late clock limit
          · exact Or.inr (Or.inl ⟨.timeout, if_pos hl⟩)
          · exact Or.inr (Or.inr (Or.inr (if_neg hl)))

/-- What a step of a call can do. A writer stores its message, or puts down a
    token, or fails to; a reader takes a token, or goes on waiting or gives up,
    or looks for a message. -/
theorem callStep_cases (g : Geometry) (source : ClockSource) (clock : Clock) (m m' : Memory)
    (c : Call) (c' : Option Call) (es : List Sight)
    (h : callStep g source clock m c = some (m', c', es)) :
    (∃ msg, c = .write msg .storing ∧ m' = (insert g m msg).1 ∧
      c' = some (.write msg .posting) ∧ es = [.stored msg]) ∨
    (∃ msg, c = .write msg .posting ∧ (tokens m).value < Semaphore.maximum ∧
      m' = setTokens m ⟨(tokens m).value + 1⟩ ∧ c' = none ∧ es = []) ∨
    (∃ msg, c = .write msg .posting ∧ m' = m ∧ c' = none ∧ es = [.unwoken]) ∨
    (∃ room deadline p n, c = .read room deadline (.waiting p) ∧ (tokens m).value = n + 1 ∧
      m' = setTokens m ⟨n⟩ ∧ c' = some (.read room deadline .holding) ∧ es = []) ∨
    (∃ room deadline p, c = .read room deadline (.waiting p) ∧ m' = m ∧
      (c' = none ∨ ∃ p', c' = some (.read room deadline (.waiting p'))) ∧ es = []) ∨
    (∃ room deadline, c = .read room deadline .holding ∧ m' = (remove g m).1 ∧
      c' = (if (remove g m).2.1.isSome then none else some (.read room deadline .start)) ∧
      es = [.looked room ((remove g m).2.1.map (List.take room))]) := by
  cases c with
  | write msg p =>
      cases p with
      -- The change under the lock, and later the token.
      | storing =>
          simp only [callStep, writeStep, Option.some.injEq, Prod.mk.injEq] at h
          rcases h with ⟨rfl, rfl, rfl⟩
          exact Or.inl ⟨msg, rfl, rfl, rfl, rfl⟩
      | posting =>
          refine Or.inr ?_
          by_cases hlt : (tokens m).value < Semaphore.maximum
          · simp only [callStep, writeStep, Semaphore.post, Semaphore.put, if_pos hlt,
              List.isEmpty_nil, if_true, Option.some.injEq, Prod.mk.injEq] at h
            rcases h with ⟨rfl, rfl, rfl⟩
            exact Or.inl ⟨msg, rfl, hlt, rfl, rfl, rfl⟩
          · simp only [callStep, writeStep, Semaphore.post, Semaphore.put, if_neg hlt,
              List.isEmpty_cons, Bool.false_eq_true, if_false, Option.some.injEq,
              Prod.mk.injEq] at h
            rcases h with ⟨rfl, rfl, rfl⟩
            exact Or.inr (Or.inl ⟨msg, rfl, rfl, rfl, rfl⟩)
  | read room deadline p =>
      refine Or.inr (Or.inr (Or.inr ?_))
      cases p with
      -- The wait for a token, and later the change under the lock.
      | waiting p =>
          rcases wait_cases source deadline clock (tokens m) p with
            ⟨n, hn, hw⟩ | ⟨e, hw⟩ | ⟨p', hw⟩ | hw
          · simp only [callStep, readStep, hw, Option.some.injEq, Prod.mk.injEq] at h
            rcases h with ⟨rfl, rfl, rfl⟩
            exact Or.inl ⟨room, deadline, p, n, rfl, hn, rfl, rfl, rfl⟩
          · simp only [callStep, readStep, hw, Option.some.injEq, Prod.mk.injEq] at h
            rcases h with ⟨rfl, rfl, rfl⟩
            exact Or.inr (Or.inl ⟨room, deadline, p, rfl, rfl, Or.inl rfl, rfl⟩)
          · simp only [callStep, readStep, hw, Option.some.injEq, Prod.mk.injEq] at h
            rcases h with ⟨rfl, rfl, rfl⟩
            exact Or.inr (Or.inl ⟨room, deadline, p, rfl, rfl, Or.inr ⟨p', rfl⟩, rfl⟩)
          · simp only [callStep, readStep, hw] at h
            exact absurd h (by simp only [reduceCtorEq, not_false_eq_true])
      | holding =>
          refine Or.inr (Or.inr ⟨room, deadline, rfl, ?_⟩)
          rcases hr : remove g m with ⟨m₁, found, notes⟩
          cases found with
          | none =>
              simp only [callStep, readStep, hr, Option.some.injEq, Prod.mk.injEq] at h
              rcases h with ⟨rfl, rfl, rfl⟩
              exact ⟨rfl, rfl, rfl⟩
          | some msg =>
              simp only [callStep, readStep, hr, Option.some.injEq, Prod.mk.injEq] at h
              rcases h with ⟨rfl, rfl, rfl⟩
              exact ⟨rfl, rfl, rfl⟩

/-- No call touches the mark and the geometry. -/
theorem callStep_agreeOn (g : Geometry) (source : ClockSource) (clock : Clock) (m m' : Memory)
    (c : Call) (c' : Option Call) (es : List Sight)
    (h : callStep g source clock m c = some (m', c', es)) : m.AgreeOn m' 0 lockAt := by
  have hself : m.AgreeOn m 0 lockAt := fun _ _ _ => rfl
  rcases callStep_cases g source clock m m' c c' es h with
    ⟨msg, _, rfl, _⟩ | ⟨_, _, _, rfl, _⟩ | ⟨_, _, rfl, _⟩ | ⟨_, _, _, n, _, _, rfl, _⟩ |
      ⟨_, _, _, _, rfl, _⟩ | ⟨_, _, _, rfl, _⟩
  · exact insert_agreeOn g m msg 0 lockAt (Or.inl (Nat.le_refl lockAt))
  · exact setTokens_agreeOn m _
  · exact hself
  · exact setTokens_agreeOn m ⟨n⟩
  · exact hself
  · exact remove_agreeOn g m 0 lockAt (Or.inl (Nat.le_refl lockAt))

namespace Traffic

/-- What an act can do. One more party finds the ring; a party starts a call or
    is interrupted, neither of which brings it between its two steps or away
    from there; a party makes a step of its call; or a stranger stores an
    index. -/
theorem step_cases (s s' : Traffic) (a : Act) (es : List Sight) (h : step s a = some (s', es)) :
    (∃ length g, a = .join length ∧ adopt? length s.memory = some g ∧
      s' = { s with parties := s.parties ++ [⟨g, none⟩] } ∧ es = []) ∨
    (∃ i p c', s.parties[i]? = some p ∧ s' = s.setCall i p.geometry c' ∧
      Party.posting ⟨p.geometry, c'⟩ = p.posting ∧
      Party.holding ⟨p.geometry, c'⟩ = p.holding ∧ es = []) ∨
    (∃ i source clock g c m' c', a = .move i source clock ∧
      s.parties[i]? = some ⟨g, some c⟩ ∧ callStep g source clock s.memory c = some (m', c', es) ∧
      s' = { s with memory := m' }.setCall i g c') ∨
    (∃ off value, a = .stray off value ∧ (off = readAt ∨ off = writeAt) ∧
      (stated s.memory).slots ≤ value ∧ value < word32 ∧
      s' = { s with memory := s.memory.storeNat off 4 value } ∧ es = []) := by
  -- A party that starts a call makes none before, and starts at its first step.
  have hstart : ∀ i c, s.start i c = some (s', es) →
      ∃ g, s.parties[i]? = some ⟨g, none⟩ ∧ s' = s.setCall i g (some c) ∧ es = [] := by
    intro i c hs
    unfold start at hs
    split at hs
    next g hp =>
      simp only [Option.some.injEq, Prod.mk.injEq] at hs
      exact ⟨g, hp, hs.1.symm, hs.2.symm⟩
    next => exact absurd hs (by simp only [reduceCtorEq, not_false_eq_true])
  cases a with
  | join length =>
      simp only [step, Option.map_eq_some_iff, Prod.mk.injEq] at h
      rcases h with ⟨g, hg, rfl, rfl⟩
      exact Or.inl ⟨length, g, rfl, hg, rfl, rfl⟩
  | write i msg =>
      rcases hstart i _ h with ⟨g, hp, rfl, rfl⟩
      exact Or.inr (Or.inl ⟨i, _, _, hp, rfl, rfl, rfl, rfl⟩)
  | read i room deadline =>
      rcases hstart i _ h with ⟨g, hp, rfl, rfl⟩
      exact Or.inr (Or.inl ⟨i, _, _, hp, rfl, rfl, rfl, rfl⟩)
  | move i source clock =>
      simp only [step] at h
      split at h
      next g c hp =>
        simp only [Option.map_eq_some_iff, Prod.mk.injEq] at h
        rcases h with ⟨⟨m', c', fs⟩, hc, rfl, rfl⟩
        exact Or.inr (Or.inr (Or.inl ⟨i, source, clock, g, c, m', c', rfl, hp, hc, rfl⟩))
      next => exact absurd h (by simp only [reduceCtorEq, not_false_eq_true])
  | interrupt i =>
      simp only [step] at h
      split at h
      next g room deadline p hp =>
        simp only [Option.some.injEq, Prod.mk.injEq] at h
        refine Or.inr (Or.inl ⟨i, _, _, hp, h.1.symm, rfl, ?_, h.2.symm⟩)
        cases p with
        | waiting _ => rfl
        | holding => rfl
      next => exact absurd h (by simp only [reduceCtorEq, not_false_eq_true])
  | stray off value =>
      simp only [step] at h
      split at h
      next hc =>
        simp only [Option.some.injEq, Prod.mk.injEq] at h
        exact Or.inr (Or.inr (Or.inr
          ⟨off, value, rfl, hc.1, hc.2.1, hc.2.2, h.1.symm, h.2.symm⟩))
      next => exact absurd h (by simp only [reduceCtorEq, not_false_eq_true])

theorem fresh_agreed (g : Geometry) (m : Memory) (hg : g.Valid) : Agreed g (fresh g m) := by
  refine ⟨mark_header m g, stated_header m g hg, fun p hp => ?_⟩
  rw [List.mem_singleton.mp hp]

-- The agreement depends on the first bytes of the header only.
theorem Agreed.congr {g : Geometry} {s : Traffic} (h : Agreed g s) (m : Memory)
    (parties : List Party) (hm : s.memory.AgreeOn m 0 lockAt)
    (hp : ∀ p ∈ parties, p.geometry = g) : Agreed g ⟨m, parties⟩ := by
  have hsub : ∀ off width, off + width ≤ lockAt → m.loadNat off width
      = s.memory.loadNat off width := by
    intro off width hle
    exact Memory.loadNat_congr s.memory m off width
      (fun i hlo hhi => hm i (Nat.zero_le i) (by omega))
  refine ⟨?_, ?_, hp⟩
  · exact (hsub magicAt 4 (by decide)).trans h.marked
  · rw [← h.stated_eq]
    unfold stated
    rw [hsub slotsAt 8 (by decide), hsub slotSizeAt 8 (by decide)]

/-- Whatever happens, the parties agree. -/
theorem step_agreed (g : Geometry) (s s' : Traffic) (a : Act) (es : List Sight)
    (h : Agreed g s) (hs : step s a = some (s', es)) : Agreed g s' := by
  have hself : s.memory.AgreeOn s.memory 0 lockAt := fun _ _ _ => rfl
  have hset : ∀ (i : Nat) (p : Party) (c' : Option Call), s.parties[i]? = some p →
      ∀ q ∈ s.parties.set i ⟨p.geometry, c'⟩, q.geometry = g := by
    intro i p c' hp q hq
    rcases List.mem_or_eq_of_mem_set hq with hq | rfl
    · exact h.geometry_eq q hq
    · exact h.geometry_eq p (List.mem_of_getElem? hp)
  rcases step_cases s s' a es hs with
    ⟨length, g', _, ha, rfl, _⟩ | ⟨i, p, c', hp, rfl, _⟩ |
      ⟨i, source, clock, g', c, m', c', _, hp, hc, rfl⟩ | ⟨off, value, _, hoff, _, _, rfl, _⟩
  · refine h.congr s.memory _ hself (fun q hq => ?_)
    rcases List.mem_append.mp hq with hq | hq
    · exact h.geometry_eq q hq
    · -- Whoever joins takes the geometry from the header.
      rw [List.mem_singleton.mp hq, ← h.stated_eq]
      unfold adopt? at ha
      split at ha
      next => exact (Option.some.inj ha).symm
      next => exact absurd ha (by simp only [reduceCtorEq, not_false_eq_true])
  · exact h.congr s.memory _ hself (hset i p c' hp)
  · exact h.congr m' _ (callStep_agreeOn g' source clock s.memory m' c c' es hc)
      (hset i ⟨g', some c⟩ c' hp)
  · -- A stranger's index lies behind the geometry.
    refine h.congr _ _ (Memory.apply_agreeOn s.memory (.number off 4 value) 0 lockAt
      (Or.inr ?_)) h.geometry_eq
    rcases hoff with rfl | rfl
    · exact (show lockAt ≤ readAt by decide)
    · exact (show lockAt ≤ writeAt by decide)

end Traffic

end Ring

end HostLayer
