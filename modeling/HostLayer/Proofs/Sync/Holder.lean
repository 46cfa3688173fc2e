import HostLayer.Proofs.Sync.Refusals
import HostLayer.Proofs.Sync.Register
import HostLayer.Sync.Mutex
import Mathlib.Tactic.ByContra

/-!
# The Holder of a Mutex

What the calls do to a mutex, and how that can be read off their answers.

Each call of each kind of mutex comes to one of a few moves (`Host.Mutex.Moved`), and
every move goes with the entry that a reader of the answers makes in a register. Most
answers say plainly what has become of the mutex. Two do not. The inner hold of a mutex
that has not been repaired is given up although the answer is an error, so an unlocking
counts unless the caller was not the holder. And a thread that looks at a lost mutex
without waiting may be left in it as its holder without a hold, which nobody is told.

So the holder of a mutex and the number of its holds are no more than the register says
(`Host.Mutex.Agrees`), whatever the calls are and whoever makes them
(`Host.Mutex.Agrees.moved`). One call is not among the moves: a mutex that does not
check who gives it up can be given up by anybody (`Host.Mutex.Strays`), and nothing is
said of what becomes of it.

## Main definitions

* `Entry.ofTaking`, `Entry.ofTrying`, `Entry.ofUnlocking`, `Entry.ofRepairing`: The
  entries for the answers.
* `Host.Mutex.Moved`: What can become of a mutex.
* `Host.Mutex.Agrees`: A mutex and a register agree.
* `Host.Health.greeting`: The answer to whoever takes a mutex that nobody holds.

## Theorems

* `Mutex.lock_moved`, `Mutex.tryLock_moved`, `Mutex.unlock_moved`,
  `Mutex.consistent_moved`, `Host.Mutex.holderEnded_moved`: The moves of the calls.
* `Host.Mutex.Agrees.moved`: A move and its entry.
* `Mutex.lock_free`, `Mutex.lock_nests`, `Mutex.lock_again`, `Mutex.lock_taken`: The
  answers, from the holder; likewise for the other calls.
-/

namespace HostLayer

namespace Entry

/-- The entry for an answer to a thread that wants to take the mutex. -/
def ofTaking (t : ThreadId) : Answer Unit → Option Entry
  | .ok _ => some (.took t)
  | .error .ownerDead => some (.adopted t)
  | .error _ => none

/-- The same for a thread that does not wait. -/
def ofTrying (t : ThreadId) : Answer Unit → Option Entry
  | .error .notRecoverable => some (.tried t)
  | r => ofTaking t r

/-- The entry for an answer to a thread that gives up a hold. -/
def ofUnlocking (t : ThreadId) : Answer Unit → Option Entry
  | .error .permissionDenied => none
  | _ => some (.gaveUp t)

/-- The entry for an answer to a thread that has repaired what the mutex protects. -/
def ofRepairing : Answer Unit → Option Entry
  | .ok _ => some .repaired
  | .error _ => none

/-- The entry can be the one for a call of a thread. -/
def Of (t : ThreadId) (x : Entry) : Prop :=
  x = .took t ∨ x = .adopted t ∨ x = .tried t ∨ x = .gaveUp t ∨ x = .repaired

section Of

variable {t : ThreadId} {r : Answer Unit} {x : Entry}

theorem Of.taker {u : ThreadId} (h : x.Of t) (hu : x.taker? = some u) : u = t := by
  rcases h with rfl | rfl | rfl | rfl | rfl
  · exact (Option.some.inj hu).symm
  · exact (Option.some.inj hu).symm
  all_goals exact absurd hu.symm (Option.some_ne_none u)

theorem Of.not_died (h : x.Of t) (u : ThreadId) : x ≠ .died u := by
  rcases h with rfl | rfl | rfl | rfl | rfl
  all_goals simp only [ne_eq, reduceCtorEq, not_false_eq_true]

theorem ofTaking_of (h : ofTaking t r = some x) : x.Of t := by
  unfold ofTaking at h
  split at h
  next => exact Or.inl (Option.some.inj h).symm
  next => exact Or.inr (Or.inl (Option.some.inj h).symm)
  next => exact absurd h.symm (Option.some_ne_none x)

theorem ofTrying_of (h : ofTrying t r = some x) : x.Of t := by
  unfold ofTrying at h
  split at h
  next => exact Or.inr (Or.inr (Or.inl (Option.some.inj h).symm))
  next => exact ofTaking_of h

theorem ofUnlocking_of (h : ofUnlocking t r = some x) : x.Of t := by
  unfold ofUnlocking at h
  split at h
  next => exact absurd h.symm (Option.some_ne_none x)
  next => exact Or.inr (Or.inr (Or.inr (Or.inl (Option.some.inj h).symm)))

theorem ofRepairing_of (h : ofRepairing r = some x) : x.Of t := by
  unfold ofRepairing at h
  split at h
  next => exact Or.inr (Or.inr (Or.inr (Or.inr (Option.some.inj h).symm)))
  next => exact absurd h.symm (Option.some_ne_none x)

end Of

end Entry

namespace Host

/-- What a thread is told that takes a mutex which nobody holds. -/
def Health.greeting : Health → Answer Unit
  | .orphaned => .error .ownerDead
  | .lost => .error .notRecoverable
  | _ => .ok ()

namespace Mutex

/-- What can become of a mutex, and what is entered then. -/
inductive Moved (m : Mutex) : Option Entry → Mutex → Prop
  | stay : Moved m none m
  | take (t : ThreadId) (hfree : m.holder = none) (hsound : m.health ≠ .orphaned)
      (hlost : m.health ≠ .lost) : Moved m (some (.took t)) (m.taken t)
  | nest (t : ThreadId) (hby : m.holder = some t) (hkind : m.kind = .recursive) :
      Moved m (some (.took t)) { m with depth := m.depth + 1 }
  | adopt (t : ThreadId) (hfree : m.holder = none) (horphaned : m.health = .orphaned) :
      Moved m (some (.adopted t)) { m.taken t with health := .unrepaired }
  | look (t : ThreadId) (hlost : m.health = .lost) : Moved m (some (.tried t)) m
  /-- The thread is left in a lost mutex. -/
  | stick (t : ThreadId) (hfree : m.holder = none) (hlost : m.health = .lost)
      (hprotocol : m.protocol ≠ .inherit) :
      Moved m (some (.tried t)) { m with holder := some t, depth := 0 }
  | unnest (t : ThreadId) (hby : m.holder = some t) (hdepth : 1 < m.depth)
      (hlost : m.health ≠ .lost) : Moved m (some (.gaveUp t)) { m with depth := m.depth - 1 }
  | release (t : ThreadId) (hby : m.holder = some t)
      (hdepth : ¬(m.kind = .recursive ∧ 1 < m.depth)) (hlost : m.health ≠ .lost) :
      Moved m (some (.gaveUp t)) m.release
  | repair (hhealth : m.health = .unrepaired) :
      Moved m (some .repaired) { m with health := .sound }
  | orphan (t : ThreadId) (hby : m.holder = some t) (hrobust : m.robust = true)
      (hlost : m.health ≠ .lost) : Moved m (some (.died t)) { m.freed with health := .orphaned }
  /-- The thread has ended, which is not noticed. -/
  | part (t : ThreadId) (h : ¬(m.holder = some t ∧ m.robust = true ∧ m.health ≠ .lost)) :
      Moved m (some (.died t)) m

/-- The thread would give up a mutex that is not its own and does not look. -/
def Strays (m : Mutex) (t : ThreadId) : Prop :=
  m.checksHolder = false ∧ m.holder ≠ some t

instance (m : Mutex) (t : ThreadId) : Decidable (m.Strays t) :=
  inferInstanceAs (Decidable (_ ∧ _))

/-- What a mutex is made as does not change, and neither do those who will come back. -/
structure Alike (m m' : Mutex) : Prop where
  kind : m'.kind = m.kind
  robust : m'.robust = m.robust
  protocol : m'.protocol = m.protocol
  ceiling : m'.ceiling = m.ceiling
  awaited : m'.awaited = m.awaited

variable {m m' : Mutex} {x? : Option Entry} {c : Caller} {t u : ThreadId}

theorem heldBy_iff : m.heldBy t = true ↔ m.holder = some t := beq_iff_eq

theorem Moved.alike (h : m.Moved x? m') : m.Alike m' := by
  cases h with
  | release =>
      unfold Mutex.release
      split <;> exact ⟨rfl, rfl, rfl, rfl, rfl⟩
  | _ => exact ⟨rfl, rfl, rfl, rfl, rfl⟩

-- A new holder is somebody who takes the mutex, or is stuck in a lost one.
theorem Moved.holder (hm : m.Moved x? m') (hholder : m'.holder = some t)
    (hlost : m'.health ≠ .lost) :
    (m.holder = some t ∧ m.health ≠ .lost) ∨ ∃ x, x? = some x ∧ x.taker? = some t := by
  cases hm with
  | take v => exact Or.inr ⟨_, rfl, hholder⟩
  | adopt v => exact Or.inr ⟨_, rfl, hholder⟩
  | release v =>
      unfold Mutex.release at hholder
      split at hholder <;> exact absurd hholder.symm (Option.some_ne_none t)
  | repair hhealth => exact Or.inl ⟨hholder, by rw [hhealth]; decide⟩
  | orphan v => exact absurd hholder.symm (Option.some_ne_none t)
  | stick v hfree hwas => exact absurd hwas hlost
  | _ => exact Or.inl ⟨hholder, hlost⟩

theorem Moved.stuck (hm : m.Moved x? m') (hlost : m'.health = .lost)
    (hholder : m'.holder ≠ none) :
    (m.health = .lost ∧ m.holder ≠ none) ∨
      m.protocol ≠ .inherit ∧ ∃ t, x? = some (.tried t) := by
  cases hm with
  | take v hfree hsound hwas => exact absurd hlost hwas
  | release v =>
      unfold Mutex.release at hholder
      split at hholder <;> exact absurd rfl hholder
  | stick v hfree hwas hprotocol => exact Or.inr ⟨hprotocol, v, rfl⟩
  | orphan v => exact absurd rfl hholder
  | adopt v => exact absurd (show Health.unrepaired = .lost from hlost) (by decide)
  | repair => exact absurd (show Health.sound = .lost from hlost) (by decide)
  | _ => exact Or.inl ⟨hlost, hholder⟩

-- A thread that ends with a robust mutex does not hold it any more.
theorem Moved.died (hm : m.Moved (some (.died t)) m')
    (hholder : m'.holder = some t) (hrobust : m'.robust = true) : m'.health = .lost := by
  cases hm with
  | orphan => exact absurd hholder.symm (Option.some_ne_none t)
  | part _ h => exact by_contra fun hlost => h ⟨hholder, hrobust, hlost⟩

/-- A mutex and a register agree. -/
structure Agrees (m : Mutex) (b : Register) : Prop where
  held : ∀ t, b.held t = if m.holder = some t then m.depth else 0
  health : b.health = m.health
  /-- A holder has a hold, unless it is stuck in a lost mutex. -/
  depth_pos : ∀ t, m.holder = some t → m.health ≠ .lost → 0 < m.depth
  depth_one : 1 < m.depth → m.kind = .recursive
  sound : m.robust = false → m.health = .sound
  free : m.health = .orphaned → m.holder = none

namespace Agrees

variable {b : Register}

theorem holder (h : m.Agrees b) (ht : 0 < b.held t) : m.holder = some t := by
  rw [h.held] at ht
  by_contra hne
  rw [if_neg hne] at ht
  exact Nat.lt_irrefl 0 ht

-- Only a robust mutex remembers anything.
theorem robust (h : m.Agrees b) (hhealth : m.health ≠ .sound) : m.robust = true := by
  by_contra hne
  exact hhealth (h.sound (Bool.eq_false_iff.mpr hne))

theorem held_self (h : m.Agrees b) (ht : m.holder = some t) : b.held t = m.depth := by
  rw [h.held, if_pos ht]

theorem held_none (h : m.Agrees b) (hfree : m.holder = none) (t : ThreadId) : b.held t = 0 := by
  rw [h.held, hfree, if_neg (Option.some_ne_none t).symm]

theorem held_other (h : m.Agrees b) (ht : m.holder = some t) (hu : u ≠ t) : b.held u = 0 := by
  rw [h.held, if_neg fun hu' => hu (Option.some.inj (hu'.symm.trans ht))]

-- The page of the holder, where all others are blank.
theorem held_set {o : Option ThreadId} {n d : Nat} (ho : o = some t) (hn : n = d)
    (hothers : ∀ v, v ≠ t → b.held v = 0) (v : ThreadId) :
    (b.setHeld t n).held v = if o = some v then d else 0 := by
  rw [Register.setHeld_held, ho, hn]
  by_cases hv : v = t
  · rw [if_pos hv, if_pos (congrArg some hv.symm)]
  · rw [if_neg hv, if_neg fun h => hv (Option.some.inj h).symm, hothers v hv]

theorem held_cleared (hothers : ∀ v, v ≠ t → b.held v = 0) (v : ThreadId) :
    (b.setHeld t 0).held v = 0 := by
  rw [held_set rfl rfl hothers, ite_self]

-- A holder who has one hold, and gives it up.
theorem released (h : m.Agrees b) (hby : m.holder = some t)
    (hdepth : ¬(m.kind = .recursive ∧ 1 < m.depth)) (hlost : m.health ≠ .lost) :
    m.release.Agrees (b.note m.robust (.gaveUp t)) := by
  have hone : b.held t = 1 := by
    have hpos := h.depth_pos t hby hlost
    have hle : ¬1 < m.depth := fun hd => hdepth ⟨h.depth_one hd, hd⟩
    rw [h.held_self hby]
    omega
  have hcleared := held_cleared fun v hv => h.held_other hby hv
  have hnote : b.note m.robust (.gaveUp t)
      = ⟨(b.setHeld t 0).held, if m.health = .unrepaired then .lost else m.health⟩ := by
    simp [Register.note, hone, h.health]
  rw [hnote]
  unfold Mutex.release
  split
  next hbad =>
    exact ⟨hcleared, rfl, fun _ hnone _ => absurd hnone.symm (Option.some_ne_none _),
      fun hd => absurd hd (Nat.not_lt_zero 1),
      fun hr => absurd (h.sound hr) (by rw [hbad]; decide),
      fun (ho : Health.lost = .orphaned) => absurd ho (by decide)⟩
  next =>
    exact ⟨hcleared, rfl, fun _ hnone _ => absurd hnone.symm (Option.some_ne_none _),
      fun hd => absurd hd (Nat.not_lt_zero 1), h.sound, fun _ => rfl⟩

/-- A move goes with its entry: the entry fits, and mutex and register agree again. -/
theorem moved (h : m.Agrees b) (hm : m.Moved x? m') :
    b.Fitting m.robust x?.toList ∧ m'.Agrees (b.after m.robust x?.toList) := by
  cases hm with
  | stay => exact ⟨trivial, h⟩
  | take t hfree hsound hlost =>
      have hheld := h.held_none hfree
      exact ⟨⟨⟨h.health ▸ hsound, fun u _ => hheld u⟩, trivial⟩,
        held_set rfl (congrArg (· + 1) (hheld t)) fun v _ => hheld v, h.health,
        fun _ _ _ => Nat.one_pos, fun hd => absurd hd (Nat.lt_irrefl 1), h.sound,
        fun ho => absurd ho hsound⟩
  | nest t hby hkind =>
      have hothers : ∀ v, v ≠ t → b.held v = 0 := fun v hv => h.held_other hby hv
      have hsound : m.health ≠ .orphaned := fun ho =>
        Option.some_ne_none t (hby.symm.trans (h.free ho))
      exact ⟨⟨⟨h.health ▸ hsound, hothers⟩, trivial⟩,
        held_set hby (congrArg (· + 1) (h.held_self hby)) hothers, h.health,
        fun _ _ _ => Nat.succ_pos _, fun _ => hkind, h.sound, fun ho => absurd ho hsound⟩
  | adopt t hfree horphaned =>
      have hheld := h.held_none hfree
      exact ⟨⟨⟨h.health.trans horphaned, hheld⟩, trivial⟩,
        held_set rfl (congrArg (· + 1) (hheld t)) fun v _ => hheld v, rfl,
        fun _ _ _ => Nat.one_pos, fun hd => absurd hd (Nat.lt_irrefl 1),
        fun hr => absurd (h.sound hr) (by rw [horphaned]; decide),
        fun (ho : Health.unrepaired = .orphaned) => absurd ho (by decide)⟩
  | look t hlost => exact ⟨⟨h.health.trans hlost, trivial⟩, h⟩
  | stick t hfree hlost hprotocol =>
      exact ⟨⟨h.health.trans hlost, trivial⟩,
        fun u => (h.held_none hfree u).trans (ite_self 0).symm, h.health,
        fun _ _ hne => absurd hlost hne, fun hd => absurd hd (Nat.not_lt_zero 1), h.sound,
        fun ho => absurd (hlost.symm.trans ho) (by decide)⟩
  | unnest t hby hdepth hlost =>
      have hself := h.held_self hby
      have hkeeps : ¬(b.health = .unrepaired ∧ b.held t ≤ 1) := fun hk =>
        absurd (hself ▸ hk.2) (Nat.not_le_of_lt hdepth)
      exact ⟨⟨⟨hself ▸ Nat.lt_of_succ_lt hdepth, h.health ▸ hlost⟩, trivial⟩,
        held_set hby (congrArg (· - 1) hself) fun v hv => h.held_other hby hv,
        (if_neg hkeeps).trans h.health, fun _ _ _ => Nat.sub_pos_of_lt hdepth,
        fun _ => h.depth_one hdepth, h.sound, h.free⟩
  | release t hby hdepth hlost =>
      have hpos : 0 < b.held t := h.held_self hby ▸ h.depth_pos t hby hlost
      exact ⟨⟨⟨hpos, h.health ▸ hlost⟩, trivial⟩, h.released hby hdepth hlost⟩
  | repair hhealth =>
      exact ⟨⟨h.health.trans hhealth, trivial⟩, h.held, rfl,
        fun t ht _ => h.depth_pos t ht (by rw [hhealth]; decide), h.depth_one, fun _ => rfl,
        fun (ho : Health.sound = .orphaned) => absurd ho (by decide)⟩
  | orphan t hby hrobust hlost =>
      have hpos : 0 < b.held t := h.held_self hby ▸ h.depth_pos t hby hlost
      have hnote : b.after m.robust [.died t] = ⟨(b.setHeld t 0).held, .orphaned⟩ :=
        if_pos ⟨hrobust, hpos, h.health ▸ hlost⟩
      rw [Option.toList_some, hnote]
      exact ⟨⟨trivial, trivial⟩, held_cleared fun v hv => h.held_other hby hv, rfl,
        fun _ hnone _ => absurd hnone.symm (Option.some_ne_none _),
        fun hd => absurd hd (Nat.not_lt_zero 1),
        fun hr => absurd (hrobust.symm.trans hr) (by decide), fun _ => rfl⟩
  | part t hpart =>
      have hnote : b.after m.robust [.died t] = b :=
        if_neg fun hdies => hpart ⟨h.holder hdies.2.1, hdies.1, h.health ▸ hdies.2.2⟩
      rw [Option.toList_some, hnote]
      exact ⟨⟨trivial, trivial⟩, h⟩

end Agrees

-- What taking a mutex that nobody holds comes to, and taking one's own once more.
theorem takeFree_cases {r : Except Errno Unit} (h : m.takeFree t = .settled m' r) :
    (m.health = .lost ∧ m' = m ∧ r = .error .notRecoverable) ∨
      (m.health = .orphaned ∧ m' = { m.taken t with health := .unrepaired } ∧
        r = .error .ownerDead) ∨
      (m.health ≠ .orphaned ∧ m.health ≠ .lost ∧ m' = m.taken t ∧ r = .ok ()) := by
  unfold takeFree at h
  split at h
  next hlost =>
    rcases Attempt.settled.inj h with ⟨rfl, rfl⟩
    exact Or.inl ⟨hlost, rfl, rfl⟩
  next horphaned =>
    rcases Attempt.settled.inj h with ⟨rfl, rfl⟩
    exact Or.inr (Or.inl ⟨horphaned, rfl, rfl⟩)
  all_goals
    next hhealth =>
      rcases Attempt.settled.inj h with ⟨rfl, rfl⟩
      exact Or.inr (Or.inr ⟨by rw [hhealth]; decide, by rw [hhealth]; decide, rfl, rfl⟩)

theorem nest_cases {r : Except Errno Unit} (h : m.nest = .settled m' r) :
    (m' = { m with depth := m.depth + 1 } ∧ r = .ok ()) ∨ (m' = m ∧ r = .error .tryAgain) := by
  unfold nest at h
  split at h
  next =>
    rcases Attempt.settled.inj h with ⟨rfl, rfl⟩
    exact Or.inl ⟨rfl, rfl⟩
  next =>
    rcases Attempt.settled.inj h with ⟨rfl, rfl⟩
    exact Or.inr ⟨rfl, rfl⟩

-- A ceiling that keeps a thread out leaves everything as it is.
theorem barrier_moved (m : Mutex) (c : Caller) (call : String) :
    m.Moved (Entry.ofTaking t (Errno.answer lockCause call (.error (m.barrier c))).1) m ∧
      m.Moved (Entry.ofTrying t (Errno.answer tryLockCause call (.error (m.barrier c))).1) m := by
  rcases m.barrier_cases c with h | h
  · rw [h]
    exact ⟨.stay, .stay⟩
  · rw [h]
    exact ⟨.stay, .stay⟩

/-- Taking a mutex is one of the moves. -/
theorem lock_moved {r : Except Errno Unit} (call : String) (h : m.lock c = .settled m' r) :
    m.Moved (Entry.ofTaking c.thread (Errno.answer lockCause call r).1) m' := by
  unfold lock at h
  cases hby : m.heldBy c.thread with
  | true =>
      rw [hby, if_pos rfl] at h
      split at h
      next =>
        rcases Attempt.settled.inj h with ⟨rfl, rfl⟩
        exact .stay
      next hkind =>
        rcases nest_cases h with ⟨rfl, rfl⟩ | ⟨rfl, rfl⟩
        · exact .nest c.thread (heldBy_iff.mp hby) hkind
        · exact .stay
      all_goals
        split_ifs at h
        rcases Attempt.settled.inj h with ⟨rfl, rfl⟩
        exact (m.barrier_moved c call).1
  | false =>
      rw [hby, if_neg Bool.false_ne_true] at h
      cases ha : m.admits c with
      | false =>
          rw [ha, Bool.not_false, if_pos rfl] at h
          rcases Attempt.settled.inj h with ⟨rfl, rfl⟩
          exact (m.barrier_moved c call).1
      | true =>
          rw [ha, Bool.not_true, if_neg Bool.false_ne_true] at h
          split at h
          next hfree =>
            rcases takeFree_cases h with
              ⟨-, rfl, rfl⟩ | ⟨horphaned, rfl, rfl⟩ | ⟨hsound, hlost, rfl, rfl⟩
            · exact .stay
            · exact .adopt c.thread hfree horphaned
            · exact .take c.thread hfree hsound hlost
          next => exact absurd h (by simp only [reduceCtorEq, not_false_eq_true])

/-- Taking it without waiting is one of the moves. -/
theorem tryLock_moved {r : Except Errno Unit} (call : String)
    (h : m.tryLock c = .settled m' r) :
    m.Moved (Entry.ofTrying c.thread (Errno.answer tryLockCause call r).1) m' := by
  unfold tryLock at h
  split_ifs at h with hnest hagain ha
  · rw [Bool.and_eq_true, beq_iff_eq] at hnest
    rcases nest_cases h with ⟨rfl, rfl⟩ | ⟨rfl, rfl⟩
    · exact .nest c.thread (heldBy_iff.mp hnest.1) hnest.2
    · exact .stay
  · rcases Attempt.settled.inj h with ⟨rfl, rfl⟩
    -- Busy or a deadlock, and the mutex is left alone.
    unfold retryReason
    split_ifs <;> exact .stay
  · rcases Attempt.settled.inj h with ⟨rfl, rfl⟩
    exact (m.barrier_moved c call).2
  · split at h
    next hfree =>
      unfold tryFree at h
      split_ifs at h with hstuck
      · rcases Attempt.settled.inj h with ⟨rfl, rfl⟩
        exact .stick c.thread hfree hstuck.1 hstuck.2
      · rcases takeFree_cases h with
          ⟨hlost, rfl, rfl⟩ | ⟨horphaned, rfl, rfl⟩ | ⟨hsound, hlost, rfl, rfl⟩
        · exact .look c.thread hlost
        · exact .adopt c.thread hfree horphaned
        · exact .take c.thread hfree hsound hlost
    next =>
      rcases Attempt.settled.inj h with ⟨rfl, rfl⟩
      exact .stay

/-- Giving up a hold is one of the moves, unless somebody strays. -/
theorem unlock_moved {r : Except Errno Unit} (call : String) (h : m.unlock t = (m', r))
    (hstrays : ¬m.Strays t) (hsound : m.robust = false → m.health = .sound) :
    m.Moved (Entry.ofUnlocking t (Errno.answer unlockCause call r).1) m' := by
  unfold unlock at h
  split_ifs at h with hby hdepth hbad hchecks
  all_goals rcases Prod.mk.inj h with ⟨rfl, rfl⟩
  · rw [Bool.and_eq_true, bne_iff_ne] at hby
    exact .unnest t (heldBy_iff.mp hby.1) hdepth.2 hby.2
  · rw [Bool.and_eq_true, bne_iff_ne] at hby
    exact .unnest t (heldBy_iff.mp hby.1) hdepth.2 hby.2
  · rw [Bool.and_eq_true, bne_iff_ne] at hby
    exact .release t (heldBy_iff.mp hby.1) hdepth hby.2
  · exact .stay
  · -- A mutex that does not check is not robust, so it is not lost and the caller strays.
    have hrobust : m.robust = false := by
      unfold checksHolder at hchecks
      simp only [Bool.or_eq_true, not_or, Bool.not_eq_true] at hchecks
      exact hchecks.1.2
    rw [hsound hrobust, Bool.and_eq_true, heldBy_iff] at hby
    exact absurd ⟨Bool.eq_false_iff.mpr hchecks, fun hheld => hby ⟨hheld, rfl⟩⟩ hstrays

/-- Declaring the mutex repaired is one of the moves. -/
theorem makeConsistent_moved {r : Except Errno Unit} (call : String)
    (h : m.makeConsistent = (m', r)) :
    m.Moved (Entry.ofRepairing (Errno.answer consistentCause call r).1) m' := by
  unfold makeConsistent at h
  split_ifs at h with hbad
  all_goals rcases Prod.mk.inj h with ⟨rfl, rfl⟩
  · exact .repair hbad.2
  · exact .stay

/-- The end of a thread is one of the moves. -/
theorem holderEnded_moved (m : Mutex) (t : ThreadId) :
    m.Moved (some (.died t)) (m.holderEnded t) := by
  unfold holderEnded
  split_ifs with hby
  · rw [Bool.and_eq_true, Bool.and_eq_true, bne_iff_ne, heldBy_iff] at hby
    exact .orphan t hby.1.1 hby.1.2 hby.2
  · rw [Bool.and_eq_true, Bool.and_eq_true, bne_iff_ne, heldBy_iff] at hby
    exact .part t fun hdies => hby ⟨⟨hdies.1, hdies.2.1⟩, hdies.2.2⟩

end Mutex

end Host

namespace Mutex

variable {m m' : Mutex} {c : Caller} {t : ThreadId} {r : Answer Unit} {notes : List Note}

-- The same for the calls of the library.
theorem lock_moved (h : m.lock c = some (m', r, notes)) :
    m.raw.Moved (Entry.ofTaking c.thread r) m'.raw := by
  unfold lock at h
  split at h
  next raw r' hraw =>
    rcases ha : Errno.answer lockCause "pthread_mutex_lock" r' with ⟨r₀, notes₀⟩
    have hmoved := Host.Mutex.lock_moved "pthread_mutex_lock" hraw
    rw [ha] at h hmoved
    simp only [Option.some.injEq, Prod.mk.injEq] at h
    rcases h with ⟨rfl, rfl, -⟩
    exact hmoved
  next => exact absurd h (by simp only [reduceCtorEq, not_false_eq_true])

theorem tryLock_moved (m : Mutex) (c : Caller) :
    m.raw.Moved (Entry.ofTrying c.thread (m.tryLock c).2.1) (m.tryLock c).1.raw := by
  rcases Host.Mutex.tryLock_settled m.raw c with ⟨raw, r, hraw⟩
  have heq : m.tryLock c = ({ m with raw := raw },
      Errno.answer tryLockCause "pthread_mutex_trylock" r) := by
    simp only [tryLock, hraw]
  rw [heq]
  exact Host.Mutex.tryLock_moved _ hraw

theorem unlock_moved (m : Mutex) (t : ThreadId) (hstrays : ¬m.raw.Strays t)
    (hsound : m.raw.robust = false → m.raw.health = .sound) :
    m.raw.Moved (Entry.ofUnlocking t (m.unlock t).2.1) (m.unlock t).1.raw :=
  Host.Mutex.unlock_moved "pthread_mutex_unlock" rfl hstrays hsound

theorem consistent_moved (m : Mutex) :
    m.raw.Moved (Entry.ofRepairing m.consistent.2) m.consistent.1.raw :=
  Host.Mutex.makeConsistent_moved "pthread_mutex_consistent" rfl

-- The end of a guard is an unlocking of which the answer is not told.
theorem dropGuard_eq (m : Mutex) (t : ThreadId) : (m.dropGuard t).1 = (m.unlock t).1 := by
  unfold dropGuard
  split
  next m' notes h => rw [h]
  next m' e notes h => rw [h]

-- Which answers there are follows from the holder.
theorem heldBy_other {u : ThreadId} (hholder : m.raw.holder = some u) (hu : u ≠ t) :
    m.raw.heldBy t = false := by
  rw [Bool.eq_false_iff, ne_eq, Host.Mutex.heldBy_iff, hholder]
  exact fun h => hu (Option.some.inj h)

theorem heldBy_nobody (hfree : m.raw.holder = none) : m.raw.heldBy t = false := by
  rw [Bool.eq_false_iff, ne_eq, Host.Mutex.heldBy_iff, hfree]
  exact fun h => Option.some_ne_none t h.symm

/-- A mutex that nobody holds answers with its health. -/
theorem lock_free (hfree : m.raw.holder = none) (ha : m.raw.admits c = true) :
    ∃ m' notes, m.lock c = some (m', m.raw.health.greeting, notes) := by
  have hraw : m.raw.lock c = m.raw.takeFree c.thread := by
    simp [Host.Mutex.lock, heldBy_nobody hfree, ha, hfree]
  unfold lock
  rw [hraw, Host.Mutex.takeFree]
  cases m.raw.health <;> exact ⟨_, _, rfl⟩

theorem tryLock_free (hfree : m.raw.holder = none) (ha : m.raw.admits c = true) :
    (m.tryLock c).2.1 = m.raw.health.greeting := by
  have hraw : m.raw.tryLock c = m.raw.tryFree c.thread := by
    simp [Host.Mutex.tryLock, heldBy_nobody hfree, ha, hfree]
  unfold tryLock
  rw [hraw, Host.Mutex.tryFree]
  split_ifs with hstuck
  · rw [hstuck.1]
    rfl
  · rw [Host.Mutex.takeFree]
    cases m.raw.health <;> rfl

/-- The holder of a recursive mutex takes it once more. -/
theorem lock_nests (hby : m.raw.holder = some c.thread) (hkind : m.raw.kind = .recursive)
    (hdepth : m.raw.depth < Host.Mutex.depthLimit) :
    ∃ m', m.lock c = some (m', .ok (), []) := by
  have hraw : m.raw.lock c = .settled { m.raw with depth := m.raw.depth + 1 } (.ok ()) := by
    simp [Host.Mutex.lock, Host.Mutex.heldBy_iff.mpr hby, hkind, Host.Mutex.nest, hdepth]
  unfold lock
  rw [hraw]
  exact ⟨_, rfl⟩

theorem tryLock_nests (hby : m.raw.holder = some c.thread) (hkind : m.raw.kind = .recursive)
    (hdepth : m.raw.depth < Host.Mutex.depthLimit) : (m.tryLock c).2.1 = .ok () := by
  have hraw : m.raw.tryLock c = .settled { m.raw with depth := m.raw.depth + 1 } (.ok ()) := by
    simp [Host.Mutex.tryLock, Host.Mutex.heldBy_iff.mpr hby, hkind, Host.Mutex.nest, hdepth]
  unfold tryLock
  rw [hraw]
  rfl

/-- The holder of an error-checking mutex is told that it waits for itself. -/
theorem lock_again (hby : m.raw.holder = some c.thread) (hkind : m.raw.kind = .errorCheck) :
    m.lock c = some (m, .error .deadLock, []) := by
  have hraw : m.raw.lock c = .settled m.raw (.error .deadlock) := by
    simp [Host.Mutex.lock, Host.Mutex.heldBy_iff.mpr hby, hkind]
  unfold lock
  rw [hraw]
  rfl

/-- If it only tries, a plain one tells it that the mutex is taken. -/
theorem tryLock_again (hby : m.raw.holder = some c.thread) (hkind : m.raw.kind = .errorCheck) :
    m.tryLock c = (m, .error (if m.raw.robust = true ∨ m.raw.protocol ≠ .none then .deadLock
      else .busy), []) := by
  have hraw : m.raw.tryLock c = .settled m.raw (.error m.raw.retryReason) := by
    simp [Host.Mutex.tryLock, Host.Mutex.heldBy_iff.mpr hby, hkind]
  have hsees : (m.raw.robust || m.raw.protocol != .none) = true ↔
      m.raw.robust = true ∨ m.raw.protocol ≠ .none := by
    rw [Bool.or_eq_true, bne_iff_ne]
  unfold tryLock
  rw [hraw, Host.Mutex.retryReason]
  by_cases hplain : m.raw.robust = true ∨ m.raw.protocol ≠ .none
  · rw [if_pos hplain, if_pos (hsees.mpr hplain)]
    rfl
  · rw [if_neg hplain, if_neg fun h => hplain (hsees.mp h)]
    rfl

/-- Whoever wants a mutex that somebody else holds waits for it. -/
theorem lock_taken {u : ThreadId} (hholder : m.raw.holder = some u) (hu : u ≠ c.thread)
    (ha : m.raw.admits c = true) : m.lock c = none := by
  have hraw : m.raw.lock c = .waiting := by
    simp [Host.Mutex.lock, heldBy_other hholder hu, ha, hholder]
  unfold lock
  rw [hraw]

/-- Or is told that it is taken. -/
theorem tryLock_taken {u : ThreadId} (hholder : m.raw.holder = some u) (hu : u ≠ c.thread)
    (ha : m.raw.admits c = true) : m.tryLock c = (m, .error .busy, []) := by
  have hraw : m.raw.tryLock c = .settled m.raw (.error .busy) := by
    simp [Host.Mutex.tryLock, heldBy_other hholder hu, ha, hholder]
  unfold tryLock
  rw [hraw]
  rfl

/-- A ceiling that does not admit the caller says why, whether the mutex is taken or
    not. -/
theorem tryLock_barred (hby : m.raw.heldBy c.thread = false) (ha : m.raw.admits c = false) :
    m.tryLock c = (m, .error (m.barrier c), []) := by
  have hraw : m.raw.tryLock c = .settled m.raw (.error (m.raw.barrier c)) := by
    simp [Host.Mutex.tryLock, hby, ha]
  unfold tryLock barrier
  rw [hraw]
  rcases m.raw.barrier_cases c with h | h
  · rw [h]
    rfl
  · rw [h]
    rfl

theorem lock_barred (hby : m.raw.heldBy c.thread = false) (ha : m.raw.admits c = false) :
    m.lock c = some (m, .error (m.barrier c), []) := by
  have hraw : m.raw.lock c = .settled m.raw (.error (m.raw.barrier c)) := by
    simp [Host.Mutex.lock, hby, ha]
  unfold lock barrier
  rw [hraw]
  rcases m.raw.barrier_cases c with h | h
  · rw [h]
    rfl
  · rw [h]
    rfl

/-- A mutex that checks its holder is not given up by anybody else. -/
theorem unlock_stranger (hchecks : m.raw.checksHolder = true)
    (h : m.raw.holder = some t → m.raw.health = .lost) :
    m.unlock t = (m, .error .permissionDenied, []) := by
  have hby : (m.raw.heldBy t && m.raw.health != .lost) = false := by
    rw [Bool.eq_false_iff, ne_eq, Bool.and_eq_true, bne_iff_ne, Host.Mutex.heldBy_iff]
    exact fun hby => hby.2 (h hby.1)
  have hraw : m.raw.unlock t = (m.raw, .error .notPermitted) := by
    simp [Host.Mutex.unlock, hby, hchecks]
  unfold unlock
  rw [hraw]
  rfl

/-- Its holder gives up a hold of it. -/
theorem unlock_holder (hby : m.raw.holder = some t) (hlost : m.raw.health ≠ .lost) :
    Entry.ofUnlocking t (m.unlock t).2.1 = some (.gaveUp t) := by
  have howns : (m.raw.heldBy t && m.raw.health != .lost) = true := by
    rw [Bool.and_eq_true, bne_iff_ne, Host.Mutex.heldBy_iff]
    exact ⟨hby, hlost⟩
  unfold unlock Host.Mutex.unlock
  rw [if_pos howns]
  split_ifs <;> rfl

/-- A mutex is declared repaired if it is in need of it. -/
theorem consistent_unrepaired (hrobust : m.raw.robust = true)
    (hbad : m.raw.health = .unrepaired) :
    m.consistent = ({ m with raw := { m.raw with health := .sound } }, .ok ()) := by
  unfold consistent Host.Mutex.makeConsistent
  rw [if_pos ⟨hrobust, hbad⟩]
  rfl

theorem consistent_refused (hgood : m.raw.health ≠ .unrepaired) :
    m.consistent = (m, .error .invalidParam) := by
  unfold consistent Host.Mutex.makeConsistent
  rw [if_neg fun h => hgood h.2]
  rfl

theorem destroy_eq (m : Mutex) :
    m.destroy = if m.raw.robust = false ∧ (m.raw.holder ≠ none ∨ 0 < m.raw.awaited) then
      .error .mutexIsLocked else .ok () := by
  unfold destroy Host.Mutex.destroy
  cases m.raw.robust <;> cases m.raw.holder <;> cases m.raw.awaited <;> rfl

end Mutex

end HostLayer
