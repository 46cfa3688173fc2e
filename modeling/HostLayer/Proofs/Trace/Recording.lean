import HostLayer.Proofs.Schedule
import HostLayer.Trace.Recorder
import Mathlib.Logic.Function.Basic

/-!
# Recordings

Any number of threads that record stamps with one recorder, and any number that
wait for a full buffer, moving one at a time in any order.

Every thread makes one step of its routine at a time. The host takes part: a
claim may fail although the word is the one that was seen, a sleeper may wake
for no reason, and the sleepers may stand in any order.

Two books are kept beside the recorder, and nothing looks at them. The claims
are entered in the order in which they are made, each with the slot that was
read from the word. As long as `count` claims fill a buffer, the claims from
`k * count` on are those of the buffer that is the `k`th to be filled. A thread
that closes a buffer keeps the number of its claim, and when it has set the
token the buffer is entered as announced.

`Happened` takes the step function apart. Three kinds of moves matter to the
slots and the books, the claim, the store and the announcement, and one matters
to the token, which is taken by a waiter. Everything else is quiet.

## Main definitions

* `Recording`: A recorder with the threads at it and the books.
* `Recording.Act`, `Recording.Seen`, `Recording.step`: What can happen, what is
  seen of it, and the recording after it.
* `Recording.fill`: The claims of a buffer.
* `Recording.Happened`: What an act does.

## Theorems

* `Recorder.unpack_pack`: A word gives back what was packed into it.
* `Recorder.successor_count`: The slot of the next claim.
* `BinarySemaphore.step_goto_token`, `BinarySemaphore.step_done_token`: What a
  step does to the token, whatever the mutex is like.
* `Recording.step_happened`: A step does what acts do.
-/

namespace HostLayer

namespace Recorder

theorem pack_toNat (b p : Nat) (hb : b < 2) (hp : p < word32) :
    (pack b p).toNat = word32 * b + p := by
  have hb' : b % word64 = b := Nat.mod_eq_of_lt (Nat.lt_trans hb (by decide))
  have hp' : p % word64 = p := Nat.mod_eq_of_lt (Nat.lt_trans hp (by decide))
  have hshift : b <<< 32 = word32 * b := by
    rw [Nat.shiftLeft_eq, Nat.mul_comm]
    rfl
  have hlimit : word32 * b % word64 = word32 * b := by
    unfold word32 word64
    omega
  unfold pack
  rw [UInt64.toNat_or, UInt64.toNat_shiftLeft, UInt64.toNat_ofNat', UInt64.toNat_ofNat']
  change (b % word64) <<< 32 % word64 ||| p % word64 = _
  rw [hb', hp', hshift, hlimit, ← hshift, ← Nat.shiftLeft_add_eq_or_of_lt hp, hshift]

/-- A word gives back the buffer and the position that were packed into it. -/
theorem unpack_pack (b p : Nat) (hb : b < 2) (hp : p < word32) : unpack (pack b p) = (b, p) := by
  have hn := pack_toNat b p hb hp
  unfold unpack
  rw [Prod.mk.injEq]
  constructor
  · rw [UInt64.toNat_and, UInt64.toNat_shiftRight, hn]
    change (word32 * b + p) >>> 32 &&& 1 = b
    rw [Nat.and_one_is_mod, Nat.shiftRight_eq_div_pow]
    change (word32 * b + p) / word32 % 2 = b
    rw [Nat.mul_add_div (by decide), Nat.div_eq_of_lt hp, Nat.add_zero, Nat.mod_eq_of_lt hb]
  · rw [UInt64.toNat_and, hn]
    change (word32 * b + p) &&& (2 ^ 32 - 1) = p
    rw [Nat.and_two_pow_sub_one_eq_mod]
    change (word32 * b + p) % word32 = p
    rw [Nat.mul_add_mod, Nat.mod_eq_of_lt hp]

-- The number after `n`, counted in buffers of `count` slots.
theorem succ_div_mod (count n : Nat) (hc : 0 < count) :
    (n % count + 1 = count ∧ (n + 1) / count = n / count + 1 ∧ (n + 1) % count = 0) ∨
    (n % count + 1 < count ∧ (n + 1) / count = n / count ∧ (n + 1) % count = n % count + 1) := by
  have hn := Nat.div_add_mod n count
  have hlt := Nat.mod_lt n hc
  by_cases h : n % count + 1 = count
  · have hnext : n + 1 = count * (n / count + 1) := by
      rw [Nat.mul_add, Nat.mul_one]
      omega
    refine Or.inl ⟨h, ?_, ?_⟩
    · rw [hnext, Nat.mul_div_cancel_left _ hc]
    · rw [hnext, Nat.mul_mod_right]
  · have hnext : n + 1 = (n % count + 1) + count * (n / count) := by omega
    have hsmall : n % count + 1 < count := by omega
    refine Or.inr ⟨hsmall, ?_, ?_⟩
    · rw [hnext, Nat.add_mul_div_left _ _ hc, Nat.div_eq_of_lt hsmall, Nat.zero_add]
    · rw [hnext, Nat.add_mul_mod_self_left, Nat.mod_eq_of_lt hsmall]

/-- The slot after the one of the `n`th claim is the one of the next claim. -/
theorem successor_count (count n : Nat) (hc : 0 < count) :
    successor count (n / count % 2) (n % count) = ((n + 1) / count % 2, (n + 1) % count) := by
  unfold successor other
  rcases succ_div_mod count n hc with ⟨h, hdiv, hmod⟩ | ⟨h, hdiv, hmod⟩
  · rw [if_pos h, hdiv, hmod, Prod.mk.injEq]
    exact ⟨by omega, rfl⟩
  · rw [if_neg (Nat.ne_of_lt h), hdiv, hmod]

/-- The word after a claim. -/
theorem unpack_advance (count n : Nat) (w : UInt64) (hc : 0 < count) (hlimit : count < word32)
    (h : unpack w = (n / count % 2, n % count)) :
    unpack (advance count w) = ((n + 1) / count % 2, (n + 1) % count) := by
  unfold advance
  rw [h]
  simp only [successor_count count n hc]
  exact unpack_pack _ _ (Nat.mod_lt _ (by decide)) (Nat.lt_trans (Nat.mod_lt _ hc) hlimit)

end Recorder

namespace BinarySemaphore

-- After a wait nothing has been taken yet.
theorem afterWait_ne (use : Use) (r : Answer Unit) :
    afterWait use r ≠ .announcing ∧ afterWait use r ≠ .leaving (.ok ()) := by
  unfold afterWait
  split <;> simp only [ne_eq, reduceCtorEq, not_false_eq_true, Place.leaving.injEq, and_self]

/-- Only one step of a call brings the token, and a call that goes on to say that
    it has been successful has put the token in or has found it. -/
theorem step_goto_token (c : Caller) (use : Use) (clock : Clock) (s s' : BinarySemaphore)
    (p p' : Place) (notes : List Note) (h : step c use clock s p = .goto s' p' notes) :
    (use = .post ∧ p = .testing) ∨
    (¬(use = .post ∧ p = .testing) ∧ (s'.flag = true → s.flag = true) ∧ p' ≠ .announcing ∧
      (p' = .leaving (.ok ()) → p = .announcing ∨ s.flag = true)) := by
  by_cases hpost : use = .post ∧ p = .testing
  · exact Or.inl hpost
  refine Or.inr ⟨hpost, ?_⟩
  cases p with
  | entering =>
      simp only [step] at h
      split at h
      next => exact absurd h (by simp only [reduceCtorEq, not_false_eq_true])
      next =>
        simp only [Step.goto.injEq] at h
        rcases h with ⟨rfl, rfl, _⟩
        simp
      next => exact absurd h (by simp only [reduceCtorEq, not_false_eq_true])
  | testing =>
      cases use with
      | post => exact absurd ⟨rfl, rfl⟩ hpost
      | wait | tryWait | timedWait =>
          simp only [step, whenEmpty] at h
          split at h
          next hf =>
            simp only [Step.goto.injEq] at h
            rcases h with ⟨rfl, rfl, _⟩
            simp [hf]
          next =>
            simp only [Step.goto.injEq] at h
            rcases h with ⟨rfl, rfl, _⟩
            simp
  | announcing =>
      simp only [step, Step.goto.injEq] at h
      rcases h with ⟨rfl, rfl, _⟩
      simp
  | waiting q =>
      simp only [step] at h
      rcases hc : Condition.step c (deadline? use) clock s.waitState q with
        ⟨w, q', n⟩ | ⟨w, r, n⟩ | _
      · simp only [hc, Step.lift, Step.goto.injEq] at h
        rcases h with ⟨rfl, rfl, _⟩
        simp [withWaitState]
      · simp only [hc, Step.lift, Step.goto.injEq] at h
        rcases h with ⟨rfl, rfl, _⟩
        exact ⟨fun hf => hf, (afterWait_ne use r).1, fun hr => absurd hr (afterWait_ne use r).2⟩
      · simp only [hc, Step.lift, reduceCtorEq] at h
  | lastLook =>
      simp only [step] at h
      split at h
      next hf =>
        simp only [Step.goto.injEq] at h
        rcases h with ⟨rfl, rfl, _⟩
        simp [hf]
      next =>
        simp only [Step.goto.injEq] at h
        rcases h with ⟨rfl, rfl, _⟩
        simp
  | leaving r =>
      simp only [step] at h
      split at h
      next => exact absurd h (by simp only [reduceCtorEq, not_false_eq_true])
      next => exact absurd h (by simp only [reduceCtorEq, not_false_eq_true])

/-- The end of a call leaves the token alone, and is a success only where that
    was settled before. -/
theorem step_done_token (c : Caller) (use : Use) (clock : Clock) (s s' : BinarySemaphore)
    (p : Place) (r : Answer Unit) (notes : List Note)
    (h : step c use clock s p = .done s' r notes) :
    s'.flag = s.flag ∧ (r = .ok () → p = .leaving (.ok ())) := by
  cases p with
  | entering =>
      simp only [step] at h
      split at h
      next => exact absurd h (by simp only [reduceCtorEq, not_false_eq_true])
      next => exact absurd h (by simp only [reduceCtorEq, not_false_eq_true])
      next =>
        simp only [Step.done.injEq] at h
        rcases h with ⟨rfl, rfl, _⟩
        exact ⟨rfl, fun hr => absurd hr (by simp only [reduceCtorEq, not_false_eq_true])⟩
  | testing =>
      simp only [step] at h
      split at h
      next => exact absurd h (by simp only [reduceCtorEq, not_false_eq_true])
      next => split at h <;> exact absurd h (by simp only [reduceCtorEq, not_false_eq_true])
  | announcing => exact absurd h (by simp only [step, reduceCtorEq, not_false_eq_true])
  | waiting q =>
      simp only [step] at h
      rcases hc : Condition.step c (deadline? use) clock s.waitState q with
        ⟨w, q', n⟩ | ⟨w, r, n⟩ | _
      · simp only [hc, Step.lift, reduceCtorEq] at h
      · simp only [hc, Step.lift, reduceCtorEq] at h
      · simp only [hc, Step.lift, reduceCtorEq] at h
  | lastLook =>
      simp only [step] at h
      split at h <;> exact absurd h (by simp only [reduceCtorEq, not_false_eq_true])
  | leaving q =>
      simp only [step] at h
      split at h
      next =>
        simp only [Step.done.injEq] at h
        rcases h with ⟨rfl, rfl, _⟩
        exact ⟨rfl, fun hr => by rw [hr]⟩
      next =>
        simp only [Step.done.injEq] at h
        rcases h with ⟨rfl, rfl, _⟩
        exact ⟨rfl, fun hr => absurd hr (by simp only [reduceCtorEq, not_false_eq_true])⟩

end BinarySemaphore

/-- The claim of a slot for a stamp. -/
structure Claim where
  buffer : Nat
  pos : Nat
  stamp : UInt64
  deriving DecidableEq

/-- What a thread does with a recorder. -/
inductive Role
  | idle
  /-- It records the stamp `ns`. Its claim is the `n`th one, from when it has made
      it. -/
  | recording (ns : UInt64) (n : Nat) (p : Recorder.Place)
  /-- It waits for a full buffer. -/
  | waiting (deadline : Timer) (p : BinarySemaphore.Place)

/-- A recorder with the threads at it, the claims that have been made, and the
    buffers that have been announced to be full. -/
structure Recording where
  recorder : Recorder
  role : ThreadId → Role
  claims : List Claim
  announced : List Nat

namespace Recording

/-- What can happen. -/
inductive Act
  /-- A thread starts to record a stamp. -/
  | record (t : ThreadId) (ns : UInt64)
  /-- A thread starts to wait for a full buffer. -/
  | wait (t : ThreadId) (deadline : Timer)
  /-- A thread makes one step, at a time that `clock` shows. -/
  | move (c : Caller) (clock : Clock)
  /-- A claim fails for no reason. -/
  | fail (t : ThreadId)
  /-- The host wakes a thread for no reason. -/
  | wake (t : ThreadId)
  /-- The host puts the sleepers in another order. -/
  | arrange (order : List ThreadId)

/-- What is seen of a step. -/
inductive Seen
  /-- A thread that has waited for a full buffer comes back. -/
  | returned (t : ThreadId) (r : Answer Unit)

/-- A recorder that nobody uses yet. -/
def start (r : Recorder) : Recording := ⟨r, fun _ => .idle, [], []⟩

/-- The claims of the buffer that is the `k`th to be filled. -/
def fill (s : Recording) (k : Nat) : List Claim :=
  (s.claims.drop (k * s.recorder.count)).take s.recorder.count

/-- The recording with another state of the recorder and another role of a
    thread. -/
def put (s : Recording) (r : Recorder) (t : ThreadId) (ρ : Role) : Recording :=
  { s with recorder := r, role := Function.update s.role t ρ }

/-- The books after a thread with the stamp `ns` and the `n`th claim has gone on
    from one place to another, and the number of its claim then. -/
def booked (s : Recording) (ns : UInt64) (n : Nat) :
    Recorder.Place → Recorder.Place → Recording × Nat
  | .claiming _, .storing buffer pos =>
      ({ s with claims := s.claims ++ [⟨buffer, pos, ns⟩] }, s.claims.length)
  | .waking .testing, _ =>
      ({ s with announced := s.announced ++ [n / s.recorder.count] }, n)
  | _, _ => (s, n)

/-- The recording with other sleepers, or the same in another order. -/
def withSleepers (s : Recording) (sleepers : List ThreadId) : Recording :=
  let mark := s.recorder.filledMark
  let condition := { mark.condition with sleepers := sleepers }
  { s with recorder := s.recorder.withMark { mark with condition := condition } }

/-- The recording after an act, and what is seen of it. -/
def step (s : Recording) : Act → Option (Recording × List Seen)
  | .record t ns =>
      match s.role t with
      | .idle => some (s.put s.recorder t (.recording ns 0 .looking), [])
      | _ => none
  | .wait t deadline =>
      match s.role t with
      | .idle => some (s.put s.recorder t (.waiting deadline .entering), [])
      | _ => none
  | .move c clock =>
      match s.role c.thread with
      | .recording ns n p =>
          match s.recorder.step c clock ns p with
          | .goto r q _ =>
              let (s', n') := s.booked ns n p q
              some (s'.put r c.thread (.recording ns n' q), [])
          | .done r _ _ => some (s.put r c.thread .idle, [])
          | .waits => none
      | .waiting deadline p =>
          match BinarySemaphore.step c (.timedWait deadline) clock s.recorder.filledMark p with
          | .goto mark q _ =>
              some (s.put (s.recorder.withMark mark) c.thread (.waiting deadline q), [])
          | .done mark r _ =>
              some (s.put (s.recorder.withMark mark) c.thread .idle, [.returned c.thread r])
          | .waits => none
      | .idle => none
  | .fail t =>
      match s.role t with
      | .recording ns n (.claiming _) =>
          some (s.put s.recorder t (.recording ns n s.recorder.claimFailed), [])
      | _ => none
  | .wake t => some (s.withSleepers (s.recorder.filledMark.condition.remove t).sleepers, [])
  | .arrange order =>
      if order.Perm s.recorder.filledMark.condition.sleepers then some (s.withSleepers order, [])
      else none

end Recording

/-- A quiet move of the thread `t` at the recorder `r`: its role before and
    after, and what is seen. -/
inductive Role.Goes (r : Recorder) (t : ThreadId) : Role → Role → List Recording.Seen → Prop
  | wait (d : Timer) : Goes r t .idle (.waiting d .entering) []
  | look (ns : UInt64) (n : Nat) :
      Goes r t (.recording ns n .looking) (.recording ns n (.claiming r.word)) []
  /-- The claim has failed. -/
  | again (ns : UInt64) (n : Nat) (w : UInt64) :
      Goes r t (.recording ns n (.claiming w)) (.recording ns n (.claiming r.word)) []
  /-- The stamp was the last one of its buffer. -/
  | close (ns : UInt64) (n i : Nat) (h : i + 1 = r.count) :
      Goes r t (.recording ns n (.publishing i)) (.recording ns n (.waking .entering)) []
  | leave (ns : UInt64) (n i : Nat) (h : i + 1 ≠ r.count) :
      Goes r t (.recording ns n (.publishing i)) .idle []
  | post (ns : UInt64) (n : Nat) (p q : BinarySemaphore.Place) (h : p ≠ .testing) :
      Goes r t (.recording ns n (.waking p)) (.recording ns n (.waking q)) []
  | posted (ns : UInt64) (n : Nat) (p : BinarySemaphore.Place) :
      Goes r t (.recording ns n (.waking p)) .idle []
  /-- A call that waits goes on. It announces nothing, and before it can say that
      it has been successful the token is there. -/
  | heed (d : Timer) (p q : BinarySemaphore.Place) (h : q ≠ .announcing)
      (hok : q = .leaving (.ok ()) → p = .announcing ∨ r.filledMark.flag = true) :
      Goes r t (.waiting d p) (.waiting d q) []
  | back (d : Timer) (p : BinarySemaphore.Place) (a : Answer Unit)
      (hok : a = .ok () → p = .leaving (.ok ())) :
      Goes r t (.waiting d p) .idle [.returned t a]

/-- Two recorders have the same word and the same stamps, and the first one has
    no token unless the second one has. -/
structure Recorder.Alike (r r₀ : Recorder) : Prop where
  count_eq : r.count = r₀.count
  word_eq : r.word = r₀.word
  slot_eq : r.slot = r₀.slot
  token : r.filledMark.flag = true → r₀.filledMark.flag = true

theorem Recorder.alike_self (r : Recorder) : r.Alike r := ⟨rfl, rfl, rfl, fun h => h⟩

theorem Recorder.alike_withMark (r : Recorder) (m : BinarySemaphore)
    (h : m.flag = true → r.filledMark.flag = true) : (r.withMark m).Alike r :=
  ⟨rfl, rfl, rfl, h⟩

namespace Recording

/-- What an act does. -/
inductive Happened (s : Recording) : Act → Recording → List Seen → Prop
  | record (t : ThreadId) (ns : UInt64) (h : s.role t = .idle) :
      Happened s (.record t ns) (s.put s.recorder t (.recording ns 0 .looking)) []
  /-- The word is replaced, and the slot that was read from it is claimed. -/
  | claim (c : Caller) (clock : Clock) (ns : UInt64) (n b i : Nat)
      (h : s.role c.thread = .recording ns n (.claiming s.recorder.word))
      (hbi : Recorder.unpack s.recorder.word = (b, i)) :
      Happened s (.move c clock)
        ({ s with claims := s.claims ++ [Claim.mk b i ns] }.put
          { s.recorder with word := Recorder.advance s.recorder.count s.recorder.word } c.thread
          (.recording ns s.claims.length (.storing b i))) []
  | store (c : Caller) (clock : Clock) (ns : UInt64) (n b i : Nat)
      (h : s.role c.thread = .recording ns n (.storing b i)) :
      Happened s (.move c clock)
        (s.put (s.recorder.setSlot b i ns) c.thread (.recording ns n (.publishing i))) []
  /-- The token is set. -/
  | announce (c : Caller) (clock : Clock) (ns : UInt64) (n : Nat) (m : BinarySemaphore)
      (q : BinarySemaphore.Place) (h : s.role c.thread = .recording ns n (.waking .testing)) :
      Happened s (.move c clock)
        ({ s with announced := s.announced ++ [n / s.recorder.count] }.put
          (s.recorder.withMark m) c.thread (.recording ns n (.waking q))) []
  | quiet (a : Act) (t : ThreadId) (r : Recorder) (ρ : Role) (es : List Seen)
      (hr : r.Alike s.recorder) (h : (s.role t).Goes s.recorder t ρ es) :
      Happened s a (s.put r t ρ) es
  /-- The host does something to those who sleep. -/
  | host (a : Act) (r : Recorder) (hr : r.Alike s.recorder) :
      Happened s a { s with recorder := r } []

-- Nothing is entered at the other places of the call that sets the token.
theorem booked_waking (s : Recording) (ns : UInt64) (n : Nat) (p : BinarySemaphore.Place)
    (q : Recorder.Place) (h : p ≠ .testing) : s.booked ns n (.waking p) q = (s, n) := by
  cases p with
  | testing => exact absurd rfl h
  | _ => rfl

-- A step of a thread that records.
theorem move_recording (s s' : Recording) (c : Caller) (clock : Clock) (es : List Seen)
    (ns : UInt64) (n : Nat) (p : Recorder.Place) (hp : s.role c.thread = .recording ns n p)
    (h : s.step (.move c clock) = some (s', es)) : s.Happened (.move c clock) s' es := by
  simp only [step, hp] at h
  cases p with
  | looking =>
      simp only [Recorder.step, booked, Option.some.injEq, Prod.mk.injEq] at h
      rcases h with ⟨rfl, rfl⟩
      exact .quiet _ _ _ _ _ s.recorder.alike_self (hp ▸ .look ns n)
  | claiming w =>
      by_cases hw : s.recorder.word = w
      · simp only [Recorder.step, hw, if_true, booked, Option.some.injEq, Prod.mk.injEq] at h
        rcases h with ⟨rfl, rfl⟩
        subst hw
        exact .claim c clock ns n _ _ hp rfl
      · simp only [Recorder.step, hw, if_false, Recorder.claimFailed, booked, Option.some.injEq,
          Prod.mk.injEq] at h
        rcases h with ⟨rfl, rfl⟩
        exact .quiet _ _ _ _ _ s.recorder.alike_self (hp ▸ .again ns n w)
  | storing b i =>
      simp only [Recorder.step, booked, Option.some.injEq, Prod.mk.injEq] at h
      rcases h with ⟨rfl, rfl⟩
      exact .store c clock ns n b i hp
  | publishing i =>
      by_cases hi : i + 1 = s.recorder.count
      · simp only [Recorder.step, hi, if_true, booked, Option.some.injEq, Prod.mk.injEq] at h
        rcases h with ⟨rfl, rfl⟩
        exact .quiet _ _ _ _ _ ⟨rfl, rfl, rfl, fun hf => hf⟩ (hp ▸ .close ns n i hi)
      · simp only [Recorder.step, hi, if_false, Option.some.injEq, Prod.mk.injEq] at h
        rcases h with ⟨rfl, rfl⟩
        exact .quiet _ _ _ _ _ ⟨rfl, rfl, rfl, fun hf => hf⟩ (hp ▸ .leave ns n i hi)
  | waking p =>
      rcases hs : BinarySemaphore.step c .post clock s.recorder.filledMark p with
        ⟨m, q, notes⟩ | ⟨m, r, notes⟩ | _
      · simp only [Recorder.step, hs, Step.lift] at h
        rcases BinarySemaphore.step_goto_token c .post clock _ m p q notes hs with
          ⟨_, rfl⟩ | ⟨hno, hflag, _⟩
        · simp only [booked, Option.some.injEq, Prod.mk.injEq] at h
          rcases h with ⟨rfl, rfl⟩
          exact .announce c clock ns n m q hp
        · have hbook := s.booked_waking ns n p (.waking q) (fun hp' => hno ⟨rfl, hp'⟩)
          simp only [hbook, Option.some.injEq, Prod.mk.injEq] at h
          rcases h with ⟨rfl, rfl⟩
          exact .quiet _ _ _ _ _ (s.recorder.alike_withMark m hflag)
            (hp ▸ .post ns n p q (fun hp' => hno ⟨rfl, hp'⟩))
      · have hflag := (BinarySemaphore.step_done_token c .post clock _ m p r notes hs).1
        cases r with
        | ok u =>
            simp only [Recorder.step, hs, Step.lift, Option.some.injEq, Prod.mk.injEq] at h
            rcases h with ⟨rfl, rfl⟩
            exact .quiet _ _ _ _ _ (s.recorder.alike_withMark m (fun hf => hflag ▸ hf))
              (hp ▸ .posted ns n p)
        | error e =>
            simp only [Recorder.step, hs, Step.lift, Option.some.injEq, Prod.mk.injEq] at h
            rcases h with ⟨rfl, rfl⟩
            exact .quiet _ _ _ _ _ (s.recorder.alike_withMark m (fun hf => hflag ▸ hf))
              (hp ▸ .posted ns n p)
      · simp only [Recorder.step, hs, Step.lift, reduceCtorEq] at h

-- A step of a thread that waits.
theorem move_waiting (s s' : Recording) (c : Caller) (clock : Clock) (es : List Seen) (d : Timer)
    (p : BinarySemaphore.Place) (hp : s.role c.thread = .waiting d p)
    (h : s.step (.move c clock) = some (s', es)) : s.Happened (.move c clock) s' es := by
  simp only [step, hp] at h
  split at h
  next m q notes hs =>
    simp only [Option.some.injEq, Prod.mk.injEq] at h
    rcases h with ⟨rfl, rfl⟩
    rcases BinarySemaphore.step_goto_token c _ clock _ m p q notes hs with
      ⟨huse, _⟩ | ⟨_, hflag, hq, hok⟩
    · exact absurd huse (by simp only [reduceCtorEq, not_false_eq_true])
    · exact .quiet _ _ _ _ _ (s.recorder.alike_withMark m hflag) (hp ▸ .heed d p q hq hok)
  next m r notes hs =>
    simp only [Option.some.injEq, Prod.mk.injEq] at h
    rcases h with ⟨rfl, rfl⟩
    rcases BinarySemaphore.step_done_token c _ clock _ m p r notes hs with ⟨hflag, hok⟩
    exact .quiet _ _ _ _ _ (s.recorder.alike_withMark m (fun hf => hflag ▸ hf))
      (hp ▸ .back d p r hok)
  next => exact absurd h (by simp only [reduceCtorEq, not_false_eq_true])

/-- A step does what acts do. -/
theorem step_happened (s s' : Recording) (a : Act) (es : List Seen)
    (h : s.step a = some (s', es)) : s.Happened a s' es := by
  cases a with
  | record t ns =>
      simp only [step] at h
      split at h
      next hidle =>
        simp only [Option.some.injEq, Prod.mk.injEq] at h
        rcases h with ⟨rfl, rfl⟩
        exact .record t ns hidle
      next => exact absurd h (by simp only [reduceCtorEq, not_false_eq_true])
  | wait t d =>
      simp only [step] at h
      split at h
      next hidle =>
        simp only [Option.some.injEq, Prod.mk.injEq] at h
        rcases h with ⟨rfl, rfl⟩
        exact .quiet _ _ _ _ _ s.recorder.alike_self (hidle ▸ .wait d)
      next => exact absurd h (by simp only [reduceCtorEq, not_false_eq_true])
  | move c clock =>
      rcases hrole : s.role c.thread with _ | ⟨ns, n, p⟩ | ⟨d, p⟩
      · exact absurd h (by simp only [step, hrole, reduceCtorEq, not_false_eq_true])
      · exact move_recording s s' c clock es ns n p hrole h
      · exact move_waiting s s' c clock es d p hrole h
  | fail t =>
      simp only [step] at h
      split at h
      next ns n w hrole =>
        simp only [Option.some.injEq, Prod.mk.injEq] at h
        rcases h with ⟨rfl, rfl⟩
        exact .quiet _ _ _ _ _ s.recorder.alike_self (hrole ▸ .again ns n w)
      next => exact absurd h (by simp only [reduceCtorEq, not_false_eq_true])
  | wake t =>
      simp only [step, Option.some.injEq, Prod.mk.injEq] at h
      rcases h with ⟨rfl, rfl⟩
      exact .host _ _ (s.recorder.alike_withMark _ (fun hf => hf))
  | arrange order =>
      simp only [step] at h
      split at h
      next =>
        simp only [Option.some.injEq, Prod.mk.injEq] at h
        rcases h with ⟨rfl, rfl⟩
        exact .host _ _ (s.recorder.alike_withMark _ (fun hf => hf))
      next => exact absurd h (by simp only [reduceCtorEq, not_false_eq_true])

end Recording

end HostLayer
