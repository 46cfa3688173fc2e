import HostLayer.Proofs.Trace.Recorders
import Mathlib.Data.List.Nodup

/-!
# Slots in Turn

Which slot a claim gets, whoever makes it and however long ago it has looked.

A claim succeeds only if the word is the one that was seen, and the word says
nothing but which slot is the next. So it does not matter whether others have
gone round both buffers in between and the word has come back to what it was:
the claim that is then made is the next one, of the next slot. `InTurn` counts
the claims, and the word is the number of claims, counted in buffers.

Whether a thread wakes somebody is decided by its position alone. The calls are
kept in a book of their own (`Recording.callsAlong`), which is made from the
places that a thread leaves and enters and not from the test that it makes. In
the book there are the claims of last slots, each of them once, as soon as the
thread has published its stamp.

No order among the threads is asked for here, other than for buffers that are to
be complete.

## Main definitions

* `Role.unfinished?`: The claim of a thread that has not published its stamp.
* `Recording.calls`, `Recording.callsAlong`: The claims whose threads call for a
  buffer to be announced.
* `Recording.InTurn`: What is kept along every run.
* `Recording.Linear`: What it means for the claims.

## Theorems

* `Recorder.advance_pack`: The word after a claim, from the number of claims.
* `Recording.InTurn.carry`, `Recording.InTurn.claim`, `Recording.InTurn.finish`:
  The moves that matter.
* `Recording.step_inTurn`, `Recording.play_inTurn`: What a step keeps, and a run.
* `Recording.claims_linear`: All claims are in turn.
-/

namespace HostLayer

-- The word after a claim, where the word says how many claims there were.
theorem Recorder.advance_pack (count n : Nat) (hc : 0 < count) (hlimit : count < word32) :
    advance count (pack (n / count % 2) (n % count))
      = pack ((n + 1) / count % 2) ((n + 1) % count) := by
  have hunpack := unpack_pack (n / count % 2) (n % count) (Nat.mod_lt _ (by decide))
    (Nat.lt_trans (Nat.mod_lt _ hc) hlimit)
  unfold advance
  rw [hunpack]
  simp only [successor_count count n hc]

namespace Role

/-- The claim of a thread that has not published its stamp yet. -/
def unfinished? : Role → Option Nat
  | recording _ n (.storing _ _) => some n
  | recording _ n (.publishing _) => some n
  | _ => none

/-- What a role says about the claims that have been made and the calls. -/
def Holds (count : Nat) (claims : List Claim) (called : List Nat) : Role → Prop
  | recording ns n (.storing b i) => claims[n]? = some ⟨b, i, ns⟩
  | recording _ n (.publishing i) => n < claims.length ∧ i = n % count
  | recording _ n (.waking _) => n ∈ called
  | _ => True

/-- The claim for which a thread calls that goes on from one role to another. -/
def calls : Role → Role → List Nat
  | recording _ n (.publishing _), recording _ _ (.waking _) => [n]
  | _, _ => []

theorem calls_self (ρ : Role) : ρ.calls ρ = [] := by
  rcases ρ with _ | ⟨ns, n, _ | _ | _ | _ | _⟩ | _ <;> rfl

-- Who has something to finish has made a claim.
theorem Holds.lt {count : Nat} {claims : List Claim} {called : List Nat} {ρ : Role} {n : Nat}
    (h : ρ.Holds count claims called) (hn : ρ.unfinished? = some n) : n < claims.length := by
  unfold unfinished? at hn
  split at hn
  next => exact Option.some.inj hn ▸ (List.getElem?_eq_some_iff.mp h).1
  next => exact Option.some.inj hn ▸ h.1
  next => exact absurd hn (by simp only [reduceCtorEq, not_false_eq_true])

-- A role says the same where one more claim has been made.
theorem Holds.claimed {count : Nat} {claims : List Claim} {called : List Nat} {ρ : Role}
    (h : ρ.Holds count claims called) (c : Claim) : ρ.Holds count (claims ++ [c]) called := by
  rcases ρ with _ | ⟨ns, n, _ | _ | ⟨b, i⟩ | i | p⟩ | ⟨d, p⟩
  · trivial
  · trivial
  · trivial
  · exact (List.getElem?_append_left (List.getElem?_eq_some_iff.mp h).1).trans h
  · refine ⟨?_, h.2⟩
    rw [List.length_append]
    exact Nat.lt_add_right _ h.1
  · exact h
  · trivial

-- A role says the same where one more call has been made.
theorem Holds.called {count : Nat} {claims : List Claim} {called : List Nat} {ρ : Role}
    (h : ρ.Holds count claims called) (more : List Nat) :
    ρ.Holds count claims (called ++ more) := by
  rcases ρ with _ | ⟨ns, n, _ | _ | ⟨b, i⟩ | i | p⟩ | ⟨d, p⟩
  · trivial
  · trivial
  · trivial
  · exact h
  · exact h
  · exact List.mem_append_left more h
  · trivial

end Role

namespace Recording

/-- The claim for which a thread calls in an act that leads from `s` to `s'`. -/
def calls (s : Recording) (s' : Recording) : Act → List Nat
  | .move c _ => (s.role c.thread).calls (s'.role c.thread)
  | _ => []

/-- The claims whose threads call along a run for their buffer to be announced, in
    the order of the calls. -/
def callsAlong : Recording → List Act → List Nat
  | _, [] => []
  | s, a :: acts =>
      match s.step a with
      | none => []
      | some (s', _) => s.calls s' a ++ callsAlong s' acts

/-- What every recording keeps. The word counts the claims, every thread stands
    where its claim is, and the calls are those for last slots. -/
structure InTurn (count : Nat) (called : List Nat) (s : Recording) : Prop where
  positive : 0 < count
  limit : count < word32
  count_eq : s.recorder.count = count
  word_eq : s.recorder.word
    = Recorder.pack (s.claims.length / count % 2) (s.claims.length % count)
  placed : ∀ n c, s.claims[n]? = some c → c.buffer = n / count % 2 ∧ c.pos = n % count
  holds : ∀ t, (s.role t).Holds count s.claims called
  apart : ∀ t u n, (s.role t).unfinished? = some n → (s.role u).unfinished? = some n → t = u
  called_iff : ∀ n, n ∈ called ↔
    n < s.claims.length ∧ n % count + 1 = count ∧ ∀ t, (s.role t).unfinished? ≠ some n
  nodup : called.Nodup

/-- The `k`th claim is one of the slot `k % count`, in the first buffer and the
    second one by turns, and its thread calls for the buffer to be announced if
    that is the last slot. -/
structure Linear (count : Nat) (called : List Nat) (s : Recording) : Prop where
  slots : ∀ k c, s.claims[k]? = some c →
    c.buffer = k / count % 2 ∧ c.pos = k % count ∧ c.pos < count
  /-- What is about to be stored goes into the slot of its claim. -/
  stores : ∀ t ns n b i, s.role t = .recording ns n (.storing b i) →
    s.claims[n]? = some ⟨b, i, ns⟩
  distinct : ∀ j k c d, j < k → k < j + 2 * count → s.claims[j]? = some c →
    s.claims[k]? = some d → (c.buffer, c.pos) ≠ (d.buffer, d.pos)
  called_once : called.Nodup
  called_iff : ∀ k, k ∈ called ↔
    k < s.claims.length ∧ k % count = count - 1 ∧ ∀ t, (s.role t).unfinished? ≠ some k
  /-- Nothing keeps a thread that has made a claim from publishing its stamp. -/
  goes_on : ∀ c clock, (s.role c.thread).unfinished? ≠ none → s.step (.move c clock) ≠ none
  word_eq : s.recorder.word
    = Recorder.pack (s.claims.length / count % 2) (s.claims.length % count)
  unpack_word : Recorder.unpack s.recorder.word
    = (s.claims.length / count % 2, s.claims.length % count)

section Calls

variable {s s' : Recording} {t : ThreadId} {ρ : Role}

-- Nobody calls where only one thread goes on, and that one does not call.
theorem calls_eq_nil (a : Act) (hrole : s'.role = Function.update s.role t ρ)
    (h : (s.role t).calls ρ = []) : s.calls s' a = [] := by
  cases a with
  | move c clock =>
      change (s.role c.thread).calls (s'.role c.thread) = []
      by_cases hc : c.thread = t
      · rw [hc, hrole, Function.update_self, h]
      · rw [hrole, Function.update_of_ne hc, Role.calls_self]
  | _ => rfl

-- The books do not say what threads do.
theorem booked_role (s : Recording) (ns : UInt64) (n : Nat) (p q : Recorder.Place) :
    (s.booked ns n p q).1.role = s.role := by
  unfold booked
  split <;> rfl

-- A thread that has made a claim does not wait before it has published its stamp.
theorem step_unfinished (c : Caller) (clock : Clock) (h : (s.role c.thread).unfinished? ≠ none) :
    s.step (.move c clock) ≠ none := by
  generalize hrole : s.role c.thread = ρ at h
  unfold Role.unfinished? at h
  split at h
  next => simp only [step, hrole, Recorder.step, ne_eq, reduceCtorEq, not_false_eq_true]
  next i =>
    by_cases hi : i + 1 = s.recorder.count
    · simp only [step, hrole, Recorder.step, hi, if_true, ne_eq, reduceCtorEq, not_false_eq_true]
    · simp only [step, hrole, Recorder.step, hi, if_false, ne_eq, reduceCtorEq, not_false_eq_true]
  next => exact absurd rfl h

-- A thread that moves leaves the others where they are.
theorem move_other {c : Caller} {clock : Clock} {es : List Seen}
    (h : s.step (.move c clock) = some (s', es)) (ht : t ≠ c.thread) : s'.role t = s.role t := by
  have hput : ∀ (s₀ : Recording) (r : Recorder) (ρ : Role), s₀.role = s.role →
      (s₀.put r c.thread ρ).role t = s.role t := by
    intro s₀ r ρ h₀
    change Function.update s₀.role c.thread ρ t = _
    rw [Function.update_of_ne ht, h₀]
  simp only [step] at h
  split at h
  next ns n p _ =>
    split at h
    next r q notes _ =>
      simp only [Option.some.injEq, Prod.mk.injEq] at h
      rw [← h.1]
      exact hput _ _ _ (booked_role s ns n p q)
    next =>
      simp only [Option.some.injEq, Prod.mk.injEq] at h
      rw [← h.1]
      exact hput _ _ _ rfl
    next => exact absurd h (by simp only [reduceCtorEq, not_false_eq_true])
  next =>
    split at h
    next =>
      simp only [Option.some.injEq, Prod.mk.injEq] at h
      rw [← h.1]
      exact hput _ _ _ rfl
    next =>
      simp only [Option.some.injEq, Prod.mk.injEq] at h
      rw [← h.1]
      exact hput _ _ _ rfl
    next => exact absurd h (by simp only [reduceCtorEq, not_false_eq_true])
  next => exact absurd h (by simp only [reduceCtorEq, not_false_eq_true])

-- Only a move of its own leads a thread on that has a stamp to publish.
theorem move_of_published {a : Act} {es : List Seen} (h : s.step a = some (s', es)) {ns : UInt64}
    {n i : Nat} (hold : s.role t = .recording ns n (.publishing i))
    (hnew : s'.role t ≠ .recording ns n (.publishing i)) :
    ∃ c clock, a = .move c clock ∧ c.thread = t := by
  have hkept : s'.role t ≠ s.role t := by
    rw [hold]
    exact hnew
  -- What starts or goes on for no reason is another thread.
  have hother : ∀ u r ρ₀ ρ', s.role u = ρ₀ → ρ₀ ≠ .recording ns n (.publishing i) →
      s.put r u ρ' ≠ s' := by
    rintro u r ρ₀ ρ' hu hne rfl
    have htu : t ≠ u := by
      rintro rfl
      exact hne (hu.symm.trans hold)
    exact hkept (Function.update_of_ne htu _ _)
  cases a with
  | move c clock =>
      by_cases hc : t = c.thread
      · exact ⟨c, clock, rfl, hc.symm⟩
      · exact absurd (move_other h hc) hkept
  | record u ns' =>
      simp only [step] at h
      split at h
      next hidle =>
        simp only [Option.some.injEq, Prod.mk.injEq] at h
        exact absurd h.1 (hother u _ _ _ hidle (by
          simp only [ne_eq, reduceCtorEq, not_false_eq_true]))
      next => exact absurd h (by simp only [reduceCtorEq, not_false_eq_true])
  | wait u d =>
      simp only [step] at h
      split at h
      next hidle =>
        simp only [Option.some.injEq, Prod.mk.injEq] at h
        exact absurd h.1 (hother u _ _ _ hidle (by
          simp only [ne_eq, reduceCtorEq, not_false_eq_true]))
      next => exact absurd h (by simp only [reduceCtorEq, not_false_eq_true])
  | fail u =>
      simp only [step] at h
      split at h
      next hclaiming =>
        simp only [Option.some.injEq, Prod.mk.injEq] at h
        exact absurd h.1 (hother u _ _ _ hclaiming (by
          simp only [ne_eq, Role.recording.injEq, reduceCtorEq, and_false, not_false_eq_true]))
      next => exact absurd h (by simp only [reduceCtorEq, not_false_eq_true])
  | wake u =>
      simp only [step, Option.some.injEq, Prod.mk.injEq] at h
      exact absurd (congrArg (fun s => s.role t) h.1).symm hkept
  | arrange order =>
      simp only [step] at h
      split at h
      next =>
        simp only [Option.some.injEq, Prod.mk.injEq] at h
        exact absurd (congrArg (fun s => s.role t) h.1).symm hkept
      next => exact absurd h (by simp only [reduceCtorEq, not_false_eq_true])

end Calls

namespace InTurn

variable {count : Nat} {called : List Nat} {s : Recording}

/-- A thread moves on without a claim, and what it has to finish stays. -/
theorem carry (hk : InTurn count called s) (t : ThreadId) (ρ : Role) (r : Recorder)
    (announced : List Nat) (hcount : r.count = s.recorder.count)
    (hword : r.word = s.recorder.word) (hsame : ρ.unfinished? = (s.role t).unfinished?)
    (hholds : ρ.Holds count s.claims called) :
    InTurn count called ⟨r, Function.update s.role t ρ, s.claims, announced⟩ := by
  have hun : ∀ u, (Function.update s.role t ρ u).unfinished? = (s.role u).unfinished? :=
    (Function.forall_update_iff s.role fun u ρ' => ρ'.unfinished? = (s.role u).unfinished?).mpr
      ⟨hsame, fun u _ => rfl⟩
  refine ⟨hk.positive, hk.limit, hcount.trans hk.count_eq, hword.trans hk.word_eq, hk.placed, ?_,
    fun u v n hu hv => hk.apart u v n ((hun u).symm.trans hu) ((hun v).symm.trans hv),
    fun n => ?_, hk.nodup⟩
  · exact (Function.forall_update_iff s.role fun _ ρ' => ρ'.Holds count s.claims called).mpr
      ⟨hholds, fun u _ => hk.holds u⟩
  · rw [hk.called_iff n]
    refine and_congr_right fun _ => and_congr_right fun _ => forall_congr' fun u => ?_
    change _ ↔ (Function.update s.role t ρ u).unfinished? ≠ some n
    rw [hun u]

/-- A slot is claimed, and it is the next one. -/
theorem claim (hk : InTurn count called s) (t : ThreadId) (ns : UInt64) (n b i : Nat)
    (h : s.role t = .recording ns n (.claiming s.recorder.word))
    (hbi : Recorder.unpack s.recorder.word = (b, i)) :
    InTurn count called ({ s with claims := s.claims ++ [Claim.mk b i ns] }.put
      { s.recorder with word := Recorder.advance s.recorder.count s.recorder.word } t
      (.recording ns s.claims.length (.storing b i))) := by
  have hlen : (s.claims ++ [Claim.mk b i ns]).length = s.claims.length + 1 := List.length_append
  have hslot : b = s.claims.length / count % 2 ∧ i = s.claims.length % count := by
    rw [hk.word_eq, Recorder.unpack_pack _ _ (Nat.mod_lt _ (by decide))
      (Nat.lt_trans (Nat.mod_lt _ hk.positive) hk.limit), Prod.mk.injEq] at hbi
    exact ⟨hbi.1.symm, hbi.2.symm⟩
  have hrest : (s.role t).unfinished? = none := by
    rw [h]
    rfl
  -- The thread has the new claim to finish, and all others what they had.
  have hun : ∀ u m, (Function.update s.role t
      (.recording ns s.claims.length (.storing b i)) u).unfinished? = some m ↔
      (u = t ∧ m = s.claims.length) ∨ (s.role u).unfinished? = some m :=
    (Function.forall_update_iff s.role fun u ρ => ∀ m, ρ.unfinished? = some m ↔
      (u = t ∧ m = s.claims.length) ∨ (s.role u).unfinished? = some m).mpr
      ⟨fun m => by rw [hrest]; simp [Role.unfinished?, eq_comm], fun u hu m => by simp [hu]⟩
  have hlt : ∀ u m, (s.role u).unfinished? = some m → m < s.claims.length :=
    fun u m hm => (hk.holds u).lt hm
  refine ⟨hk.positive, hk.limit, hk.count_eq, ?_, fun m c hc => ?_, ?_, fun u v m hu hv => ?_,
    fun m => ?_, hk.nodup⟩
  · change Recorder.advance s.recorder.count s.recorder.word = Recorder.pack
      ((s.claims ++ [Claim.mk b i ns]).length / count % 2)
      ((s.claims ++ [Claim.mk b i ns]).length % count)
    rw [hlen, hk.count_eq, hk.word_eq]
    exact Recorder.advance_pack count _ hk.positive hk.limit
  · rcases claim_cases hc with hc | ⟨rfl, rfl⟩
    · exact hk.placed m c hc
    · exact hslot
  · exact (Function.forall_update_iff s.role fun _ ρ => ρ.Holds count
      (s.claims ++ [Claim.mk b i ns]) called).mpr
      ⟨List.getElem?_concat_length, fun u _ => (hk.holds u).claimed _⟩
  · rcases (hun u m).mp hu with ⟨hut, hm⟩ | hold
    · rcases (hun v m).mp hv with ⟨hvt, _⟩ | hold
      · rw [hut, hvt]
      · exact absurd (hlt v m hold) (hm ▸ Nat.lt_irrefl _)
    · rcases (hun v m).mp hv with ⟨_, hm⟩ | hold'
      · exact absurd (hlt u m hold) (hm ▸ Nat.lt_irrefl _)
      · exact hk.apart u v m hold hold'
  · rw [hk.called_iff m]
    change _ ↔ m < (s.claims ++ [Claim.mk b i ns]).length ∧ m % count + 1 = count ∧
      ∀ u, (Function.update s.role t (.recording ns s.claims.length (.storing b i)) u).unfinished?
        ≠ some m
    rw [hlen]
    constructor
    · rintro ⟨hm, hlast, hdone⟩
      refine ⟨Nat.lt_succ_of_lt hm, hlast, fun u hu => ?_⟩
      rcases (hun u m).mp hu with ⟨_, heq⟩ | hold
      · exact absurd hm (heq ▸ Nat.lt_irrefl _)
      · exact hdone u hold
    · rintro ⟨hm, hlast, hdone⟩
      have hne : m ≠ s.claims.length := fun heq => hdone t ((hun t m).mpr (Or.inl ⟨rfl, heq⟩))
      exact ⟨by omega, hlast, fun u hu => hdone u ((hun u m).mpr (Or.inr hu))⟩

/-- A stamp is published. Its thread calls if it was the last one of its buffer,
    and only then. -/
theorem finish (hk : InTurn count called s) (t : ThreadId) (ns : UInt64) (n i : Nat) (ρ : Role)
    (r : Recorder) (announced more : List Nat) (hcount : r.count = s.recorder.count)
    (hword : r.word = s.recorder.word) (h : s.role t = .recording ns n (.publishing i))
    (hnew : ρ.unfinished? = none) (hmore : more = if i + 1 = count then [n] else [])
    (hholds : ρ.Holds count s.claims (called ++ more)) :
    InTurn count (called ++ more) ⟨r, Function.update s.role t ρ, s.claims, announced⟩ := by
  have hold : (s.role t).unfinished? = some n := by
    rw [h]
    rfl
  have hclaim := hk.holds t
  rw [h] at hclaim
  rcases hclaim with ⟨hlt, hpos⟩
  have hun : ∀ u m, (Function.update s.role t ρ u).unfinished? = some m ↔
      (s.role u).unfinished? = some m ∧ u ≠ t :=
    (Function.forall_update_iff s.role fun u ρ' => ∀ m, ρ'.unfinished? = some m ↔
      (s.role u).unfinished? = some m ∧ u ≠ t).mpr
      ⟨fun m => by simp [hnew], fun u hu m => by simp [hu]⟩
  have huncalled : n ∉ called := fun hmem => ((hk.called_iff n).mp hmem).2.2 t hold
  have hmem : ∀ m, m ∈ more ↔ m = n ∧ n % count + 1 = count := by
    intro m
    rw [hmore, hpos]
    split
    next hlast => simp [hlast]
    next hlast => simp [hlast]
  refine ⟨hk.positive, hk.limit, hcount.trans hk.count_eq, hword.trans hk.word_eq, hk.placed, ?_,
    fun u v m hu hv => hk.apart u v m ((hun u m).mp hu).1 ((hun v m).mp hv).1, fun m => ?_, ?_⟩
  · exact (Function.forall_update_iff s.role fun _ ρ' => ρ'.Holds count s.claims
      (called ++ more)).mpr ⟨hholds, fun u _ => (hk.holds u).called more⟩
  · rw [List.mem_append, hk.called_iff m, hmem m]
    change _ ↔ m < s.claims.length ∧ m % count + 1 = count ∧
      ∀ u, (Function.update s.role t ρ u).unfinished? ≠ some m
    by_cases hm : m = n
    · -- Nobody else has this claim.
      subst hm
      have hnone : ∀ u, (Function.update s.role t ρ u).unfinished? ≠ some m := by
        intro u hu
        rcases (hun u m).mp hu with ⟨hu, hut⟩
        exact hut (hk.apart u t m hu hold)
      exact ⟨fun h => h.elim (fun h => absurd hold (h.2.2 t)) (fun h => ⟨hlt, h.2, hnone⟩),
        fun h => Or.inr ⟨rfl, h.2.1⟩⟩
    · have hother : (∀ u, (Function.update s.role t ρ u).unfinished? ≠ some m) ↔
          ∀ u, (s.role u).unfinished? ≠ some m := by
        refine ⟨fun hno u hu => ?_, fun hno u hu => hno u ((hun u m).mp hu).1⟩
        have hut : u ≠ t := by
          rintro rfl
          exact hm (Option.some.inj (hu.symm.trans hold))
        exact hno u ((hun u m).mpr ⟨hu, hut⟩)
      rw [hother]
      exact ⟨fun h => h.elim (fun h => h) (fun h => absurd h.1 hm), Or.inl⟩
  · rw [hmore]
    split
    next =>
      exact List.nodup_append.mpr ⟨hk.nodup, List.nodup_singleton n, fun m hm k hk' hmk =>
        huncalled (List.mem_singleton.mp hk' ▸ hmk ▸ hm)⟩
    next => rw [List.append_nil]; exact hk.nodup

theorem linear (hk : InTurn count called s) : s.Linear count called := by
  have hpos := hk.positive
  refine ⟨fun k c hc => ?_, fun t ns n b i hrole => ?_, fun j k c d hjk hnear hc hd heq => ?_,
    hk.nodup, fun k => ?_, step_unfinished, hk.word_eq, ?_⟩
  · rcases hk.placed k c hc with ⟨hbuffer, hslot⟩
    exact ⟨hbuffer, hslot, hslot ▸ Nat.mod_lt k hpos⟩
  · have hholds := hk.holds t
    rw [hrole] at hholds
    exact hholds
  · rw [Prod.mk.injEq, (hk.placed j c hc).1, (hk.placed j c hc).2, (hk.placed k d hd).1,
      (hk.placed k d hd).2] at heq
    exact Nat.ne_of_lt hjk (Recorder.slot_inj count j k (k + 1) (Nat.lt_succ_of_lt hjk)
      (Nat.lt_succ_self k) (by omega) (by omega) heq.1 heq.2)
  · rw [hk.called_iff k]
    refine and_congr_right fun _ => and_congr_left fun _ => ?_
    omega
  · rw [hk.word_eq]
    exact Recorder.unpack_pack _ _ (Nat.mod_lt _ (by decide))
      (Nat.lt_trans (Nat.mod_lt _ hpos) hk.limit)

end InTurn

variable {count : Nat} {called : List Nat}

-- A new recorder has no claims yet.
theorem start_inTurn (source : ClockSource) (r : Recorder)
    (h : Recorder.create source count = .ok r) : InTurn count [] (start r) := by
  rcases create_recorder source count r h with ⟨htwo, hlimit, m, _, _, rfl⟩
  refine ⟨Nat.lt_of_lt_of_le (by decide) htwo, hlimit, rfl, ?_, fun n c hc => absurd hc ?_,
    fun t => trivial, fun t u n ht => absurd ht ?_, fun n => ?_, List.nodup_nil⟩
  · change Recorder.pack 0 0 = Recorder.pack (0 / count % 2) (0 % count)
    rw [Nat.zero_div, Nat.zero_mod, Nat.zero_mod]
  · simp only [start, List.getElem?_nil, reduceCtorEq, not_false_eq_true]
  · simp only [start, Role.unfinished?, reduceCtorEq, not_false_eq_true]
  · exact ⟨fun hn => absurd hn List.not_mem_nil, fun hn => absurd hn.1 (Nat.not_lt_zero n)⟩

/-- Whatever happens, claims stay in turn. -/
theorem step_inTurn {s s' : Recording} {a : Act} {es : List Seen} (hk : InTurn count called s)
    (h : s.step a = some (s', es)) : InTurn count (called ++ s.calls s' a) s' := by
  -- A thread that does not call leaves the book of the calls alone.
  have hquiet : ∀ t ρ, s'.role = Function.update s.role t ρ → (s.role t).calls ρ = [] →
      InTurn count called s' → InTurn count (called ++ s.calls s' a) s' := by
    intro t ρ hrole hcalls hk'
    rw [calls_eq_nil a hrole hcalls, List.append_nil]
    exact hk'
  cases step_happened s s' a es h with
  | record t ns hidle =>
      refine hquiet t _ rfl (by rw [hidle]; rfl) (hk.carry t _ _ _ rfl rfl ?_ trivial)
      rw [hidle]
      rfl
  | claim c clock ns n b i hrole hbi =>
      exact hquiet c.thread _ rfl (by rw [hrole]; rfl) (hk.claim c.thread ns n b i hrole hbi)
  | store c clock ns n b i hrole =>
      have hclaim := hk.holds c.thread
      rw [hrole] at hclaim
      have hplaced := (hk.placed n _ hclaim).2
      refine hquiet c.thread _ rfl (by rw [hrole]; rfl) (hk.carry c.thread _ _ _ rfl rfl ?_
        ⟨(List.getElem?_eq_some_iff.mp hclaim).1, hplaced⟩)
      rw [hrole]
      rfl
  | announce c clock ns n m q hrole =>
      have hcalled := hk.holds c.thread
      rw [hrole] at hcalled
      refine hquiet c.thread _ rfl (by rw [hrole]; rfl) (hk.carry c.thread _ _ _ rfl rfl ?_ hcalled)
      rw [hrole]
      rfl
  | quiet _ t r ρ _ hr hgoes =>
      generalize hrole : s.role t = ρ₀ at hgoes
      have hholds := hk.holds t
      rw [hrole] at hholds
      have hsame : ρ₀.calls ρ = [] → ρ.unfinished? = ρ₀.unfinished? →
          ρ.Holds count s.claims called →
          InTurn count (called ++ s.calls (s.put r t ρ) a) (s.put r t ρ) := by
        intro hcalls hun hholds'
        exact hquiet t ρ rfl (by rw [hrole]; exact hcalls)
          (hk.carry t ρ r s.announced hr.count_eq hr.word_eq (by rw [hrole]; exact hun) hholds')
      cases hgoes with
      | wait d => exact hsame rfl rfl trivial
      | look ns n => exact hsame rfl rfl trivial
      | again ns n w => exact hsame rfl rfl trivial
      | post ns n p q hp => exact hsame rfl rfl hholds
      | posted ns n p => exact hsame rfl rfl trivial
      | heed d p q hq hok => exact hsame rfl rfl trivial
      | back d p a hok => exact hsame rfl rfl trivial
      | close ns n i hi =>
          -- Only a move of the thread itself can lead here, and it calls.
          have hnew : (s.put r t (.recording ns n (.waking .entering))).role t
              = .recording ns n (.waking .entering) := Function.update_self _ _ _
          rcases move_of_published h hrole (by
            rw [hnew]
            simp only [ne_eq, Role.recording.injEq, reduceCtorEq, and_false,
              not_false_eq_true]) with ⟨c, clock, rfl, rfl⟩
          have hcalls : s.calls (s.put r c.thread (.recording ns n (.waking .entering)))
              (.move c clock) = [n] := by
            simp only [calls, hrole, hnew, Role.calls]
          rw [hcalls]
          refine hk.finish c.thread ns n i _ r s.announced [n] hr.count_eq hr.word_eq hrole rfl ?_
            (List.mem_append_right _ (List.mem_singleton_self n))
          rw [if_pos (hi.trans hk.count_eq)]
      | leave ns n i hi =>
          rw [calls_eq_nil a rfl (by rw [hrole]; rfl)]
          refine hk.finish t ns n i _ r s.announced [] hr.count_eq hr.word_eq hrole rfl ?_ trivial
          rw [if_neg (fun hlast => hi (hlast.trans hk.count_eq.symm))]
  | host _ r hr =>
      have hself : Function.update s.role 0 (s.role 0) = s.role := Function.update_eq_self 0 s.role
      have hk' := hk.carry 0 (s.role 0) r s.announced hr.count_eq hr.word_eq rfl (hk.holds 0)
      rw [hself] at hk'
      exact hquiet 0 (s.role 0) hself.symm (Role.calls_self _) hk'

/-- The same along a run, with the calls that are made in it. -/
theorem play_inTurn : ∀ (acts : List Act) (s t : Recording) (called : List Nat) (es : List Seen),
    InTurn count called s → Schedule.play step s acts = some (t, es) →
    InTurn count (called ++ s.callsAlong acts) t := by
  intro acts
  induction acts with
  | nil =>
      intro s t called es hk h
      simp only [Schedule.play, Option.some.injEq, Prod.mk.injEq] at h
      rw [callsAlong, List.append_nil, ← h.1]
      exact hk
  | cons a rest ih =>
      intro s t called es hk h
      rcases (Schedule.play_cons_iff step s t a rest es).mp h with
        ⟨s', first, later, hstep, hplay, _⟩
      have hcalls : s.callsAlong (a :: rest) = s.calls s' a ++ s'.callsAlong rest := by
        rw [callsAlong, hstep]
      rw [hcalls, ← List.append_assoc]
      exact ih s' t _ later (step_inTurn hk hstep) hplay

/-- For every number of slots that a recorder can have, the claims of any number
    of threads are in turn, in whatever order they move. -/
theorem claims_linear (source : ClockSource) (count : Nat) (h : Recorder.CountInRange count) :
    ∃ r, Recorder.create source count = .ok r ∧ ∀ acts s es,
      Schedule.play step (start r) acts = some (s, es) →
        s.Linear count ((start r).callsAlong acts) := by
  rcases BinarySemaphore.create_ok source SyncAttr.plain with ⟨mark, hmark⟩
  have hcreate : Recorder.create source count
      = .ok ⟨count, fun _ _ => 0, Recorder.pack 0 0, 0, mark⟩ := by
    unfold Recorder.create
    rw [if_pos h, hmark]
    rfl
  refine ⟨_, hcreate, fun acts s es hrun => ?_⟩
  have hk := play_inTurn acts _ s [] es (start_inTurn source _ hcreate) hrun
  rw [List.nil_append] at hk
  exact hk.linear

/-- A thread looks at the word and is then stopped. Another one goes round both
    buffers, so that the word comes back, and then the claim of the first thread
    succeeds as the fifth one, although it has failed once for no reason. -/
theorem claims_linear_round : Recorder.CountInRange 2 ∧ ∃ r acts s es,
    Recorder.create .monotonic 2 = .ok r ∧
    acts = .record 1 9 :: alone 1 1 ++ .record 2 5 :: alone 2 4 ++ .record 2 6 :: alone 2 8 ++
      .record 2 7 :: alone 2 4 ++ .record 2 8 :: alone 2 8 ++ .fail 1 :: alone 1 1 ∧
    Schedule.play step (start r) acts = some (s, es) ∧
    s.claims = [⟨0, 0, 5⟩, ⟨0, 1, 6⟩, ⟨1, 0, 7⟩, ⟨1, 1, 8⟩, ⟨0, 0, 9⟩] ∧
    (start r).callsAlong acts = [1, 3] ∧ s.Linear 2 [1, 3] := by
  refine ⟨by decide, ?_⟩
  rcases claims_linear .monotonic 2 (by decide) with ⟨r, hcreate, hlinear⟩
  have hrun : ∃ acts s es, acts = .record 1 9 :: alone 1 1 ++ .record 2 5 :: alone 2 4 ++
        .record 2 6 :: alone 2 8 ++ .record 2 7 :: alone 2 4 ++ .record 2 8 :: alone 2 8 ++
        .fail 1 :: alone 1 1 ∧
      Schedule.play step (start r) acts = some (s, es) ∧
      s.claims = [⟨0, 0, 5⟩, ⟨0, 1, 6⟩, ⟨1, 0, 7⟩, ⟨1, 1, 8⟩, ⟨0, 0, 9⟩] ∧
      (start r).callsAlong acts = [1, 3] := by
    obtain rfl := Except.ok.inj hcreate
    exact ⟨_, _, _, rfl, rfl, rfl, rfl⟩
  rcases hrun with ⟨acts, s, es, hacts, hplay, hclaims, hcalls⟩
  exact ⟨r, acts, s, es, hcreate, hacts, hplay, hclaims, hcalls, hcalls ▸ hlinear acts s es hplay⟩

end Recording

end HostLayer
