import HostLayer.Proofs.Slot.Crowd
import HostLayer.Proofs.Trace.Recording

/-!
# Complete Buffers

When a buffer that is announced to be full holds every stamp that was claimed
for it.

The claim of the last slot makes the other buffer active at once, and whoever
has made it announces the buffer as soon as its own stamp is stored. It does not
look for the stamps of the other claims. So everything hangs on whether these
have been stored before: a run is in order if the last slot of a buffer is only
claimed when no stamp is owed.

`Kept` is what holds along such a run. The `n`th claim is one of the slot
`n % count`, in the first buffer and the second one by turns. What is owed
belongs to the active buffer, or is the stamp that closes the one before. For
this reason the slot of a stamp that is owed has not been claimed again, a store
never destroys a younger stamp (`slot_inj`), and nothing is owed any more to a
buffer that has been announced.

## Main definitions

* `Role.claim?`, `Role.owed?`: The claim of a thread, and whether its stamp is
  still owed.
* `Recording.Complete`: A buffer holds what was claimed for it.
* `Recording.Orderly`, `Recording.InOrder`: Buffers are closed when nothing is
  owed.
* `Recording.Kept`: What is kept along runs in order.

## Theorems

* `Recorder.slot_inj`: Two claims that are not far from the last one are not
  claims of one slot.
* `Recording.Kept.claim`, `Recording.Kept.store`, `Recording.Kept.carry`: The
  claim, the store, and the other moves.
* `Recording.happened_kept`, `Recording.play_kept`: What an act keeps, and a run.
* `Recording.Kept.held`, `Recording.Kept.complete`: A buffer that has been
  announced is complete until the next one is full.
-/

namespace HostLayer

namespace Role

/-- The claim of a thread that has made one. -/
def claim? : Role → Option Nat
  | recording _ n (.storing _ _) => some n
  | recording _ n (.publishing _) => some n
  | recording _ n (.waking _) => some n
  | _ => none

/-- The claim of a thread that has not stored its stamp yet. -/
def owed? : Role → Option Nat
  | recording _ n (.storing _ _) => some n
  | _ => none

/-- What a role says about the claims that have been made and the buffers that
    have been announced. -/
def Stands (count : Nat) (claims : List Claim) (announced : List Nat) : Role → Prop
  | recording ns n (.storing b i) =>
      claims[n]? = some ⟨b, i, ns⟩ ∧ claims.length / count * count ≤ n + 1
  | recording _ n (.publishing i) => n < claims.length ∧ i = n % count
  | recording _ n (.waking _) => n < claims.length ∧ (n + 1) % count = 0
  | waiting _ p => p ≠ .announcing ∧ (p = .leaving (.ok ()) → announced ≠ [])
  | _ => True

end Role

namespace Recording

/-- The buffer that is looked at holds the stamps that were claimed for the `k`th
    one to be filled, each in its slot. -/
structure Complete (s : Recording) (k : Nat) : Prop where
  stamps : s.recorder.filled = (s.fill k).map Claim.stamp
  slots : (s.fill k).map Claim.pos = List.range s.recorder.count
  buffer : ∀ c ∈ s.fill k, c.buffer = Recorder.other (Recorder.unpack s.recorder.word).1

/-- What every recording keeps in which buffers are closed in order. -/
structure Kept (count : Nat) (s : Recording) : Prop where
  positive : 0 < count
  limit : count < word32
  count_eq : s.recorder.count = count
  word_eq : Recorder.unpack s.recorder.word
    = (s.claims.length / count % 2, s.claims.length % count)
  placed : ∀ n c, s.claims[n]? = some c → c.buffer = n / count % 2 ∧ c.pos = n % count
  stands : ∀ t, (s.role t).Stands count s.claims s.announced
  apart : ∀ t u n, (s.role t).claim? = some n → (s.role u).claim? = some n → t = u
  /-- The stamp of the last claim of a slot is in it, unless it is still owed. -/
  stored : ∀ n c, s.claims[n]? = some c → s.claims.length ≤ n + 2 * count →
    (∃ t, (s.role t).owed? = some n) ∨ s.recorder.slot c.buffer c.pos = c.stamp
  announced : ∀ k ∈ s.announced, (k + 1) * count ≤ s.claims.length ∧
    ∀ t n, (s.role t).owed? = some n → n + 1 ≠ (k + 1) * count
  token : s.recorder.filledMark.flag = true → s.announced ≠ []

/-- Whoever claims the last slot of a buffer does so when nothing is owed. -/
def Orderly (s : Recording) (a : Act) : Prop :=
  ∀ c clock ns n, a = .move c clock →
    s.role c.thread = .recording ns n (.claiming s.recorder.word) →
    (Recorder.unpack s.recorder.word).2 + 1 = s.recorder.count → ∀ t, (s.role t).owed? = none

/-- All acts of a run are orderly. -/
def InOrder : Recording → List Act → Prop
  | _, [] => True
  | s, a :: acts => s.Orderly a ∧ ∀ s' es, s.step a = some (s', es) → InOrder s' acts

end Recording

-- What is owed has been claimed.
theorem Role.claim?_of_owed? {ρ : Role} {n : Nat} (h : ρ.owed? = some n) : ρ.claim? = some n := by
  unfold owed? at h
  split at h
  next => exact h
  next => exact absurd h (by simp only [reduceCtorEq, not_false_eq_true])

-- A role stands where one more buffer is announced.
theorem Role.Stands.mono {count : Nat} {claims : List Claim} {announced announced' : List Nat}
    {ρ : Role} (h : ρ.Stands count claims announced) (hgrow : announced ≠ [] → announced' ≠ []) :
    ρ.Stands count claims announced' := by
  cases ρ with
  | idle => trivial
  | recording ns n p => cases p <;> exact h
  | waiting d p => exact ⟨h.1, fun hp => hgrow (h.2 hp)⟩

-- A role stands where one more claim has been made, if its debt may stay.
theorem Role.Stands.claimed {count : Nat} {claims : List Claim} {announced : List Nat} {ρ : Role}
    (h : ρ.Stands count claims announced) (c : Claim)
    (howed : ∀ n, ρ.owed? = some n → (claims.length + 1) / count * count ≤ n + 1) :
    ρ.Stands count (claims ++ [c]) announced := by
  have hlen : (claims ++ [c]).length = claims.length + 1 := List.length_append
  rcases ρ with _ | ⟨ns, n, _ | _ | ⟨b, i⟩ | i | p⟩ | ⟨d, p⟩
  · trivial
  · trivial
  · trivial
  · have hlt := (List.getElem?_eq_some_iff.mp h.1).1
    refine ⟨(List.getElem?_append_left hlt).trans h.1, ?_⟩
    rw [hlen]
    exact howed n rfl
  · exact ⟨by rw [hlen]; exact Nat.lt_succ_of_lt h.1, h.2⟩
  · exact ⟨by rw [hlen]; exact Nat.lt_succ_of_lt h.1, h.2⟩
  · exact h

-- A claim is one that was made before, or the last one.
theorem claim_cases {claims : List Claim} {c c' : Claim} {n : Nat}
    (h : (claims ++ [c])[n]? = some c') :
    claims[n]? = some c' ∨ (n = claims.length ∧ c' = c) := by
  have hn := (List.getElem?_eq_some_iff.mp h).1
  rw [List.length_append] at hn
  rcases Nat.lt_succ_iff_lt_or_eq.mp hn with hn | hn
  · exact Or.inl ((List.getElem?_append_left hn).symm.trans h)
  · rw [hn, List.getElem?_concat_length, Option.some.injEq] at h
    exact Or.inr ⟨hn, h.symm⟩

/-- Of the last claims, as many as both buffers have slots, no two are claims of
    one slot. -/
theorem Recorder.slot_inj (count j n total : Nat) (hj : j < total) (hn : n < total)
    (hj' : total ≤ j + 2 * count) (hn' : total ≤ n + 2 * count)
    (hbuffer : j / count % 2 = n / count % 2) (hpos : j % count = n % count) : j = n := by
  have hjd := Nat.div_add_mod j count
  have hnd := Nat.div_add_mod n count
  rw [hpos] at hjd
  rcases Nat.lt_trichotomy (j / count) (n / count) with hlt | heq | hlt
  · have hmul := Nat.mul_le_mul_left count (show j / count + 2 ≤ n / count by omega)
    rw [Nat.mul_add] at hmul
    omega
  · rw [heq] at hjd
    omega
  · have hmul := Nat.mul_le_mul_left count (show n / count + 2 ≤ j / count by omega)
    rw [Nat.mul_add] at hmul
    omega

namespace Role.Goes

variable {count : Nat} {r : Recorder} {t : ThreadId} {ρ ρ' : Role} {es : List Recording.Seen}

-- A quiet move neither makes nor pays a debt.
theorem owed (h : Role.Goes r t ρ ρ' es) :
    ρ.owed? = none ∧ ρ'.owed? = none ∧ ∀ n, ρ'.claim? = some n → ρ.claim? = some n := by
  cases h with
  | post ns n p q hp => exact ⟨rfl, rfl, fun m hm => hm⟩
  | close ns n i hi => exact ⟨rfl, rfl, fun m hm => hm⟩
  | _ => exact ⟨rfl, rfl, fun m hm => absurd hm (by
      simp only [Role.claim?, reduceCtorEq, not_false_eq_true])⟩

/-- A role still stands after a quiet move, and who comes back with success knows
    of a buffer that has been announced. -/
theorem stands {claims : List Claim} {announced : List Nat} (h : Role.Goes r t ρ ρ' es)
    (hpos : 0 < count) (hcount : r.count = count)
    (htoken : r.filledMark.flag = true → announced ≠ [])
    (hs : ρ.Stands count claims announced) :
    ρ'.Stands count claims announced ∧
      ((∃ u, .returned u (.ok ()) ∈ es) → announced ≠ []) := by
  have hnone : ∀ {u : ThreadId} {P : Prop}, Recording.Seen.returned u (.ok ()) ∈ [] → P :=
    fun h => absurd h List.not_mem_nil
  cases h with
  | wait d =>
      refine ⟨⟨?_, fun hp => absurd hp ?_⟩, fun ⟨_, h⟩ => hnone h⟩
      · simp only [ne_eq, reduceCtorEq, not_false_eq_true]
      · simp only [reduceCtorEq, not_false_eq_true]
  | look ns n => exact ⟨trivial, fun ⟨_, h⟩ => hnone h⟩
  | again ns n w => exact ⟨trivial, fun ⟨_, h⟩ => hnone h⟩
  | close ns n i hi =>
      refine ⟨⟨hs.1, ?_⟩, fun ⟨_, h⟩ => hnone h⟩
      rw [hs.2, hcount] at hi
      rcases Recorder.succ_div_mod count n hpos with ⟨_, _, hmod⟩ | ⟨hlt, _, _⟩
      · exact hmod
      · exact absurd hi (Nat.ne_of_lt hlt)
  | leave ns n i hi => exact ⟨trivial, fun ⟨_, h⟩ => hnone h⟩
  | post ns n p q hp => exact ⟨hs, fun ⟨_, h⟩ => hnone h⟩
  | posted ns n p => exact ⟨trivial, fun ⟨_, h⟩ => hnone h⟩
  | heed d p q hq hok =>
      refine ⟨⟨hq, fun hq' => ?_⟩, fun ⟨_, h⟩ => hnone h⟩
      rcases hok hq' with hp | hflag
      · exact absurd hp hs.1
      · exact htoken hflag
  | back d p a hok =>
      refine ⟨trivial, fun ⟨u, hu⟩ => ?_⟩
      have ha := List.mem_singleton.mp hu
      rw [Recording.Seen.returned.injEq] at ha
      exact hs.2 (hok ha.2.symm)

-- No quiet move makes a thread record that did not.
theorem recorded {ns : UInt64} {n : Nat} {p : Recorder.Place}
    (h : Role.Goes r t ρ (.recording ns n p) es) : ∃ q, ρ = .recording ns n q := by
  cases h <;> exact ⟨_, rfl⟩

end Role.Goes

namespace Recording

variable {count : Nat} {s : Recording}

namespace Kept

theorem claim_lt (hk : Kept count s) {t : ThreadId} {n : Nat}
    (h : (s.role t).claim? = some n) : n < s.claims.length := by
  have hstands := hk.stands t
  unfold Role.claim? at h
  split at h
  next hrole =>
    rw [hrole] at hstands
    rw [Option.some.injEq] at h
    exact h ▸ (List.getElem?_eq_some_iff.mp hstands.1).1
  next hrole =>
    rw [hrole] at hstands
    rw [Option.some.injEq] at h
    exact h ▸ hstands.1
  next hrole =>
    rw [hrole] at hstands
    rw [Option.some.injEq] at h
    exact h ▸ hstands.1
  next => exact absurd h (by simp only [reduceCtorEq, not_false_eq_true])

/-- What is owed belongs to the active buffer, or is the last stamp of the one
    before. -/
theorem owed_le (hk : Kept count s) {t : ThreadId} {n : Nat}
    (h : (s.role t).owed? = some n) : s.claims.length / count * count ≤ n + 1 := by
  have hstands := hk.stands t
  unfold Role.owed? at h
  split at h
  next hrole =>
    rw [hrole] at hstands
    rw [Option.some.injEq] at h
    exact h ▸ hstands.2
  next => exact absurd h (by simp only [reduceCtorEq, not_false_eq_true])

-- Its slot has not been claimed again.
theorem owed_recent (hk : Kept count s) {t : ThreadId} {n : Nat}
    (h : (s.role t).owed? = some n) : s.claims.length ≤ n + 2 * count := by
  have hle := hk.owed_le h
  have hdiv := Nat.div_add_mod s.claims.length count
  have hmod := Nat.mod_lt s.claims.length hk.positive
  rw [Nat.mul_comm] at hdiv
  omega

-- The active buffer only changes when nothing is owed.
theorem owed_le_next (hk : Kept count s)
    (horderly : s.claims.length % count + 1 = count → ∀ u, (s.role u).owed? = none)
    {t : ThreadId} {n : Nat} (h : (s.role t).owed? = some n) :
    (s.claims.length + 1) / count * count ≤ n + 1 := by
  rcases Recorder.succ_div_mod count s.claims.length hk.positive with ⟨hfull, _, _⟩ | ⟨_, hdiv, _⟩
  · exact absurd ((horderly hfull t).symm.trans h) (by
      simp only [reduceCtorEq, not_false_eq_true])
  · rw [hdiv]
    exact hk.owed_le h

/-- A thread moves on without having touched the slots and the word. -/
theorem carry (hk : Kept count s) (t : ThreadId) (ρ : Role) (r : Recorder) (announced' : List Nat)
    (hcount : r.count = s.recorder.count) (hword : r.word = s.recorder.word)
    (hslot : r.slot = s.recorder.slot) (hold : (s.role t).owed? = none) (hnew : ρ.owed? = none)
    (hclaim : ∀ n, ρ.claim? = some n → (s.role t).claim? = some n)
    (hstands : ρ.Stands count s.claims announced')
    (hann : ∀ k ∈ announced', (k + 1) * count ≤ s.claims.length ∧
      ∀ u n, (s.role u).owed? = some n → n + 1 ≠ (k + 1) * count)
    (hgrow : s.announced ≠ [] → announced' ≠ [])
    (htoken : r.filledMark.flag = true → announced' ≠ []) :
    Kept count ⟨r, Function.update s.role t ρ, s.claims, announced'⟩ := by
  have howed : ∀ u n, (Function.update s.role t ρ u).owed? = some n ↔
      (s.role u).owed? = some n := by
    refine (Function.forall_update_iff s.role fun u ρ' => ∀ n, ρ'.owed? = some n ↔
      (s.role u).owed? = some n).mpr ⟨fun n => ?_, fun u _ n => Iff.rfl⟩
    rw [hnew, hold]
  have hclaims : ∀ u n, (Function.update s.role t ρ u).claim? = some n →
      (s.role u).claim? = some n :=
    (Function.forall_update_iff s.role fun u ρ' => ∀ n, ρ'.claim? = some n →
      (s.role u).claim? = some n).mpr ⟨hclaim, fun u _ n hn => hn⟩
  refine ⟨hk.positive, hk.limit, hcount.trans hk.count_eq, hword ▸ hk.word_eq, hk.placed, ?_,
    fun u v n hu hv => hk.apart u v n (hclaims u n hu) (hclaims v n hv),
    fun n c hc hlast => ?_, fun k hmem => ⟨(hann k hmem).1, fun u n hu => ?_⟩, htoken⟩
  · exact (Function.forall_update_iff s.role fun _ ρ' => ρ'.Stands count s.claims announced').mpr
      ⟨hstands, fun u _ => (hk.stands u).mono hgrow⟩
  · rcases hk.stored n c hc hlast with ⟨u, hu⟩ | hslot'
    · exact Or.inl ⟨u, (howed u n).mpr hu⟩
    · exact Or.inr (by rw [hslot]; exact hslot')
  · exact (hann k hmem).2 u n ((howed u n).mp hu)

/-- A stamp is stored: what was owed is in its slot, and no other claim whose
    stamp matters loses it. -/
theorem store (hk : Kept count s) (t : ThreadId) (ns : UInt64) (n b i : Nat)
    (h : s.role t = .recording ns n (.storing b i)) :
    Kept count (s.put (s.recorder.setSlot b i ns) t (.recording ns n (.publishing i))) := by
  have howed : (s.role t).owed? = some n := by
    rw [h]
    rfl
  have hclaim : (s.role t).claim? = some n := Role.claim?_of_owed? howed
  have hclaimed : s.claims[n]? = some ⟨b, i, ns⟩ := by
    have hstands := hk.stands t
    rw [h] at hstands
    exact hstands.1
  have hlt := hk.claim_lt hclaim
  have hbuffer : b = n / count % 2 := (hk.placed n _ hclaimed).1
  have hpos : i = n % count := (hk.placed n _ hclaimed).2
  have hclaims : ∀ u m, (Function.update s.role t (.recording ns n (.publishing i)) u).claim?
      = some m → (s.role u).claim? = some m :=
    (Function.forall_update_iff s.role fun u ρ => ∀ m, ρ.claim? = some m →
      (s.role u).claim? = some m).mpr ⟨fun m hm => hclaim.trans hm, fun u _ m hm => hm⟩
  have hrest : ∀ u m, (Function.update s.role t (.recording ns n (.publishing i)) u).owed?
      = some m → (s.role u).owed? = some m :=
    (Function.forall_update_iff s.role fun u ρ => ∀ m, ρ.owed? = some m →
      (s.role u).owed? = some m).mpr ⟨fun m hm => absurd hm (by
        simp only [Role.owed?, reduceCtorEq, not_false_eq_true]), fun u _ m hm => hm⟩
  refine ⟨hk.positive, hk.limit, hk.count_eq, hk.word_eq, hk.placed, ?_,
    fun u v m hu hv => hk.apart u v m (hclaims u m hu) (hclaims v m hv),
    fun m c (hc : s.claims[m]? = some c) hlast => ?_,
    fun k hmem => ⟨(hk.announced k hmem).1, fun u m hu =>
      (hk.announced k hmem).2 u m (hrest u m hu)⟩, hk.token⟩
  · exact (Function.forall_update_iff s.role fun _ ρ => ρ.Stands count s.claims s.announced).mpr
      ⟨⟨hlt, hpos⟩, fun u _ => hk.stands u⟩
  · by_cases hm : m = n
    · -- This is the claim whose stamp is stored.
      rw [hm, hclaimed, Option.some.injEq] at hc
      rw [← hc]
      exact Or.inr (if_pos ⟨rfl, rfl⟩)
    · rcases hk.stored m c hc hlast with ⟨u, hu⟩ | hslot
      · have hut : u ≠ t := by
          intro hut
          rw [hut, howed, Option.some.injEq] at hu
          exact hm hu.symm
        refine Or.inl ⟨u, ?_⟩
        change (Function.update s.role t _ u).owed? = some m
        rw [Function.update_of_ne hut]
        exact hu
      · have hother : ¬(c.buffer = b ∧ c.pos = i) := by
          rintro ⟨hb, hi⟩
          have hcm := hk.placed m c hc
          have hmlt := (List.getElem?_eq_some_iff.mp hc).1
          exact hm (Recorder.slot_inj count m n s.claims.length hmlt hlt hlast
            (hk.owed_recent howed) (by rw [← hcm.1, hb, hbuffer]) (by rw [← hcm.2, hi, hpos]))
        exact Or.inr ((if_neg hother).trans hslot)

/-- A slot is claimed. If it is the last one of its buffer, nothing else is
    owed. -/
theorem claim (hk : Kept count s) (t : ThreadId) (ns : UInt64) (n b i : Nat)
    (h : s.role t = .recording ns n (.claiming s.recorder.word))
    (hbi : Recorder.unpack s.recorder.word = (b, i))
    (horderly : i + 1 = count → ∀ u, (s.role u).owed? = none) :
    Kept count ({ s with claims := s.claims ++ [Claim.mk b i ns] }.put
      { s.recorder with word := Recorder.advance s.recorder.count s.recorder.word } t
      (.recording ns s.claims.length (.storing b i))) := by
  have hword := hk.word_eq
  rw [hbi, Prod.mk.injEq] at hword
  rcases hword with ⟨hb, hi⟩
  have hlen : (s.claims ++ [Claim.mk b i ns]).length = s.claims.length + 1 := List.length_append
  have hclaims : ∀ u m, (Function.update s.role t
      (.recording ns s.claims.length (.storing b i)) u).claim? = some m →
      (u = t ∧ m = s.claims.length) ∨ (u ≠ t ∧ (s.role u).claim? = some m) :=
    (Function.forall_update_iff s.role fun u ρ => ∀ m, ρ.claim? = some m →
      (u = t ∧ m = s.claims.length) ∨ (u ≠ t ∧ (s.role u).claim? = some m)).mpr
      ⟨fun m hm => Or.inl ⟨rfl, (Option.some.inj hm).symm⟩, fun u hu m hm => Or.inr ⟨hu, hm⟩⟩
  refine ⟨hk.positive, hk.limit, hk.count_eq, ?_, fun m c hc => ?_, ?_, fun u v m hu hv => ?_,
    fun m c hc hwindow => ?_, fun k hmem => ⟨?_, fun u m hu => ?_⟩, hk.token⟩
  · change Recorder.unpack (Recorder.advance s.recorder.count s.recorder.word)
      = ((s.claims ++ [Claim.mk b i ns]).length / count % 2,
        (s.claims ++ [Claim.mk b i ns]).length % count)
    rw [hlen, hk.count_eq]
    exact Recorder.unpack_advance count _ _ hk.positive hk.limit hk.word_eq
  · rcases claim_cases hc with hc | ⟨rfl, rfl⟩
    · exact hk.placed m c hc
    · exact ⟨hb, hi⟩
  · refine (Function.forall_update_iff s.role fun _ ρ => ρ.Stands count
      (s.claims ++ [Claim.mk b i ns]) s.announced).mpr
      ⟨⟨List.getElem?_concat_length, ?_⟩, fun u _ => (hk.stands u).claimed _ (fun m hm =>
        hk.owed_le_next (fun hfull => horderly (by rw [hi]; exact hfull)) hm)⟩
    rw [hlen]
    exact Nat.div_mul_le_self _ _
  · -- The claim is later than those of all others.
    rcases hclaims u m hu with ⟨hut, hm⟩ | ⟨_, hold⟩
    · rcases hclaims v m hv with ⟨hvt, _⟩ | ⟨_, hold⟩
      · rw [hut, hvt]
      · exact absurd (hk.claim_lt hold) (hm ▸ Nat.lt_irrefl _)
    · rcases hclaims v m hv with ⟨_, hm⟩ | ⟨_, hold'⟩
      · exact absurd (hk.claim_lt hold) (hm ▸ Nat.lt_irrefl _)
      · exact hk.apart u v m hold hold'
  · rcases claim_cases hc with hc | ⟨rfl, rfl⟩
    · change (s.claims ++ [Claim.mk b i ns]).length ≤ _ at hwindow
      rw [hlen] at hwindow
      rcases hk.stored m c hc (Nat.le_of_succ_le hwindow) with ⟨u, hu⟩ | hslot
      · have hut : u ≠ t := by
          intro hut
          rw [hut, h] at hu
          exact absurd hu (by simp only [Role.owed?, reduceCtorEq, not_false_eq_true])
        refine Or.inl ⟨u, ?_⟩
        change (Function.update s.role t _ u).owed? = some m
        rw [Function.update_of_ne hut]
        exact hu
      · exact Or.inr hslot
    · refine Or.inl ⟨t, ?_⟩
      change (Function.update s.role t _ t).owed? = some s.claims.length
      rw [Function.update_self]
      rfl
  · change (k + 1) * count ≤ (s.claims ++ [Claim.mk b i ns]).length
    rw [hlen]
    exact Nat.le_succ_of_le (hk.announced k hmem).1
  · have hle := (hk.announced k hmem).1
    rcases hclaims u m (Role.claim?_of_owed? hu) with ⟨rfl, rfl⟩ | ⟨hut, _⟩
    · omega
    · change (Function.update s.role t _ u).owed? = some m at hu
      rw [Function.update_of_ne hut] at hu
      exact (hk.announced k hmem).2 u m hu

end Kept

-- A new recorder.
theorem create_recorder (source : ClockSource) (count : Nat) (r : Recorder)
    (h : Recorder.create source count = .ok r) :
    2 ≤ count ∧ count < word32 ∧ ∃ m : Host.Mutex, m.Plain ∧ m.holder = none ∧
      r = ⟨count, fun _ _ => 0, Recorder.pack 0 0, 0, ⟨m, Condition.create source, false⟩⟩ := by
  unfold Recorder.create at h
  by_cases hc : Recorder.CountInRange count
  · rw [if_pos hc] at h
    rcases hm : BinarySemaphore.create source SyncAttr.plain with e | mark
    · rw [hm] at h
      exact absurd h (by simp only [bind, Except.bind, reduceCtorEq, not_false_eq_true])
    · rw [hm] at h
      rcases BinarySemaphore.create_eq source SyncAttr.plain mark hm with ⟨m, hplain, hfree, rfl⟩
      have hlimit : count ≤ word32 - 1 := hc.2
      exact ⟨hc.1, Nat.lt_of_le_of_lt hlimit (by decide), m, hplain, hfree,
        (Except.ok.inj h).symm⟩
  · rw [if_neg hc] at h
    exact absurd h (by simp only [reduceCtorEq, not_false_eq_true])

theorem start_kept (source : ClockSource) (r : Recorder)
    (h : Recorder.create source count = .ok r) : Kept count (start r) := by
  rcases create_recorder source count r h with ⟨htwo, hlimit, m, _, _, rfl⟩
  refine ⟨Nat.lt_of_lt_of_le (by decide) htwo, hlimit, rfl, ?_,
    fun n c hc => absurd hc (by simp only [start, List.getElem?_nil, reduceCtorEq,
      not_false_eq_true]), fun t => trivial, fun t u n ht => ?_,
    fun n c hc => absurd hc (by simp only [start, List.getElem?_nil, reduceCtorEq,
      not_false_eq_true]), fun k hk => absurd hk List.not_mem_nil, fun hf => ?_⟩
  · change Recorder.unpack (Recorder.pack 0 0) = (0 / count % 2, 0 % count)
    rw [Recorder.unpack_pack 0 0 (by decide) (by decide), Nat.zero_div, Nat.zero_mod, Nat.zero_mod]
  · exact absurd ht (by simp only [start, Role.claim?, reduceCtorEq, not_false_eq_true])
  · exact absurd hf Bool.false_ne_true

/-- Whatever is done in order keeps this. No buffer is forgotten that has been
    announced, and whoever comes back with success knows of one. -/
theorem happened_kept {s' : Recording} {a : Act} {es : List Seen} (hk : Kept count s)
    (ho : s.Orderly a) (h : s.Happened a s' es) :
    Kept count s' ∧ (s.announced ≠ [] → s'.announced ≠ []) ∧
      ((∃ t, .returned t (.ok ()) ∈ es) → s'.announced ≠ []) := by
  have hnone : ∀ {t : ThreadId} {P : Prop}, Seen.returned t (.ok ()) ∈ [] → P :=
    fun h => absurd h List.not_mem_nil
  cases h with
  | record t ns hidle =>
      refine ⟨hk.carry t _ s.recorder s.announced rfl rfl rfl (by rw [hidle]; rfl) rfl
        (fun n hn => absurd hn (by simp only [Role.claim?, reduceCtorEq, not_false_eq_true]))
        trivial hk.announced (fun h => h) hk.token, fun h => h, fun ⟨_, h⟩ => hnone h⟩
  | claim c clock ns n b i hrole hbi =>
      refine ⟨hk.claim c.thread ns n b i hrole hbi (fun hlast => ?_), fun h => h,
        fun ⟨_, h⟩ => hnone h⟩
      exact ho c clock ns n rfl hrole (by rw [hbi, hk.count_eq]; exact hlast)
  | store c clock ns n b i hrole =>
      exact ⟨hk.store c.thread ns n b i hrole, fun h => h, fun ⟨_, h⟩ => hnone h⟩
  | announce c clock ns n m q hrole =>
      have hstands := hk.stands c.thread
      rw [hrole] at hstands
      have hclosed : (n / s.recorder.count + 1) * count = n + 1 := by
        rw [hk.count_eq]
        rcases Recorder.succ_div_mod count n hk.positive with ⟨_, hdiv, hmod⟩ | ⟨_, _, hmod⟩
        · rw [← hdiv]
          exact Nat.div_mul_cancel (Nat.dvd_of_mod_eq_zero hmod)
        · exact absurd (hmod.symm.trans hstands.2) (Nat.succ_ne_zero _)
      have hne : s.announced ++ [n / s.recorder.count] ≠ [] :=
        List.append_ne_nil_of_right_ne_nil _ (List.cons_ne_nil _ _)
      refine ⟨hk.carry c.thread _ _ _ rfl rfl rfl (by rw [hrole]; rfl) rfl
        (fun m hm => by rw [hrole]; exact hm) hstands (fun k hmem => ?_) (fun _ => hne)
        (fun _ => hne), fun _ => hne, fun ⟨_, h⟩ => hnone h⟩
      rcases List.mem_append.mp hmem with hmem | hmem
      · exact hk.announced k hmem
      · rw [List.mem_singleton.mp hmem, hclosed]
        refine ⟨hstands.1, fun u m hu hm => ?_⟩
        -- The claim that closed the buffer is the thread's own.
        have hu' := Role.claim?_of_owed? hu
        rw [show m = n by omega] at hu hu'
        have huc := hk.apart u c.thread n hu' (by rw [hrole]; rfl)
        rw [huc, hrole] at hu
        exact absurd hu (by simp only [Role.owed?, reduceCtorEq, not_false_eq_true])
  | quiet _ t r ρ _ hr hgoes =>
      rcases hgoes.owed with ⟨hold, hnew, hclaim⟩
      rcases hgoes.stands hk.positive hk.count_eq hk.token (hk.stands t) with ⟨hstands, hback⟩
      exact ⟨hk.carry t ρ r s.announced hr.count_eq hr.word_eq hr.slot_eq hold hnew hclaim hstands
        hk.announced (fun h => h) (fun hf => hk.token (hr.token hf)), fun h => h, hback⟩
  | host _ r hr =>
      refine ⟨⟨hk.positive, hk.limit, hr.count_eq.trans hk.count_eq, hr.word_eq ▸ hk.word_eq,
        hk.placed, hk.stands, hk.apart, fun n c hc hlast => ?_, hk.announced,
        fun hf => hk.token (hr.token hf)⟩, fun h => h, fun ⟨_, h⟩ => hnone h⟩
      rw [hr.slot_eq]
      exact hk.stored n c hc hlast

/-- The same along a run. -/
theorem play_kept : ∀ (acts : List Act) (s t : Recording) (es : List Seen), Kept count s →
    s.InOrder acts → Schedule.play step s acts = some (t, es) →
    Kept count t ∧ (s.announced ≠ [] → t.announced ≠ []) ∧
      ((∃ u, .returned u (.ok ()) ∈ es) → t.announced ≠ []) := by
  intro acts
  induction acts with
  | nil =>
      intro s t es hk _ h
      simp only [Schedule.play, Option.some.injEq, Prod.mk.injEq] at h
      rcases h with ⟨rfl, rfl⟩
      refine ⟨hk, fun h => h, ?_⟩
      rintro ⟨u, hu⟩
      exact absurd hu List.not_mem_nil
  | cons a rest ih =>
      intro s t es hk ho h
      rcases (Schedule.play_cons_iff step s t a rest es).mp h with
        ⟨s', first, later, hstep, hplay, rfl⟩
      rcases happened_kept hk ho.1 (step_happened s s' a first hstep) with ⟨hk', hgrow, hback⟩
      rcases ih s' t later hk' (ho.2 s' first hstep) hplay with ⟨hkt, hgrow', hback'⟩
      refine ⟨hkt, fun h => hgrow' (hgrow h), ?_⟩
      rintro ⟨u, hu⟩
      rcases List.mem_append.mp hu with hu | hu
      · exact hgrow' (hback ⟨u, hu⟩)
      · exact hback' ⟨u, hu⟩

-- The buffer that is looked at, while the `k + 1`st one is being filled.
theorem Kept.inactive (hk : Kept count s) (k : Nat) (hfull : (k + 1) * count ≤ s.claims.length)
    (hopen : s.claims.length < (k + 2) * count) :
    Recorder.other (Recorder.unpack s.recorder.word).1 = k % 2 := by
  rw [hk.word_eq, Nat.div_eq_of_lt_le hfull hopen]
  unfold Recorder.other
  simp only []
  omega

/-- Each slot of a buffer that has been announced holds the stamp it was claimed
    for, until the next one is full. -/
theorem Kept.held (hk : Kept count s) (k : Nat) (hmem : k ∈ s.announced)
    (hopen : s.claims.length < (k + 2) * count) (i : Nat) (hi : i < count) :
    s.claims[k * count + i]? = some ⟨k % 2, i, s.recorder.slot (k % 2) i⟩ := by
  rcases hk.announced k hmem with ⟨hfull, hnone⟩
  have hdiv : s.claims.length / count = k + 1 := Nat.div_eq_of_lt_le hfull hopen
  rw [Nat.add_mul, Nat.one_mul] at hfull
  rw [Nat.add_mul] at hopen
  have hlt : k * count + i < s.claims.length := by omega
  have hc := List.getElem?_eq_getElem hlt
  generalize s.claims[k * count + i] = c at hc
  have hplaced := hk.placed _ c hc
  rw [Nat.mul_comm k, Nat.mul_add_div hk.positive, Nat.div_eq_of_lt hi, Nat.add_zero,
    Nat.mul_add_mod, Nat.mod_eq_of_lt hi] at hplaced
  have hpaid : ¬∃ t, (s.role t).owed? = some (k * count + i) := by
    -- What is owed closes this buffer, which is excluded, or comes after it.
    rintro ⟨t, ht⟩
    have hle := hk.owed_le ht
    have hne := hnone t _ ht
    rw [hdiv, Nat.add_mul, Nat.one_mul] at hle
    rw [Nat.add_mul, Nat.one_mul] at hne
    omega
  have hstored := (hk.stored _ c hc (by omega)).resolve_left hpaid
  rw [hc, ← hplaced.1, ← hplaced.2, hstored]

/-- A buffer that has been announced is complete until the next one is full. -/
theorem Kept.complete (hk : Kept count s) (k : Nat) (hmem : k ∈ s.announced)
    (hopen : s.claims.length < (k + 2) * count) : s.Complete k := by
  have hbuffer := hk.inactive k (hk.announced k hmem).1 hopen
  have hfill : s.fill k = (List.range count).map
      (fun i => Claim.mk (k % 2) i (s.recorder.slot (k % 2) i)) := by
    refine List.ext_getElem? (fun i => ?_)
    unfold fill
    rw [hk.count_eq, List.getElem?_take, List.getElem?_drop, List.getElem?_map]
    by_cases hi : i < count
    · rw [if_pos hi, List.getElem?_range hi]
      exact hk.held k hmem hopen i hi
    · rw [if_neg hi, List.getElem?_eq_none (by rw [List.length_range]; omega)]
      rfl
  refine ⟨?_, ?_, fun c hc => ?_⟩
  · rw [hfill, List.map_map]
    unfold Recorder.filled
    rw [hbuffer, hk.count_eq]
    rfl
  · rw [hfill, List.map_map, hk.count_eq]
    exact List.map_id _
  · rw [hfill] at hc
    rcases List.mem_map.mp hc with ⟨i, _, rfl⟩
    exact hbuffer.symm

end Recording

end HostLayer
