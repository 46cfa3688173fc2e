import HostLayer.Proofs.Ring.Opening
import HostLayer.Proofs.Ring.Traffic

/-!
# Ring Bounds

Where a party reads and writes, whatever the memory holds.

A party that has found or made a ring remembers its geometry, and the geometry
is one that fits the object. From then on nobody has to be trusted: strangers
may store anything into the header, so each change looks at the two indices
anew, takes them for slots only if they are, and makes the ring empty otherwise.
`Confined` is what follows for one change: the slot that is filled or read lies
behind the header and inside the mapping, the NUL lies in the slot, everything
else goes to the header, and no number leaves its word.

That nothing beside the mapping is touched is said twice, once by the places of
the stores and once by what they do: the bytes behind the mapping stay as they
are, and two memories that differ only there lead to the same.

## Main definitions

* `Store.Within`: A store lies inside a range of bytes.
* `Ring.Geometry.Fits`: A geometry that a mapping has room for.
* `Ring.Confined`: What a change of a memory keeps to.
* `Ring.HeaderWord`, `Ring.Meddle`, `Ring.Traffic.meddled`: A ring into whose
  header strangers store.
* `Ring.Traffic.Fitted`: All parties have room.

## Theorems

* `Ring.enter_congr`, `Ring.insert_congr`, `Ring.remove_congr`: Nothing behind
  the mapping is read.
* `Ring.confined_of_fits`: A geometry that fits is enough.
* `Ring.callStep_beyond`, `Ring.Traffic.fitted_step`: A step of a call, and what
  strangers do.
* `RingHandle.create_fits`, `RingHandle.attach_fits`: Rings that are found or
  made fit.
* `RingHandle.accesses_confined`: Whatever happens, all accesses stay inside.
-/

namespace HostLayer

namespace Store

/-- The store lies inside the bytes from `lo` up to `hi`. -/
def Within (s : Store) (lo hi : Nat) : Prop :=
  lo ≤ s.first ∧ s.first + s.size ≤ hi

instance (s : Store) (lo hi : Nat) : Decidable (s.Within lo hi) :=
  inferInstanceAs (Decidable (_ ∧ _))

end Store

namespace Memory

-- Equal bytes stay equal when the same is stored.
theorem apply_congr (m m' : Memory) (s : Store) (lo hi : Nat) (h : m.AgreeOn m' lo hi) :
    (s.apply m).AgreeOn (s.apply m') lo hi := by
  intro i hlo hhi
  cases s with
  | number off width value =>
      simp only [Store.apply, storeNat, store]
      rw [h i hlo hhi]
  | run off bytes =>
      simp only [Store.apply, store]
      rw [h i hlo hhi]

theorem storeAll_congr (stores : List Store) (lo hi : Nat) :
    ∀ m m' : Memory, m.AgreeOn m' lo hi →
      (m.storeAll stores).AgreeOn (m'.storeAll stores) lo hi := by
  induction stores with
  | nil => exact fun m m' h => h
  | cons s rest ih =>
      intro m m' h
      rw [storeAll_cons, storeAll_cons]
      exact ih _ _ (apply_congr m m' s lo hi h)

-- Stores inside a range leave alone what lies behind it.
theorem storeAll_beyond (m : Memory) (stores : List Store) (lo hi i : Nat)
    (h : ∀ s ∈ stores, s.Within lo hi) (hi' : hi ≤ i) :
    (m.storeAll stores).byte i = m.byte i :=
  storeAll_agreeOn stores i (i + 1) m
    (fun s hs => Or.inl (Nat.le_trans (h s hs).2 hi')) i (Nat.le_refl i) (Nat.lt_succ_self i)

end Memory

namespace Ring

/-- The mapping has room for a ring of the geometry. -/
structure Geometry.Fits (g : Geometry) (length : Nat) : Prop where
  valid : g.Valid
  size_le : g.size ≤ length

theorem Geometry.Fits.header_le {g : Geometry} {length : Nat} (h : g.Fits length) :
    headerSize ≤ length :=
  Nat.le_trans (Nat.le_add_right _ _) h.size_le

/-- What a change of the memory `m` keeps to, made by a party that has mapped
    `length` bytes of it for a ring. -/
structure Confined (g : Geometry) (length : Nat) (m : Memory) : Prop where
  /-- Nothing is divided by zero. -/
  slots_pos : 0 < g.slots
  /-- The size of the ring fits its word and the mapping. -/
  size_fits : g.size < word64 ∧ g.size ≤ length
  /-- The indices that the change works with are those of slots. -/
  indices_lt : (enter g m).1 < g.slots ∧ (enter g m).2.1 < g.slots
  /-- An index that is counted on fits its word. -/
  next_fits : ∀ i, i < g.slots → i + 1 < word32 ∧ g.next i < g.slots
  /-- A slot lies behind the header and inside the mapping. -/
  slot_within : ∀ i, i < g.slots →
    headerSize ≤ g.slotAt i ∧ g.slotAt i + g.slotSize ≤ length ∧ g.slotAt i + g.slotSize < word64
  /-- A message and its NUL go into the slot of the write index. -/
  fill_within : ∀ msg, ∀ s ∈ fillStores g (enter g m).2.1 msg,
    s.Within (g.slotAt (enter g m).2.1) (g.slotAt (enter g m).2.1 + g.slotSize)
  /-- Everything else goes to the indices and the flag. -/
  rest_within : (∀ s ∈ removeStores g (enter g m).1 (enter g m).2.1, s.Within flagAt headerSize) ∧
    ∀ msg, ∀ s ∈ insertStores g (enter g m).1 (enter g m).2.1 msg,
      s ∈ fillStores g (enter g m).2.1 msg ∨ s.Within flagAt headerSize
  /-- An index out of range makes the change go on from an empty ring. -/
  stray : indices? g m = none → (enter g m).1 = 0 ∧ (enter g m).2.1 = 0 ∧
    indices? g (enter g m).2.2.1 = some (0, 0) ∧ (remove g m).2.1 = none ∧
    ∀ msg, pending g (insert g m msg).1 = [kept g msg]
  /-- No byte behind the mapping is changed. -/
  unchanged : ∀ i, length ≤ i → (remove g m).1.byte i = m.byte i ∧
    ∀ msg, (insert g m msg).1.byte i = m.byte i
  /-- No byte behind the mapping is read. -/
  unread : ∀ m', m.AgreeOn m' 0 length → (remove g m').2.1 = (remove g m).2.1 ∧
    (remove g m).1.AgreeOn (remove g m').1 0 length ∧
    ∀ msg, (insert g m msg).1.AgreeOn (insert g m' msg).1 0 length

section Places

variable (g : Geometry) (m : Memory)

-- A slot lies behind the header and inside the ring.
theorem slot_within (length : Nat) (h : g.Fits length) (i : Nat) (hi : i < g.slots) :
    headerSize ≤ g.slotAt i ∧ g.slotAt i + g.slotSize ≤ length ∧
      g.slotAt i + g.slotSize < word64 := by
  have hend := Geometry.slot_end_le hi
  exact ⟨headerSize_le_slotAt g i, Nat.le_trans hend h.size_le, Nat.lt_of_le_of_lt hend h.valid.2⟩

-- A message leaves room for its NUL.
theorem fill_within (slot : Nat) (msg : List UInt8) (hsize : 1 ≤ g.slotSize) :
    ∀ s ∈ fillStores g slot msg, s.Within (g.slotAt slot) (g.slotAt slot + g.slotSize) := by
  have hlen := stored_length_lt hsize msg
  intro s hs
  unfold fillStores at hs
  unfold Store.Within
  rcases List.mem_cons.mp hs with rfl | hs
  · simp only [Store.first, Store.size]
    omega
  · rw [List.mem_singleton.mp hs]
    simp only [Store.first, Store.size, List.length_singleton]
    omega

-- What is stored beside the slot goes to the indices and the flag.
theorem insert_within (read write : Nat) (msg : List UInt8) :
    ∀ s ∈ insertStores g read write msg,
      s ∈ fillStores g write msg ∨ s.Within flagAt headerSize := by
  intro s hs
  unfold insertStores at hs
  rcases List.mem_append.mp hs with hs | hs
  · rcases List.mem_append.mp hs with hs | hs
    · right
      split_ifs at hs with hf
      · rw [List.mem_singleton.mp hs]
        exact ⟨show flagAt ≤ readAt by decide, show readAt + 4 ≤ headerSize by decide⟩
      · exact absurd hs List.not_mem_nil
    · exact Or.inl hs
  · right
    rcases List.mem_cons.mp hs with rfl | hs
    · exact ⟨show flagAt ≤ writeAt by decide, show writeAt + 4 ≤ headerSize by decide⟩
    · rw [List.mem_singleton.mp hs]
      exact ⟨Nat.le_refl flagAt, show flagAt + 1 ≤ headerSize by decide⟩

-- Whoever takes the lock of a ring whose indices are out of range makes it empty.
theorem enter_of_stray (h : indices? g m = none) :
    enter g m = (0, 0, (repair m).1.storeAll resetStores,
      (repair m).2 ++ [strayNote g (repair m).1]) := by
  have hrepair := (repair_same g m).1
  unfold enter
  rcases hm : repair m with ⟨m', notes⟩
  rw [hm, h] at hrepair
  simp only [hrepair]

-- Taking the lock changes the header only.
theorem enter_beyond (i : Nat) (hi : headerSize ≤ i) : (enter g m).2.2.1.byte i = m.byte i := by
  have hrepair : (repair m).1.byte i = m.byte i := by
    rcases repair_cases m with hm | hm
    · rw [hm]
    · rw [hm]
      exact Memory.storeAll_beyond m [.number lockAt 4 0] lockAt headerSize i (by decide) hi
  have hreset := Memory.storeAll_beyond (repair m).1 resetStores flagAt headerSize i (by decide) hi
  unfold enter
  rcases hm : repair m with ⟨mr, notes⟩
  rw [hm] at hrepair hreset
  simp only []
  cases indices? g mr with
  | none => exact hreset.trans hrepair
  | some _ => exact hrepair

-- A change is made of its stores after the lock has been taken.
theorem insert_eq (msg : List UInt8) : (insert g m msg).1
    = (enter g m).2.2.1.storeAll (insertStores g (enter g m).1 (enter g m).2.1 msg) := rfl

theorem remove_eq : (remove g m).1
    = (enter g m).2.2.1.storeAll (removeStores g (enter g m).1 (enter g m).2.1) := rfl

-- Whatever the memory holds, whoever has the lock works with the indices of
-- slots.
theorem enter_lt (hg : g.InRange) : (enter g m).1 < g.slots ∧ (enter g m).2.1 < g.slots := by
  rcases enter_cases g hg m with ⟨read, write, m', notes, he, hi, _, _⟩
  rw [he]
  exact ((indices?_eq_some_iff g m' read write).mp hi).2.2

-- Inserting changes nothing behind the mapping.
theorem insert_beyond (length : Nat) (h : g.Fits length) (msg : List UInt8) (i : Nat)
    (hi : length ≤ i) : (insert g m msg).1.byte i = m.byte i := by
  have hwrite := (enter_lt g m h.valid.1).2
  rw [insert_eq, Memory.storeAll_beyond _ _ 0 length i _ hi]
  · exact enter_beyond g m i (Nat.le_trans h.header_le hi)
  · intro s hs
    refine ⟨Nat.zero_le _, ?_⟩
    rcases insert_within g _ _ msg s hs with hs | hs
    · exact Nat.le_trans (fill_within g _ msg h.valid.1.2.2 s hs).2
        (slot_within g length h _ hwrite).2.1
    · exact Nat.le_trans hs.2 h.header_le

-- Nor does removing.
theorem remove_beyond (length : Nat) (h : g.Fits length) (i : Nat) (hi : length ≤ i) :
    (remove g m).1.byte i = m.byte i := by
  have hheader := Nat.le_trans h.header_le hi
  rw [remove_eq, Memory.storeAll_beyond _ _ flagAt headerSize i (removeStores_last g _ _) hheader]
  exact enter_beyond g m i hheader

-- A change of a ring whose indices are out of range is one of an empty ring.
theorem stray_empty (hg : g.InRange) (h : indices? g m = none) :
    (enter g m).1 = 0 ∧ (enter g m).2.1 = 0 ∧ indices? g (enter g m).2.2.1 = some (0, 0) ∧
      (remove g m).2.1 = none ∧ ∀ msg, pending g (insert g m msg).1 = [kept g msg] := by
  have henter := enter_of_stray g m h
  have hempty : pending g m = [] := by
    unfold pending
    rw [h]
  refine ⟨by rw [henter], by rw [henter], ?_, ?_, fun msg => ?_⟩
  · rw [henter]
    exact indices?_resetStores g hg (repair m).1
  · rw [(pending_remove g hg m).2.1, hempty]
    rfl
  · rw [pending_insert g hg, hempty, makeRoom, List.tail_nil, ite_self]
    rfl

end Places

section Congruence

variable (g : Geometry) (length : Nat) {m m' : Memory}

-- What is in the header is the same for both memories.
theorem loadNat_header (hl : headerSize ≤ length) (h : m.AgreeOn m' 0 length) (off width : Nat)
    (hoff : off + width ≤ headerSize) : m'.loadNat off width = m.loadNat off width :=
  Memory.loadNat_congr m m' off width
    (fun i _ hhi => h i (Nat.zero_le i) (by omega))

theorem indices?_congr (hl : headerSize ≤ length) (h : m.AgreeOn m' 0 length) :
    indices? g m' = indices? g m := by
  unfold indices?
  rw [loadNat_header length hl h readAt 4 (by decide),
    loadNat_header length hl h writeAt 4 (by decide)]

-- The lock is taken in the same way.
theorem repair_congr (hl : headerSize ≤ length) (h : m.AgreeOn m' 0 length) :
    (repair m).1.AgreeOn (repair m').1 0 length := by
  have hlock : orphaned m' = orphaned m := by
    unfold orphaned
    rw [loadNat_header length hl h lockAt 4 (by decide)]
  unfold repair
  rw [hlock]
  cases orphaned m with
  | true => exact Memory.apply_congr m m' (.number lockAt 4 0) 0 length h
  | false => exact h

/-- Taking the lock reads nothing behind the mapping. -/
theorem enter_congr (hl : headerSize ≤ length) (h : m.AgreeOn m' 0 length) :
    (enter g m').1 = (enter g m).1 ∧ (enter g m').2.1 = (enter g m).2.1 ∧
      (enter g m).2.2.1.AgreeOn (enter g m').2.2.1 0 length := by
  have hrepair := repair_congr length hl h
  have hindices := indices?_congr g length hl hrepair
  unfold enter
  rcases hr : repair m with ⟨mr, notes⟩
  rcases hr' : repair m' with ⟨mr', notes'⟩
  rw [hr, hr'] at hrepair hindices
  simp only []
  rw [hindices]
  cases indices? g mr with
  | none => exact ⟨rfl, rfl, Memory.storeAll_congr resetStores 0 length mr mr' hrepair⟩
  | some i => exact ⟨rfl, rfl, hrepair⟩

/-- Inserting a message reads nothing behind the mapping. -/
theorem insert_congr (hl : headerSize ≤ length) (h : m.AgreeOn m' 0 length) (msg : List UInt8) :
    (insert g m msg).1.AgreeOn (insert g m' msg).1 0 length := by
  rcases enter_congr g length hl h with ⟨hread, hwrite, hm⟩
  rw [insert_eq, insert_eq, hread, hwrite]
  exact Memory.storeAll_congr _ 0 length _ _ hm

/-- Removing a message reads nothing behind the mapping. -/
theorem remove_congr (hg : g.Fits length) (h : m.AgreeOn m' 0 length)
    (hread : (enter g m).1 < g.slots) : (remove g m').2.1 = (remove g m).2.1 ∧
      (remove g m).1.AgreeOn (remove g m').1 0 length := by
  rcases enter_congr g length hg.header_le h with ⟨hr, hw, hm⟩
  have htext : text g (enter g m').2.2.1 (enter g m).1 = text g (enter g m).2.2.1 (enter g m).1 :=
    text_congr g _ _ _ (fun i _ hhi => hm i (Nat.zero_le i)
      (Nat.lt_of_lt_of_le hhi (slot_within g length hg _ hread).2.1))
  simp only [remove]
  rw [hr, hw]
  refine ⟨?_, Memory.storeAll_congr _ 0 length _ _ hm⟩
  rw [htext]

end Congruence

/-- A geometry that fits is enough to keep to one's bounds, whatever the memory
    holds. -/
theorem confined_of_fits (g : Geometry) (length : Nat) (m : Memory) (h : g.Fits length) :
    Confined g length m := by
  have hg := h.valid.1
  have hlt := enter_lt g m hg
  exact {
    slots_pos := Nat.lt_of_lt_of_le (by decide) hg.1
    size_fits := ⟨h.valid.2, h.size_le⟩
    indices_lt := hlt
    next_fits := fun i hi => ⟨Nat.lt_of_le_of_lt hi hg.2.1, Geometry.next_lt hg i⟩
    slot_within := slot_within g length h
    fill_within := fun msg => fill_within g _ msg hg.2.2
    rest_within := ⟨removeStores_last g _ _, fun msg => insert_within g _ _ msg⟩
    stray := stray_empty g m hg
    unchanged := fun i hi =>
      ⟨remove_beyond g m length h i hi, fun msg => insert_beyond g m length h msg i hi⟩
    unread := fun m' hm' => ⟨(remove_congr g length h hm' hlt.1).1,
      (remove_congr g length h hm' hlt.1).2,
      fun msg => insert_congr g length h.header_le hm' msg⟩ }

-- A step of a call keeps the size of the memory and what lies behind the
-- mapping.
theorem callStep_beyond (g : Geometry) (length : Nat) (hg : g.Fits length)
    (source : ClockSource) (clock : Clock) (m m' : Memory) (c : Call) (c' : Option Call)
    (es : List Sight) (h : callStep g source clock m c = some (m', c', es)) :
    m'.size = m.size ∧ ∀ i, length ≤ i → m'.byte i = m.byte i := by
  have hbounds := confined_of_fits g length m hg
  have htokens : ∀ n i, length ≤ i → (setTokens m ⟨n⟩).byte i = m.byte i := fun n i hi =>
    Memory.storeAll_beyond m [.number tokensAt 4 n] tokensAt headerSize i
      (fun s hs => by
        rw [List.mem_singleton.mp hs]
        exact ⟨Nat.le_refl _, show tokensAt + 4 ≤ headerSize by decide⟩)
      (Nat.le_trans hg.header_le hi)
  rcases callStep_cases g source clock m m' c c' es h with
    ⟨msg, _, rfl, _⟩ | ⟨_, _, _, rfl, _⟩ | ⟨_, _, rfl, _⟩ | ⟨_, _, _, n, _, _, rfl, _⟩ |
      ⟨_, _, _, _, rfl, _⟩ | ⟨_, _, _, rfl, _⟩
  · exact ⟨insert_size g m msg, fun i hi => (hbounds.unchanged i hi).2 msg⟩
  · exact ⟨rfl, htokens _⟩
  · exact ⟨rfl, fun _ _ => rfl⟩
  · exact ⟨rfl, htokens n⟩
  · exact ⟨rfl, fun _ _ => rfl⟩
  · exact ⟨remove_size g m, fun i hi => (hbounds.unchanged i hi).1⟩

/-- The words of the header that strangers may store into. -/
inductive HeaderWord
  | magic
  | slots
  | slotSize
  | flag
  | read
  | write
  deriving DecidableEq, Repr

/-- A stranger's store into a word of the header. -/
def HeaderWord.store (value : Nat) : HeaderWord → Store
  | magic => .number magicAt 4 value
  | slots => .number slotsAt 8 value
  | slotSize => .number slotSizeAt 8 value
  | flag => .number flagAt 1 value
  | read => .number readAt 4 value
  | write => .number writeAt 4 value

/-- What can happen to a ring that strangers have access to. -/
inductive Meddle
  /-- A party acts. -/
  | party (a : Act)
  /-- A stranger stores a value into a word of the header. -/
  | overwrite (w : HeaderWord) (value : Nat)

/-- Nobody maps more of the object than there is. -/
def Meddle.Maps (length : Nat) : Meddle → Prop
  | party (.join l) => l ≤ length
  | _ => True

namespace Traffic

/-- The traffic after an act or a stranger's store. -/
def meddled (s : Traffic) : Meddle → Option (Traffic × List Sight)
  | .party a => s.step a
  | .overwrite w value => some ({ s with memory := (w.store value).apply s.memory }, [])

/-- The object still has its size, the bytes behind it are those of `m`, and
    every party has room for its ring. -/
structure Fitted (length : Nat) (m : Memory) (s : Traffic) : Prop where
  size_eq : s.memory.size = length
  beyond : ∀ i, length ≤ i → s.memory.byte i = m.byte i
  fits : ∀ p ∈ s.parties, p.geometry.Fits length

-- A store into the header leaves everything in its place.
theorem Fitted.header {length : Nat} {m : Memory} {s : Traffic} (h : Fitted length m s)
    (hl : headerSize ≤ length) (store : Store) (hs : store.Within 0 headerSize) :
    Fitted length m { s with memory := store.apply s.memory } := by
  refine ⟨(Memory.storeAll_size s.memory [store]).trans h.size_eq, fun i hi => ?_, h.fits⟩
  exact (Memory.storeAll_beyond s.memory [store] 0 headerSize i
    (fun t ht => by rw [List.mem_singleton.mp ht]; exact hs) (Nat.le_trans hl hi)).trans
    (h.beyond i hi)

/-- Whatever happens, every party has room for its ring. -/
theorem fitted_step (length : Nat) (hl : headerSize ≤ length) (m : Memory) (s s' : Traffic)
    (a : Meddle) (es : List Sight) (h : Fitted length m s) (ha : a.Maps length)
    (hs : s.meddled a = some (s', es)) : Fitted length m s' := by
  cases a with
  | overwrite w value =>
      simp only [meddled, Option.some.injEq, Prod.mk.injEq] at hs
      rw [← hs.1]
      refine h.header hl _ ?_
      cases w <;> simp only [HeaderWord.store, Store.Within, Store.first, Store.size] <;> decide
  | party a =>
      have hset : ∀ (i : Nat) (p : Party) (c' : Option Call), s.parties[i]? = some p →
          ∀ q ∈ s.parties.set i ⟨p.geometry, c'⟩, q.geometry.Fits length := by
        intro i p c' hp q hq
        rcases List.mem_or_eq_of_mem_set hq with hq | rfl
        · exact h.fits q hq
        · exact h.fits p (List.mem_of_getElem? hp)
      rcases step_cases s s' a es hs with
        ⟨l, g, rfl, hg, rfl, _⟩ | ⟨i, p, c', hp, rfl, _⟩ |
          ⟨i, source, clock, g, c, m', c', rfl, hp, hc, rfl⟩ | ⟨off, value, _, hoff, _, _, rfl, _⟩
      · refine ⟨h.size_eq, h.beyond, fun q hq => ?_⟩
        rcases List.mem_append.mp hq with hq | hq
        · exact h.fits q hq
        · -- Whoever joins has found that the ring fits.
          rw [List.mem_singleton.mp hq]
          have hvalid := adopt?_valid hg
          exact ⟨hvalid.1, Nat.le_trans hvalid.2 ha⟩
      · exact ⟨h.size_eq, h.beyond, hset i p c' hp⟩
      · have hstep := callStep_beyond g length (h.fits _ (List.mem_of_getElem? hp)) source clock
          s.memory m' c c' es hc
        exact ⟨hstep.1.trans h.size_eq, fun j hj => (hstep.2 j hj).trans (h.beyond j hj),
          hset i ⟨g, some c⟩ c' hp⟩
      · refine h.header hl (.number off 4 value) ?_
        rcases hoff with rfl | rfl
        · exact ⟨Nat.zero_le _, show readAt + 4 ≤ headerSize by decide⟩
        · exact ⟨Nat.zero_le _, show writeAt + 4 ≤ headerSize by decide⟩

/-- Along every run, every party has room for its ring. -/
theorem fitted_run (length : Nat) (hl : headerSize ≤ length) (m : Memory) (s t : Traffic)
    (acts : List Meddle) (es : List Sight) (h : Fitted length m s)
    (hacts : ∀ a ∈ acts, a.Maps length) (hrun : Schedule.play meddled s acts = some (t, es)) :
    Fitted length m t :=
  Schedule.play_keeps meddled (Meddle.Maps length) (fun _ => True) (Fitted length m)
    (fun s a s' es hI ha _ hs => fitted_step length hl m s s' a es hI ha hs) acts s t es h hacts
    (fun _ _ => trivial) hrun

end Traffic

end Ring

namespace RingHandle

/-- A ring that is found or made has a geometry that fits, and all of its object
    is mapped. -/
theorem create_fits (s s' : ObjectShelf) (descriptorLeft : Bool) (name : String)
    (g : Ring.Geometry) (h : RingHandle) (notes : List Note)
    (hmade : create s descriptorLeft name g = (s', .ok h, notes)) :
    h.geometry.Fits h.length ∧ h.length = s'.sizeOf h.object := by
  rcases create_ended s s' descriptorLeft name g h notes hmade with ⟨_, q, _, hg, hq, hended⟩
  cases hended with
  | found h' g' hm hsize hadopt =>
      have hvalid := Ring.adopt?_valid hadopt
      exact ⟨⟨hvalid.1, hvalid.2⟩, hq.size_eq⟩
  | laid h' => exact ⟨⟨hg, hq.2.1⟩, hq.1.size_eq⟩

-- An object that is opened is as large as its handle says.
theorem open_size (s s' : ObjectShelf) (descriptorLeft : Bool) (name : String) (attr : ShmAttr)
    (size : Nat) (h : ShmHandle) (notes : List Note)
    (hopen : ShmHandle.open s descriptorLeft name attr size = (s', .ok h, notes)) :
    h.size = s'.sizeOf h.object := by
  unfold ShmHandle.open at hopen
  rcases hname : ObjectName.check (ObjectName.withSlash name) with e | host
  · rw [hname] at hopen
    exact absurd hopen refused_ne
  rw [hname] at hopen
  simp only [] at hopen
  have hkeeps := (runSteps_keeps (ShmHandle.openStep ⟨host, attr, size, descriptorLeft⟩)
    (fun _ _ => True) (fun _ _ _ _ _ _ _ => trivial) ShmHandle.openCalls s
    (ShmHandle.start attr) [] trivial).2
  rcases hout : (runSteps (ShmHandle.openStep ⟨host, attr, size, descriptorLeft⟩)
    ShmHandle.openCalls s (ShmHandle.start attr) []).outcome with q | (e | h')
  · rw [hout] at hopen
    exact absurd hopen refused_ne
  · rw [hout] at hopen
    exact absurd hopen refused_ne
  · rw [hout] at hopen
    simp only [Prod.mk.injEq, Except.ok.injEq] at hopen
    rcases hopen with ⟨rfl, rfl, _⟩
    rcases hkeeps _ hout with ⟨t, q, more, _, hlast⟩
    rcases ShmHandle.openStep_cases ⟨host, attr, size, descriptorLeft⟩ t q with
      ⟨_, _, _, hgoto, _⟩ | ⟨i, _, hdone⟩ | ⟨_, _, _, hdone, _⟩
    · exact absurd (hlast.symm.trans hgoto) (by simp only [reduceCtorEq, not_false_eq_true])
    · rw [hlast, Step.done.injEq, Except.ok.injEq] at hdone
      rw [hdone.1, hdone.2.1]
    · rw [hlast, Step.done.injEq] at hdone
      exact absurd hdone.2.1 (by simp only [reduceCtorEq, not_false_eq_true])

theorem attach_fits (s s' : ObjectShelf) (descriptorLeft : Bool) (name : String) (h : RingHandle)
    (notes : List Note) (hfound : attach s descriptorLeft name = (s', .ok h, notes)) :
    h.geometry.Fits h.length ∧ h.length = s'.sizeOf h.object := by
  unfold attach at hfound
  rcases hopen : ShmHandle.open s descriptorLeft name attachAttr 0 with ⟨t, e | h', more⟩
  · rw [hopen] at hfound
    exact absurd hfound refused_ne
  have hsize := open_size s t descriptorLeft name attachAttr 0 h' more hopen
  rw [hopen] at hfound
  simp only [] at hfound
  by_cases hsmall : h'.size < Ring.headerSize
  · rw [if_pos hsmall] at hfound
    exact absurd hfound refused_ne
  rw [if_neg hsmall] at hfound
  rcases h'.map_ring with ⟨_, mapping, hmap⟩ | ⟨_, e, why, hmap⟩
  · rw [hmap] at hfound
    simp only [] at hfound
    rcases hadopt : Ring.adopt? h'.size (t.memory h'.object) with _ | g
    · rw [hadopt] at hfound
      exact absurd hfound refused_ne
    · rw [hadopt] at hfound
      simp only [Prod.mk.injEq, Except.ok.injEq] at hfound
      rcases hfound with ⟨rfl, rfl, _⟩
      exact ⟨⟨(Ring.adopt?_valid hadopt).1, (Ring.adopt?_valid hadopt).2⟩, hsize⟩
  · rw [hmap] at hfound
    exact absurd hfound refused_ne

/-- All accesses stay inside the mapping, whatever the object held when the ring
    was found or made, whatever strangers store into the words of the header
    between the steps of calls, and whoever else joins. -/
theorem accesses_confined (s s' : ObjectShelf) (descriptorLeft : Bool) (name : String)
    (h : RingHandle) (notes : List Note)
    (hmade : (∃ g, create s descriptorLeft name g = (s', .ok h, notes)) ∨
      attach s descriptorLeft name = (s', .ok h, notes))
    (acts : List Ring.Meddle) (t : Ring.Traffic) (es : List Ring.Sight)
    (hacts : ∀ a ∈ acts, a.Maps h.length)
    (hrun : Schedule.play Ring.Traffic.meddled ⟨s'.memory h.object, [⟨h.geometry, none⟩]⟩ acts
      = some (t, es)) :
    h.length = s'.sizeOf h.object ∧ Ring.Confined h.geometry h.length t.memory ∧
      (∀ p ∈ t.parties, Ring.Confined p.geometry h.length t.memory) ∧
      t.memory.size = h.length ∧
      ∀ i, h.length ≤ i → t.memory.byte i = (s'.memory h.object).byte i := by
  have hfits : h.geometry.Fits h.length ∧ h.length = s'.sizeOf h.object := by
    rcases hmade with ⟨g, hmade⟩ | hmade
    · exact create_fits s s' descriptorLeft name g h notes hmade
    · exact attach_fits s s' descriptorLeft name h notes hmade
  have hstart : Ring.Traffic.Fitted h.length (s'.memory h.object)
      ⟨s'.memory h.object, [⟨h.geometry, none⟩]⟩ :=
    ⟨hfits.2.symm, fun _ _ => rfl, fun p hp => by rw [List.mem_singleton.mp hp]; exact hfits.1⟩
  have hend := Ring.Traffic.fitted_run h.length hfits.1.header_le _ _ t acts es hstart hacts hrun
  exact ⟨hfits.2, Ring.confined_of_fits _ _ _ hfits.1,
    fun p hp => Ring.confined_of_fits _ _ _ (hend.fits p hp), hend.size_eq, hend.beyond⟩

/-- A stranger makes the write index of a new ring as large as its word allows,
    and a message is written. -/
theorem accesses_confined_overwritten : ∃ t es,
    Schedule.play Ring.Traffic.meddled
      ⟨(create ObjectShelf.empty true "ring" ⟨2, 2⟩).1.memory 1, [⟨⟨2, 2⟩, none⟩]⟩
      [.overwrite .write 0xFFFFFFFF, .party (.write 0 [65]), .party (.move 0 .monotonic ⟨0, 0⟩)]
      = some (t, es) ∧
    Ring.Confined ⟨2, 2⟩ 116 t.memory ∧ t.memory.size = 116 := by
  have hcreate : create ObjectShelf.empty true "ring" ⟨2, 2⟩
      = ((create ObjectShelf.empty true "ring" ⟨2, 2⟩).1, .ok ⟨1, 116, ⟨2, 2⟩⟩,
        (create ObjectShelf.empty true "ring" ⟨2, 2⟩).2.2) := rfl
  have hacts : ∀ a ∈ [Ring.Meddle.overwrite .write 0xFFFFFFFF, .party (.write 0 [65]),
      .party (.move 0 .monotonic ⟨0, 0⟩)], a.Maps 116 := by
    simp only [List.forall_mem_cons, Ring.Meddle.Maps, List.not_mem_nil, false_imp_iff,
      implies_true, and_self]
  have hrun := accesses_confined ObjectShelf.empty _ true "ring" ⟨1, 116, ⟨2, 2⟩⟩ _
    (Or.inl ⟨⟨2, 2⟩, hcreate⟩) _ _ _ hacts rfl
  exact ⟨_, _, rfl, hrun.2.1, hrun.2.2.2.1⟩

end RingHandle

end HostLayer
