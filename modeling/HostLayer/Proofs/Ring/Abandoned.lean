import HostLayer.Proofs.Ring.Crash
import HostLayer.Proofs.Ring.Relics

/-!
# Abandoned Rings

What is left of a header whose maker dies on the way, and what others make of
it.

The mark is the first thing to go and the last thing to come. As long as only
some of the stores have been made there is no mark, so nobody takes the object
for a ring: to attach to it is refused, and whoever makes a ring under the name
lays out a header of its own. With the mark there the ring is complete.

Before the first store the memory is as it was. A party lays out a header only
where it has found no ring, but it may have made the object larger since then,
and a ring that was larger than its object is one again now. So an object whose
maker has not stored anything can be found as a ring, if it has been marked
before; `crash_consistent` says exactly when, and `relic_adopted` is such a case.

## Main definitions

* `RingHandle.Abandoned`: What others make of an object.
* `RingHandle.cutRing`, `RingHandle.relic`: An object that is a ring again.

## Theorems

* `Ring.mark_torn`, `Ring.adopt?_torn`: A header whose maker has died.
* `RingHandle.attach_found`, `RingHandle.attach_refused`,
  `RingHandle.create_found`: What attaching and creating find.
* `RingHandle.abandoned_creation`: A maker that has died.
* `RingHandle.crash_consistent`: What whoever dies leaves to the others.
* `RingHandle.relic_adopted`: A maker that dies before its first store can leave a
  ring.
-/

namespace HostLayer

namespace Ring

/-- A header that has been begun and not been finished has no mark. -/
theorem mark_torn (g : Geometry) (m : Memory) (p : List Store)
    (hp : Store.Torn (headerStores g) p) (hbegun : p ≠ [])
    (hopen : p ≠ (headerStores g).flatMap Store.atoms) :
    (m.storeAll p).loadNat magicAt 4 = 0 := by
  have hmid : ∀ s ∈ ((headerStores g).drop 1).take 9, s.Misses magicAt (magicAt + 4) := by
    simp only [headerStores, List.drop_succ_cons, List.drop_zero, List.take_succ_cons,
      List.take_zero, List.forall_mem_cons, Store.Misses, Store.first, Store.size, setFlag,
      setRead, setWrite, List.length_replicate]
    decide
  -- The mark is taken away, then come the stores beside it.
  have hclear : ∀ q : List Store, (∀ s ∈ q, s.Misses magicAt (magicAt + 4)) →
      (m.storeAll (.number magicAt 4 0 :: q)).loadNat magicAt 4 = 0 :=
    fun q hq => loadNat_storeAll_last m [] q magicAt 4 0 hq
  have hsplit : headerStores g = .number magicAt 4 0 ::
      (((headerStores g).drop 1).take 9 ++ [.number magicAt 4 magic]) := rfl
  rw [hsplit] at hp
  rcases hp.cons_number with rfl | ⟨q, rfl, hq⟩
  · exact absurd rfl hbegun
  rcases hq.append_cases with hq | ⟨q, rfl, hlast⟩
  · exact hclear q (hq.misses _ _ hmid)
  rcases hlast.cons_number with rfl | ⟨q, rfl, hnil⟩
  · rw [List.append_nil]
    exact hclear _ (Store.Torn.misses (List.prefix_refl _) _ _ hmid)
  · rw [hnil.nil_eq] at hopen
    exact absurd rfl hopen

/-- Nobody takes an object with such a header for a ring. -/
theorem adopt?_torn (g : Geometry) (length : Nat) (m : Memory) (p : List Store)
    (hp : Store.Torn (headerStores g) p) (hbegun : p ≠ [])
    (hopen : p ≠ (headerStores g).flatMap Store.atoms) : adopt? length (m.storeAll p) = none := by
  rw [Option.eq_none_iff_forall_ne_some]
  intro g' hg'
  have hmark := ((adopt?_eq_some_iff _ _ g').mp hg').1
  rw [mark_torn g m p hp hbegun hopen] at hmark
  exact absurd hmark (by decide)

end Ring

namespace RingHandle

section Finding

variable {s : ObjectShelf} {name host : String} {i : Nat}

-- What is found under the name can be mapped, unless it is empty.
theorem mappable (h : s.Reachable host i) (hsize : ¬s.sizeOf i < Ring.headerSize) :
    ShmHandle.Mappable ⟨i, host, s.sizeOf i, true⟩ :=
  ⟨Nat.lt_of_lt_of_le (by decide) (Nat.le_of_not_lt hsize), h.fits, rfl, h.is_memory⟩

-- Opening to attach finds the object.
theorem open_attach (hname : ObjectName.check (ObjectName.withSlash name) = .ok host)
    (h : s.Reachable host i) : ∃ notes, ShmHandle.open s true name attachAttr 0
      = (s, .ok ⟨i, host, s.sizeOf i, true⟩, notes) := by
  have hfind : ShmHandle.Moved ⟨host, attachAttr, 0, true⟩ s .opening s (.measuring i) := by
    have hno : (ObjectShelf.isDirectory i && attachAttr.rdwr) = false := by
      rw [h.is_memory, Bool.false_and]
    have hfind := ShmHandle.Moved.find (r := ⟨host, attachAttr, 0, true⟩) s i rfl h.usable.named
      hno (show Host.allows (s.mode i) true attachAttr.rdwr = true from h.usable.allowed)
    rw [if_neg (show ¬attachAttr.trunc = true by decide)] at hfind
    exact hfind
  rcases hfind.step_eq with ⟨notes, hstep⟩
  have hrun : runSteps (ShmHandle.openStep ⟨host, attachAttr, 0, true⟩) ShmHandle.openCalls s
      .opening [] = ⟨s, .inr (.ok ⟨i, host, s.sizeOf i, true⟩), [] ++ notes ++ []⟩ := by
    rw [show ShmHandle.openCalls = 2 + 1 + 1 from rfl, runSteps, hstep]
    exact runSteps_done _ _ _ _ _ _ _ _
      (by simp only [ShmHandle.openStep, show attachAttr.rdwr = true by decide])
  refine ⟨[] ++ notes ++ [] ++ [ShmHandle.openNote ⟨i, host, s.sizeOf i, true⟩], ?_⟩
  unfold ShmHandle.open
  rw [hname]
  simp only [show ShmHandle.start attachAttr = .opening by decide, hrun]

/-- Attaching finds a ring. -/
theorem attach_found (hname : ObjectName.check (ObjectName.withSlash name) = .ok host)
    (h : s.Reachable host i) {g : Ring.Geometry}
    (hg : Ring.adopt? (s.sizeOf i) (s.memory i) = some g) :
    ∃ notes, attach s true name = (s, .ok ⟨i, s.sizeOf i, g⟩, notes) := by
  have hsize := header_le_of_adopt hg
  rcases open_attach hname h with ⟨notes, hopen⟩
  rcases ShmHandle.map_ring ⟨i, host, s.sizeOf i, true⟩ with ⟨_, mapping, hmap⟩ | ⟨hno, _⟩
  · exact ⟨notes ++ [], by simp only [attach, hopen, if_neg hsize, hmap, hg]⟩
  · exact absurd (mappable h hsize) hno

/-- Attaching to what is no ring is refused. -/
theorem attach_refused (hname : ObjectName.check (ObjectName.withSlash name) = .ok host)
    (h : s.Reachable host i) (hg : Ring.adopt? (s.sizeOf i) (s.memory i) = none) :
    ∃ notes, attach s true name = (s, .error .invalidParam, notes) := by
  rcases open_attach hname h with ⟨notes, hopen⟩
  by_cases hsize : s.sizeOf i < Ring.headerSize
  · exact ⟨notes, by simp only [attach, hopen, if_pos hsize]⟩
  rcases ShmHandle.map_ring ⟨i, host, s.sizeOf i, true⟩ with ⟨_, mapping, hmap⟩ | ⟨hno, _⟩
  · exact ⟨notes ++ [], by simp only [attach, hopen, if_neg hsize, hmap, hg]⟩
  · exact absurd (mappable h hsize) hno

/-- Whoever wants a ring under the name finds the one that is there, whatever
    geometry is asked for. -/
theorem create_found (hname : ObjectName.check (ObjectName.withSlash name) = .ok host)
    (h : s.Reachable host i) {g : Ring.Geometry}
    (hg : Ring.adopt? (s.sizeOf i) (s.memory i) = some g) (g' : Ring.Geometry) (hg' : g'.Valid) :
    ∃ notes, create s true name g' = (s, .ok ⟨i, s.sizeOf i, g⟩, notes) := by
  have hsize := header_le_of_adopt hg
  have hwalk := walk_found (r := ⟨name, host, g', true⟩) rfl h.usable h.is_memory
  rcases runSteps_walk _ hwalk with ⟨more, hrun⟩
  have hlast : ∃ notes, createStep ⟨name, host, g', true⟩ s
      (.adopting ⟨i, host, s.sizeOf i, true⟩) = .done s (.ok ⟨i, s.sizeOf i, g⟩) notes := by
    rcases ShmHandle.map_ring ⟨i, host, s.sizeOf i, true⟩ with ⟨_, mapping, hmap⟩ | ⟨hno, _⟩
    · exact ⟨_, by simp only [createStep, if_neg hsize, hmap, hg]; rfl⟩
    · exact absurd (mappable h hsize) hno
  rcases hlast with ⟨last, hlast⟩
  have hsteps : runSteps (createStep ⟨name, host, g', true⟩) createSteps s start []
      = ⟨s, .inr (.ok ⟨i, s.sizeOf i, g⟩), [] ++ more ++ last⟩ := by
    rw [show createSteps = 3 + (18 + 1) from rfl, hrun]
    exact runSteps_done _ _ _ _ _ _ _ _ hlast
  refine ⟨[] ++ more ++ last, ?_⟩
  unfold create
  rw [if_neg (not_not_intro hg'), hname]
  simp only [hsteps]

end Finding

/-- What others make of the object `i` under a name, after a party has come to its
    header on the shelf `s₀` and has made the stores `p` of it. -/
structure Abandoned (name : String) (r : Request) (s₀ : ObjectShelf) (i : Nat) (p : List Store)
    (s : ObjectShelf) : Prop where
  /-- The object is no ring exactly if the header has not been finished and there
      was none beneath it before it was begun. -/
  no_ring_iff : Ring.adopt? (s.sizeOf i) (s.memory i) = none ↔
    p ≠ (Ring.headerStores r.geometry).flatMap Store.atoms ∧
      (p = [] → Ring.adopt? (ground r s₀).size (ground r s₀) = none)
  /-- What is no ring is refused, and the next party that wants a ring makes one
      of it, whatever geometry it asks for. -/
  refused : Ring.adopt? (s.sizeOf i) (s.memory i) = none →
    (∃ notes, attach s true name = (s, .error .invalidParam, notes)) ∧
    ∀ g' : Ring.Geometry, g'.Valid → g'.size < ObjectShelf.mapLimit →
      ∃ m notes, create s true name g' = (s.put i m, .ok ⟨i, m.size, g'⟩, notes) ∧
        Ring.Complete m.size g' m
  /-- A ring is marked, and whoever comes finds it. -/
  marked : ∀ g, Ring.adopt? (s.sizeOf i) (s.memory i) = some g →
    (s.memory i).loadNat Ring.magicAt 4 = Ring.magic ∧
    (∃ notes, attach s true name = (s, .ok ⟨i, s.sizeOf i, g⟩, notes)) ∧
    ∀ g' : Ring.Geometry, g'.Valid →
      ∃ notes, create s true name g' = (s, .ok ⟨i, s.sizeOf i, g⟩, notes)
  /-- With the mark of the new header the ring is complete. -/
  finished : p = (Ring.headerStores r.geometry).flatMap Store.atoms →
    Ring.Complete (s.sizeOf i) r.geometry (s.memory i)
  /-- A ring that was there before the header was begun had been larger than its
      object, until the party made the object larger. -/
  beneath : ∀ g, Ring.adopt? (ground r s₀).size (ground r s₀) = some g →
    ∃ j, s₀.names r.host = some j ∧ s₀.sizeOf j < g.size ∧ g.size ≤ r.geometry.size

/-- A party that nobody interferes with lays out a header and dies after some of
    its stores. -/
theorem abandoned_creation (name host : String)
    (hname : ObjectName.check (ObjectName.withSlash name) = .ok host) (r : Request)
    (hr : r.host = host) (hg : r.geometry.Valid) (s : ObjectShelf) (fuel : Nat) (h : ShmHandle)
    (hrun : (runSteps (createStep r) fuel s start []).outcome
      = .inl (.laying h (Ring.headerStores r.geometry)))
    (p : List Store) (hp : Store.Torn (Ring.headerStores r.geometry) p) :
    Abandoned name r s h.object p
      ((runSteps (createStep r) fuel s start []).state.put h.object
        (((runSteps (createStep r) fuel s start []).state.memory h.object).storeAll p)) := by
  rcases (placed_run r fuel s).1 _ hrun with ⟨hopened, hle, hm, _⟩
  rcases grounded_run r fuel s _ hrun with ⟨hvain, before, hsplit, hground⟩
  rw [List.self_eq_append_left.mp hsplit, Memory.storeAll_nil] at hground
  generalize (runSteps (createStep r) fuel s start []).state = t at *
  have hsize : (t.put h.object ((t.memory h.object).storeAll p)).sizeOf h.object = h.size := by
    rw [ObjectShelf.sizeOf, ObjectShelf.put_memory_self, Memory.storeAll_size]
    exact hopened.size_eq.symm
  have hreach : (t.put h.object ((t.memory h.object).storeAll p)).Reachable host h.object :=
    ⟨hr ▸ hopened.usable.put _ _, hm.is_memory, by rw [hsize]; exact hm.fits⟩
  have hfinished : p = (Ring.headerStores r.geometry).flatMap Store.atoms →
      Ring.Complete h.size r.geometry ((t.memory h.object).storeAll p) := by
    rintro rfl
    rw [Memory.storeAll_parts]
    exact Ring.complete_header _ r.geometry h.size hg hle
  refine ⟨?_, fun hnone => ⟨attach_refused hname hreach hnone, fun g' hg' hfits => ?_⟩,
    fun g hg => ⟨((Ring.adopt?_eq_some_iff _ _ g).mp hg).1, attach_found hname hreach hg,
      fun g' hg' => create_found hname hreach hg g' hg'⟩, ?_, fun g hg => ring_of_ground hvain hg⟩
  · rw [hsize, ObjectShelf.put_memory_self]
    refine ⟨fun hnone => ⟨fun hall => ?_, fun hempty => ?_⟩, fun hfree => ?_⟩
    · exact absurd (hnone.symm.trans (hfinished hall).adopted) (by
        simp only [reduceCtorEq, not_false_eq_true])
    · rw [hempty, Memory.storeAll_nil, hopened.size_eq, ObjectShelf.sizeOf, hground] at hnone
      exact hnone
    · by_cases hbegun : p = []
      · rw [hbegun, Memory.storeAll_nil, hopened.size_eq, ObjectShelf.sizeOf, hground]
        exact hfree.2 hbegun
      exact Ring.adopt?_torn r.geometry _ _ p hp hbegun hfree.1
  · exact create_remade hname ⟨rfl, hg', hfits, hreach, hnone⟩
  · rw [hsize, ObjectShelf.put_memory_self]
    exact hfinished

/-- Whoever dies in the middle of a change of a ring, with its lock in hand, leaves
    nothing that the others cannot go on with. Whoever dies in the middle of laying
    out a header leaves a ring exactly if all of it has been stored, or nothing and
    there was a ring beneath. Both hold for rings of every geometry. -/
theorem crash_consistent (g : Ring.Geometry) :
    (∀ (length : Nat) (m : Memory) (c : Ring.Change) (read write : Nat) (p : List Store),
      Ring.adopt? length m = some g → Ring.indices? g m = some (read, write) →
      Store.Torn (c.stores g read write) p →
      ∃ next, Ring.Recovers length g m (c.done g m)
        (Ring.orphan ((Ring.repair m).1.storeAll p)) next
        (c.Inserts ∧ (Ring.pending g m).length = g.slots - 1)) ∧
    ∀ (name : String) (r : Request) (s : ObjectShelf) (fuel : Nat) (h : ShmHandle)
      (p : List Store), r.geometry = g → g.Valid →
      ObjectName.check (ObjectName.withSlash name) = .ok r.host →
      (runSteps (createStep r) fuel s start []).outcome = .inl (.laying h (Ring.headerStores g)) →
      Store.Torn (Ring.headerStores g) p →
      Abandoned name r s h.object p
        ((runSteps (createStep r) fuel s start []).state.put h.object
          (((runSteps (createStep r) fuel s start []).state.memory h.object).storeAll p)) := by
  refine ⟨fun length m c read write p => Ring.crashed_change length g m c read write p,
    fun name r s fuel h p hgeometry hg hname hrun hp => ?_⟩
  rw [← hgeometry] at hg hrun hp
  exact abandoned_creation name r.host hname r rfl hg s fuel h hrun p hp

/-- A writer dies with its text in the slot and no NUL behind it, and the maker
    of another ring dies before it has stored a size. -/
theorem crash_consistent_smallest :
    (∃ next, Ring.Recovers 116 ⟨2, 2⟩ ((Memory.zeros 116).storeAll (Ring.headerStores ⟨2, 2⟩))
      ((Ring.Change.insert [65]).done ⟨2, 2⟩
        ((Memory.zeros 116).storeAll (Ring.headerStores ⟨2, 2⟩)))
      (Ring.orphan ((Ring.repair ((Memory.zeros 116).storeAll (Ring.headerStores ⟨2, 2⟩))).1.storeAll
        [.run 112 [65]])) next
      ((Ring.Change.insert [65]).Inserts ∧
        (Ring.pending ⟨2, 2⟩ ((Memory.zeros 116).storeAll (Ring.headerStores ⟨2, 2⟩))).length
          = 2 - 1)) ∧
    Abandoned "ring" ⟨"ring", "/ring", ⟨2, 2⟩, true⟩ ObjectShelf.empty 1
      ((Ring.headerStores ⟨2, 2⟩).take 2)
      ((runSteps (createStep ⟨"ring", "/ring", ⟨2, 2⟩, true⟩) 5 ObjectShelf.empty start []).state.put 1
        (((runSteps (createStep ⟨"ring", "/ring", ⟨2, 2⟩, true⟩) 5 ObjectShelf.empty start []
          ).state.memory 1).storeAll ((Ring.headerStores ⟨2, 2⟩).take 2))) := by
  have hvalid : Ring.Geometry.Valid ⟨2, 2⟩ := by decide
  refine ⟨(crash_consistent ⟨2, 2⟩).1 116 _ (.insert [65]) 0 0 [.run 112 [65]]
      (Ring.adopt?_header _ _ _ hvalid (by decide)) (Ring.indices?_header _ _ hvalid) ⟨_, rfl⟩,
    (crash_consistent ⟨2, 2⟩).2 "ring" ⟨"ring", "/ring", ⟨2, 2⟩, true⟩ ObjectShelf.empty 5
      ⟨1, "/ring", 116, true⟩ _ rfl hvalid ?_ ?_ ⟨_, rfl⟩⟩
  · rfl
  · rfl

/-- A ring of two slots with one message in it. -/
def keptRing : Memory :=
  (Memory.zeros 116).storeAll
    (Ring.headerStores ⟨2, 2⟩ ++ Ring.insertStores ⟨2, 2⟩ 0 0 [65])

/-- The object of that ring, which somebody has cut down to the header. -/
def cutRing : ObjectShelf :=
  (ObjectShelf.empty.made "/ring" ShmAttr.createRw.mode).put 1 (keptRing.resize 112)

/-- A party that wants another ring there, as far as it comes before its first
    store. -/
def relic : Progress ObjectShelf Place (Answer RingHandle) :=
  runSteps (createStep ⟨"ring", "/ring", ⟨4, 1⟩, true⟩) 9 cutRing start []

/-- The party has found no ring and dies before its first store. The others find
    the old ring in what it leaves, and not what was in it. -/
theorem relic_adopted :
    (attach cutRing true "ring").2.1 = .error .invalidParam ∧
    relic.outcome = .inl (.laying ⟨1, "/ring", 116, true⟩ (Ring.headerStores ⟨4, 1⟩)) ∧
    Store.Torn (Ring.headerStores ⟨4, 1⟩) [] ∧
    (attach (relic.state.put 1 ((relic.state.memory 1).storeAll [])) true "ring").2.1
      = .ok ⟨1, 116, ⟨2, 2⟩⟩ ∧
    (create (relic.state.put 1 ((relic.state.memory 1).storeAll [])) true "ring" ⟨4, 1⟩).2.1
      = .ok ⟨1, 116, ⟨2, 2⟩⟩ ∧
    Ring.pending ⟨2, 2⟩ keptRing = [[65]] ∧
    Ring.pending ⟨2, 2⟩ ((relic.state.memory 1).storeAll []) = [[]] ∧
    ∀ g, ¬Ring.Complete 116 g ((relic.state.memory 1).storeAll []) := by
  have hpending : Ring.pending ⟨2, 2⟩ ((relic.state.memory 1).storeAll []) = [[]] := by
    decide +kernel
  have hring : Ring.adopt? 116 ((relic.state.memory 1).storeAll []) = some ⟨2, 2⟩ := by
    decide +kernel
  refine ⟨rfl, rfl, List.nil_prefix, rfl, rfl,
    by decide +kernel, hpending, fun g hg => ?_⟩
  have hsame : g = ⟨2, 2⟩ := Option.some.inj (hg.adopted.symm.trans hring)
  have hempty := hg.empty
  rw [hsame, hpending] at hempty
  exact absurd hempty (by simp only [reduceCtorEq, not_false_eq_true])

end RingHandle

end HostLayer
