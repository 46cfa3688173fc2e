import HostLayer.Proofs.Ipc.Opening
import HostLayer.Proofs.Ring.Header
import HostLayer.Proofs.Routine

/-!
# Opening Rings

The steps by which a ring is found or made, one by one.

A party that opens or makes a ring opens the object, looks at it, makes it
larger if it has to, maps it and lays out a header. `RingHandle.Moved` lists the
steps that lead on, and `createStep_cases` says that nothing else happens: the
call ends with the ring that has been found or laid out, or with a cause.

The way of a party that nobody interferes with is put together from these
steps. Whatever object stands under the name and is none of a ring becomes one
(`create_remade`). In the other direction `Placed` says what holds wherever such
a party has come to, so that something is known of the object at whose header it
has stopped.

## Main definitions

* `ObjectShelf.Usable`: An object that its name can be used for.
* `RingHandle.Moved`: One step that leads on.
* `RingHandle.Ended`: How the call ends well.
* `RingHandle.Placed`: What holds of a party alone.

## Theorems

* `RingHandle.createStep_cases`, `RingHandle.Moved.step_eq`: The steps are those
  that are made.
* `RingHandle.walk_found`, `RingHandle.walk_made`: The way to the first look.
* `RingHandle.walk_remade`: The way from there to a new header.
* `RingHandle.create_laid`, `RingHandle.create_remade`: What is no ring becomes
  one.
* `RingHandle.Placed.step`: A party alone stays in its place.
* `RingHandle.create_ended`: How a party alone gets a ring.
-/

namespace HostLayer

namespace ObjectShelf

/-- Under the name there is an object that may be read and written. -/
structure Usable (s : ObjectShelf) (name : String) (i : Nat) : Prop where
  named : s.names name = some i
  allowed : Host.allows (s.mode i) true true = true

/-- The object under a name can be opened and mapped as a whole. -/
structure Reachable (s : ObjectShelf) (name : String) (i : Nat) : Prop where
  usable : s.Usable name i
  is_memory : isDirectory i = false
  fits : s.sizeOf i < mapLimit

-- Whatever is in an object, it can be used.
theorem Usable.put {s : ObjectShelf} {name : String} {i : Nat} (h : s.Usable name i) (j : Nat)
    (m : Memory) : (s.put j m).Usable name i :=
  ⟨h.named, h.allowed⟩

-- A new object can be used if it has been made for everyone.
theorem usable_made (s : ObjectShelf) (name : String) (mode : UInt32)
    (hmode : Host.allows mode true true = true) : (s.made name mode).Usable name s.next := by
  refine ⟨?_, ?_⟩
  · simp only [made, setName, if_true]
  · simp only [made, if_true]
    exact hmode

end ObjectShelf

namespace RingHandle

variable (r : Request)

-- Objects are opened to be read and written, and cut to their size only the
-- second time.
theorem opening_attr : (opening r).attr.rdwr = true ∧ (opening r).attr.trunc = false := by
  change ShmAttr.createRw.rdwr = true ∧ ShmAttr.createRw.trunc = false
  decide

theorem enlarging_attr : (enlarging r).attr.rdwr = true ∧ (enlarging r).attr.trunc = true := by
  change (ShmAttr.createRw.withTrunc true).rdwr = true ∧
    (ShmAttr.createRw.withTrunc true).trunc = true
  decide

-- What is made is made for everyone.
theorem made_allows : Host.allows (opening r).attr.mode true true = true ∧
    Host.allows (enlarging r).attr.mode true true = true := by
  change Host.allows ShmAttr.createRw.mode true true = true ∧
    Host.allows (ShmAttr.createRw.withTrunc true).mode true true = true
  decide

-- The step in which an object has been opened.
theorem createStep_measuring (s : ObjectShelf) (i : Nat) :
    (∃ notes, createStep r s (.opening (.measuring i))
      = .goto s (.adopting ⟨i, r.host, s.sizeOf i, true⟩) notes) ∧
    ∃ notes, createStep r s (.enlarging (.measuring i))
      = .goto s (.mapping ⟨i, r.host, s.sizeOf i, true⟩) notes := by
  have h1 : ShmHandle.openStep (opening r) s (.measuring i)
      = .done s (.ok ⟨i, r.host, s.sizeOf i, true⟩) [] := by
    simp only [ShmHandle.openStep, (opening_attr r).1]
    rfl
  have h2 : ShmHandle.openStep (enlarging r) s (.measuring i)
      = .done s (.ok ⟨i, r.host, s.sizeOf i, true⟩) [] := by
    simp only [ShmHandle.openStep, (enlarging_attr r).1]
    rfl
  exact ⟨⟨_, by rw [createStep, h1]; rfl⟩, ⟨_, by rw [createStep, h2]; rfl⟩⟩

/-- One step of opening or making a ring that leads on: the shelf and the place
    before, and the shelf and the place after it. -/
inductive Moved : ObjectShelf → Place → ObjectShelf → Place → Prop
  /-- A host call of opening. -/
  | call (s s' : ObjectShelf) (p p' : ShmHandle.Place)
      (h : ShmHandle.Moved (opening r) s p s' p') : Moved s (.opening p) s' (.opening p')
  /-- The object is open. -/
  | opened (s : ObjectShelf) (i : Nat) :
      Moved s (.opening (.measuring i)) s (.adopting ⟨i, r.host, s.sizeOf i, true⟩)
  /-- There is no ring in the object. -/
  | pass (s : ObjectShelf) (h : ShmHandle)
      (hno : h.size < Ring.headerSize ∨
        h.Mappable ∧ Ring.adopt? h.size (s.memory h.object) = none) :
      Moved s (.adopting h) s (afterLook r h)
  /-- A host call of opening it again. -/
  | again (s s' : ObjectShelf) (p p' : ShmHandle.Place)
      (h : ShmHandle.Moved (enlarging r) s p s' p') : Moved s (.enlarging p) s' (.enlarging p')
  /-- The object is open again. -/
  | enlarged (s : ObjectShelf) (i : Nat) :
      Moved s (.enlarging (.measuring i)) s (.mapping ⟨i, r.host, s.sizeOf i, true⟩)
  /-- The object is mapped for a header. -/
  | map (s : ObjectShelf) (h : ShmHandle) (hm : h.Mappable) :
      Moved s (.mapping h) s (.laying h (Ring.headerStores r.geometry))
  /-- One store of the header. -/
  | lay (s : ObjectShelf) (h : ShmHandle) (store : Store) (left : List Store) :
      Moved s (.laying h (store :: left))
        (s.put h.object (store.apply (s.memory h.object))) (.laying h left)

/-- How the call ends well: with the ring that has been found in the object, or
    with the one whose header has been laid out. -/
inductive Ended : ObjectShelf → Place → RingHandle → Prop
  | found (s : ObjectShelf) (h : ShmHandle) (g : Ring.Geometry) (hm : h.Mappable)
      (hsize : Ring.headerSize ≤ h.size)
      (hg : Ring.adopt? h.size (s.memory h.object) = some g) :
      Ended s (.adopting h) ⟨h.object, h.size, g⟩
  | laid (s : ObjectShelf) (h : ShmHandle) :
      Ended s (.laying h []) ⟨h.object, h.size, r.geometry⟩

/-- A step leads on, or the call ends with a ring, or it ends with a cause and
    at most a name that has been given in vain is removed. -/
theorem createStep_cases (s : ObjectShelf) (p : Place) :
    (∃ s' p' notes, createStep r s p = .goto s' p' notes ∧ Moved r s p s' p') ∨
    (∃ h notes, createStep r s p = .done s (.ok h) notes ∧ Ended r s p h) ∨
    (∃ s' e notes, createStep r s p = .done s' (.error e) notes ∧
      (s' = s ∨ ∃ why, p = .opening (.removing why) ∨ p = .enlarging (.removing why))) := by
  cases p with
  | opening p =>
      rcases ShmHandle.openStep_cases (opening r) s p with
        ⟨s', p', notes, hstep, hmoved⟩ | ⟨i, rfl, hstep⟩ | ⟨s', e, notes, hstep, hs'⟩
      · exact Or.inl ⟨s', .opening p', notes, by rw [createStep, hstep]; rfl,
          .call s s' p p' hmoved⟩
      · rcases (createStep_measuring r s i).1 with ⟨notes, hgoto⟩
        exact Or.inl ⟨s, _, notes, hgoto, .opened s i⟩
      · exact Or.inr (Or.inr ⟨s', e, notes, by rw [createStep, hstep]; rfl,
          hs'.imp_right (fun ⟨why, hp, _⟩ => ⟨why, Or.inl (congrArg Place.opening hp)⟩)⟩)
  | adopting h =>
      by_cases hsize : h.size < Ring.headerSize
      · exact Or.inl ⟨s, _, [], by rw [createStep, if_pos hsize], .pass s h (Or.inl hsize)⟩
      rcases h.map_ring with ⟨hm, mapping, hmap⟩ | ⟨_, e, notes, hmap⟩
      · rcases hg : Ring.adopt? h.size (s.memory h.object) with _ | g
        · refine Or.inl ⟨s, _, [], ?_, .pass s h (Or.inr ⟨hm, hg⟩)⟩
          simp only [createStep, if_neg hsize, hmap, hg]
        · refine Or.inr (Or.inl ⟨⟨h.object, h.size, g⟩, [] ++ [madeNote r "found" g], ?_,
            .found s h g hm (Nat.le_of_not_lt hsize) hg⟩)
          simp only [createStep, if_neg hsize, hmap, hg]
      · exact Or.inr (Or.inr ⟨s, e, notes, by simp only [createStep, if_neg hsize, hmap],
          Or.inl rfl⟩)
  | enlarging p =>
      rcases ShmHandle.openStep_cases (enlarging r) s p with
        ⟨s', p', notes, hstep, hmoved⟩ | ⟨i, rfl, hstep⟩ | ⟨s', e, notes, hstep, hs'⟩
      · exact Or.inl ⟨s', .enlarging p', notes, by rw [createStep, hstep]; rfl,
          .again s s' p p' hmoved⟩
      · rcases (createStep_measuring r s i).2 with ⟨notes, hgoto⟩
        exact Or.inl ⟨s, _, notes, hgoto, .enlarged s i⟩
      · exact Or.inr (Or.inr ⟨s', e, notes, by rw [createStep, hstep]; rfl,
          hs'.imp_right (fun ⟨why, hp, _⟩ => ⟨why, Or.inr (congrArg Place.enlarging hp)⟩)⟩)
  | mapping h =>
      rcases h.map_ring with ⟨hm, mapping, hmap⟩ | ⟨_, e, notes, hmap⟩
      · exact Or.inl ⟨s, _, [], by simp only [createStep, hmap], .map s h hm⟩
      · exact Or.inr (Or.inr ⟨s, e, notes, by simp only [createStep, hmap], Or.inl rfl⟩)
  | laying h left =>
      cases left with
      | nil => exact Or.inr (Or.inl ⟨_, _, rfl, .laid s h⟩)
      | cons store left => exact Or.inl ⟨_, _, [], rfl, .lay s h store left⟩

variable {r}

/-- Every step that can lead on does. -/
theorem Moved.step_eq {s s' : ObjectShelf} {p p' : Place} (h : Moved r s p s' p') :
    ∃ notes, createStep r s p = .goto s' p' notes := by
  cases h with
  | call _ p p' h =>
      rcases h.step_eq with ⟨notes, hstep⟩
      exact ⟨notes, by rw [createStep, hstep]; rfl⟩
  | opened i => exact (createStep_measuring r s i).1
  | pass h hno =>
      by_cases hsize : h.size < Ring.headerSize
      · exact ⟨[], by rw [createStep, if_pos hsize]⟩
      · rcases hno with hsize' | ⟨hm, hg⟩
        · exact absurd hsize' hsize
        rcases h.map_ring with ⟨_, mapping, hmap⟩ | ⟨hno, _⟩
        · exact ⟨[], by simp only [createStep, if_neg hsize, hmap, hg]⟩
        · exact absurd hm hno
  | again _ p p' h =>
      rcases h.step_eq with ⟨notes, hstep⟩
      exact ⟨notes, by rw [createStep, hstep]; rfl⟩
  | enlarged i => exact (createStep_measuring r s i).2
  | map h hm =>
      rcases h.map_ring with ⟨_, mapping, hmap⟩ | ⟨hno, _⟩
      · exact ⟨[], by simp only [createStep, hmap]⟩
      · exact absurd hm hno
  | lay h store left => exact ⟨[], rfl⟩

theorem Moved.walk {s s' : ObjectShelf} {p p' : Place} (h : Moved r s p s' p') :
    Walk (createStep r) 1 s p s' p' := by
  rcases h.step_eq with ⟨notes, hstep⟩
  exact Walk.one hstep

theorem start_eq : start = .opening (.creating false) := by decide

theorem start_enlarging : ShmHandle.start (enlarging r).attr = .creating false := by
  change ShmHandle.start (ShmAttr.createRw.withTrunc true) = .creating false
  decide

-- A usable object is found, and cut only if it is opened the second time.
theorem moved_find {s : ObjectShelf} {i : Nat} (hd : r.descriptorLeft = true)
    (hu : s.Usable r.host i) (hdir : ObjectShelf.isDirectory i = false) :
    ShmHandle.Moved (opening r) s .opening s (.measuring i) ∧
      ShmHandle.Moved (enlarging r) s .opening s (.sizing i false) := by
  have hallow : ∀ writes, writes = true → Host.allows (s.mode i) true writes = true :=
    fun writes hw => by rw [hw]; exact hu.allowed
  have hno : ∀ writes, (ObjectShelf.isDirectory i && writes) = false :=
    fun writes => by rw [hdir, Bool.false_and]
  have h1 := ShmHandle.Moved.find (r := opening r) s i hd hu.named (hno _)
    (hallow _ (opening_attr r).1)
  have h2 := ShmHandle.Moved.find (r := enlarging r) s i hd hu.named (hno _)
    (hallow _ (enlarging_attr r).1)
  rw [if_neg (by rw [(opening_attr r).2]; decide)] at h1
  rw [if_pos (enlarging_attr r).2] at h2
  exact ⟨h1, h2⟩

/-- The way to the first look at an object that stands under the name. -/
theorem walk_found {s : ObjectShelf} {i : Nat} (hd : r.descriptorLeft = true)
    (hu : s.Usable r.host i) (hdir : ObjectShelf.isDirectory i = false) :
    Walk (createStep r) 3 s start s (.adopting ⟨i, r.host, s.sizeOf i, true⟩) := by
  have hpass : Moved r s (.opening (.creating false)) s (.opening .opening) :=
    .call s s _ _ (.pass s i hd hu.named)
  have hfind : Moved r s (.opening .opening) s (.opening (.measuring i)) :=
    .call s s _ _ (moved_find hd hu hdir).1
  rw [start_eq]
  exact (hpass.walk.append hfind.walk).append (Moved.opened s i).walk

/-- The shelf with a new object that is as large as the request says. -/
def founded (r : Request) (s : ObjectShelf) : ObjectShelf :=
  (s.made r.host ShmAttr.createRw.mode).put s.next ((Memory.zeros 0).resize r.geometry.size)

/-- The way to the first look at an object that is made on it. -/
theorem walk_made {s : ObjectShelf} (hd : r.descriptorLeft = true)
    (hfree : s.names r.host = none) (hsize : r.geometry.size < ObjectShelf.sizeLimit) :
    Walk (createStep r) 3 s start (founded r s)
      (.adopting ⟨s.next, r.host, r.geometry.size, true⟩) := by
  have hmake : Moved r s (.opening (.creating false)) (s.made r.host ShmAttr.createRw.mode)
      (.opening (.sizing s.next true)) := .call s _ _ _ (.make s false hd hfree)
  have hsizing : Moved r (s.made r.host ShmAttr.createRw.mode) (.opening (.sizing s.next true))
      (founded r s) (.opening (.measuring s.next)) := by
    have h := ShmHandle.Moved.size (r := opening r) (s.made r.host ShmAttr.createRw.mode) s.next
      true hsize (opening_attr r).1
    rw [show (s.made r.host ShmAttr.createRw.mode).memory s.next = Memory.zeros 0 from
      ObjectShelf.put_memory_self s s.next _] at h
    exact .call _ _ _ _ h
  have hopened := (Moved.opened (r := r) (founded r s) s.next).walk
  rw [show (founded r s).sizeOf s.next = r.geometry.size by
    rw [founded, ObjectShelf.sizeOf, ObjectShelf.put_memory_self]
    rfl] at hopened
  rw [start_eq]
  exact (hmake.walk.append hsizing.walk).append hopened

theorem founded_usable (r : Request) (s : ObjectShelf) :
    (founded r s).Usable r.host s.next :=
  (s.usable_made r.host ShmAttr.createRw.mode (by decide)).put _ _

/-- The stores of a header are made one after the other. -/
theorem walk_laid (h : ShmHandle) (left : List Store) :
    ∀ s : ObjectShelf, Walk (createStep r) left.length s (.laying h left)
      (s.put h.object ((s.memory h.object).storeAll left)) (.laying h []) := by
  induction left with
  | nil =>
      intro s
      rw [Memory.storeAll_nil, ObjectShelf.put_self_eq]
      exact .here s _
  | cons store left ih =>
      intro s
      have hfirst := (Moved.lay (r := r) s h store left).walk
      have hrest := ih (s.put h.object (store.apply (s.memory h.object)))
      rw [ObjectShelf.put_memory_self, ObjectShelf.put_put] at hrest
      rw [Memory.storeAll_cons, List.length_cons, Nat.add_comm]
      exact hfirst.append hrest

theorem size_pos (g : Ring.Geometry) : 0 < g.size :=
  Nat.lt_of_lt_of_le (show 0 < Ring.headerSize by decide) (Nat.le_add_right _ _)

/-- The way from a look in vain to a new header, over a larger object if it has
    been too small. -/
theorem walk_enlarged {s : ObjectShelf} {h : ShmHandle} (hd : r.descriptorLeft = true)
    (hu : s.Usable r.host h.object) (hdir : ObjectShelf.isDirectory h.object = false)
    (hw : h.writable = true) (hfits : h.size < ObjectShelf.mapLimit)
    (hg : r.geometry.size < ObjectShelf.mapLimit) :
    ∃ n, ∃ m : Memory, ∃ h', n ≤ 5 ∧ h'.object = h.object ∧ r.geometry.size ≤ h'.size ∧
      (h.size = s.sizeOf h.object → h'.size = m.size) ∧
      Walk (createStep r) n s (afterLook r h) (s.put h.object m)
        (.laying h' (Ring.headerStores r.geometry)) := by
  by_cases hsmall : h.size < r.geometry.size
  · have hplace : afterLook r h = .enlarging (.creating false) := by
      unfold afterLook
      rw [if_pos hsmall, start_enlarging]
    have hpass : Moved r s (.enlarging (.creating false)) s (.enlarging .opening) :=
      .again s s _ _ (.pass s h.object hd hu.named)
    have hfind : Moved r s (.enlarging .opening) s (.enlarging (.sizing h.object false)) :=
      .again s s _ _ (moved_find hd hu hdir).2
    have hlimit : r.geometry.size < ObjectShelf.sizeLimit := Nat.lt_trans hg (by decide)
    have hsizing := (Moved.again (r := r) _ _ _ _
      (.size s h.object false hlimit (enlarging_attr r).1)).walk
    have hopened := (Moved.enlarged (r := r)
      (s.put h.object ((s.memory h.object).resize r.geometry.size)) h.object).walk
    rw [ObjectShelf.sizeOf, ObjectShelf.put_memory_self] at hopened
    have hmap := (Moved.map (r := r)
      (s.put h.object ((s.memory h.object).resize r.geometry.size))
      ⟨h.object, r.host, r.geometry.size, true⟩ ⟨size_pos _, hg, rfl, hdir⟩).walk
    refine ⟨_, (s.memory h.object).resize r.geometry.size,
      ⟨h.object, r.host, r.geometry.size, true⟩, Nat.le_refl 5, rfl, Nat.le_refl _,
      fun _ => rfl, ?_⟩
    rw [hplace]
    exact (((hpass.walk.append hfind.walk).append hsizing).append hopened).append hmap
  · have hlarge := Nat.le_of_not_lt hsmall
    refine ⟨1, s.memory h.object, h, by decide, rfl, hlarge, fun hsize => hsize, ?_⟩
    rw [ObjectShelf.put_self_eq]
    unfold afterLook
    rw [if_neg hsmall]
    exact (Moved.map s h ⟨Nat.lt_of_lt_of_le (size_pos _) hlarge, hfits, hw, hdir⟩).walk

-- An object with a ring has room for a header.
theorem header_le_of_adopt {length : Nat} {m : Memory} {g : Ring.Geometry}
    (hg : Ring.adopt? length m = some g) : ¬length < Ring.headerSize :=
  Nat.not_lt.mpr (Nat.le_trans (Nat.le_add_right _ _) (Ring.adopt?_valid hg).2)

/-- The object under the name of the request is no ring, and one can be made of
    it. -/
structure Ripe (r : Request) (s : ObjectShelf) (i : Nat) : Prop where
  descriptor : r.descriptorLeft = true
  valid : r.geometry.Valid
  fits : r.geometry.size < ObjectShelf.mapLimit
  reachable : s.Reachable r.host i
  no_ring : Ring.adopt? (s.sizeOf i) (s.memory i) = none

-- Who finds no ring in an object that can be used goes on.
theorem moved_pass {s : ObjectShelf} {i : Nat} (h : s.Reachable r.host i)
    (hno : Ring.adopt? (s.sizeOf i) (s.memory i) = none) :
    Moved r s (.adopting ⟨i, r.host, s.sizeOf i, true⟩) s
      (afterLook r ⟨i, r.host, s.sizeOf i, true⟩) := by
  refine .pass s _ ?_
  by_cases hsmall : s.sizeOf i < Ring.headerSize
  · exact Or.inl hsmall
  · have hpos : 0 < s.sizeOf i := Nat.lt_of_lt_of_le (by decide) (Nat.le_of_not_lt hsmall)
    exact Or.inr ⟨⟨hpos, h.fits, rfl, h.is_memory⟩, hno⟩

/-- The whole way to a header, once an object has been looked at that is no
    ring. -/
theorem walk_remade {s t : ObjectShelf} {i : Nat} (h : Ripe r t i)
    (look : Walk (createStep r) 3 s start t (.adopting ⟨i, r.host, t.sizeOf i, true⟩)) :
    ∃ n, ∃ m : Memory, ∃ h', n ≤ 20 ∧ h'.object = i ∧ h'.size = m.size ∧ r.geometry.size ≤ m.size ∧
      Walk (createStep r) n s start (t.put i (m.storeAll (Ring.headerStores r.geometry)))
        (.laying h' []) := by
  rcases h.reachable with ⟨husable, hdir, hlimit⟩
  have hpass := moved_pass h.reachable h.no_ring
  rcases walk_enlarged (h := ⟨i, r.host, t.sizeOf i, true⟩) h.descriptor husable hdir rfl hlimit
    h.fits with ⟨n, m, h', hn, rfl, hle, hsize, hwalk⟩
  have hlaid := walk_laid (r := r) h' (Ring.headerStores r.geometry) (t.put h'.object m)
  rw [ObjectShelf.put_memory_self, ObjectShelf.put_put] at hlaid
  rw [hsize rfl] at hle
  refine ⟨_, m, h', ?_, rfl, hsize rfl, hle, ((look.append hpass.walk).append hwalk).append hlaid⟩
  rw [show (Ring.headerStores r.geometry).length = 11 from rfl]
  omega

/-- What is looked at and is no ring becomes an empty one with the geometry that
    is asked for. -/
theorem create_laid {name host : String} {g : Ring.Geometry} {s t : ObjectShelf} {i : Nat}
    (hname : ObjectName.check (ObjectName.withSlash name) = .ok host)
    (h : Ripe ⟨name, host, g, true⟩ t i)
    (look : Walk (createStep ⟨name, host, g, true⟩) 3 s start t
      (.adopting ⟨i, host, t.sizeOf i, true⟩)) :
    ∃ m notes, create s true name g = (t.put i m, .ok ⟨i, m.size, g⟩, notes) ∧
      Ring.Complete m.size g m := by
  rcases walk_remade h look with ⟨n, m, h', hn, rfl, hsize, hle, hwalk⟩
  rcases runSteps_walk _ hwalk with ⟨more, hrun⟩
  refine ⟨m.storeAll (Ring.headerStores g),
    [] ++ more ++ [madeNote ⟨name, host, g, true⟩ "initialized" g], ?_,
    Ring.complete_header m g _ h.valid (by rw [Memory.storeAll_size]; exact hle)⟩
  have hsteps : runSteps (createStep ⟨name, host, g, true⟩) createSteps s start []
      = ⟨t.put h'.object (m.storeAll (Ring.headerStores g)), .inr (.ok ⟨h'.object, h'.size, g⟩),
          [] ++ more ++ [madeNote ⟨name, host, g, true⟩ "initialized" g]⟩ := by
    rw [show createSteps = n + ((21 - n) + 1) by rw [show createSteps = 22 from rfl]; omega,
      hrun]
    exact runSteps_done _ _ _ _ _ _ _ _ rfl
  unfold create
  rw [if_neg (not_not_intro h.valid), hname]
  simp only [hsteps, hsize, Memory.storeAll_size]

/-- So does an object that stands under the name and is no ring. -/
theorem create_remade {name host : String} {g : Ring.Geometry} {s : ObjectShelf} {i : Nat}
    (hname : ObjectName.check (ObjectName.withSlash name) = .ok host)
    (h : Ripe ⟨name, host, g, true⟩ s i) :
    ∃ m notes, create s true name g = (s.put i m, .ok ⟨i, m.size, g⟩, notes) ∧
      Ring.Complete m.size g m :=
  create_laid hname h (walk_found h.descriptor h.reachable.usable h.reachable.is_memory)

/-- An object has been opened under the name of the request, and it still has
    the size that it had. -/
structure Opened (r : Request) (s : ObjectShelf) (h : ShmHandle) : Prop where
  usable : s.Usable r.host h.object
  size_eq : h.size = s.sizeOf h.object

/-- What holds of a party that nobody interferes with, wherever it stands. -/
def Placed (r : Request) (s : ObjectShelf) : Place → Prop
  | .opening (.sizing i _) => s.Usable r.host i
  | .opening (.measuring i) => s.Usable r.host i
  | .opening _ => True
  | .adopting h => Opened r s h
  | .enlarging (.sizing i _) => s.Usable r.host i
  | .enlarging (.measuring i) => s.Usable r.host i ∧ s.sizeOf i = r.geometry.size
  | .enlarging _ => True
  | .mapping h => Opened r s h ∧ r.geometry.size ≤ h.size
  | .laying h left => Opened r s h ∧ r.geometry.size ≤ h.size ∧ h.Mappable ∧
      ∃ before, ∃ m : Memory, Ring.headerStores r.geometry = before ++ left ∧
        s.memory h.object = m.storeAll before

-- Opening once or twice, an object is found that can be used.
theorem usable_find {s : ObjectShelf} {name : String} {i : Nat} {writes : Bool}
    (hi : s.names name = some i) (hw : writes = true)
    (hallow : Host.allows (s.mode i) true writes = true) : s.Usable name i :=
  ⟨hi, by subst hw; exact hallow⟩

/-- A party alone stays in its place. -/
theorem Placed.step {s s' : ObjectShelf} {p p' : Place} (h : Placed r s p)
    (hm : Moved r s p s' p') : Placed r s' p' := by
  cases hm with
  | call _ p p' hm =>
      cases hm with
      | make only hd hfree => exact s.usable_made _ _ (made_allows r).1
      | pass i hd hi => trivial
      | find i hd hi hdir hallow =>
          rw [if_neg (by rw [(opening_attr r).2]; decide)]
          exact usable_find hi (opening_attr r).1 hallow
      | size i created hs hw => exact h.put i _
      | undo i hbad => trivial
  | opened i => exact ⟨h, rfl⟩
  | pass h' hno =>
      unfold afterLook
      by_cases hsmall : h'.size < r.geometry.size
      · rw [if_pos hsmall, start_enlarging]
        trivial
      · rw [if_neg hsmall]
        exact ⟨h, Nat.le_of_not_lt hsmall⟩
  | again _ p p' hm =>
      cases hm with
      | make only hd hfree => exact s.usable_made _ _ (made_allows r).2
      | pass i hd hi => trivial
      | find i hd hi hdir hallow =>
          rw [if_pos (enlarging_attr r).2]
          exact usable_find hi (enlarging_attr r).1 hallow
      | size i created hs hw =>
          refine ⟨h.put i _, ?_⟩
          rw [ObjectShelf.sizeOf, ObjectShelf.put_memory_self]
          rfl
      | undo i hbad => trivial
  | enlarged i => exact ⟨⟨h.1, rfl⟩, Nat.le_of_eq h.2.symm⟩
  | map h' hm => exact ⟨h.1, h.2, hm, [], s.memory h'.object, rfl, rfl⟩
  | lay h' store left =>
      rcases h with ⟨hopened, hle, hm, before, m, hsplit, hmem⟩
      refine ⟨⟨hopened.usable.put _ _, ?_⟩, hle, hm, before ++ [store], m, ?_, ?_⟩
      · have hkeep : (store.apply (s.memory h'.object)).size = (s.memory h'.object).size :=
          Memory.storeAll_size (s.memory h'.object) [store]
        rw [ObjectShelf.sizeOf, ObjectShelf.put_memory_self, hkeep]
        exact hopened.size_eq
      · rw [List.append_assoc]
        exact hsplit
      · rw [ObjectShelf.put_memory_self, hmem, Memory.storeAll_append]
        rfl

/-- Wherever a party alone has come to, it is in its place there. -/
theorem placed_run (r : Request) (fuel : Nat) (s : ObjectShelf) :
    (∀ q, (runSteps (createStep r) fuel s start []).outcome = .inl q →
      Placed r (runSteps (createStep r) fuel s start []).state q) ∧
    ∀ h, (runSteps (createStep r) fuel s start []).outcome = .inr (.ok h) → ∃ q,
      Placed r (runSteps (createStep r) fuel s start []).state q ∧
        Ended r (runSteps (createStep r) fuel s start []).state q h := by
  have hrun := runSteps_keeps (createStep r) (Placed r) (fun s p s' p' notes hI hstep => by
    rcases createStep_cases r s p with
      ⟨t, q, more, hgoto, hmoved⟩ | ⟨h, more, hdone, _⟩ | ⟨t, e, more, hdone, _⟩
    · rw [hstep, Step.goto.injEq] at hgoto
      rw [hgoto.1, hgoto.2.1]
      exact hI.step hmoved
    · exact absurd (hstep.symm.trans hdone) (by simp only [reduceCtorEq, not_false_eq_true])
    · exact absurd (hstep.symm.trans hdone) (by simp only [reduceCtorEq, not_false_eq_true]))
    fuel s start [] (by rw [start_eq]; trivial)
  refine ⟨hrun.1, fun h hout => ?_⟩
  rcases hrun.2 _ hout with ⟨t, q, more, hI, hlast⟩
  rcases createStep_cases r t q with
    ⟨u, q', notes, hgoto, _⟩ | ⟨h', notes, hdone, hended⟩ | ⟨u, e, notes, hdone, _⟩
  · exact absurd (hlast.symm.trans hgoto) (by simp only [reduceCtorEq, not_false_eq_true])
  · rw [hlast, Step.done.injEq, Except.ok.injEq] at hdone
    rw [hdone.1, hdone.2.1]
    exact ⟨q, hI, hended⟩
  · rw [hlast, Step.done.injEq] at hdone
    exact absurd hdone.2.1 (by simp only [reduceCtorEq, not_false_eq_true])

-- Who is refused gets nothing.
theorem refused_ne {α : Type} {s s' : ObjectShelf} {e : Error} {a : α} {notes notes' : List Note} :
    (s, (.error e : Answer α), notes) ≠ (s', .ok a, notes') := by
  simp only [ne_eq, Prod.mk.injEq, reduceCtorEq, false_and, and_false, not_false_eq_true]

/-- A ring that somebody has got alone has been found or laid out. -/
theorem create_ended (s s' : ObjectShelf) (descriptorLeft : Bool) (name : String)
    (g : Ring.Geometry) (h : RingHandle) (notes : List Note)
    (hmade : create s descriptorLeft name g = (s', .ok h, notes)) :
    ∃ host q, ObjectName.check (ObjectName.withSlash name) = .ok host ∧ g.Valid ∧
      Placed ⟨name, host, g, descriptorLeft⟩ s' q ∧
      Ended ⟨name, host, g, descriptorLeft⟩ s' q h := by
  unfold create at hmade
  by_cases hg : g.Valid
  · rw [if_neg (not_not_intro hg)] at hmade
    rcases hname : ObjectName.check (ObjectName.withSlash name) with e | host
    · rw [hname] at hmade
      exact absurd hmade refused_ne
    rw [hname] at hmade
    simp only [] at hmade
    rcases hout : (runSteps (createStep ⟨name, host, g, descriptorLeft⟩) createSteps s start
      []).outcome with q | r
    · rw [hout] at hmade
      exact absurd hmade refused_ne
    · rw [hout] at hmade
      simp only [Prod.mk.injEq] at hmade
      rcases hmade with ⟨rfl, rfl, _⟩
      rcases (placed_run ⟨name, host, g, descriptorLeft⟩ createSteps s).2 h hout with
        ⟨q, hq, hended⟩
      exact ⟨host, q, rfl, hg, hq, hended⟩
  · rw [if_pos hg] at hmade
    exact absurd hmade refused_ne

end RingHandle

end HostLayer
