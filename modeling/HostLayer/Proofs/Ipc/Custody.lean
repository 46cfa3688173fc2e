import HostLayer.Host.Store
import HostLayer.Proofs.Ipc.Alone
import HostLayer.Proofs.Schedule

/-!
# Custody of Objects

What becomes of shared objects in a process that opens, maps and removes them.

The calls of one process come one after the other, in any order and with any
arguments. Each of them is seen, and what is seen is enough to know every object at
any later time: an object is what it was, with the sizes that it has got and the
bytes that have been written to it since, in that order (`Desk.Follows`). A name
stands for its object until it is removed, and an object whose name has been
removed gets no name again. So it stays as its users leave it, and its name is free
for another object.

The names of the directories are the exception. They can be opened to be read, and
the size that is found then is what the host states at that time. So the host is
one more party of a run: it states a size whenever it likes.

## Main definitions

* `ObjectShelf.Orderly`: Every name stands for an object that there is, and an
  object has one name at most.
* `Desk`: The shelf, with what the process has opened and mapped.
* `Desk.Act`, `Desk.Seen`, `Desk.step`: The calls.
* `Change`, `Desk.history`: What happens to an object.
* `Desk.Follows`: How a shelf goes on.
* `Desk.Custody`: What the process can rely on.

## Theorems

* `Desk.step_follows`, `Desk.play_follows`: A call, and a run of calls.
* `Desk.handle_kept`, `Desk.mapping_kept`: What is open stays open.
* `Desk.custody_of_run`: Every process can rely on its objects.
* `Desk.directory_restated`: A directory is found with two sizes.
-/

namespace HostLayer

namespace ObjectShelf

/-- Every name stands for an object that there is, and no two names stand for one
    object, apart from the directories. -/
structure Orderly (s : ObjectShelf) : Prop where
  directory_lt : directory < s.next
  names_lt : ∀ n i, s.names n = some i → i < s.next
  unique : ∀ m n i, s.names m = some i → s.names n = some i → isDirectory i = false → m = n

theorem empty_orderly : empty.Orderly := by
  refine ⟨Nat.one_pos, fun n i h => ?_, fun m n i hm hn hdir => ?_⟩
  · simp only [empty] at h
    split at h
    next => rw [← Option.some.inj h]; exact Nat.one_pos
    next => exact absurd h (by simp only [reduceCtorEq, not_false_eq_true])
  · simp only [empty] at hm
    split at hm
    next =>
      rw [← Option.some.inj hm] at hdir
      exact absurd hdir (by decide)
    next => exact absurd hm (by simp only [reduceCtorEq, not_false_eq_true])

theorem Unchanged.orderly {s s' : ObjectShelf} (h : Unchanged s s') (hs : s.Orderly) :
    s'.Orderly := by
  refine ⟨Nat.lt_of_lt_of_le hs.directory_lt h.next_le, fun n i hn => ?_, fun m n i hm hn => ?_⟩
  · rw [h.names_eq] at hn
    exact Nat.lt_of_lt_of_le (hs.names_lt n i hn) h.next_le
  · rw [h.names_eq] at hm hn
    exact hs.unique m n i hm hn

-- A change of an object touches no name.
theorem Orderly.put {s : ObjectShelf} (hs : s.Orderly) (i : Nat) (m : Memory) :
    (s.put i m).Orderly :=
  ⟨hs.directory_lt, hs.names_lt, hs.unique⟩

theorem Orderly.made {s : ObjectShelf} (hs : s.Orderly) (name : String) (mode : UInt32) :
    (s.made name mode).Orderly := by
  have hname : ∀ n i, (s.made name mode).names n = some i →
      n = name ∧ i = s.next ∨ s.names n = some i := by
    intro n i h
    simp only [ObjectShelf.made, setName] at h
    split at h
    next hn => exact Or.inl ⟨hn, (Option.some.inj h).symm⟩
    next => exact Or.inr h
  refine ⟨Nat.lt_succ_of_lt hs.directory_lt, fun n i hn => ?_, fun m n i hm hn hdir => ?_⟩
  · rcases hname n i hn with ⟨_, rfl⟩ | hn
    · exact Nat.lt_succ_self _
    · exact Nat.lt_succ_of_lt (hs.names_lt n i hn)
  · rcases hname m i hm with ⟨rfl, rfl⟩ | hm
    · rcases hname n _ hn with ⟨rfl, _⟩ | hn
      · rfl
      · exact absurd (hs.names_lt n _ hn) (Nat.lt_irrefl _)
    · rcases hname n i hn with ⟨_, rfl⟩ | hn
      · exact absurd (hs.names_lt m _ hm) (Nat.lt_irrefl _)
      · exact hs.unique m n i hm hn hdir

theorem Orderly.removed {s : ObjectShelf} (hs : s.Orderly) (name : String) :
    (s.setName name none).Orderly := by
  have hname : ∀ n i, (s.setName name none).names n = some i → s.names n = some i := by
    intro n i h
    simp only [setName] at h
    split at h
    next => exact absurd h (by simp only [reduceCtorEq, not_false_eq_true])
    next => exact h
  exact ⟨hs.directory_lt, fun n i hn => hs.names_lt n i (hname n i hn),
    fun m n i hm hn => hs.unique m n i (hname m i hm) (hname n i hn)⟩

end ObjectShelf

theorem ShmHandle.Opened.orderly {r : OpenRequest} {s s' : ObjectShelf} {i : Nat}
    (h : Opened r s s' i) (hs : s.Orderly) : s'.Orderly := by
  cases h with
  | created _ => exact (hs.made r.name r.attr.mode).put _ _
  | resized i _ _ _ => exact hs.put i _
  | found i _ _ => exact hs

/-- What can happen to an object. -/
inductive Change
  /-- It gets a size. -/
  | resize (size : Nat)
  /-- Bytes are written to it. -/
  | write (off : Nat) (bytes : List UInt8)

/-- The object after a change. -/
def Change.apply (m : Memory) : Change → Memory
  | resize size => m.resize size
  | write off bytes => m.store off bytes

/-- The shelf, with what the process has opened and mapped. -/
structure Desk where
  shelf : ObjectShelf
  handles : Nat → Option ShmHandle
  mappings : Nat → Option Mapping

namespace Desk

/-- A process that has just started, on a host without objects that has stated
    nothing yet. -/
def fresh : Desk := ⟨ObjectShelf.empty, fun _ => none, fun _ => none⟩

/-- The calls of the process, with the places for what they give and take. -/
inductive Act
  | open (slot : Nat) (descriptorLeft : Bool) (name : String) (attr : ShmAttr) (size : Nat)
  | close (slot : Nat)
  | unlink (name : String)
  | map (slot mapping : Nat) (flags : UInt32)
  | write (mapping off : Nat) (bytes : List UInt8)
  | unmap (mapping : Nat)
  /-- The host states a size for the directories. -/
  | state (size : Nat)

/-- What is seen of the calls. -/
inductive Seen
  | opened (r : ShmHandle.OpenRequest) (h : ShmHandle)
  | closed
  /-- The name has been removed. -/
  | unlinked (name : String)
  | mapped (m : Mapping)
  /-- Bytes have been written to an object. -/
  | written (object off : Nat) (bytes : List UInt8)
  /-- Bytes have been written to the pages of a mapping. -/
  | kept
  | unmapped
  /-- The directories have got a size. -/
  | stated (size : Nat)
  | refused (e : Error)

/-- A place with something else in it. -/
def place {α : Type} (f : Nat → Option α) (k : Nat) (x : Option α) : Nat → Option α :=
  fun j => if j = k then x else f j

/-- The desk after a call. -/
def step (d : Desk) : Act → Option (Desk × List Seen)
  | .open slot left name attr size =>
      match ShmHandle.open d.shelf left name attr size with
      | (s, .ok h, _) => some ({ d with shelf := s, handles := place d.handles slot (some h) },
          [.opened ⟨ObjectName.withSlash name, attr, size, left⟩ h])
      | (s, .error e, _) => some ({ d with shelf := s }, [.refused e])
  | .close slot =>
      match d.handles slot with
      | some _ => some ({ d with handles := place d.handles slot none }, [.closed])
      | none => none
  | .unlink name =>
      match ShmHandle.unlink d.shelf name with
      | (s, .ok (), _) => some ({ d with shelf := s }, [.unlinked (ObjectName.withSlash name)])
      | (s, .error e, _) => some ({ d with shelf := s }, [.refused e])
  | .map slot mapping flags =>
      match d.handles slot with
      | none => none
      | some h =>
          match h.map flags with
          | (.ok m, _) =>
              some ({ d with mappings := place d.mappings mapping (some m) }, [.mapped m])
          | (.error e, _) => some (d, [.refused e])
  | .write mapping off bytes =>
      match d.mappings mapping with
      | none => none
      | some m =>
          some ({ d with
            shelf := (m.store d.shelf off bytes).1
            mappings := place d.mappings mapping (some (m.store d.shelf off bytes).2) },
            [if m.isShared then .written m.object off bytes else .kept])
  | .unmap mapping =>
      match d.mappings mapping with
      | some _ => some ({ d with mappings := place d.mappings mapping none }, [.unmapped])
      | none => none
  | .state size => some ({ d with shelf := d.shelf.stated size }, [.stated size])

/-- What calls do. -/
inductive Happened (d : Desk) : Act → Desk → List Seen → Prop
  | opened (slot : Nat) (left : Bool) (name : String) (attr : ShmAttr) (size : Nat)
      (s' : ObjectShelf) (h : ShmHandle)
      (hopened : ShmHandle.Opened ⟨ObjectName.withSlash name, attr, size, left⟩ d.shelf s'
        h.object) :
      Happened d (.open slot left name attr size)
        { d with shelf := s', handles := place d.handles slot (some h) }
        [.opened ⟨ObjectName.withSlash name, attr, size, left⟩ h]
  | unopened (slot : Nat) (left : Bool) (name : String) (attr : ShmAttr) (size : Nat)
      (s' : ObjectShelf) (e : Error) (hs : ObjectShelf.Unchanged d.shelf s') :
      Happened d (.open slot left name attr size) { d with shelf := s' } [.refused e]
  | closed (slot : Nat) :
      Happened d (.close slot) { d with handles := place d.handles slot none } [.closed]
  | unlinked (name : String) :
      Happened d (.unlink name)
        { d with shelf := d.shelf.setName (ObjectName.withSlash name) none }
        [.unlinked (ObjectName.withSlash name)]
  | linked (name : String) (e : Error) : Happened d (.unlink name) d [.refused e]
  | mapped (slot k : Nat) (flags : UInt32) (m : Mapping) :
      Happened d (.map slot k flags) { d with mappings := place d.mappings k (some m) } [.mapped m]
  | unmappable (slot k : Nat) (flags : UInt32) (e : Error) :
      Happened d (.map slot k flags) d [.refused e]
  | written (k off : Nat) (bytes : List UInt8) (m : Mapping) (hm : d.mappings k = some m) :
      Happened d (.write k off bytes)
        { d with
          shelf := d.shelf.put m.object ((d.shelf.memory m.object).store off bytes)
          mappings := place d.mappings k (some m) }
        [.written m.object off bytes]
  | kept (k off : Nat) (bytes : List UInt8) (m : Mapping) (hm : d.mappings k = some m)
      (hp : m.isShared = false) :
      Happened d (.write k off bytes)
        { d with mappings := place d.mappings k (some (m.storePrivate d.shelf off bytes)) } [.kept]
  | unmapped (k : Nat) :
      Happened d (.unmap k) { d with mappings := place d.mappings k none } [.unmapped]
  | stated (size : Nat) :
      Happened d (.state size) { d with shelf := d.shelf.stated size } [.stated size]

theorem step_happened (d d' : Desk) (a : Act) (es : List Seen)
    (hs : ObjectShelf.directory < d.shelf.next) (h : step d a = some (d', es)) :
    Happened d a d' es := by
  cases a with
  | «open» slot left name attr size =>
      simp only [step] at h
      rcases ShmHandle.open_cases d.shelf left name attr size hs with
        ⟨_, s', i, notes, hopened, hopen⟩ | ⟨_, s', e, notes, hunchanged, hopen⟩
      · simp only [hopen, Option.some.injEq, Prod.mk.injEq] at h
        rcases h with ⟨rfl, rfl⟩
        exact .opened slot left name attr size s' _ hopened
      · simp only [hopen, Option.some.injEq, Prod.mk.injEq] at h
        rcases h with ⟨rfl, rfl⟩
        exact .unopened slot left name attr size s' e hunchanged
  | close slot =>
      simp only [step] at h
      split at h
      next =>
        simp only [Option.some.injEq, Prod.mk.injEq] at h
        rcases h with ⟨rfl, rfl⟩
        exact .closed slot
      next => exact absurd h (by simp only [reduceCtorEq, not_false_eq_true])
  | unlink name =>
      simp only [step] at h
      rcases ShmHandle.unlink_cases d.shelf name with ⟨i, _, _, hu⟩ | ⟨e, notes, hu⟩
      · simp only [hu, Option.some.injEq, Prod.mk.injEq] at h
        rcases h with ⟨rfl, rfl⟩
        exact .unlinked name
      · simp only [hu, Option.some.injEq, Prod.mk.injEq] at h
        rcases h with ⟨rfl, rfl⟩
        exact .linked name e
  | map slot k flags =>
      simp only [step] at h
      split at h
      next => exact absurd h (by simp only [reduceCtorEq, not_false_eq_true])
      next g _ =>
        split at h
        next m _ _ =>
          simp only [Option.some.injEq, Prod.mk.injEq] at h
          rcases h with ⟨rfl, rfl⟩
          exact .mapped slot k flags m
        next e _ _ =>
          simp only [Option.some.injEq, Prod.mk.injEq] at h
          rcases h with ⟨rfl, rfl⟩
          exact .unmappable slot k flags e
  | write k off bytes =>
      simp only [step] at h
      split at h
      next => exact absurd h (by simp only [reduceCtorEq, not_false_eq_true])
      next m hm =>
        simp only [Option.some.injEq, Prod.mk.injEq, Mapping.store] at h
        rcases h with ⟨rfl, rfl⟩
        cases hp : m.isShared with
        | true =>
            simp only [if_true]
            exact .written k off bytes m hm
        | false =>
            simp only [Bool.false_eq_true, if_false]
            exact .kept k off bytes m hm hp
  | unmap k =>
      simp only [step] at h
      split at h
      next =>
        simp only [Option.some.injEq, Prod.mk.injEq] at h
        rcases h with ⟨rfl, rfl⟩
        exact .unmapped k
      next => exact absurd h (by simp only [reduceCtorEq, not_false_eq_true])
  | state size =>
      simp only [step, Option.some.injEq, Prod.mk.injEq] at h
      rcases h with ⟨rfl, rfl⟩
      exact .stated size

/-- What a call has done to the object `i`, if it is not a new one. -/
def Seen.change? (i : Nat) : Seen → Option Change
  | .opened r h => if h.object = i ∧ r.attr.trunc = true then some (.resize r.size) else none
  | .written object off bytes => if object = i then some (.write off bytes) else none
  | .stated size => if ObjectShelf.directory = i then some (.resize size) else none
  | _ => none

/-- What has happened to the object `i`. -/
def history (i : Nat) (es : List Seen) : List Change :=
  es.filterMap (Seen.change? i)

/-- The shelf `s'` follows the shelf `s` after what has been seen: objects have
    changed as is seen, names that have not been removed stand for what they stood
    for, and an object without a name gets none and is not opened. -/
structure Follows (s : ObjectShelf) (es : List Seen) (s' : ObjectShelf) : Prop where
  next_le : s.next ≤ s'.next
  memory_eq : ∀ i, i < s.next → s'.memory i = (history i es).foldl Change.apply (s.memory i)
  mode_eq : ∀ i, i < s.next → s'.mode i = s.mode i
  named : ∀ n i, s.names n = some i → .unlinked n ∉ es → s'.names n = some i
  nameless : ∀ i, i < s.next → (∀ n, s.names n ≠ some i) → ∀ n, s'.names n ≠ some i
  unopened : ∀ i, i < s.next → (∀ n, s.names n ≠ some i) → ∀ r h, .opened r h ∈ es →
    h.object ≠ i

theorem Follows.refl (s : ObjectShelf) : Follows s [] s :=
  ⟨Nat.le_refl _, fun _ _ => rfl, fun _ _ => rfl, fun _ _ h _ => h, fun _ _ h => h,
    fun _ _ _ _ _ h => absurd h List.not_mem_nil⟩

theorem Follows.append {s t u : ObjectShelf} {es fs : List Seen} (h1 : Follows s es t)
    (h2 : Follows t fs u) : Follows s (es ++ fs) u where
  next_le := Nat.le_trans h1.next_le h2.next_le
  memory_eq i hi := by
    rw [h2.memory_eq i (Nat.lt_of_lt_of_le hi h1.next_le), h1.memory_eq i hi]
    unfold history
    rw [List.filterMap_append, List.foldl_append]
  mode_eq i hi := by
    rw [h2.mode_eq i (Nat.lt_of_lt_of_le hi h1.next_le), h1.mode_eq i hi]
  named n i hn hes :=
    h2.named n i (h1.named n i hn fun h => hes (List.mem_append_left _ h))
      fun h => hes (List.mem_append_right _ h)
  nameless i hi hn := h2.nameless i (Nat.lt_of_lt_of_le hi h1.next_le) (h1.nameless i hi hn)
  unopened i hi hn r h hmem := by
    rcases List.mem_append.mp hmem with hmem | hmem
    · exact h1.unopened i hi hn r h hmem
    · exact h2.unopened i (Nat.lt_of_lt_of_le hi h1.next_le) (h1.nameless i hi hn) r h hmem

/-- A call that changes nothing is seen as one that does not. -/
theorem follows_unchanged {s s' : ObjectShelf} (h : ObjectShelf.Unchanged s s') (e : Seen)
    (he : ∀ i, e.change? i = none) (hopened : ∀ r g, e ≠ .opened r g) : Follows s [e] s' where
  next_le := h.next_le
  memory_eq i hi := by
    rw [h.memory_eq i hi]
    simp only [history, List.filterMap_cons, he, List.filterMap_nil, List.foldl_nil]
  mode_eq := h.mode_eq
  named n i hn _ := by
    rw [h.names_eq]
    exact hn
  nameless i _ hn n := by
    rw [h.names_eq]
    exact hn n
  unopened _ _ _ r g hmem := absurd (List.mem_singleton.mp hmem).symm (hopened r g)

/-- An object that is opened changes as far as it gets a size. -/
theorem follows_opened {r : ShmHandle.OpenRequest} {s s' : ObjectShelf} {h : ShmHandle}
    (hopened : ShmHandle.Opened r s s' h.object) : Follows s [.opened r h] s' := by
  generalize hobj : h.object = j at hopened
  have hhistory : ∀ i, history i [.opened r h]
      = if j = i ∧ r.attr.trunc = true then [.resize r.size] else [] := by
    intro i
    simp only [history, List.filterMap_cons, Seen.change?, hobj, List.filterMap_nil]
    by_cases hi : j = i ∧ r.attr.trunc = true
    · rw [if_pos hi, if_pos hi]
    · rw [if_neg hi, if_neg hi]
  have hopen : ∀ r' g, Seen.opened r' g ∈ [Seen.opened r h] → r' = r ∧ g.object = j := by
    intro r' g hmem
    rcases Seen.opened.inj (List.mem_singleton.mp hmem) with ⟨rfl, rfl⟩
    exact ⟨rfl, hobj⟩
  cases hopened with
  | created hfree =>
      -- What is new is none of the objects that there were.
      have hmem : ∀ i, i < s.next →
          ((s.made r.name r.attr.mode).put s.next (Memory.zeros r.size)).memory i = s.memory i :=
        fun i hi => (if_neg (Nat.ne_of_lt hi)).trans (if_neg (Nat.ne_of_lt hi))
      refine ⟨Nat.le_succ _, fun i hi => ?_, fun i hi => if_neg (Nat.ne_of_lt hi),
        fun n i hn _ => ?_, fun i hi hno n hn => ?_, fun i hi _ r' g hmem => ?_⟩
      · rw [hmem i hi, hhistory, if_neg fun h => Nat.ne_of_gt hi h.1]
        rfl
      · have hne : n ≠ r.name := by
          rintro rfl
          exact absurd (hfree.symm.trans hn) (by simp only [reduceCtorEq, not_false_eq_true])
        exact (if_neg hne).trans hn
      · simp only [ObjectShelf.put, ObjectShelf.made, ObjectShelf.setName] at hn
        split at hn
        next => exact Nat.ne_of_gt hi (Option.some.inj hn)
        next => exact hno n hn
      · rw [(hopen r' g hmem).2]
        exact Nat.ne_of_gt hi
  | resized _ hi ht _ =>
      refine ⟨Nat.le_refl _, fun i _ => ?_, fun _ _ => rfl, fun _ _ hn _ => hn, fun _ _ hn => hn,
        fun i _ hno r' g hmem hg => hno r.name ?_⟩
      · rw [hhistory]
        by_cases hij : j = i
        · rw [if_pos ⟨hij, ht⟩, ← hij, ObjectShelf.put_memory_self]
          rfl
        · rw [if_neg fun h => hij h.1]
          exact if_neg (Ne.symm hij)
      · rw [hi, ← (hopen r' g hmem).2, hg]
  | found _ hi ht =>
      refine ⟨Nat.le_refl _, fun i _ => ?_, fun _ _ => rfl, fun _ _ hn _ => hn, fun _ _ hn => hn,
        fun i _ hno r' g hmem hg => hno r.name ?_⟩
      · rw [hhistory, if_neg fun h => Bool.false_ne_true (ht.symm.trans h.2)]
        rfl
      · rw [hi, ← (hopen r' g hmem).2, hg]

theorem follows_unlinked (s : ObjectShelf) (name : String) :
    Follows s [.unlinked name] (s.setName name none) where
  next_le := Nat.le_refl _
  memory_eq _ _ := rfl
  mode_eq _ _ := rfl
  named n i hn hes := by
    have hne : n ≠ name := by
      rintro rfl
      exact hes (List.mem_singleton.mpr rfl)
    exact (if_neg hne).trans hn
  nameless i _ hno n hn := by
    simp only [ObjectShelf.setName] at hn
    split at hn
    next => exact absurd hn (by simp only [reduceCtorEq, not_false_eq_true])
    next => exact hno n hn
  unopened _ _ _ _ _ hmem := absurd (List.mem_singleton.mp hmem) (by
    simp only [reduceCtorEq, not_false_eq_true])

theorem follows_written (s : ObjectShelf) (j off : Nat) (bytes : List UInt8) :
    Follows s [.written j off bytes] (s.put j ((s.memory j).store off bytes)) where
  next_le := Nat.le_refl _
  memory_eq i _ := by
    simp only [history, List.filterMap_cons, Seen.change?, List.filterMap_nil]
    by_cases hij : j = i
    · rw [if_pos hij, ← hij, ObjectShelf.put_memory_self]
      rfl
    · rw [if_neg hij]
      exact if_neg (Ne.symm hij)
  mode_eq _ _ := rfl
  named _ _ hn _ := hn
  nameless _ _ hn := hn
  unopened _ _ _ _ _ hmem := absurd (List.mem_singleton.mp hmem) (by
    simp only [reduceCtorEq, not_false_eq_true])

theorem follows_stated (s : ObjectShelf) (size : Nat) :
    Follows s [.stated size] (s.stated size) where
  next_le := Nat.le_refl _
  memory_eq i _ := by
    simp only [history, List.filterMap_cons, Seen.change?, List.filterMap_nil]
    by_cases hi : ObjectShelf.directory = i
    · rw [if_pos hi, ← hi]
      exact ObjectShelf.put_memory_self s _ _
    · rw [if_neg hi]
      exact if_neg (Ne.symm hi)
  mode_eq _ _ := rfl
  named _ _ hn _ := hn
  nameless _ _ hn := hn
  unopened _ _ _ _ _ hmem := absurd (List.mem_singleton.mp hmem) (by
    simp only [reduceCtorEq, not_false_eq_true])

/-- What is seen of a call is what becomes of the shelf. -/
theorem step_follows (d d' : Desk) (a : Act) (es : List Seen) (hs : d.shelf.Orderly)
    (h : step d a = some (d', es)) : Follows d.shelf es d'.shelf ∧ d'.shelf.Orderly := by
  have hsame : ∀ e : Seen, (∀ i, e.change? i = none) → (∀ r g, e ≠ .opened r g) →
      Follows d.shelf [e] d.shelf ∧ d.shelf.Orderly :=
    fun e he ho => ⟨follows_unchanged (.refl d.shelf) e he ho, hs⟩
  cases step_happened d d' a es hs.directory_lt h with
  | opened slot left name attr size s' g hopened =>
      exact ⟨follows_opened hopened, hopened.orderly hs⟩
  | unopened slot left name attr size s' e hunchanged =>
      exact ⟨follows_unchanged hunchanged _ (fun _ => rfl) (fun _ _ => by
        simp only [ne_eq, reduceCtorEq, not_false_eq_true]), hunchanged.orderly hs⟩
  | unlinked name => exact ⟨follows_unlinked d.shelf _, hs.removed _⟩
  | written k off bytes m _ => exact ⟨follows_written d.shelf m.object off bytes, hs.put _ _⟩
  | stated size => exact ⟨follows_stated d.shelf size, hs.put _ _⟩
  | _ =>
      exact hsame _ (fun _ => rfl) (fun _ _ => by
        simp only [ne_eq, reduceCtorEq, not_false_eq_true])

/-- The same for any number of calls. -/
theorem play_follows (d d' : Desk) (acts : List Act) (es : List Seen) (hs : d.shelf.Orderly)
    (h : Schedule.play step d acts = some (d', es)) :
    Follows d.shelf es d'.shelf ∧ d'.shelf.Orderly := by
  rcases Schedule.play_simulates step (fun _ => True) (fun d s => d.shelf = s ∧ s.Orderly)
    Follows Follows.refl (fun _ _ _ _ _ h1 h2 => h1.append h2)
    (fun d s a d' es hR _ hstep => by
      rcases hR with ⟨rfl, hs⟩
      rcases step_follows d d' a es hs hstep with ⟨hf, ho⟩
      exact ⟨d'.shelf, hf, rfl, ho⟩)
    acts d d' d.shelf es ⟨rfl, hs⟩ (fun _ _ => trivial) h with ⟨s, hf, rfl, ho⟩
  exact ⟨hf, ho⟩

/-- The bytes that have been written to the object `i`. -/
def Seen.write? (i : Nat) : Seen → Option Store
  | .written object off bytes => if object = i then some (.run off bytes) else none
  | _ => none

/-- All bytes that have been written to the object `i`, in order. -/
def writes (i : Nat) (es : List Seen) : List Store :=
  es.filterMap (Seen.write? i)

/-- Nobody has given the object `i` a new size. A directory has no size but the one
    that the host states. -/
def Unsized (i : Nat) (es : List Seen) : Prop :=
  (∀ r h, .opened r h ∈ es → h.object = i → r.attr.trunc = false) ∧
    (ObjectShelf.isDirectory i = true → ∀ size, .stated size ∉ es)

-- What happens to an object that gets no size are writes.
theorem foldl_history (i : Nat) (es : List Seen) :
    ∀ m, Unsized i es → (history i es).foldl Change.apply m = m.storeAll (writes i es) := by
  induction es with
  | nil => exact fun _ _ => rfl
  | cons e es ih =>
      intro m hno
      have hrest : Unsized i es := ⟨fun r h hmem => hno.1 r h (List.mem_cons_of_mem e hmem),
        fun hdir size hmem => hno.2 hdir size (List.mem_cons_of_mem e hmem)⟩
      -- Most calls leave the object alone.
      have hskip : e.change? i = none → e.write? i = none →
          (history i (e :: es)).foldl Change.apply m = m.storeAll (writes i (e :: es)) := by
        intro hc hw
        simp only [history, writes, List.filterMap_cons, hc, hw]
        exact ih m hrest
      cases e with
      | opened r h =>
          refine hskip (if_neg fun hsized => ?_) rfl
          exact Bool.false_ne_true ((hno.1 r h List.mem_cons_self hsized.1).symm.trans hsized.2)
      | written object off bytes =>
          by_cases ho : object = i
          · have hc : Seen.change? i (.written object off bytes) = some (.write off bytes) :=
              if_pos ho
            have hw : Seen.write? i (.written object off bytes) = some (.run off bytes) := if_pos ho
            simp only [history, writes, List.filterMap_cons, hc, hw, List.foldl_cons]
            exact ih (m.store off bytes) hrest
          · exact hskip (if_neg ho) (if_neg ho)
      | closed => exact hskip rfl rfl
      | unlinked name => exact hskip rfl rfl
      | mapped m => exact hskip rfl rfl
      | kept => exact hskip rfl rfl
      | unmapped => exact hskip rfl rfl
      | stated size =>
          refine hskip (if_neg fun hi => ?_) rfl
          exact hno.2 (by rw [← hi]; rfl) size List.mem_cons_self
      | refused e => exact hskip rfl rfl

theorem Follows.memory_of_unsized {s s' : ObjectShelf} {es : List Seen} {i : Nat}
    (h : Follows s es s') (hi : i < s.next) (hno : Unsized i es) :
    s'.memory i = (s.memory i).storeAll (writes i es) := by
  rw [h.memory_eq i hi, foldl_history i es _ hno]

/-- The call puts something else in the place of a handle. -/
def Act.takesSlot (slot : Nat) : Act → Prop
  | .open k _ _ _ _ => k = slot
  | .close k => k = slot
  | _ => False

/-- The call puts something else in the place of a mapping. -/
def Act.takesMapping (mapping : Nat) : Act → Prop
  | .map _ k _ => k = mapping
  | .unmap k => k = mapping
  | _ => False

theorem place_ne {α : Type} (f : Nat → Option α) {k j : Nat} (x : Option α) (h : ¬k = j) :
    place f k x j = f j :=
  if_neg (Ne.symm h)

/-- A handle stays open until it is closed or its place is taken. -/
theorem handle_kept (slot : Nat) (g : ShmHandle) (d d' : Desk) (acts : List Act) (es : List Seen)
    (hs : d.shelf.Orderly) (hg : d.handles slot = some g) (ha : ∀ a ∈ acts, ¬a.takesSlot slot)
    (h : Schedule.play step d acts = some (d', es)) : d'.handles slot = some g := by
  refine (Schedule.play_keeps step (fun a => ¬a.takesSlot slot) (fun _ => True)
    (fun d => d.shelf.Orderly ∧ d.handles slot = some g) (fun d a d' es hd ha _ h => ?_)
    acts d d' es ⟨hs, hg⟩ ha (fun _ _ => trivial) h).2
  refine ⟨(step_follows d d' a es hd.1 h).2, ?_⟩
  cases step_happened d d' a es hd.1.directory_lt h with
  | opened _ _ _ _ _ _ _ _ => exact (place_ne d.handles _ ha).trans hd.2
  | closed _ => exact (place_ne d.handles _ ha).trans hd.2
  | _ => exact hd.2

/-- So does a mapping, which a write through it only changes if it is private. -/
theorem mapping_kept (k : Nat) (m : Mapping) (d d' : Desk) (acts : List Act) (es : List Seen)
    (hs : d.shelf.Orderly) (hm : d.mappings k = some m) (hshared : m.isShared = true)
    (ha : ∀ a ∈ acts, ¬a.takesMapping k)
    (h : Schedule.play step d acts = some (d', es)) : d'.mappings k = some m := by
  refine (Schedule.play_keeps step (fun a => ¬a.takesMapping k) (fun _ => True)
    (fun d => d.shelf.Orderly ∧ d.mappings k = some m) (fun d a d' es hd ha _ h => ?_)
    acts d d' es ⟨hs, hm⟩ ha (fun _ _ => trivial) h).2
  refine ⟨(step_follows d d' a es hd.1 h).2, ?_⟩
  cases step_happened d d' a es hd.1.directory_lt h with
  | mapped _ _ _ _ => exact (place_ne d.mappings _ ha).trans hd.2
  | unmapped _ => exact (place_ne d.mappings _ ha).trans hd.2
  | written j off bytes m' hm' =>
      by_cases hj : j = k
      · rw [hj] at hm'
        rw [hj, ← hd.2, hm']
        exact if_pos rfl
      · exact (place_ne d.mappings _ hj).trans hd.2
  | kept j off bytes m' hm' hp =>
      have hj : ¬j = k := by
        rintro rfl
        rw [hd.2, Option.some.injEq] at hm'
        rw [← hm'] at hp
        exact Bool.false_ne_true (hp.symm.trans hshared)
      exact (place_ne d.mappings _ hj).trans hd.2
  | _ => exact hd.2

/-- What a process can rely on, whatever it has done before and does later. -/
structure Custody (d : Desk) : Prop where
  /-- Which calls open an object. -/
  opens_iff : ∀ left name attr size,
    (∃ s h notes, ShmHandle.open d.shelf left name attr size = (s, .ok h, notes)) ↔
      ObjectName.Valid (ObjectName.withSlash name).toList ∧
        ShmHandle.Openable ⟨ObjectName.withSlash name, attr, size, left⟩ d.shelf
  /-- The handle has the size that was asked for if the object is new or was to get
      one, and else the size that the object had. It is the size of the object. -/
  opened : ∀ left name attr size s h notes,
    ShmHandle.open d.shelf left name attr size = (s, .ok h, notes) →
    s.names (ObjectName.withSlash name) = some h.object ∧ s.sizeOf h.object = h.size ∧
      h.size = if d.shelf.names (ObjectName.withSlash name) = none ∨ attr.trunc = true then size
        else d.shelf.sizeOf h.object
  /-- A call that is refused has changed nothing. -/
  refused : ∀ left name attr size s e notes,
    ShmHandle.open d.shelf left name attr size = (s, .error e, notes) →
    ObjectShelf.Unchanged d.shelf s
  /-- Whoever opens the name again finds the object as it was left, if the name has
      not been removed and nobody has given the object a new size. A directory gets
      one whenever the host states it. -/
  reopens : ∀ left name attr size s h notes,
    ShmHandle.open d.shelf left name attr size = (s, .ok h, notes) →
    ∀ d₁ later d₂ es, d₁.shelf = s → Schedule.play step d₁ later = some (d₂, es) →
      .unlinked (ObjectName.withSlash name) ∉ es → Unsized h.object es →
    ∀ left' attr' size' s' h' notes', attr'.trunc = false →
      ShmHandle.open d₂.shelf left' name attr' size' = (s', .ok h', notes') →
      h'.object = h.object ∧ h'.size = h.size ∧
        s'.memory h.object = (s.memory h.object).storeAll (writes h.object es)
  /-- A name that has been removed is free. Its object goes on, and what is written
      to it is what those read who have it mapped. -/
  unlinks : ∀ name s notes, ShmHandle.unlink d.shelf name = (s, .ok (), notes) →
    ∃ i, d.shelf.names (ObjectName.withSlash name) = some i ∧
      s.names (ObjectName.withSlash name) = none ∧
      ∀ d₁ later d₂ es, d₁.shelf = s → Schedule.play step d₁ later = some (d₂, es) →
        (∀ n, d₂.shelf.names n ≠ some i) ∧
        d₂.shelf.memory i = (d.shelf.memory i).storeAll (writes i es) ∧
        ∀ m : Mapping, m.object = i → (∀ p, m.copies p = none) → ∀ off n,
          m.load d₂.shelf off n = ((d.shelf.memory i).storeAll (writes i es)).load off n
  /-- What is open stays open, and what is mapped stays mapped. -/
  keeps : ∀ later d₂ es, Schedule.play step d later = some (d₂, es) →
    (∀ slot h, d.handles slot = some h → (∀ a ∈ later, ¬a.takesSlot slot) →
      d₂.handles slot = some h) ∧
    (∀ k m, d.mappings k = some m → m.isShared = true → (∀ a ∈ later, ¬a.takesMapping k) →
      d₂.mappings k = some m)

-- What a call has opened, as the shelf tells.
theorem opened_of_open {s s' : ObjectShelf} {left : Bool} {name : String} {attr : ShmAttr}
    {size : Nat} {h : ShmHandle} {notes : List Note} (hs : ObjectShelf.directory < s.next)
    (ho : ShmHandle.open s left name attr size = (s', .ok h, notes)) :
    ShmHandle.Opened ⟨ObjectName.withSlash name, attr, size, left⟩ s s' h.object ∧
      h.size = s'.sizeOf h.object := by
  rcases ShmHandle.open_cases s left name attr size hs with
    ⟨_, t, i, more, hopened, hopen⟩ | ⟨_, t, e, more, _, hopen⟩
  · simp only [hopen, Prod.mk.injEq, Except.ok.injEq] at ho
    rcases ho with ⟨rfl, rfl, _⟩
    exact ⟨hopened, rfl⟩
  · exact absurd (hopen.symm.trans ho) (by
      simp only [Prod.mk.injEq, reduceCtorEq, false_and, and_false, not_false_eq_true])

theorem custody_reopens (d : Desk) (hs : d.shelf.Orderly) (left : Bool) (name : String)
    (attr : ShmAttr) (size : Nat) (s : ObjectShelf) (h : ShmHandle) (notes : List Note)
    (hopen : ShmHandle.open d.shelf left name attr size = (s, .ok h, notes))
    (d₁ : Desk) (later : List Act) (d₂ : Desk) (es : List Seen) (hd : d₁.shelf = s)
    (hrun : Schedule.play step d₁ later = some (d₂, es))
    (hlinked : .unlinked (ObjectName.withSlash name) ∉ es) (hsize : Unsized h.object es)
    (left' : Bool) (attr' : ShmAttr) (size' : Nat) (s' : ObjectShelf) (h' : ShmHandle)
    (notes' : List Note) (ht : attr'.trunc = false)
    (hopen' : ShmHandle.open d₂.shelf left' name attr' size' = (s', .ok h', notes')) :
    h'.object = h.object ∧ h'.size = h.size ∧
      s'.memory h.object = (s.memory h.object).storeAll (writes h.object es) := by
  rcases opened_of_open hs.directory_lt hopen with ⟨hopened, hhsize⟩
  have hs₁ : d₁.shelf.Orderly := hd ▸ hopened.orderly hs
  rcases play_follows d₁ d₂ later es hs₁ hrun with ⟨hfollows, hs₂⟩
  rw [hd] at hfollows hs₁
  -- The name still stands for the object.
  have hnamed := hfollows.named _ _ hopened.named hlinked
  have hmem := hfollows.memory_of_unsized (hs₁.names_lt _ _ hopened.named) hsize
  rcases opened_of_open hs₂.directory_lt hopen' with ⟨hopened', hhsize'⟩
  rw [hhsize', hhsize]
  -- So it is found, and nothing is done to it.
  generalize h'.object = j at hopened' ⊢
  cases hopened' with
  | created hfree => exact absurd (hfree.symm.trans hnamed) (by
      simp only [reduceCtorEq, not_false_eq_true])
  | resized _ _ ht' _ => exact absurd (ht.symm.trans ht') Bool.false_ne_true
  | found _ hj _ =>
      have hji : j = h.object := Option.some.inj (hj.symm.trans hnamed)
      refine ⟨hji, ?_, hmem⟩
      unfold ObjectShelf.sizeOf
      rw [hji, hmem, Memory.storeAll_size]

theorem custody_unlinks (d : Desk) (hs : d.shelf.Orderly) (name : String) (s : ObjectShelf)
    (notes : List Note) (hunlink : ShmHandle.unlink d.shelf name = (s, .ok (), notes)) :
    ∃ i, d.shelf.names (ObjectName.withSlash name) = some i ∧
      s.names (ObjectName.withSlash name) = none ∧
      ∀ d₁ later d₂ es, d₁.shelf = s → Schedule.play step d₁ later = some (d₂, es) →
        (∀ n, d₂.shelf.names n ≠ some i) ∧
        d₂.shelf.memory i = (d.shelf.memory i).storeAll (writes i es) ∧
        ∀ m : Mapping, m.object = i → (∀ p, m.copies p = none) → ∀ off n,
          m.load d₂.shelf off n = ((d.shelf.memory i).storeAll (writes i es)).load off n := by
  rcases ShmHandle.unlink_cases d.shelf name with ⟨i, hi, hdir, hu⟩ | ⟨e, more, hu⟩
  · simp only [hu, Prod.mk.injEq] at hunlink
    rcases hunlink with ⟨rfl, _⟩
    refine ⟨i, hi, if_pos rfl, fun d₁ later d₂ es hd hrun => ?_⟩
    have hs₁ : d₁.shelf.Orderly := hd ▸ hs.removed _
    have hfollows := (play_follows d₁ d₂ later es hs₁ hrun).1
    rw [hd] at hfollows
    have hlt : i < d.shelf.next := hs.names_lt _ i hi
    -- No other name stood for the object.
    have hno : ∀ n, (d.shelf.setName (ObjectName.withSlash name) none).names n ≠ some i := by
      intro n hn
      simp only [ObjectShelf.setName] at hn
      split at hn
      next => exact absurd hn (by simp only [reduceCtorEq, not_false_eq_true])
      next hne => exact hne (hs.unique n _ i hn hi hdir)
    have hmem := hfollows.memory_of_unsized hlt
      ⟨fun r h hmem hobj => absurd hobj (hfollows.unopened i hlt hno r h hmem),
        fun hdir' => absurd (hdir.symm.trans hdir') Bool.false_ne_true⟩
    refine ⟨hfollows.nameless i hlt hno, hmem, fun m hm hcopies off n => ?_⟩
    unfold Mapping.load Memory.load Mapping.byte
    simp only [hcopies, hm, hmem]
    rfl
  · exact absurd (hu.symm.trans hunlink) (by
      simp only [Prod.mk.injEq, reduceCtorEq, false_and, and_false, not_false_eq_true])

/-- After any calls, on a host that is in order, the process can rely on its
    objects. -/
theorem custody_of_run (d₀ d : Desk) (h₀ : d₀.shelf.Orderly) (acts : List Act) (es : List Seen)
    (hrun : Schedule.play step d₀ acts = some (d, es)) : d.Custody := by
  have hs := (play_follows d₀ d acts es h₀ hrun).2
  refine ⟨fun left name attr size => ⟨fun ⟨s, h, notes, hopen⟩ => ?_, fun hok => ?_⟩,
    fun left name attr size s h notes hopen => ?_,
    fun left name attr size s e notes hopen => ?_,
    custody_reopens d hs, custody_unlinks d hs, fun later d₂ es h =>
      ⟨fun slot g hg ha => handle_kept slot g d d₂ later es hs hg ha h,
        fun k m hm hshared ha => mapping_kept k m d d₂ later es hs hm hshared ha h⟩⟩
  · rcases ShmHandle.open_cases d.shelf left name attr size hs.directory_lt with
      ⟨hyes, _⟩ | ⟨_, t, e, more, _, hrefused⟩
    · exact hyes
    · exact absurd (hrefused.symm.trans hopen) (by
        simp only [Prod.mk.injEq, reduceCtorEq, false_and, and_false, not_false_eq_true])
  · rcases ShmHandle.open_cases d.shelf left name attr size hs.directory_lt with
      ⟨_, s, i, notes, _, hopen⟩ | ⟨hno, _⟩
    · exact ⟨s, _, notes, hopen⟩
    · exact absurd hok hno
  · rcases opened_of_open hs.directory_lt hopen with ⟨hopened, hsize⟩
    exact ⟨hopened.named, hsize.symm, hsize.trans hopened.sizeOf_eq⟩
  · rcases ShmHandle.open_cases d.shelf left name attr size hs.directory_lt with
      ⟨_, t, i, more, _, hok⟩ | ⟨_, t, e', more, hunchanged, hrefused⟩
    · exact absurd (hok.symm.trans hopen) (by
        simp only [Prod.mk.injEq, reduceCtorEq, false_and, and_false, not_false_eq_true])
    · rw [hrefused, Prod.mk.injEq] at hopen
      exact hopen.1 ▸ hunchanged

-- An object is made, written to through a mapping and closed, and its name is
-- removed. A second object under the name is refused its size.
theorem custody_of_run_removed : ∃ d,
    Schedule.play step fresh
      [.open 0 true "ring" ShmAttr.createRw 64, .map 0 0 MapFlags.ring, .write 0 5 [1, 2],
        .close 0, .unlink "/ring", .open 0 true "ring" ShmAttr.createRw ObjectShelf.sizeLimit]
      = some (d, [.opened ⟨"/ring", ShmAttr.createRw, 64, true⟩ ⟨1, "/ring", 64, true⟩,
          .mapped ⟨1, 64, true, fun _ => none⟩, .written 1 5 [1, 2], .closed,
          .unlinked "/ring", .refused .invalidParam]) ∧ d.Custody := by
  have hseen : (Schedule.play step fresh
      [.open 0 true "ring" ShmAttr.createRw 64, .map 0 0 MapFlags.ring, .write 0 5 [1, 2],
        .close 0, .unlink "/ring", .open 0 true "ring" ShmAttr.createRw ObjectShelf.sizeLimit]).map
        Prod.snd
      = some [.opened ⟨"/ring", ShmAttr.createRw, 64, true⟩ ⟨1, "/ring", 64, true⟩,
          .mapped ⟨1, 64, true, fun _ => none⟩, .written 1 5 [1, 2], .closed,
          .unlinked "/ring", .refused .invalidParam] := rfl
  rcases Option.map_eq_some_iff.mp hseen with ⟨⟨d, es⟩, hrun, rfl⟩
  exact ⟨d, hrun, custody_of_run fresh d ObjectShelf.empty_orderly _ _ hrun⟩

/-- A directory is opened to be read, before and after an object is made in it. The
    name has not been removed and nothing has been cut, and its size is another
    one. -/
theorem directory_restated :
    (Schedule.play step fresh
      [.state 40, .open 0 true "." ShmAttr.none 0, .open 1 true "ring" ShmAttr.createRw 64,
        .state 60, .open 2 true "." ShmAttr.none 0]).map Prod.snd
      = some [.stated 40, .opened ⟨"/.", ShmAttr.none, 0, true⟩ ⟨0, "/.", 40, false⟩,
          .opened ⟨"/ring", ShmAttr.createRw, 64, true⟩ ⟨1, "/ring", 64, true⟩,
          .stated 60, .opened ⟨"/.", ShmAttr.none, 0, true⟩ ⟨0, "/.", 60, false⟩] := rfl

end Desk

end HostLayer
