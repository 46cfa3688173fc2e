import HostLayer.Proofs.Ipc.Opening
import HostLayer.Proofs.Routine

/-!
# Opening Alone

What becomes of an object that is opened while nobody interferes.

Opening is up to four host calls, and where it stands says what it has done so
far: nothing until an object is made, and after that an object without its size.
`ShmHandle.Placed` says so, relative to the shelf from which the call started. It
leads to the one result that is used elsewhere. A call that can succeed does, and
there are three ways to (`ShmHandle.Opened`); every other call is refused and
leaves all names and all objects as they were (`ObjectShelf.Unchanged`), even if it
has made an object on its way.

## Main definitions

* `ShmHandle.Openable`: What a call needs to succeed.
* `ShmHandle.Opened`: The three ways to open an object.
* `ObjectShelf.Unchanged`: The same names, and the same objects.
* `ShmHandle.Placed`: What has been done at each place.

## Theorems

* `ShmHandle.Placed.step`, `ShmHandle.Placed.moves`: Where a call comes to.
* `ShmHandle.Placed.refused`: A refused call has changed nothing.
* `ShmHandle.Opened.named`, `ShmHandle.Opened.sizeOf_eq`: What has been opened.
* `ShmHandle.run_cases`, `ShmHandle.open_cases`: What opening does.
* `ShmHandle.unlink_cases`: What removing a name does.
-/

namespace HostLayer

namespace ObjectShelf

/-- The same names stand for the same objects, and all objects that there were have
    their sizes, their contents and their permissions. -/
structure Unchanged (s s' : ObjectShelf) : Prop where
  names_eq : s'.names = s.names
  memory_eq : ∀ i, i < s.next → s'.memory i = s.memory i
  mode_eq : ∀ i, i < s.next → s'.mode i = s.mode i
  next_le : s.next ≤ s'.next

theorem Unchanged.refl (s : ObjectShelf) : Unchanged s s :=
  ⟨rfl, fun _ _ => rfl, fun _ _ => rfl, Nat.le_refl _⟩

end ObjectShelf

namespace ShmHandle

/-- What a call to open an object needs: a descriptor, and either a free name, the
    mark for creation and a size that the host takes, or an object that may be
    opened and, if it is to get a new size, may get that size. -/
def Openable (r : OpenRequest) (s : ObjectShelf) : Prop :=
  r.descriptorLeft = true ∧
    match s.names r.name with
    | none => r.attr.creat = true ∧ r.attr.rdwr = true ∧ r.size < ObjectShelf.sizeLimit
    | some i => (r.attr.creat && r.attr.excl) = false ∧
        (ObjectShelf.isDirectory i && r.attr.rdwr) = false ∧
        Host.allows (s.mode i) true r.attr.rdwr = true ∧
        (r.attr.trunc = true → r.attr.rdwr = true ∧ r.size < ObjectShelf.sizeLimit)

theorem openable_free {r : OpenRequest} {s : ObjectShelf} (hfree : s.names r.name = none) :
    Openable r s ↔ r.descriptorLeft = true ∧ r.attr.creat = true ∧ r.attr.rdwr = true ∧
      r.size < ObjectShelf.sizeLimit := by
  unfold Openable
  rw [hfree]

theorem openable_taken {r : OpenRequest} {s : ObjectShelf} {i : Nat}
    (hi : s.names r.name = some i) :
    Openable r s ↔ r.descriptorLeft = true ∧ (r.attr.creat && r.attr.excl) = false ∧
      (ObjectShelf.isDirectory i && r.attr.rdwr) = false ∧
      Host.allows (s.mode i) true r.attr.rdwr = true ∧
      (r.attr.trunc = true → r.attr.rdwr = true ∧ r.size < ObjectShelf.sizeLimit) := by
  unfold Openable
  rw [hi]

/-- The shelf after an object has been opened, and the object. -/
inductive Opened (r : OpenRequest) (s : ObjectShelf) : ObjectShelf → Nat → Prop
  /-- The name was free, and the object is new and filled with zeros. -/
  | created (hfree : s.names r.name = none) :
      Opened r s ((s.made r.name r.attr.mode).put s.next (Memory.zeros r.size)) s.next
  /-- The object was found, and has got a new size. -/
  | resized (i : Nat) (hi : s.names r.name = some i) (ht : r.attr.trunc = true)
      (hdir : ObjectShelf.isDirectory i = false) :
      Opened r s (s.put i ((s.memory i).resize r.size)) i
  /-- The object was found. -/
  | found (i : Nat) (hi : s.names r.name = some i) (ht : r.attr.trunc = false) :
      Opened r s s i

/-- An object that has been opened is the one under the name. -/
theorem Opened.named {r : OpenRequest} {s s' : ObjectShelf} {i : Nat} (h : Opened r s s' i) :
    s'.names r.name = some i := by
  cases h with
  | created _ => exact if_pos rfl
  | resized i hi _ _ => exact hi
  | found i hi _ => exact hi

/-- It has the size that was asked for if it is new or was to get one. -/
theorem Opened.sizeOf_eq {r : OpenRequest} {s s' : ObjectShelf} {i : Nat} (h : Opened r s s' i) :
    s'.sizeOf i
      = if s.names r.name = none ∨ r.attr.trunc = true then r.size else s.sizeOf i := by
  unfold ObjectShelf.sizeOf
  cases h with
  | created hfree =>
      rw [if_pos (Or.inl hfree), ObjectShelf.put_memory_self]
      rfl
  | resized i _ ht _ =>
      rw [if_pos (Or.inr ht), ObjectShelf.put_memory_self]
      rfl
  | found i hi ht =>
      rw [hi, ht]
      rfl

/-- What a call that started from the shelf `s₀` has done when it stands at a place,
    and what it has found. -/
inductive Placed (r : OpenRequest) (s₀ : ObjectShelf) : ObjectShelf → Place → Prop
  | creating (hc : r.attr.creat = true) : Placed r s₀ s₀ (.creating r.attr.excl)
  | opening (hc : r.attr.creat = true → r.attr.excl = false ∧ s₀.names r.name ≠ none) :
      Placed r s₀ s₀ .opening
  | sizingNew (hfree : s₀.names r.name = none) (hd : r.descriptorLeft = true)
      (hc : r.attr.creat = true) :
      Placed r s₀ (s₀.made r.name r.attr.mode) (.sizing s₀.next true)
  | sizingFound (i : Nat) (hi : s₀.names r.name = some i) (ht : r.attr.trunc = true)
      (hok : r.attr.rdwr = true → r.size < ObjectShelf.sizeLimit → Openable r s₀)
      (hdir : (ObjectShelf.isDirectory i && r.attr.rdwr) = false) :
      Placed r s₀ s₀ (.sizing i false)
  | removing (why : Error) (hfree : s₀.names r.name = none)
      (hbad : ObjectShelf.sizeLimit ≤ r.size ∨ r.attr.rdwr = false) :
      Placed r s₀ (s₀.made r.name r.attr.mode) (.removing why)
  | measuring {s : ObjectShelf} (i : Nat) (h : Opened r s₀ s i) (hok : Openable r s₀) :
      Placed r s₀ s (.measuring i)

theorem placed_start (r : OpenRequest) (s : ObjectShelf) : Placed r s s (start r.attr) := by
  unfold start
  cases hc : r.attr.creat with
  | true => exact .creating hc
  | false => exact .opening fun h => absurd (hc.symm.trans h) Bool.false_ne_true

-- A new object that gets a size is filled with zeros.
theorem resize_new (size : Nat) : (Memory.zeros 0).resize size = Memory.zeros size := by
  unfold Memory.resize Memory.zeros
  simp only [Nat.not_lt_zero, false_and, if_false]

-- The new object is where it was put.
theorem made_memory_next (s : ObjectShelf) (name : String) (mode : UInt32) :
    (s.made name mode).memory s.next = Memory.zeros 0 :=
  if_pos rfl

/-- A host call leads from one place to the next. -/
theorem Placed.step {r : OpenRequest} {s₀ s s' : ObjectShelf} {p p' : Place}
    (h : Placed r s₀ s p) (hm : Moved r s p s' p') : Placed r s₀ s' p' := by
  cases h with
  | creating hc =>
      generalize he : Place.creating r.attr.excl = q at hm
      cases hm with
      | make only hd hfree => exact .sizingNew hfree hd hc
      | pass i hd hi =>
          refine .opening fun _ => ⟨Place.creating.inj he, ?_⟩
          rw [hi]
          exact Option.some_ne_none i
      | _ => exact absurd he (by simp only [reduceCtorEq, not_false_eq_true])
  | opening hc =>
      cases hm with
      | find i hd hi hdir hallow =>
          have hexcl : (r.attr.creat && r.attr.excl) = false := by
            cases hcreat : r.attr.creat with
            | false => rfl
            | true => rw [(hc hcreat).1]; rfl
          cases ht : r.attr.trunc with
          | true =>
              refine .sizingFound i hi ht (fun hw hs => ?_) hdir
              exact (openable_taken hi).mpr ⟨hd, hexcl, hdir, hallow, fun _ => ⟨hw, hs⟩⟩
          | false =>
              refine .measuring i (.found i hi ht) ((openable_taken hi).mpr
                ⟨hd, hexcl, hdir, hallow, fun h => absurd (ht.symm.trans h) Bool.false_ne_true⟩)
  | sizingNew hfree hd hc =>
      cases hm with
      | size i created hs hw =>
          rw [made_memory_next, resize_new]
          exact .measuring _ (.created hfree) ((openable_free hfree).mpr ⟨hd, hc, hw, hs⟩)
      | undo i hbad => exact .removing _ hfree hbad
  | sizingFound i hi ht hok hdir =>
      cases hm with
      | size i created hs hw =>
          rw [hw, Bool.and_true] at hdir
          exact .measuring i (.resized i hi ht hdir) (hok hw hs)
  | removing why hfree hbad => cases hm
  | measuring i _ _ => cases hm

/-- A call that can succeed goes on until it has opened the object. -/
theorem Placed.moves {r : OpenRequest} {s₀ s : ObjectShelf} {p : Place} (h : Placed r s₀ s p)
    (hok : Openable r s₀) : (∃ i, p = .measuring i) ∨ ∃ s' p', Moved r s p s' p' := by
  cases h with
  | creating hc =>
      refine Or.inr ?_
      rcases hn : s₀.names r.name with _ | i
      · exact ⟨_, _, .make s₀ _ hok.1 hn⟩
      · have hexcl : r.attr.excl = false := by
          have := ((openable_taken hn).mp hok).2.1
          rwa [hc, Bool.true_and] at this
        rw [hexcl]
        exact ⟨_, _, .pass s₀ i hok.1 hn⟩
  | opening hc =>
      refine Or.inr ?_
      rcases hn : s₀.names r.name with _ | i
      · exact absurd hn (hc ((openable_free hn).mp hok).2.1).2
      · rcases (openable_taken hn).mp hok with ⟨hd, _, hdir, hallow, _⟩
        exact ⟨_, _, .find s₀ i hd hn hdir hallow⟩
  | sizingNew hfree _ _ =>
      rcases (openable_free hfree).mp hok with ⟨_, _, hw, hs⟩
      exact Or.inr ⟨_, _, .size _ _ true hs hw⟩
  | sizingFound i hi ht _ _ =>
      rcases ((openable_taken hi).mp hok).2.2.2.2 ht with ⟨hw, hs⟩
      exact Or.inr ⟨_, _, .size _ i false hs hw⟩
  | removing why hfree hbad =>
      rcases (openable_free hfree).mp hok with ⟨_, _, hw, hs⟩
      rcases hbad with hbad | hbad
      · exact absurd hs (Nat.not_lt.mpr hbad)
      · exact absurd (hbad.symm.trans hw) Bool.false_ne_true
  | measuring i _ _ => exact Or.inl ⟨i, rfl⟩

-- Nothing is left of an object that has been made in vain, except for its number.
theorem unchanged_removed (s : ObjectShelf) (name : String) (mode : UInt32)
    (hfree : s.names name = none) :
    ObjectShelf.Unchanged s ((s.made name mode).setName name none) := by
  refine ⟨?_, fun i hi => if_neg (Nat.ne_of_lt hi), fun i hi => if_neg (Nat.ne_of_lt hi),
    Nat.le_succ _⟩
  funext n
  simp only [ObjectShelf.setName, ObjectShelf.made]
  by_cases hn : n = name
  · rw [if_pos hn, hn, hfree]
  · rw [if_neg hn, if_neg hn]
    rfl

-- The host can always remove a name that has just been made.
theorem remove_made (s : ObjectShelf) (name : String) (mode : UInt32)
    (hnext : ObjectShelf.directory < s.next) :
    (s.made name mode).remove name = .ok ((s.made name mode).setName name none) := by
  have hname : (s.made name mode).names name = some s.next := if_pos rfl
  have hdir : ObjectShelf.isDirectory s.next = false :=
    beq_eq_false_iff_ne.mpr (Nat.ne_of_gt hnext)
  unfold ObjectShelf.remove
  rw [hname]
  simp only [hdir, Bool.false_eq_true, if_false]

/-- A call that is refused cannot succeed, and it has changed nothing. -/
theorem Placed.refused {r : OpenRequest} {s₀ s s' : ObjectShelf} {p : Place} {e : Error}
    {notes : List Note} (h : Placed r s₀ s p) (hnext : ObjectShelf.directory < s₀.next)
    (hstep : openStep r s p = .done s' (.error e) notes) :
    ¬Openable r s₀ ∧ ObjectShelf.Unchanged s₀ s' := by
  constructor
  · intro hok
    rcases h.moves hok with ⟨i, rfl⟩ | ⟨t, q, hm⟩
    · exact absurd hstep (by simp only [openStep, Step.done.injEq, reduceCtorEq, false_and,
        and_false, not_false_eq_true])
    · rcases hm.step_eq with ⟨more, hgoto⟩
      exact absurd (hgoto.symm.trans hstep) (by simp only [reduceCtorEq, not_false_eq_true])
  · have hsame : s' = s ∨ ∃ why, p = .removing why ∧ s.remove r.name = .ok s' := by
      rcases openStep_cases r s p with
        ⟨t, q, more, hgoto, _⟩ | ⟨i, _, hdone⟩ | ⟨t, e', more, hdone, ht⟩
      · exact absurd (hgoto.symm.trans hstep) (by simp only [reduceCtorEq, not_false_eq_true])
      · exact absurd (hdone.symm.trans hstep) (by simp only [Step.done.injEq, reduceCtorEq,
          false_and, and_false, not_false_eq_true])
      · rw [hdone, Step.done.injEq] at hstep
        exact hstep.1 ▸ ht
    cases h with
    | sizingNew hfree hd hc =>
        -- An object without its size is not left like that.
        rcases truncate_cases (s₀.made r.name r.attr.mode) s₀.next r.attr.rdwr r.size with
          ⟨_, _, ht⟩ | ⟨_, ht⟩
        · exact absurd hstep (by simp only [openStep, ht, reduceCtorEq, not_false_eq_true])
        · exact absurd hstep (by simp only [openStep, ht, if_true, reduceCtorEq,
            not_false_eq_true])
    | removing why hfree _ =>
        have hremove := remove_made s₀ r.name r.attr.mode hnext
        have hs' : (s₀.made r.name r.attr.mode).setName r.name none = s' := by
          simp only [openStep, hremove, Step.done.injEq] at hstep
          exact hstep.1
        exact hs' ▸ unchanged_removed s₀ r.name r.attr.mode hfree
    | measuring i _ _ =>
        exact absurd hstep (by simp only [openStep, Step.done.injEq, reduceCtorEq, false_and,
          and_false, not_false_eq_true])
    | _ =>
        rcases hsame with rfl | ⟨why, hp, _⟩
        · exact .refl _
        · exact absurd hp (by simp only [reduceCtorEq, not_false_eq_true])

/-- The host calls that are left at a place, at most. -/
def Place.toGo : Place → Nat
  | .creating _ => 4
  | .opening => 3
  | .sizing _ _ => 2
  | .removing _ => 1
  | .measuring _ => 1

theorem openStep_closer (r : OpenRequest) (s : ObjectShelf) (p : Place) :
    (openStep r s p).Closer Place.toGo p := by
  rcases openStep_cases r s p with
    ⟨t, q, notes, hstep, hm⟩ | ⟨i, hp, hstep⟩ | ⟨t, e, notes, hstep, _⟩
  · rw [hstep]
    cases hm with
    | make only _ _ => exact Nat.lt_of_sub_pos Nat.two_pos
    | pass i _ _ => exact Nat.lt_succ_self 3
    | find i _ _ _ _ =>
        cases r.attr.trunc with
        | true => exact Nat.lt_succ_self 2
        | false => exact Nat.lt_of_sub_pos Nat.two_pos
    | size i created _ _ => exact Nat.lt_succ_self 1
    | undo i _ => exact Nat.lt_succ_self 1
  · rw [hstep, hp]
    exact Nat.one_pos
  · rw [hstep]
    cases p <;> exact Nat.succ_pos _

/-- The host calls of opening lead to an object if one can be opened. Else they lead
    to a refusal, and have changed nothing. -/
theorem run_cases (r : OpenRequest) (s : ObjectShelf) (hnext : ObjectShelf.directory < s.next) :
    (Openable r s ∧ ∃ s' i notes, Opened r s s' i ∧
      runSteps (openStep r) openCalls s (start r.attr) []
        = ⟨s', .inr (.ok ⟨i, r.name, s'.sizeOf i, r.attr.rdwr⟩), notes⟩) ∨
    (¬Openable r s ∧ ∃ s' e notes, ObjectShelf.Unchanged s s' ∧
      runSteps (openStep r) openCalls s (start r.attr) [] = ⟨s', .inr (.error e), notes⟩) := by
  have hkeeps := runSteps_keeps (openStep r) (fun t p => Placed r s t p)
    (fun t p t' p' notes ht hstep => by
      rcases openStep_cases r t p with
        ⟨u, q, more, hgoto, hm⟩ | ⟨i, _, hdone⟩ | ⟨u, e, more, hdone, _⟩
      · rw [hgoto, Step.goto.injEq] at hstep
        rcases hstep with ⟨rfl, rfl, _⟩
        exact ht.step hm
      · exact absurd (hdone.symm.trans hstep) (by simp only [reduceCtorEq, not_false_eq_true])
      · exact absurd (hdone.symm.trans hstep) (by simp only [reduceCtorEq, not_false_eq_true]))
    openCalls s (start r.attr) [] (placed_start r s)
  have hfour : (start r.attr).toGo ≤ openCalls := by
    unfold start
    cases r.attr.creat with
    | true => exact Nat.le_refl 4
    | false => exact Nat.le_succ 3
  rcases runSteps_ends (openStep r) Place.toGo (openStep_closer r) openCalls s (start r.attr) []
    hfour with ⟨a, ha⟩
  rcases hkeeps.2 a ha with ⟨t, q, more, hplaced, hstep⟩
  generalize runSteps (openStep r) openCalls s (start r.attr) [] = run at ha hstep ⊢
  rcases run with ⟨s', outcome, notes⟩
  simp only [] at ha hstep
  rw [ha]
  cases a with
  | ok h =>
      rcases openStep_cases r t q with
        ⟨u, p, notes, hgoto, _⟩ | ⟨i, rfl, hdone⟩ | ⟨u, e, notes, hdone, _⟩
      · exact absurd (hgoto.symm.trans hstep) (by simp only [reduceCtorEq, not_false_eq_true])
      · simp only [hdone, Step.done.injEq, Except.ok.injEq] at hstep
        rcases hstep with ⟨rfl, rfl, _⟩
        cases hplaced with
        | measuring _ hopened hok => exact Or.inl ⟨hok, t, i, notes, hopened, rfl⟩
      · exact absurd (hdone.symm.trans hstep) (by
          simp only [Step.done.injEq, reduceCtorEq, false_and, and_false, not_false_eq_true])
  | error e =>
      rcases hplaced.refused hnext hstep with ⟨hno, hunchanged⟩
      exact Or.inr ⟨hno, s', e, notes, hunchanged, rfl⟩

/-- A call that nobody interferes with opens an object if it can. If it cannot, it is
    refused, and has changed nothing. -/
theorem open_cases (s : ObjectShelf) (left : Bool) (name : String) (attr : ShmAttr) (size : Nat)
    (hnext : ObjectShelf.directory < s.next) :
    ((ObjectName.Valid (ObjectName.withSlash name).toList ∧
        Openable ⟨ObjectName.withSlash name, attr, size, left⟩ s) ∧
      ∃ s' i notes, Opened ⟨ObjectName.withSlash name, attr, size, left⟩ s s' i ∧
        ShmHandle.open s left name attr size
          = (s', .ok ⟨i, ObjectName.withSlash name, s'.sizeOf i, attr.rdwr⟩, notes)) ∨
    (¬(ObjectName.Valid (ObjectName.withSlash name).toList ∧
        Openable ⟨ObjectName.withSlash name, attr, size, left⟩ s) ∧
      ∃ s' e notes, ObjectShelf.Unchanged s s' ∧
        ShmHandle.open s left name attr size = (s', .error e, notes)) := by
  unfold ShmHandle.open
  rcases hcheck : ObjectName.check (ObjectName.withSlash name) with e | host
  · -- The name is none.
    have hvalid := (ObjectName.check_eq_error_iff.mp hcheck).1
    exact Or.inr ⟨fun h => hvalid h.1, s, e, [], .refl s, rfl⟩
  · rcases ObjectName.check_eq_ok_iff.mp hcheck with ⟨hvalid, hhost⟩
    rw [← hhost] at hvalid ⊢
    rcases run_cases ⟨host, attr, size, left⟩ s hnext with
      ⟨hok, s', i, notes, hopened, hrun⟩ | ⟨hno, s', e, notes, hunchanged, hrun⟩
    · refine Or.inl ⟨⟨hvalid, hok⟩, s', i,
        notes ++ [openNote ⟨i, host, s'.sizeOf i, attr.rdwr⟩], hopened, ?_⟩
      simp only [hrun]
    · refine Or.inr ⟨fun h => hno h.2, s', e, notes, hunchanged, ?_⟩
      simp only [hrun]

/-- Removing a name frees it, or changes nothing. -/
theorem unlink_cases (s : ObjectShelf) (name : String) :
    (∃ i, s.names (ObjectName.withSlash name) = some i ∧ ObjectShelf.isDirectory i = false ∧
      unlink s name = (s.setName (ObjectName.withSlash name) none, .ok (), [])) ∨
    ∃ e notes, unlink s name = (s, .error e, notes) := by
  unfold unlink
  rcases hcheck : ObjectName.check (ObjectName.withSlash name) with e | host
  · exact Or.inr ⟨e, [], rfl⟩
  · rw [(ObjectName.check_eq_ok_iff.mp hcheck).2]
    simp only [ObjectShelf.remove]
    cases hn : s.names (ObjectName.withSlash name) with
    | none => exact Or.inr ⟨_, _, rfl⟩
    | some i =>
        cases hdir : ObjectShelf.isDirectory i with
        | true =>
            simp only [hdir, if_true]
            exact Or.inr ⟨_, _, rfl⟩
        | false =>
            refine Or.inl ⟨i, rfl, hdir, ?_⟩
            simp only [hdir, Bool.false_eq_true, if_false]

end ShmHandle

end HostLayer
