import HostLayer.Proofs.Ipc.Alone
import HostLayer.Proofs.Schedule
import Mathlib.Tactic.ByContra

/-!
# A Rush for a Name

Any number of callers that want one object, whether it is there or not, while
others may remove its name.

Such a caller tries to make the object first, and if the name is taken it opens the
object there, in another host call. Whoever makes the object gives it its size in
another host call, too. So there are two gaps. In the first one the object can go
away, and then a caller that would have made it is told that it is missing
(`Rush.lost_run`). In the second one the object is there and has no bytes, and
then a caller takes it for what it is and gets a handle that cannot be mapped
(`Rush.hollow_run`). No caller notices, since nothing is looked at twice.

`Rush.rush_sound_iff` says where neither of them can happen: the object has to be
there with its size from the beginning, as it is once a call has been made alone, and
nobody may be able to remove it. It also says what holds in any case. A handle has
the size that is wanted, or no bytes, or the size of the object that was there
before; and nobody misses an object as long as nobody removes one.

## Main definitions

* `ShmAttr.Eager`: The marks of a caller that takes what is there.
* `Opener`, `Rush`: A caller, and the shelf with all of them.
* `Rush.Act`, `Rush.step`, `Rush.Happened`: What can happen, and what it does.
* `Rush.Good`, `Rush.Sound`: What callers should be told.
* `Rush.Settled`, `Rush.AllSized`, `Rush.Standing`: What runs keep.
* `Rush.Ready`: The object is there with its size.

## Theorems

* `ShmHandle.openStep_notFound`: When a caller is told that an object is missing.
* `Rush.settled_step`, `Rush.settled_sound`: With the object there.
* `Rush.play_reader`, `Rush.hollow_run`, `Rush.lost_run`: Runs that go wrong.
* `Rush.sized_step`, `Rush.sized_run`: The sizes of all handles.
* `Rush.standing_step`, `Rush.standing_run`: While nobody removes a name.
* `Rush.rush_sound_iff`: Where a rush is sound.
-/

namespace HostLayer

namespace ObjectShelf

-- An object is missing to those only who do not make one.
theorem createExclusive_ne_noEntry (s : ObjectShelf) (left : Bool) (name : String) (mode : UInt32) :
    s.createExclusive left name mode ≠ .error .noEntry := by
  intro h
  simp only [createExclusive] at h
  split at h
  next => exact absurd h (by simp only [Except.error.injEq, reduceCtorEq, not_false_eq_true])
  next =>
    split at h
    all_goals exact absurd h (by simp only [Except.error.injEq, reduceCtorEq, not_false_eq_true])

theorem openExisting_noEntry {s : ObjectShelf} {left writes : Bool} {name : String}
    (h : s.openExisting left name writes = .error .noEntry) : s.names name = none := by
  simp only [openExisting] at h
  split at h
  next => exact absurd h (by simp only [Except.error.injEq, reduceCtorEq, not_false_eq_true])
  next =>
    split at h
    next hn => exact hn
    next =>
      split_ifs at h
      all_goals exact absurd h (by simp only [Except.error.injEq, reduceCtorEq, not_false_eq_true])

theorem eq_of_remove {s t : ObjectShelf} {name : String} (h : s.remove name = .ok t) :
    t = s.setName name none := by
  simp only [remove] at h
  split at h
  next => exact absurd h (by simp only [reduceCtorEq, not_false_eq_true])
  next =>
    split_ifs at h
    exact (Except.ok.inj h).symm

end ObjectShelf

namespace ShmHandle

-- A caller is told that an object is missing only if the host has found no entry.
theorem noEntry_of_refuse {s t : ObjectShelf} {call : String} {e : Errno} {notes : List Note}
    (h : openStep.refuse s openCause call e = .done t (.error .notFound) notes) : e = .noEntry := by
  simp only [openStep.refuse, Errno.translate, Step.done.injEq, Except.error.injEq] at h
  cases e <;> first | rfl | exact absurd h.2.1 (by simp only [openCause, reduceCtorEq,
    not_false_eq_true])

/-- A caller is told that an object is missing only where it does not make one. -/
theorem openStep_notFound {r : OpenRequest} {s t : ObjectShelf} {p : Place} {notes : List Note}
    (h : openStep r s p = .done t (.error .notFound) notes) :
    (p = .opening ∧ s.names r.name = none) ∨ ∃ why, p = .removing why := by
  cases p with
  | creating only =>
      simp only [openStep] at h
      split at h
      next => exact absurd h (by simp only [reduceCtorEq, not_false_eq_true])
      next e he =>
        split at h
        next => exact absurd h (by simp only [reduceCtorEq, not_false_eq_true])
        next =>
          rw [noEntry_of_refuse h] at he
          exact absurd he (ObjectShelf.createExclusive_ne_noEntry _ _ _ _)
  | opening =>
      simp only [openStep] at h
      split at h
      next => exact absurd h (by simp only [reduceCtorEq, not_false_eq_true])
      next e he =>
        rw [noEntry_of_refuse h] at he
        exact Or.inl ⟨rfl, ObjectShelf.openExisting_noEntry he⟩
  | sizing i created =>
      rcases truncate_cases s i r.attr.rdwr r.size with ⟨_, _, ht⟩ | ⟨_, ht⟩
      · exact absurd h (by simp only [openStep, ht, reduceCtorEq, not_false_eq_true])
      · simp only [openStep, ht] at h
        split at h
        next => exact absurd h (by simp only [reduceCtorEq, not_false_eq_true])
        next =>
          rw [Step.done.injEq, Except.error.injEq] at h
          exact absurd h.2.1 (by decide)
  | removing why => exact Or.inr ⟨why, rfl⟩
  | measuring i =>
      exact absurd h (by simp only [openStep, Step.done.injEq, reduceCtorEq, false_and, and_false,
        not_false_eq_true])

end ShmHandle
/-- The caller takes the object that there is, and makes one if there is none. -/
def ShmAttr.Eager (attr : ShmAttr) : Prop :=
  attr.creat = true ∧ attr.excl = false ∧ attr.trunc = false

instance (attr : ShmAttr) : Decidable attr.Eager :=
  inferInstanceAs (Decidable (_ ∧ _ ∧ _))

/-- A caller that takes the object that there is. -/
structure Opener where
  attr : ShmAttr
  eager : attr.Eager
  /-- Its process can open one more descriptor. -/
  descriptorLeft : Bool
  /-- Where the call stands, unless it is over. -/
  place : Option ShmHandle.Place

/-- What the caller asks for under a name. -/
def Opener.request (o : Opener) (name : String) (size : Nat) : ShmHandle.OpenRequest :=
  ⟨ObjectName.withSlash name, o.attr, size, o.descriptorLeft⟩

-- The caller goes on to read the size of what it has found.
theorem Opener.found_eq (o : Opener) (name : String) (size i : Nat) :
    (if (o.request name size).attr.trunc then ShmHandle.Place.sizing i false else .measuring i)
      = .measuring i :=
  if_neg (Bool.eq_false_iff.mp o.eager.2.2)

/-- The shelf, and the callers at a name. -/
structure Rush where
  shelf : ObjectShelf
  openers : List Opener

namespace Rush

/-- What can happen. -/
inductive Act
  /-- One more caller starts. -/
  | call (attr : ShmAttr) (eager : attr.Eager) (descriptorLeft : Bool)
  /-- Somebody removes the name. -/
  | unlink
  /-- A caller makes a host call. -/
  | move (k : Nat)

/-- A caller at another place. -/
def placed (s : Rush) (k : Nat) (o : Opener) (p : Option ShmHandle.Place) : Rush :=
  { s with openers := s.openers.set k { o with place := p } }

/-- What an act does to the callers that want `size` bytes under a name, and what
    they are told. -/
def step (name : String) (size : Nat) (s : Rush) : Act → Option (Rush × List (Answer ShmHandle))
  | .call attr eager left =>
      match ObjectName.check (ObjectName.withSlash name) with
      | .ok _ => some ({ s with
          openers := s.openers ++ [⟨attr, eager, left, some (ShmHandle.start attr)⟩] }, [])
      | .error e => some (s, [.error e])
  | .unlink => some ({ s with shelf := (ShmHandle.unlink s.shelf name).1 }, [])
  | .move k =>
      match s.openers[k]? with
      | none => none
      | some o =>
          match o.place with
          | none => none
          | some p =>
              match ShmHandle.openStep (o.request name size) s.shelf p with
              | .goto t q _ => some ({ s with shelf := t }.placed k o (some q), [])
              | .done t answer _ => some ({ s with shelf := t }.placed k o none, [answer])
              | .waits => none

/-- A caller is told that it has the whole object, or why it has none, and never
    that there is none. -/
def Good (size : Nat) : Answer ShmHandle → Prop
  | .ok h => h.size = size
  | .error e => e ≠ .notFound

/-- Names are removed only if `unlinks` lets them be. -/
def Act.Allowed (unlinks : Bool) : Act → Prop
  | .unlink => unlinks = true
  | _ => True

/-- Whatever happens, callers are told what they should be. -/
def Sound (unlinks : Bool) (name : String) (size : Nat) (s : ObjectShelf) : Prop :=
  ∀ acts s' answers, (∀ a ∈ acts, a.Allowed unlinks) →
    Schedule.play (step name size) ⟨s, []⟩ acts = some (s', answers) → ∀ a ∈ answers, Good size a

/-- What acts do. -/
inductive Happened (name : String) (size : Nat) (s : Rush) :
    Act → Rush → List (Answer ShmHandle) → Prop
  | join (attr : ShmAttr) (eager : attr.Eager) (left : Bool)
      (hv : ObjectName.Valid (ObjectName.withSlash name).toList) :
      Happened name size s (.call attr eager left)
        { s with openers := s.openers ++ [⟨attr, eager, left, some (.creating false)⟩] } []
  /-- The name is none. -/
  | turned (attr : ShmAttr) (eager : attr.Eager) (left : Bool) :
      Happened name size s (.call attr eager left) s [.error .invalidParam]
  | removed (i : Nat) (hi : s.shelf.names (ObjectName.withSlash name) = some i)
      (hdir : ObjectShelf.isDirectory i = false) :
      Happened name size s .unlink
        { s with shelf := s.shelf.setName (ObjectName.withSlash name) none } []
  | spared : Happened name size s .unlink s []
  | moved (k : Nat) (o : Opener) (p : ShmHandle.Place) (t : ObjectShelf) (q : ShmHandle.Place)
      (hk : s.openers[k]? = some o) (hp : o.place = some p)
      (hm : ShmHandle.Moved (o.request name size) s.shelf p t q) :
      Happened name size s (.move k) ({ s with shelf := t }.placed k o (some q)) []
  | got (k : Nat) (o : Opener) (i : Nat) (hk : s.openers[k]? = some o)
      (hp : o.place = some (.measuring i)) :
      Happened name size s (.move k) (s.placed k o none)
        [.ok ⟨i, ObjectName.withSlash name, s.shelf.sizeOf i, o.attr.rdwr⟩]
  /-- A caller gives up. It may have removed the name that it has made. -/
  | refused (k : Nat) (o : Opener) (p : ShmHandle.Place) (t : ObjectShelf) (e : Error)
      (hk : s.openers[k]? = some o) (hp : o.place = some p)
      (ht : t = s.shelf ∨ (∃ why, p = .removing why) ∧
        t = s.shelf.setName (ObjectName.withSlash name) none)
      (he : e = .notFound → (p = .opening ∧ s.shelf.names (ObjectName.withSlash name) = none) ∨
        ∃ why, p = .removing why) :
      Happened name size s (.move k) ({ s with shelf := t }.placed k o none) [.error e]

-- A name that somebody removes.
theorem unlink_happened (name : String) (size : Nat) (s : Rush) :
    Happened name size s .unlink { s with shelf := (ShmHandle.unlink s.shelf name).1 } [] := by
  rcases ShmHandle.unlink_cases s.shelf name with ⟨i, hi, hdir, hu⟩ | ⟨e, notes, hu⟩
  · rw [hu]
    exact .removed i hi hdir
  · rw [hu]
    exact .spared

/-- A step does what acts do. -/
theorem step_happened (name : String) (size : Nat) (s s' : Rush) (a : Act)
    (answers : List (Answer ShmHandle)) (h : step name size s a = some (s', answers)) :
    Happened name size s a s' answers := by
  cases a with
  | call attr eager left =>
      simp only [step] at h
      split at h
      next host hcheck =>
        simp only [Option.some.injEq, Prod.mk.injEq] at h
        rcases h with ⟨rfl, rfl⟩
        rw [ShmHandle.start, if_pos eager.1, eager.2.1]
        exact .join attr eager left (ObjectName.check_eq_ok_iff.mp hcheck).1
      next e hcheck =>
        simp only [Option.some.injEq, Prod.mk.injEq] at h
        rcases h with ⟨rfl, rfl⟩
        rw [(ObjectName.check_eq_error_iff.mp hcheck).2]
        exact .turned attr eager left
  | unlink =>
      simp only [step, Option.some.injEq, Prod.mk.injEq] at h
      rcases h with ⟨rfl, rfl⟩
      exact unlink_happened name size s
  | move k =>
      simp only [step] at h
      split at h
      next => exact absurd h (by simp only [reduceCtorEq, not_false_eq_true])
      next o hk =>
        split at h
        next => exact absurd h (by simp only [reduceCtorEq, not_false_eq_true])
        next p hp =>
          rcases ShmHandle.openStep_cases (o.request name size) s.shelf p with
            ⟨t, q, notes, hgoto, hm⟩ | ⟨i, rfl, hdone⟩ | ⟨t, e, notes, hdone, ht⟩
          · simp only [hgoto, Option.some.injEq, Prod.mk.injEq] at h
            rcases h with ⟨rfl, rfl⟩
            exact .moved k o p t q hk hp hm
          · simp only [hdone, Option.some.injEq, Prod.mk.injEq] at h
            rcases h with ⟨rfl, rfl⟩
            exact .got k o i hk hp
          · simp only [hdone, Option.some.injEq, Prod.mk.injEq] at h
            rcases h with ⟨rfl, rfl⟩
            refine .refused k o p t e hk hp ?_ fun he => ?_
            · exact ht.imp id fun ⟨why, hwhy, hr⟩ => ⟨⟨why, hwhy⟩, ObjectShelf.eq_of_remove hr⟩
            · rw [he] at hdone
              exact ShmHandle.openStep_notFound hdone

-- With one of the callers at another place the others are where they were.
theorem mem_placed {s : Rush} {k : Nat} {o o' : Opener} {p : Option ShmHandle.Place}
    (h : o' ∈ (s.placed k o p).openers) : o' ∈ s.openers ∨ o' = { o with place := p } :=
  List.mem_or_eq_of_mem_set h

/-! ## An object from the beginning -/

/-- The caller is going to find the object `i`, or has found it. -/
def Finds (s : ObjectShelf) (i : Nat) : ShmHandle.Place → Prop
  | .creating only => only = false
  | .opening => True
  | .measuring j => j = i ∧ Host.mayRead (s.mode i) = true
  | _ => False

/-- The shelf has not changed, and everybody is going to find the object `i`. -/
structure Settled (s₀ : ObjectShelf) (i : Nat) (s : Rush) : Prop where
  shelf_eq : s.shelf = s₀
  openers : ∀ o ∈ s.openers, ∀ p, o.place = some p → Finds s₀ i p

theorem Settled.placed {s₀ : ObjectShelf} {i : Nat} {s : Rush} (h : Settled s₀ i s) (k : Nat)
    (o : Opener) (p : Option ShmHandle.Place) (hp : ∀ q, p = some q → Finds s₀ i q) :
    Settled s₀ i (s.placed k o p) := by
  refine ⟨h.shelf_eq, fun o' ho' => ?_⟩
  rcases mem_placed ho' with ho' | rfl
  · exact h.openers o' ho'
  · exact hp

/-- Whoever is going to find the object finds it, and changes nothing. -/
theorem finds_moved {o : Opener} {name : String} {size i : Nat} {s t : ObjectShelf}
    {p q : ShmHandle.Place} (hi : s.names (ObjectName.withSlash name) = some i)
    (hp : Finds s i p) (h : ShmHandle.Moved (o.request name size) s p t q) :
    t = s ∧ Finds s i q := by
  cases h with
  | make only hd hfree =>
      exact absurd (hfree.symm.trans hi) (by simp only [reduceCtorEq, not_false_eq_true])
  | pass j hd hj => exact ⟨rfl, trivial⟩
  | find j hd hj hdir hallow =>
      have hji : j = i := Option.some.inj (hj.symm.trans hi)
      rw [hji] at hallow ⊢
      rw [o.found_eq name size]
      exact ⟨rfl, rfl, (Bool.and_eq_true_iff.mp hallow).1⟩
  | size j created hs hw => exact hp.elim
  | undo j hbad => exact hp.elim

/-- Where the object is there with its size and nobody can remove it, nobody goes
    away without it. -/
theorem settled_step {unlinks : Bool} {name : String} {size i : Nat} {s₀ : ObjectShelf}
    (hi : s₀.names (ObjectName.withSlash name) = some i)
    (hread : Host.mayRead (s₀.mode i) = true → s₀.sizeOf i = size)
    (hstays : unlinks = true → ObjectShelf.isDirectory i = true) (s : Rush) (a : Act) (s' : Rush)
    (answers : List (Answer ShmHandle)) (h : Settled s₀ i s) (ha : a.Allowed unlinks)
    (hs : step name size s a = some (s', answers)) :
    Settled s₀ i s' ∧ ∀ answer ∈ answers, Good size answer := by
  rcases s with ⟨shelf, openers⟩
  rcases h with ⟨rfl, hopeners⟩
  have hfinds : ∀ {k : Nat} {o : Opener} {p : ShmHandle.Place}, openers[k]? = some o →
      o.place = some p → Finds shelf i p :=
    fun hk hp => hopeners _ (List.mem_of_getElem? hk) _ hp
  have hsame : Settled shelf i ⟨shelf, openers⟩ := ⟨rfl, hopeners⟩
  cases step_happened name size _ s' a answers hs with
  | join attr eager left hv =>
      refine ⟨⟨rfl, fun o ho p hp => ?_⟩, List.forall_mem_nil _⟩
      rcases List.mem_append.mp ho with ho | ho
      · exact hopeners o ho p hp
      · rw [List.mem_singleton.mp ho, Option.some.injEq] at hp
        exact hp ▸ rfl
  | turned attr eager left =>
      refine ⟨hsame, List.forall_mem_singleton.mpr ?_⟩
      exact fun h => absurd h (by simp only [reduceCtorEq, not_false_eq_true])
  | removed j hj hdir =>
      have hji : j = i := Option.some.inj (hj.symm.trans hi)
      rw [hji, hstays ha] at hdir
      exact absurd hdir (by decide)
  | spared => exact ⟨hsame, List.forall_mem_nil _⟩
  | moved k o p t q hk hp hm =>
      rcases finds_moved hi (hfinds hk hp) hm with ⟨rfl, hq⟩
      exact ⟨hsame.placed k o _ fun x hx => Option.some.inj hx ▸ hq, List.forall_mem_nil _⟩
  | got k o j hk hp =>
      rcases hfinds hk hp with ⟨rfl, hmay⟩
      refine ⟨hsame.placed k o _ fun x hx => absurd hx (by
        simp only [reduceCtorEq, not_false_eq_true]), List.forall_mem_singleton.mpr ?_⟩
      exact hread hmay
  | refused k o p t e hk hp ht he =>
      have hno : ¬∃ why, p = .removing why := by
        rintro ⟨why, rfl⟩
        exact hfinds hk hp
      rw [ht.resolve_right fun h => hno h.1]
      refine ⟨hsame.placed k o _ fun x hx => absurd hx (by
        simp only [reduceCtorEq, not_false_eq_true]), List.forall_mem_singleton.mpr ?_⟩
      rintro rfl
      exact absurd ((he rfl).resolve_right hno).2 (by
        rw [hi]
        simp only [reduceCtorEq, not_false_eq_true])

theorem settled_sound {unlinks : Bool} {name : String} {size i : Nat} {s : ObjectShelf}
    (hi : s.names (ObjectName.withSlash name) = some i)
    (hread : Host.mayRead (s.mode i) = true → s.sizeOf i = size)
    (hstays : unlinks = true → ObjectShelf.isDirectory i = true) : Sound unlinks name size s := by
  intro acts s' answers hacts hrun
  exact (Schedule.play_shows (step name size) (Act.Allowed unlinks) (Settled s i) (Good size)
    (settled_step hi hread hstays) acts ⟨s, []⟩ s' answers
    ⟨rfl, fun o ho => absurd ho List.not_mem_nil⟩ hacts hrun).2

/-- Under what is no name there is nothing to be had. -/
theorem nameless_sound {unlinks : Bool} {name : String} {size : Nat} {s : ObjectShelf}
    (hv : ¬ObjectName.Valid (ObjectName.withSlash name).toList) : Sound unlinks name size s := by
  intro acts s' answers hacts hrun
  refine (Schedule.play_shows (step name size) (Act.Allowed unlinks) (fun s => s.openers = [])
    (Good size) (fun s a s' answers h _ hs => ?_) acts ⟨s, []⟩ s' answers rfl hacts hrun).2
  have hnobody : ∀ (k : Nat) (o : Opener), s.openers[k]? ≠ some o := by
    intro k o hk
    rw [h] at hk
    exact absurd hk (by simp only [List.getElem?_nil, reduceCtorEq, not_false_eq_true])
  cases step_happened name size s s' a answers hs with
  | join attr eager left hv' => exact absurd hv' hv
  | turned attr eager left =>
      refine ⟨h, List.forall_mem_singleton.mpr ?_⟩
      exact fun h => absurd h (by simp only [reduceCtorEq, not_false_eq_true])
  | removed i hi hdir => exact ⟨h, List.forall_mem_nil _⟩
  | spared => exact ⟨h, List.forall_mem_nil _⟩
  | moved k o p t q hk hp hm => exact absurd hk (hnobody k o)
  | got k o i hk hp => exact absurd hk (hnobody k o)
  | refused k o p t e hk hp ht he => exact absurd hk (hnobody k o)

/-! ## Runs that go wrong -/

/-- A caller starts. -/
def Act.of (o : Opener) : Act :=
  .call o.attr o.eager o.descriptorLeft

/-- A caller that only reads. -/
def reader : Opener :=
  ⟨ShmAttr.none.withCreat true, by decide, true, some (.creating false)⟩

/-- A caller that reads and writes. -/
def writer : Opener :=
  ⟨ShmAttr.createRw, by decide, true, some (.creating false)⟩

section

variable {name : String} {size : Nat} (hv : ObjectName.Valid (ObjectName.withSlash name).toList)

include hv in
theorem step_call (s : Rush) (o : Opener) (ho : o.place = some (.creating false)) :
    step name size s (.of o)
      = some ({ s with openers := s.openers ++ [o] }, []) := by
  have hcheck := ObjectName.check_eq_ok_iff.mpr ⟨hv, rfl⟩
  have hstart : ShmHandle.start o.attr = .creating false := by
    rw [ShmHandle.start, if_pos o.eager.1, o.eager.2.1]
  simp only [Act.of, step, hcheck, hstart, ← ho]

/-- Every host call that leads on is a move. -/
theorem step_moved {s : Rush} {k : Nat} {o : Opener} {p q : ShmHandle.Place} {t : ObjectShelf}
    (hk : s.openers[k]? = some o) (hp : o.place = some p)
    (hm : ShmHandle.Moved (o.request name size) s.shelf p t q) :
    step name size s (.move k) = some ({ s with shelf := t }.placed k o (some q), []) := by
  rcases hm.step_eq with ⟨notes, hgoto⟩
  simp only [step, hk, hp, hgoto]

theorem step_got {s : Rush} {k i : Nat} {o : Opener} (hk : s.openers[k]? = some o)
    (hp : o.place = some (.measuring i)) :
    step name size s (.move k) = some (s.placed k o none,
      [.ok ⟨i, ObjectName.withSlash name, s.shelf.sizeOf i, o.attr.rdwr⟩]) := by
  simp only [step, hk, hp, ShmHandle.openStep]
  rfl

-- A caller is where it has been put.
theorem placed_self {s : Rush} {k : Nat} {o : Opener} (hk : s.openers[k]? = some o)
    (p : Option ShmHandle.Place) : (s.placed k o p).openers[k]? = some { o with place := p } :=
  List.getElem?_set_self (List.getElem?_eq_some_iff.mp hk).1

variable (size) in
include hv in
/-- A caller that only reads gets the object that is there as it is. -/
theorem play_reader (s : Rush) (i n : Nat)
    (hi : s.shelf.names (ObjectName.withSlash name) = some i)
    (hread : Host.mayRead (s.shelf.mode i) = true) (hn : s.shelf.sizeOf i = n) :
    ∃ s', Schedule.play (step name size) s ([.of reader] ++
        List.replicate 3 (.move s.openers.length))
      = some (s', [.ok ⟨i, ObjectName.withSlash name, n, reader.attr.rdwr⟩]) := by
  rw [← hn]
  have hr : (reader.request name size).attr.rdwr = false :=
    show reader.attr.rdwr = false by decide
  -- It passes what is there, finds it and reads its size.
  have hpass : ShmHandle.Moved (reader.request name size) s.shelf (.creating false)
      s.shelf .opening :=
    .pass s.shelf i rfl hi
  have hfind : ShmHandle.Moved (reader.request name size) s.shelf .opening
      s.shelf (.measuring i) := by
    have hm := ShmHandle.Moved.find (r := reader.request name size) s.shelf i rfl hi
      (by rw [hr, Bool.and_false]) (by rw [hr, Host.allows, hread]; rfl)
    rwa [reader.found_eq name size] at hm
  have hk : (s.openers ++ [reader])[s.openers.length]? = some reader := List.getElem?_concat_length
  have hk' := placed_self (s := ⟨s.shelf, s.openers ++ [reader]⟩) hk (some .opening)
  have hk'' := placed_self hk' (some (.measuring i))
  have hcall : step name size s (.of reader) = _ :=
    step_call hv s reader rfl
  have hlast : step name size _ (.move s.openers.length) = _ := step_got hk'' rfl
  have hrun := Schedule.play_cons hcall (Schedule.play_cons (step_moved hk rfl hpass)
    (Schedule.play_cons (step_moved hk' rfl hfind) (Schedule.play_one hlast)))
  exact ⟨_, hrun⟩

variable (size) in
include hv in
/-- Where the name is free, somebody makes the object, and before it has got its size
    somebody else takes it for what it is. -/
theorem hollow_run (s : ObjectShelf) (hfree : s.names (ObjectName.withSlash name) = none) :
    ∃ s', Schedule.play (step name size) ⟨s, []⟩
        [.of writer, .move 0, .of reader, .move 1, .move 1, .move 1]
      = some (s', [.ok ⟨s.next, ObjectName.withSlash name, 0, reader.attr.rdwr⟩]) := by
  have hmake : ShmHandle.Moved (writer.request name size) s (.creating false)
      (s.made (ObjectName.withSlash name) writer.attr.mode) (.sizing s.next true) :=
    .make s false rfl hfree
  have hcall : step name size ⟨s, []⟩ (.of writer) = _ :=
    step_call hv ⟨s, []⟩ writer rfl
  have hmade := step_moved (s := ⟨s, [writer]⟩) (k := 0) rfl rfl hmake
  have hname : (s.made (ObjectName.withSlash name) writer.attr.mode).names
      (ObjectName.withSlash name) = some s.next := if_pos rfl
  have hmode : Host.mayRead
      ((s.made (ObjectName.withSlash name) writer.attr.mode).mode s.next) = true := by
    rw [show (s.made (ObjectName.withSlash name) writer.attr.mode).mode s.next = writer.attr.mode
      from if_pos rfl]
    decide
  have hsize : (s.made (ObjectName.withSlash name) writer.attr.mode).sizeOf s.next = 0 :=
    congrArg Memory.size (ShmHandle.made_memory_next s _ _)
  rcases play_reader size hv
    (({ shelf := s.made (ObjectName.withSlash name) writer.attr.mode, openers := [writer] } :
      Rush).placed 0 writer (some (.sizing s.next true))) s.next 0 hname hmode hsize with
    ⟨s', hread⟩
  exact ⟨s', Schedule.play_cons hcall (Schedule.play_cons hmade hread)⟩

variable (size) in
include hv in
/-- Where the name can be removed, somebody passes the object that is there and then
    does not find it. -/
theorem lost_run (s : ObjectShelf) (i : Nat) (hi : s.names (ObjectName.withSlash name) = some i)
    (hdir : ObjectShelf.isDirectory i = false) :
    ∃ s', Schedule.play (step name size) ⟨s, []⟩
        [.of reader, .move 0, .unlink, .move 0]
      = some (s', [.error .notFound]) := by
  have hpass : ShmHandle.Moved (reader.request name size) s (.creating false) s .opening :=
    .pass s i rfl hi
  have hcall : step name size ⟨s, []⟩ (.of reader) = _ :=
    step_call hv ⟨s, []⟩ reader rfl
  have hpassed := step_moved (s := ⟨s, [reader]⟩) (k := 0) rfl rfl hpass
  have hunlink : (ShmHandle.unlink s name).1 = s.setName (ObjectName.withSlash name) none := by
    unfold ShmHandle.unlink
    simp only [ObjectName.check_eq_ok_iff.mpr ⟨hv, rfl⟩, ObjectShelf.remove, hi, hdir,
      Bool.false_eq_true, if_false]
  have hgone : (s.setName (ObjectName.withSlash name) none).names (ObjectName.withSlash name)
      = none := if_pos rfl
  have hunlinked : step name size ((⟨s, [reader]⟩ : Rush).placed 0 reader (some .opening)) .unlink
      = some ((⟨s.setName (ObjectName.withSlash name) none, [reader]⟩ : Rush).placed 0 reader
          (some .opening), []) := by
    rw [← hunlink]
    rfl
  have hlost : step name size ((⟨s.setName (ObjectName.withSlash name) none, [reader]⟩ :
      Rush).placed 0 reader (some .opening)) (.move 0)
      = some ((⟨s.setName (ObjectName.withSlash name) none, [reader]⟩ : Rush).placed 0 reader none,
          [.error .notFound]) := by
    simp only [step, placed, List.set_cons_zero, List.getElem?_cons_zero, ShmHandle.openStep,
      Opener.request, reader, ObjectShelf.openExisting, hgone, Bool.not_true, Bool.false_eq_true,
      if_false]
    rfl
  exact ⟨_, Schedule.play_cons hcall (Schedule.play_cons hpassed (Schedule.play_cons hunlinked
    (Schedule.play_one hlost)))⟩

end

/-! ## What holds of all runs -/

/-- The object has the size that is wanted, or none, or it is the one that was there
    before and has the size that it had. -/
def Sized (name : String) (size : Nat) (s₀ s : ObjectShelf) (i : Nat) : Prop :=
  s.sizeOf i = size ∨ s.sizeOf i = 0 ∨
    s₀.names (ObjectName.withSlash name) = some i ∧ s.sizeOf i = s₀.sizeOf i

/-- All objects that are under the name, or that a caller has, are sized. -/
structure AllSized (name : String) (size : Nat) (s₀ : ObjectShelf) (s : Rush) : Prop where
  named : ∀ i, s.shelf.names (ObjectName.withSlash name) = some i → Sized name size s₀ s.shelf i
  held : ∀ o ∈ s.openers, ∀ i, o.place = some (.measuring i) → Sized name size s₀ s.shelf i

/-- What a caller is told of a sized object. -/
def Fits (name : String) (size : Nat) (s₀ : ObjectShelf) : Answer ShmHandle → Prop
  | .ok h => h.size = size ∨ h.size = 0 ∨
      s₀.names (ObjectName.withSlash name) = some h.object ∧ h.size = s₀.sizeOf h.object
  | .error _ => True

-- An object that gets the right size, or none, does not matter to the others.
theorem Sized.put {name : String} {size i : Nat} {s₀ s : ObjectShelf} (h : Sized name size s₀ s i)
    (j : Nat) (m : Memory) (hm : m.size = size ∨ m.size = 0) :
    Sized name size s₀ (s.put j m) i := by
  by_cases hij : i = j
  · have hsize : (s.put j m).sizeOf i = m.size := by
      rw [hij]
      exact congrArg Memory.size (ObjectShelf.put_memory_self s j m)
    rw [Sized, hsize]
    exact hm.imp id Or.inl
  · have hsize : (s.put j m).sizeOf i = s.sizeOf i := congrArg Memory.size (if_neg hij)
    rw [Sized, hsize]
    exact h

-- What is kept while a caller goes from one place to another.
theorem AllSized.placed {name : String} {size : Nat} {s₀ t : ObjectShelf} {s : Rush}
    (h : AllSized name size s₀ s) (k : Nat) (o : Opener) (p : Option ShmHandle.Place)
    (ht : ∀ i, Sized name size s₀ s.shelf i → Sized name size s₀ t i)
    (hnamed : ∀ i, t.names (ObjectName.withSlash name) = some i → Sized name size s₀ t i)
    (hp : ∀ i, p = some (.measuring i) → Sized name size s₀ t i) :
    AllSized name size s₀ ({ s with shelf := t }.placed k o p) := by
  refine ⟨hnamed, fun o' ho' i hi => ?_⟩
  rcases mem_placed ho' with ho' | rfl
  · exact ht i (h.held o' ho' i hi)
  · exact hp i hi

theorem sized_step {name : String} {size : Nat} {s₀ : ObjectShelf} (s : Rush) (a : Act) (s' : Rush)
    (answers : List (Answer ShmHandle)) (h : AllSized name size s₀ s)
    (hs : step name size s a = some (s', answers)) :
    AllSized name size s₀ s' ∧ ∀ answer ∈ answers, Fits name size s₀ answer := by
  -- A name that is free stands for no object.
  have hfree : ∀ i, (s.shelf.setName (ObjectName.withSlash name) none).names
      (ObjectName.withSlash name) ≠ some i := by
    intro i hi
    exact absurd ((if_pos rfl).symm.trans hi) (by simp only [reduceCtorEq, not_false_eq_true])
  cases step_happened name size s s' a answers hs with
  | join attr eager left hv =>
      refine ⟨⟨h.named, fun o ho i hi => ?_⟩, List.forall_mem_nil _⟩
      rcases List.mem_append.mp ho with ho | ho
      · exact h.held o ho i hi
      · rw [List.mem_singleton.mp ho, Option.some.injEq] at hi
        exact absurd hi (by simp only [reduceCtorEq, not_false_eq_true])
  | turned attr eager left =>
      refine ⟨h, List.forall_mem_singleton.mpr ?_⟩
      trivial
  | removed i hi hdir => exact ⟨⟨fun j hj => absurd hj (hfree j), h.held⟩, List.forall_mem_nil _⟩
  | spared => exact ⟨h, List.forall_mem_nil _⟩
  | moved k o p t q hk hp hm =>
      refine ⟨?_, List.forall_mem_nil _⟩
      cases hm with
      | make only hd hn =>
          have hmade : ∀ i, Sized name size s₀ s.shelf i → Sized name size s₀
              (s.shelf.made (ObjectName.withSlash name) o.attr.mode) i :=
            fun i hi => hi.put s.shelf.next (Memory.zeros 0) (Or.inr rfl)
          refine h.placed k o _ hmade (fun i hi => ?_) fun i hi => absurd hi (by
            simp only [Option.some.injEq, reduceCtorEq, not_false_eq_true])
          have hnew : s.shelf.next = i := Option.some.inj ((if_pos rfl).symm.trans hi)
          rw [← hnew]
          exact Or.inr (Or.inl (congrArg Memory.size (ShmHandle.made_memory_next s.shelf _ _)))
      | pass i hd hi =>
          exact h.placed k o _ (fun _ => id) h.named fun j hj => absurd hj (by
            simp only [Option.some.injEq, reduceCtorEq, not_false_eq_true])
      | find i hd hi hdir hallow =>
          rw [o.found_eq name size]
          refine h.placed k o _ (fun _ => id) h.named fun j hj => ?_
          rw [Option.some.injEq, ShmHandle.Place.measuring.injEq] at hj
          exact hj ▸ h.named i hi
      | size i created hlimit hw =>
          have hput : ∀ j, Sized name size s₀ s.shelf j → Sized name size s₀
              (s.shelf.put i ((s.shelf.memory i).resize size)) j :=
            fun j hj => hj.put i _ (Or.inl rfl)
          refine h.placed k o _ hput (fun j hj => hput j (h.named j hj)) fun j hj => ?_
          rw [Option.some.injEq, ShmHandle.Place.measuring.injEq] at hj
          rw [← hj]
          exact Or.inl (congrArg Memory.size (ObjectShelf.put_memory_self s.shelf i _))
      | undo i hbad =>
          exact h.placed k o _ (fun _ => id) h.named fun j hj => absurd hj (by
            simp only [Option.some.injEq, reduceCtorEq, not_false_eq_true])
  | got k o i hk hp =>
      refine ⟨h.placed k o _ (fun _ => id) h.named fun j hj => absurd hj (by
        simp only [reduceCtorEq, not_false_eq_true]), List.forall_mem_singleton.mpr ?_⟩
      exact h.held o (List.mem_of_getElem? hk) i hp
  | refused k o p t e hk hp ht he =>
      refine ⟨?_, List.forall_mem_singleton.mpr ?_⟩
      · rcases ht with rfl | ⟨_, rfl⟩
        · exact h.placed k o _ (fun _ => id) h.named fun j hj => absurd hj (by
            simp only [reduceCtorEq, not_false_eq_true])
        · exact h.placed k o _ (fun _ => id) (fun j hj => absurd hj (hfree j)) fun j hj =>
            absurd hj (by simp only [reduceCtorEq, not_false_eq_true])
      · trivial

/-- No handle has any other size than the one that is wanted, none, and that of the
    object that was there before. -/
theorem sized_run {name : String} {size : Nat} {s : ObjectShelf} {s' : Rush} {acts : List Act}
    {answers : List (Answer ShmHandle)}
    (hrun : Schedule.play (step name size) ⟨s, []⟩ acts = some (s', answers)) :
    ∀ answer ∈ answers, Fits name size s answer :=
  (Schedule.play_shows (step name size) (fun _ => True) (AllSized name size s) (Fits name size s)
    (fun s a s' answers h _ hs => sized_step s a s' answers h hs) acts ⟨s, []⟩ s' answers
    ⟨fun _ hi => Or.inr (Or.inr ⟨hi, rfl⟩), fun _ ho => absurd ho List.not_mem_nil⟩
    (fun _ _ => trivial) hrun).2

/-- Nobody removes a name, and callers can give an object its size. -/
def Act.Lasting : Act → Prop
  | .call attr _ _ => attr.rdwr = true
  | .unlink => False
  | .move _ => True

/-- What has been seen under the name is there, and nobody is about to remove it. -/
def Stands (name : String) (s : ObjectShelf) : Option ShmHandle.Place → Prop
  | some .opening => s.names (ObjectName.withSlash name) ≠ none
  | some (.removing _) => False
  | _ => True

/-- All callers rely on what is there. -/
def Standing (name : String) (s : Rush) : Prop :=
  ∀ o ∈ s.openers, o.attr.rdwr = true ∧ Stands name s.shelf o.place

-- What is kept while a caller goes from one place to another.
theorem Standing.placed {name : String} {t : ObjectShelf} {s : Rush} (h : Standing name s) {k : Nat}
    {o : Opener} (hk : s.openers[k]? = some o) {p : Option ShmHandle.Place}
    (ht : s.shelf.names (ObjectName.withSlash name) ≠ none →
      t.names (ObjectName.withSlash name) ≠ none)
    (hp : Stands name t p) : Standing name ({ s with shelf := t }.placed k o p) := by
  intro o' ho'
  rcases mem_placed ho' with ho' | rfl
  · refine ⟨(h o' ho').1, ?_⟩
    have hstands := (h o' ho').2
    unfold Stands at hstands ⊢
    split at hstands
    next => exact ht hstands
    next => exact hstands
    next => trivial
  · exact ⟨(h o (List.mem_of_getElem? hk)).1, hp⟩

theorem standing_step {name : String} {size : Nat} (hlimit : size < ObjectShelf.sizeLimit)
    (s : Rush) (a : Act) (s' : Rush) (answers : List (Answer ShmHandle)) (h : Standing name s)
    (ha : a.Lasting) (hs : step name size s a = some (s', answers)) :
    Standing name s' ∧ ∀ answer ∈ answers, answer ≠ .error .notFound := by
  cases step_happened name size s s' a answers hs with
  | join attr eager left hv =>
      refine ⟨fun o ho => ?_, List.forall_mem_nil _⟩
      rcases List.mem_append.mp ho with ho | ho
      · exact h o ho
      · rw [List.mem_singleton.mp ho]
        exact ⟨ha, trivial⟩
  | turned attr eager left =>
      refine ⟨h, List.forall_mem_singleton.mpr ?_⟩
      simp only [ne_eq, Except.error.injEq, reduceCtorEq, not_false_eq_true]
  | removed i hi hdir => exact ha.elim
  | spared => exact ha.elim
  | moved k o p t q hk hp hm =>
      refine ⟨?_, List.forall_mem_nil _⟩
      cases hm with
      | make only hd hfree => exact h.placed hk (fun hne => absurd hfree hne) trivial
      | pass i hd hi =>
          refine h.placed hk id fun hnone => ?_
          exact absurd (hi.symm.trans hnone) (by simp only [reduceCtorEq, not_false_eq_true])
      | find i hd hi hdir hallow =>
          rw [o.found_eq name size]
          exact h.placed hk id trivial
      | size i created hs hw => exact h.placed hk id trivial
      | undo i hbad =>
          rcases hbad with hbad | hbad
          · exact absurd hlimit (Nat.not_lt.mpr hbad)
          · exact absurd ((h o (List.mem_of_getElem? hk)).1.symm.trans hbad) (by decide)
  | got k o i hk hp =>
      refine ⟨h.placed hk id trivial, List.forall_mem_singleton.mpr ?_⟩
      simp only [ne_eq, reduceCtorEq, not_false_eq_true]
  | refused k o p t e hk hp ht he =>
      have hstands := (h o (List.mem_of_getElem? hk)).2
      rw [hp] at hstands
      have hno : ¬∃ why, p = .removing why := by
        rintro ⟨why, rfl⟩
        exact hstands
      rw [ht.resolve_right fun h => hno h.1]
      refine ⟨h.placed hk id trivial, List.forall_mem_singleton.mpr ?_⟩
      intro hmissing
      rcases (he (Except.error.inj hmissing)).resolve_right hno with ⟨rfl, hnone⟩
      exact hstands hnone

/-- Nobody misses an object as long as nobody removes one. -/
theorem standing_run {name : String} {size : Nat} {s : ObjectShelf} {s' : Rush} {acts : List Act}
    {answers : List (Answer ShmHandle)} (hlimit : size < ObjectShelf.sizeLimit)
    (hacts : ∀ a ∈ acts, a.Lasting)
    (hrun : Schedule.play (step name size) ⟨s, []⟩ acts = some (s', answers)) :
    .error .notFound ∉ answers := fun hmem =>
  (Schedule.play_shows (step name size) Act.Lasting (Standing name) (· ≠ .error .notFound)
    (standing_step hlimit) acts ⟨s, []⟩ s' answers (fun _ ho => absurd ho List.not_mem_nil)
    hacts hrun).2 _ hmem rfl

/-- An object of the size that is wanted is under the name, or one that nobody can
    read. -/
def Ready (name : String) (size : Nat) (s : ObjectShelf) (i : Nat) : Prop :=
  s.names (ObjectName.withSlash name) = some i ∧
    (Host.mayRead (s.mode i) = true → s.sizeOf i = size)

/-- Once a call alone has got the whole object, the object is there for all others. -/
theorem sound_after_open (name : String) (size : Nat) (s s' : ObjectShelf) (left : Bool)
    (attr : ShmAttr) (h : ShmHandle) (notes : List Note)
    (hnext : ObjectShelf.directory < s.next)
    (hopen : ShmHandle.open s left name attr size = (s', .ok h, notes)) (hwhole : h.size = size) :
    Sound false name size s' := by
  rcases ShmHandle.open_cases s left name attr size hnext with
    ⟨_, t, i, more, hopened, heq⟩ | ⟨_, t, e, more, _, heq⟩
  · rcases Prod.mk.inj (heq.symm.trans hopen) with ⟨rfl, hanswer⟩
    rw [← Except.ok.inj (Prod.mk.inj hanswer).1] at hwhole
    exact settled_sound hopened.named (fun _ => hwhole) fun hno => absurd hno (by decide)
  · exact absurd (heq.symm.trans hopen) (by
      simp only [Prod.mk.injEq, reduceCtorEq, false_and, and_false, not_false_eq_true])

/-- Where a rush is sound: with the object there from the beginning, and if somebody
    removes names, with one that cannot be removed. This includes all names under
    which a call alone has got the whole object. Elsewhere handles have no bytes, or
    those of the object before, and an object is not missed unless it has been
    removed. -/
theorem rush_sound_iff (name : String) (size : Nat) (s : ObjectShelf) (hsize : 0 < size)
    (hlimit : size < ObjectShelf.sizeLimit) :
    (∀ unlinks, Sound unlinks name size s ↔
      (ObjectName.Valid (ObjectName.withSlash name).toList → ∃ i, Ready name size s i ∧
        (unlinks = true → ObjectShelf.isDirectory i = true))) ∧
    (∀ left attr s' h notes, ObjectShelf.directory < s.next →
      ShmHandle.open s left name attr size = (s', .ok h, notes) → h.size = size →
        Sound false name size s') ∧
    ∀ acts s' answers, Schedule.play (step name size) ⟨s, []⟩ acts = some (s', answers) →
      (∀ answer ∈ answers, Fits name size s answer) ∧
      ((∀ a ∈ acts, a.Lasting) → .error .notFound ∉ answers) := by
  refine ⟨fun unlinks => ⟨fun hsound hv => ?_, fun hready => ?_⟩,
    fun left attr s' h notes => sound_after_open name size s s' left attr h notes,
    fun acts s' answers hrun => ⟨sized_run hrun, fun hacts => standing_run hlimit hacts hrun⟩⟩
  · rcases hn : s.names (ObjectName.withSlash name) with _ | i
    · -- The name is free, and the object that is made is seen too early.
      rcases hollow_run size hv s hn with ⟨s', hrun⟩
      have hgood := hsound _ s' _ (by simp [Act.of, Act.Allowed]) hrun _
        (List.mem_singleton.mpr rfl)
      exact absurd hgood.symm (Nat.ne_of_gt hsize)
    · refine ⟨i, ⟨hn, fun hread => ?_⟩, fun hunlinks => ?_⟩
      · rcases play_reader size hv ⟨s, []⟩ i _ hn hread rfl with ⟨s', hrun⟩
        exact hsound _ s' _ (by simp [Act.of, Act.Allowed]) hrun _ (List.mem_singleton.mpr rfl)
      · by_contra hdir
        rcases lost_run size hv s i hn (Bool.eq_false_iff.mpr hdir) with ⟨s', hrun⟩
        exact hsound _ s' _ (by simp [Act.of, Act.Allowed, hunlinks]) hrun _
          (List.mem_singleton.mpr rfl) rfl
  · by_cases hv : ObjectName.Valid (ObjectName.withSlash name).toList
    · rcases hready hv with ⟨i, hi, hstays⟩
      exact settled_sound hi.1 hi.2 hstays
    · exact nameless_sound hv

/-- After an object has been made on an empty shelf, whoever comes finds it. -/
theorem rush_sound_after_first : 0 < 64 ∧ 64 < ObjectShelf.sizeLimit ∧
    Sound false "ring" 64 (ShmHandle.open ObjectShelf.empty true "ring" ShmAttr.createRw 64).1 :=
  ⟨by decide, by decide,
    (rush_sound_iff "ring" 64 ObjectShelf.empty (by decide) (by decide)).2.1 true ShmAttr.createRw _
      ⟨1, "/ring", 64, true⟩ (ShmHandle.open ObjectShelf.empty true "ring" ShmAttr.createRw 64).2.2
      (by decide) rfl rfl⟩

/-- Two callers find an empty shelf. The second one gets what the first one has made
    before it has a size, and it cannot map that. If the name is removed while the
    second one goes from one host call to the next, it gets nothing. -/
theorem hollow_and_lost :
    (Schedule.play (step "ring" 64) ⟨ObjectShelf.empty, []⟩
      [.of writer, .move 0, .of writer, .move 1, .move 1, .move 1, .move 0, .move 0]).map Prod.snd
      = some [.ok ⟨1, "/ring", 0, true⟩, .ok ⟨1, "/ring", 64, true⟩] ∧
    (ShmHandle.map ⟨1, "/ring", 0, true⟩ MapFlags.ring).1 = .error .invalidParam ∧
    (Schedule.play (step "ring" 64) ⟨ObjectShelf.empty, []⟩
      [.of writer, .move 0, .move 0, .move 0, .of writer, .move 1, .unlink, .move 1]).map Prod.snd
      = some [.ok ⟨1, "/ring", 64, true⟩, .error .notFound] ∧
    ¬Sound false "ring" 64 ObjectShelf.empty := by
  have hvalid : ObjectName.Valid (ObjectName.withSlash "ring").toList := by decide
  refine ⟨rfl, rfl, rfl, fun hsound => ?_⟩
  rcases hollow_run 64 hvalid ObjectShelf.empty rfl with ⟨s', hrun⟩
  have hgood := hsound _ s' _ (by simp [Act.of, Act.Allowed]) hrun _ (List.mem_singleton.mpr rfl)
  exact absurd hgood (show ¬(0 : Nat) = 64 by decide)

end Rush

end HostLayer
