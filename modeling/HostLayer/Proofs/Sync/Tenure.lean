import HostLayer.Proofs.Schedule
import HostLayer.Proofs.Sync.Holder
import Mathlib.Tactic.ByContra
import Mathlib.Tactic.SplitIfs

/-!
# Who Owns a Mutex

What any number of tasks can rely on that use one mutex.

The tasks lock the mutex, try to, unlock it and repair what it protects, with guards or
without, and in any order. Guards go from hand to hand. Tasks come to an end, by
themselves or because they are cancelled, and drop their guards then; with everything
else that they hold they just end. The mutex is made with any word that it can be made
with. Two calls are left out, since they may do anything: giving up a mutex that is not
one's own and does not check it (`Host.Mutex.Strays`), and destroying a robust mutex that
somebody owns. And there is one way for a task to end after which nobody does anything,
since the host gives up the whole process (`Host.Mutex.aborts`): the run is over there.

How far a task can rise, if the mutex has a ceiling, is the host's business and can be
another matter at each call, so a caller comes with it.

Everything is said of the register that is kept of what has been seen. By it one task at
most owns the mutex (`Tenure.Lawful.exclusive`), as often as it has taken it and not
given it up (`Tenure.Lawful.counted`), and what others get to hear follows from it. A
refused call leaves all as it was. That the mutex itself is as the register says is kept
by every step (`Tenure.step_kept`), as is that owners of robust mutexes have not ended
and that ended tasks have no guards.

Not everything goes as it should (`Tenure.tenure_exceptions`). A guard that has gone into
other hands does not give the mutex up. And a lost mutex says so only until somebody tries
it without waiting, because that may leave this thread in it. Only mutexes that pass
priorities on are spared.

## Main definitions

* `Tenure`, `Tenure.Act`, `Tenure.Seen`, `Tenure.step`: A mutex and its tasks.
* `Tenure.entries`, `Tenure.register`: What is entered, and the register.
* `Tenure.Kept`: What is kept along every run.
* `Tenure.Lawful`: What can be relied on.

## Theorems

* `Tenure.step_kept`, `Tenure.play_kept`: What a step keeps, and a run.
* `Tenure.tenure_lawful`: The ownership of a mutex, for every run.
* `Tenure.tenure_exceptions`: What is not among it.
-/

namespace HostLayer

/-- How far a task has come. -/
inductive Tenure.Stage
  | running
  /-- The task has come to its end or has been cancelled, and gives up what it has. -/
  | leaving
  | ended
  deriving DecidableEq, Repr

/-- A mutex and the tasks that use it. -/
structure Tenure where
  mutex : Mutex
  /-- The task that has each guard. -/
  guards : List ThreadId
  stage : ThreadId → Tenure.Stage
  /-- The mutex has not been destroyed. -/
  here : Bool

namespace Tenure

open Host (Health)

/-- The calls. -/
inductive Call
  | lock
  | tryLock
  /-- Take the mutex, with a guard to give it up. -/
  | guard
  | unlock
  | consistent
  deriving DecidableEq, Repr

/-- The caller wants the mutex. -/
def Call.Wants (k : Call) : Prop := k = .lock ∨ k = .tryLock ∨ k = .guard

/-- What can happen. -/
inductive Act
  | call (c : Caller) (k : Call)
  /-- A task drops a guard, as it likes or because it comes to its end. -/
  | drop (t : ThreadId)
  /-- A guard goes into other hands. -/
  | give (t u : ThreadId)
  /-- A task comes to its end, or a request to end it takes effect. -/
  | leave (t : ThreadId) (cancelled : Bool)
  /-- A task that has no guard any more ends, while somebody waits for the mutex or
      nobody does. -/
  | depart (t : ThreadId) (waiter : Bool)
  | destroy

/-- What is seen. -/
inductive Seen
  | answered (t : ThreadId) (k : Call) (r : Answer Unit)
  /-- A guard has been dropped. The answer to its unlocking is not told to anybody. -/
  | dropped (t : ThreadId) (r : Answer Unit)
  | left (t : ThreadId) (cancelled : Bool)
  | ended (t : ThreadId)
  | destroyed (r : Answer Unit)

/-- What is entered of it. -/
def Seen.entry? : Seen → Option Entry
  | answered t .lock r => Entry.ofTaking t r
  | answered t .tryLock r => Entry.ofTrying t r
  | answered t .guard r => Entry.ofTaking t r
  | answered t .unlock r => Entry.ofUnlocking t r
  | answered _ .consistent r => Entry.ofRepairing r
  | dropped t r => Entry.ofUnlocking t r
  | left _ _ => none
  | ended t => some (.died t)
  | destroyed _ => none

/-- All entries. -/
def entries (es : List Seen) : List Entry := es.filterMap Seen.entry?

/-- The register of a mutex made with `attr`, from its entries and from what is seen. -/
def book (attr : SyncAttr) (xs : List Entry) : Register := Register.blank.after attr.robust xs

def register (attr : SyncAttr) (es : List Seen) : Register := book attr (entries es)

/-- A guard is taken with the mutex. -/
def Seen.takesGuard : Seen → Bool
  | answered _ .guard (.ok _) => true
  | _ => false

def Seen.dropsGuard : Seen → Bool
  | dropped _ _ => true
  | _ => false

/-- Everybody runs, and nobody has used the mutex. -/
def begin (m : Mutex) : Tenure := ⟨m, [], fun _ => .running, true⟩

/-- The task can make calls. -/
def Can (s : Tenure) (t : ThreadId) : Prop := s.here = true ∧ s.stage t ≠ .ended

/-- Somebody has a hold. -/
def Owned (s : Tenure) : Prop := s.mutex.raw.holder ≠ none ∧ 0 < s.mutex.raw.depth

instance (s : Tenure) (t : ThreadId) : Decidable (s.Can t) := inferInstanceAs (Decidable (_ ∧ _))

instance (s : Tenure) : Decidable s.Owned := inferInstanceAs (Decidable (_ ∧ _))

/-- One task at another stage. -/
def staged (s : Tenure) (t : ThreadId) (p : Stage) : ThreadId → Stage :=
  fun u => if u = t then p else s.stage u

/-- A call, as far as it is answered. -/
def called (s : Tenure) (c : Caller) : Call → Option (Tenure × List Seen)
  | .lock => (s.mutex.lock c).map fun p =>
      ({ s with mutex := p.1 }, [.answered c.thread .lock p.2.1])
  | .tryLock =>
      some ({ s with mutex := (s.mutex.tryLock c).1 },
        [.answered c.thread .tryLock (s.mutex.tryLock c).2.1])
  | .guard => (s.mutex.lock c).map fun p =>
      ({ s with
          mutex := p.1
          guards := match p.2.1 with
            | .ok _ => c.thread :: s.guards
            | .error _ => s.guards },
        [.answered c.thread .guard p.2.1])
  | .unlock =>
      if s.mutex.raw.Strays c.thread then none
      else some ({ s with mutex := (s.mutex.unlock c.thread).1 },
        [.answered c.thread .unlock (s.mutex.unlock c.thread).2.1])
  | .consistent =>
      some ({ s with mutex := s.mutex.consistent.1 },
        [.answered c.thread .consistent s.mutex.consistent.2])

/-- What an act does, and what is seen of it. -/
def step (s : Tenure) : Act → Option (Tenure × List Seen)
  | .call c k => if s.Can c.thread then s.called c k else none
  | .drop t =>
      if s.Can t ∧ t ∈ s.guards ∧ ¬s.mutex.raw.Strays t then
        some ({ s with mutex := (s.mutex.dropGuard t).1, guards := s.guards.erase t },
          [.dropped t (s.mutex.unlock t).2.1])
      else none
  | .give t u =>
      if t ∈ s.guards ∧ s.stage t ≠ .ended ∧ s.stage u ≠ .ended then
        some ({ s with guards := u :: s.guards.erase t }, [])
      else none
  | .leave t cancelled =>
      if s.stage t = .running then
        some ({ s with stage := s.staged t .leaving }, [.left t cancelled])
      else none
  | .depart t waiter =>
      if s.stage t = .leaving ∧ t ∉ s.guards ∧ s.mutex.raw.aborts t waiter = false then
        some ({ s with mutex := s.mutex.holderEnded t, stage := s.staged t .ended }, [.ended t])
      else none
  | .destroy =>
      if s.here = true ∧ s.guards = [] ∧ ¬(s.mutex.raw.robust = true ∧ s.Owned) then
        some ({ s with here := false }, [.destroyed s.mutex.destroy])
      else none

/-- The mutex is as its word says. -/
structure Made (attr : SyncAttr) (m : Host.Mutex) : Prop where
  kind : m.kind = attr.kind
  robust : m.robust = attr.robust
  protocol : m.protocol = attr.protocol
  ceiling : m.protocol = .protect → m.ceiling = attr.ceiling.toNat
  /-- A mutex with a ceiling does not outlive its owner. -/
  apart : m.robust = true → m.protocol ≠ .protect
  awaited : m.awaited = 0

/-- Nobody has looked at the mutex after it was lost, or it has not mattered. -/
def Untried (attr : SyncAttr) (es : List Seen) : Prop :=
  attr.protocol = .inherit ∨ ∀ t, .tried t ∉ entries es

/-- What is kept along every run of a mutex made with `attr`. -/
structure Kept (attr : SyncAttr) (es : List Seen) (s : Tenure) : Prop where
  made : Made attr s.mutex.raw
  agrees : s.mutex.raw.Agrees (register attr es)
  fitting : Register.blank.Fitting attr.robust (entries es)
  /-- Nobody is stuck in a lost mutex that nobody has looked at. -/
  unstuck : s.mutex.raw.health = .lost → Untried attr es → s.mutex.raw.holder = none
  died : ∀ t, .died t ∈ entries es → s.stage t = .ended
  /-- The holder of a robust mutex has not ended. -/
  living : ∀ t, s.mutex.raw.holder = some t → s.mutex.raw.robust = true →
    s.mutex.raw.health ≠ .lost → s.stage t ≠ .ended
  /-- A task that has ended has no guard. -/
  bare : ∀ t, s.stage t = .ended → t ∉ s.guards
  guards : es.countP Seen.takesGuard = s.guards.length + es.countP Seen.dropsGuard

section Steps

variable {attr : SyncAttr} {m : Mutex} {s s' : Tenure} {es fs : List Seen} {x? : Option Entry}
  {c : Caller} {t u : ThreadId}

theorem entries_append : entries (es ++ fs) = entries es ++ entries fs :=
  List.filterMap_append

-- A new mutex is as its word says, and nobody has it.
theorem create_made (h : Mutex.create attr = .ok m) :
    Made attr m.raw ∧ m.raw.holder = none ∧ m.raw.depth = 0 ∧ m.raw.health = .sound := by
  simp only [Mutex.create, Mutex.createRaw, Host.Mutex.create] at h
  split_ifs at h with hvalid hrange hrobust hprotect
  · exact absurd h (by simp [bind, Except.bind, Errno.answer])
  · exact absurd h (by simp [bind, Except.bind, Errno.answer])
  · have hm : m = ⟨attr, _⟩ := (Except.ok.inj h).symm
    have hapart : attr.robust = true → attr.protocol ≠ .protect := fun hr _ =>
      hrobust (Bool.and_eq_true_iff.mpr ⟨hprotect, hr⟩)
    rw [hm]
    exact ⟨⟨rfl, rfl, rfl, fun _ => rfl, hapart, rfl⟩, rfl, rfl, rfl⟩
  · have hm : m = ⟨attr, _⟩ := (Except.ok.inj h).symm
    have hopen : attr.protocol ≠ .protect := fun hp => hprotect (beq_iff_eq.mpr hp)
    rw [hm]
    exact ⟨⟨rfl, rfl, rfl, fun hp => absurd hp hopen, fun _ => hopen, rfl⟩, rfl, rfl, rfl⟩
  · exact absurd h (by simp [bind, Except.bind])

theorem Made.moved {m m' : Host.Mutex} (h : Made attr m) (hm : m.Moved x? m') : Made attr m' := by
  have ha := hm.alike
  exact ⟨ha.kind.trans h.kind, ha.robust.trans h.robust, ha.protocol.trans h.protocol,
    fun hp => ha.ceiling.trans (h.ceiling (ha.protocol.symm.trans hp)),
    fun hr => ha.protocol ▸ h.apart (ha.robust.symm.trans hr), ha.awaited.trans h.awaited⟩

/-- A move of the mutex with its entry, whatever else happens to the tasks and guards. -/
theorem Kept.move (hk : Kept attr es s) (hm : s.mutex.raw.Moved x? s'.mutex.raw)
    (hentries : entries fs = x?.toList)
    (hstage : ∀ t, s'.stage t = .ended ↔ s.stage t = .ended ∨ x? = some (.died t))
    (htaker : ∀ x t, x? = some x → x.taker? = some t → s.stage t ≠ .ended)
    (hbare : ∀ t, s'.stage t = .ended → t ∉ s'.guards)
    (hguards : s.guards.length + fs.countP Seen.takesGuard
      = s'.guards.length + fs.countP Seen.dropsGuard) :
    Kept attr (es ++ fs) s' where
  made := hk.made.moved hm
  agrees := by
    have hnext := (hk.agrees.moved hm).2
    rw [hk.made.robust] at hnext
    rw [register, entries_append, hentries, book, Register.after_append]
    exact hnext
  fitting := by
    have hnext := (hk.agrees.moved hm).1
    rw [hk.made.robust] at hnext
    rw [entries_append, hentries]
    exact Register.fitting_append.mpr ⟨hk.fitting, hnext⟩
  unstuck := by
    intro hlost hlooked
    by_contra hholder
    rcases hm.stuck hlost hholder with ⟨hwas, hheld⟩ | ⟨hprotocol, t, hx⟩
    · refine hheld (hk.unstuck hwas (hlooked.imp id fun hnone t ht => hnone t ?_))
      rw [entries_append]
      exact List.mem_append_left _ ht
    · rcases hlooked with hinherit | hnone
      · exact hprotocol (hk.made.protocol.trans hinherit)
      · refine hnone t ?_
        rw [entries_append, List.mem_append, hentries, hx]
        exact Or.inr List.mem_cons_self
  died := by
    intro t ht
    rw [entries_append, List.mem_append, hentries, Option.mem_toList] at ht
    exact (hstage t).mpr (ht.imp (hk.died t) id)
  living := by
    intro t hholder hrobust hlost hended
    have hwas : s.stage t ≠ .ended := by
      rcases hm.holder hholder hlost with ⟨hheld, hhealth⟩ | ⟨x, hx, htakes⟩
      · exact hk.living t hheld (hm.alike.robust ▸ hrobust) hhealth
      · exact htaker x t hx htakes
    rcases (hstage t).mp hended with hno | hdies
    · exact hwas hno
    · exact hlost (Host.Mutex.Moved.died (hdies ▸ hm) hholder hrobust)
  bare := hbare
  guards := by
    have hwas := hk.guards
    rw [List.countP_append, List.countP_append]
    omega

theorem begin_kept (h : Mutex.create attr = .ok m) : Kept attr [] (begin m) := by
  rcases create_made h with ⟨hmade, hholder, hdepth, hhealth⟩
  have hnobody : ∀ t, m.raw.holder ≠ some t := fun t ht =>
    Option.some_ne_none t (ht.symm.trans hholder)
  have hflat : ¬1 < m.raw.depth := by
    rw [hdepth]
    decide
  exact
    { made := hmade
      agrees :=
        { held := fun t => (if_neg (hnobody t)).symm
          health := hhealth.symm
          depth_pos := fun t ht => absurd ht (hnobody t)
          depth_one := fun hd => absurd hd hflat
          sound := fun _ => hhealth
          free := fun _ => hholder }
      fitting := trivial
      unstuck := fun _ _ => hholder
      died := fun _ ht => absurd ht List.not_mem_nil
      living := fun t ht => absurd ht (hnobody t)
      bare := fun _ _ => List.not_mem_nil
      guards := rfl }

theorem entries_one (e : Seen) : entries [e] = e.entry?.toList := by
  rw [entries, List.filterMap_cons]
  cases e.entry? <;> rfl

-- A task makes a call or drops a guard, and the tasks go on as they were.
theorem Kept.act (hk : Kept attr es s) {e : Seen} (hrunning : s.stage t ≠ .ended)
    (hm : s.mutex.raw.Moved e.entry? s'.mutex.raw) (hof : ∀ x, e.entry? = some x → x.Of t)
    (hstage : s'.stage = s.stage) (hguards : ∀ u, u ∈ s'.guards → u ∈ s.guards ∨ u = t)
    (hcount : s.guards.length + [e].countP Seen.takesGuard
      = s'.guards.length + [e].countP Seen.dropsGuard) :
    Kept attr (es ++ [e]) s' := by
  refine hk.move hm (entries_one e) (fun u => ?_) (fun x u hx hu => ?_) (fun u hu hmem => ?_) hcount
  · rw [hstage]
    exact (or_iff_left fun hx => (hof _ hx).not_died u rfl).symm
  · exact (hof x hx).taker hu ▸ hrunning
  · rw [hstage] at hu
    rcases hguards u hmem with hwas | rfl
    · exact hk.bare u hu hwas
    · exact hrunning hu

theorem called_kept {k : Call} (hk : Kept attr es s) (hcan : s.Can c.thread)
    (h : s.called c k = some (s', fs)) : Kept attr (es ++ fs) s' := by
  cases k with
  | lock =>
      rcases Option.map_eq_some_iff.mp h with ⟨⟨m, r, notes⟩, hlock, heq⟩
      simp only [Prod.mk.injEq] at heq
      rcases heq with ⟨rfl, rfl⟩
      exact hk.act hcan.2 (Mutex.lock_moved hlock) (fun _ => Entry.ofTaking_of) rfl
        (fun _ => Or.inl) rfl
  | tryLock =>
      simp only [called, Option.some.injEq, Prod.mk.injEq] at h
      rcases h with ⟨rfl, rfl⟩
      exact hk.act hcan.2 (Mutex.tryLock_moved s.mutex c) (fun _ => Entry.ofTrying_of) rfl
        (fun _ => Or.inl) rfl
  | guard =>
      rcases Option.map_eq_some_iff.mp h with ⟨⟨m, r, notes⟩, hlock, heq⟩
      simp only [Prod.mk.injEq] at heq
      rcases heq with ⟨rfl, rfl⟩
      refine hk.act hcan.2 (Mutex.lock_moved hlock) (fun _ => Entry.ofTaking_of) rfl
        (fun u hu => ?_) ?_
      · rcases r with e | _
        · exact Or.inl hu
        · exact (List.mem_cons.mp hu).symm
      · rcases r with e | _ <;> rfl
  | unlock =>
      simp only [called] at h
      split_ifs at h with hstrays
      simp only [Option.some.injEq, Prod.mk.injEq] at h
      rcases h with ⟨rfl, rfl⟩
      exact hk.act hcan.2 (Mutex.unlock_moved s.mutex c.thread hstrays hk.agrees.sound)
        (fun _ => Entry.ofUnlocking_of) rfl (fun _ => Or.inl) rfl
  | consistent =>
      simp only [called, Option.some.injEq, Prod.mk.injEq] at h
      rcases h with ⟨rfl, rfl⟩
      exact hk.act hcan.2 (Mutex.consistent_moved s.mutex) (fun _ => Entry.ofRepairing_of) rfl
        (fun _ => Or.inl) rfl

-- Nothing happens to the mutex.
theorem Kept.rest (hk : Kept attr es s) (hmutex : s'.mutex = s.mutex)
    (hentries : entries fs = []) (hstage : ∀ t, s'.stage t = .ended ↔ s.stage t = .ended)
    (hguards : ∀ t, t ∈ s'.guards → t ∈ s.guards ∨ s.stage t ≠ .ended)
    (hcount : s.guards.length + fs.countP Seen.takesGuard
      = s'.guards.length + fs.countP Seen.dropsGuard) : Kept attr (es ++ fs) s' := by
  have hstays : s.mutex.raw.Moved none s'.mutex.raw := hmutex ▸ .stay
  refine hk.move hstays hentries (fun t => ?_)
    (fun x _ hx => absurd hx.symm (Option.some_ne_none x)) (fun t ht hmem => ?_) hcount
  · rw [hstage t]
    exact (or_iff_left fun hx => Option.some_ne_none _ hx.symm).symm
  · have hended := (hstage t).mp ht
    exact (hguards t hmem).elim (hk.bare t hended) fun hne => hne hended

/-- Every step keeps it. -/
theorem step_kept {a : Act} (hk : Kept attr es s) (h : s.step a = some (s', fs)) :
    Kept attr (es ++ fs) s' := by
  cases a with
  | call c k =>
      simp only [step] at h
      split_ifs at h with hcan
      exact called_kept hk hcan h
  | drop t =>
      simp only [step] at h
      split_ifs at h with hcan
      simp only [Option.some.injEq, Prod.mk.injEq] at h
      rcases h with ⟨rfl, rfl⟩
      have hmoved := Mutex.unlock_moved s.mutex t hcan.2.2 hk.agrees.sound
      refine hk.act hcan.1.2 (Mutex.dropGuard_eq s.mutex t ▸ hmoved)
        (fun _ => Entry.ofUnlocking_of) rfl (fun u hu => Or.inl (List.mem_of_mem_erase hu)) ?_
      have hpos := List.length_pos_of_mem hcan.2.1
      have hlen := List.length_erase_of_mem hcan.2.1
      simp only [List.countP_singleton, Seen.takesGuard, Seen.dropsGuard, hlen]
      simp only [Bool.false_eq_true, if_false, if_true]
      omega
  | give t u =>
      simp only [step] at h
      split_ifs at h with hgive
      simp only [Option.some.injEq, Prod.mk.injEq] at h
      rcases h with ⟨rfl, rfl⟩
      refine hk.rest rfl rfl (fun _ => Iff.rfl) (fun v hv => ?_) ?_
      · rcases List.mem_cons.mp hv with rfl | hv
        · exact Or.inr hgive.2.2
        · exact Or.inl (List.mem_of_mem_erase hv)
      · have hpos := List.length_pos_of_mem hgive.1
        have hlen := List.length_erase_of_mem hgive.1
        simp only [List.length_cons, hlen, List.countP_nil]
        omega
  | leave t cancelled =>
      simp only [step] at h
      split_ifs at h with hruns
      simp only [Option.some.injEq, Prod.mk.injEq] at h
      rcases h with ⟨rfl, rfl⟩
      refine hk.rest rfl rfl (fun v => ?_) (fun _ => Or.inl) rfl
      simp only [staged]
      split_ifs with hv
      · rw [hv, hruns]
        decide
      · exact Iff.rfl
  | depart t waiter =>
      simp only [step] at h
      split_ifs at h with hleaves
      simp only [Option.some.injEq, Prod.mk.injEq] at h
      rcases h with ⟨rfl, rfl⟩
      refine hk.move (Host.Mutex.holderEnded_moved s.mutex.raw t) (entries_one (.ended t))
        (fun v => ?_) (fun x v hx hv => ?_) (fun v hv => ?_) rfl
      · simp only [staged]
        split_ifs with hv
        · exact iff_of_true rfl (Or.inr (hv ▸ rfl))
        · exact (or_iff_left fun hx => hv (Entry.died.inj (Option.some.inj hx)).symm).symm
      · rw [← Option.some.inj hx] at hv
        exact absurd hv.symm (Option.some_ne_none v)
      · simp only [staged] at hv
        split_ifs at hv with hvt
        · exact hvt ▸ hleaves.2.1
        · exact hk.bare v hv
  | destroy =>
      simp only [step] at h
      split_ifs at h
      simp only [Option.some.injEq, Prod.mk.injEq] at h
      rcases h with ⟨rfl, rfl⟩
      exact hk.rest rfl rfl (fun _ => Iff.rfl) (fun _ => Or.inl) rfl

/-- Every run keeps it. -/
theorem play_kept {acts : List Act} (h : Mutex.create attr = .ok m)
    (hrun : Schedule.play step (begin m) acts = some (s, es)) : Kept attr es s := by
  rcases Schedule.play_simulates step (fun _ => True)
    (fun s seen => Kept attr seen s) (fun seen fs all => all = seen ++ fs)
    (fun _ => (List.append_nil _).symm) (fun _ _ _ _ _ h1 h2 => by rw [h2, h1, List.append_assoc])
    (fun _ seen _ _ fs hk _ hstep => ⟨seen ++ fs, rfl, step_kept hk hstep⟩)
    acts _ _ [] es (begin_kept h) (fun _ _ => trivial) hrun with ⟨all, rfl, hk⟩
  exact hk

/-- The ceiling, if there is one, admits the caller: it does not stand above it, and it
    can rise to it. -/
def Admits (attr : SyncAttr) (c : Caller) : Prop :=
  attr.protocol = .protect → c.priority ≤ attr.ceiling.toNat ∧ attr.ceiling.toNat ≤ c.reach

/-- What a caller is told that it does not admit. Only a task with a priority could rise,
    had it the right. -/
def barrier (attr : SyncAttr) (c : Caller) : Error :=
  if c.priority ≤ attr.ceiling.toNat ∧ c.policy.isRealtime = true then .permissionDenied
  else .invalidParam

/-- What the owner of an error-checking mutex is told that tries it once more. -/
def retry (attr : SyncAttr) : Error :=
  if attr.robust = true ∨ attr.protocol ≠ .none then .deadLock else .busy

/-- What can be relied on, after a run of which `es` has been seen. -/
structure Lawful (attr : SyncAttr) (es : List Seen) (s : Tenure) : Prop where
  /-- One task at most owns the mutex. -/
  exclusive : ∀ t u, 0 < (register attr es).held t → 0 < (register attr es).held u → t = u
  /-- The owner of a robust mutex has not ended. -/
  living : ∀ t, attr.robust = true → (register attr es).health ≠ .lost →
    0 < (register attr es).held t → s.stage t ≠ .ended
  /-- It owns the mutex until it has given it up as often as it has taken it. -/
  counted : ∀ t, (attr.robust = true → s.stage t ≠ .ended) →
    (entries es).countP (Entry.takes t)
      = (entries es).countP (Entry.gives t) + (register attr es).held t
  /-- A mutex that nobody owns is given to whoever asks, who is told if its last owner
      has died. If it is lost, it is given to nobody. -/
  free : ∀ c k, s.Can c.thread → k.Wants → Admits attr c → (∀ t, (register attr es).held t = 0) →
    ((register attr es).health = .lost → Untried attr es) →
    ∃ s', s.step (.call c k)
      = some (s', [.answered c.thread k (register attr es).health.greeting])
  /-- The owner of a recursive mutex gets it again. -/
  nests : ∀ c k, s.Can c.thread → k.Wants → attr.kind = .recursive →
    0 < (register attr es).held c.thread →
    (register attr es).held c.thread < Host.Mutex.depthLimit →
    ∃ s', s.step (.call c k) = some (s', [.answered c.thread k (.ok ())])
  /-- The owner of an error-checking mutex does not, and nothing changes. -/
  relocked : ∀ c k, s.Can c.thread → k = .lock ∨ k = .guard → attr.kind = .errorCheck →
    0 < (register attr es).held c.thread →
    s.step (.call c k) = some (s, [.answered c.thread k (.error .deadLock)])
  /-- If it only tries, a plain one does not see that it would wait for itself. -/
  retried : ∀ c, s.Can c.thread → attr.kind = .errorCheck → 0 < (register attr es).held c.thread →
    s.step (.call c .tryLock) = some (s, [.answered c.thread .tryLock (.error (retry attr))])
  /-- Nobody gets a mutex that somebody else owns, and nothing changes. -/
  waits : ∀ c k u, s.Can c.thread → k = .lock ∨ k = .guard → Admits attr c →
    0 < (register attr es).held u → u ≠ c.thread → s.step (.call c k) = none
  busy : ∀ c u, s.Can c.thread → Admits attr c →
    0 < (register attr es).held u → u ≠ c.thread →
    s.step (.call c .tryLock) = some (s, [.answered c.thread .tryLock (.error .busy)])
  /-- A ceiling does not even let a task ask that it does not admit, whether somebody owns
      the mutex or nobody does, and nothing changes. -/
  barred : ∀ c k, s.Can c.thread → k.Wants → ¬Admits attr c →
    (register attr es).held c.thread = 0 →
    s.step (.call c k) = some (s, [.answered c.thread k (.error (barrier attr c))])
  /-- Nobody but its owner gives up a mutex that checks, and nothing changes. -/
  refused : ∀ c, s.Can c.thread → attr.kind ≠ .normal ∨ attr.robust = true →
    (register attr es).held c.thread = 0 →
    s.step (.call c .unlock) = some (s, [.answered c.thread .unlock (.error .permissionDenied)])
  /-- The owner gives up one hold with each unlocking, and one with each guard. -/
  unlocks : ∀ c, s.Can c.thread → (register attr es).health ≠ .lost →
    0 < (register attr es).held c.thread →
    ∃ s' e, s.step (.call c .unlock) = some (s', [e]) ∧ e.entry? = some (.gaveUp c.thread)
  drops : ∀ t, s.Can t → t ∈ s.guards → (register attr es).health ≠ .lost →
    0 < (register attr es).held t →
    ∃ s' e, s.step (.drop t) = some (s', [e]) ∧ e.entry? = some (.gaveUp t) ∧
      s'.guards = s.guards.erase t
  /-- What a dead owner has left is declared repaired once, and otherwise nothing is. -/
  repairs : ∀ c, s.Can c.thread →
    ((register attr es).health = .unrepaired → ∃ s', s.step (.call c .consistent)
      = some (s', [.answered c.thread .consistent (.ok ())])) ∧
    ((register attr es).health ≠ .unrepaired → s.step (.call c .consistent)
      = some (s, [.answered c.thread .consistent (.error .invalidParam)]))
  /-- Each guard has been taken with the mutex, and is dropped once at most. -/
  guarded : es.countP Seen.takesGuard = s.guards.length + es.countP Seen.dropsGuard
  /-- A task that ends, for whatever reason, has dropped its guards. -/
  bare : ∀ t, s.stage t = .ended → t ∉ s.guards
  leaves : ∀ t waiter, s.stage t = .leaving → t ∉ s.guards →
    ¬(waiter = true ∧ attr.protocol = .inherit ∧ attr.robust = false ∧
      0 < (register attr es).held t) →
    ∃ s', s.step (.depart t waiter) = some (s', [.ended t])
  /-- The first to take the mutex after the death of its owner is told of it. -/
  first : ∀ before t mid x later u, entries es = before ++ .died t :: mid ++ x :: later →
    attr.robust = true → 0 < (book attr before).held t →
    (book attr before).health ≠ .lost → (∀ y ∈ mid, y.taker? = none) →
    x.taker? = some u → x = .adopted u
  /-- Nobody else is, and whoever is told owns the mutex. -/
  told : ∀ before u later, entries es = before ++ .adopted u :: later →
    (∃ first t mid, before = first ++ .died t :: mid ∧ attr.robust = true ∧
      0 < (book attr first).held t ∧ ∀ y ∈ mid, y.taker? = none) ∧
    ∀ v, (book attr (before ++ [.adopted u])).held v = if v = u then 1 else 0
  /-- Who gives it up without a repair leaves it to nobody: all that want it are told so,
      until one of them has tried it without waiting. -/
  lost : ∀ before t later, entries es = before ++ .gaveUp t :: later →
    (book attr before).health = .unrepaired →
    (book attr before).held t = 1 → Untried attr es →
    (∀ u, (register attr es).held u = 0) ∧ ∀ c k, s.Can c.thread → k.Wants →
      ∃ s', s.step (.call c k) = some (s', [.answered c.thread k (.error .notRecoverable)])
  /-- A mutex that somebody owns is not destroyed. -/
  destroys : s.here = true → s.guards = [] →
    ¬(attr.robust = true ∧ ∃ t, 0 < (register attr es).held t) →
    ∃ s' r, s.step .destroy = some (s', [.destroyed r]) ∧
      (r = .ok () ∨ r = .error .mutexIsLocked) ∧
      (r = .ok () ↔ ∀ t, (register attr es).held t = 0)

theorem Made.admits_iff {m : Host.Mutex} (h : Made attr m) (c : Caller) :
    m.admits c = true ↔ Admits attr c := by
  unfold Host.Mutex.admits Admits
  rw [← h.protocol]
  by_cases hp : m.protocol = .protect
  · simp [hp, h.ceiling hp]
  · simp [hp]

-- Whom it does not admit, it tells the same.
theorem Made.barrier_eq (h : Made attr m.raw) (hp : m.raw.protocol = .protect) (c : Caller) :
    m.barrier c = barrier attr c := by
  unfold Mutex.barrier Host.Mutex.barrier barrier
  rw [h.ceiling hp]
  by_cases hrises : c.priority ≤ attr.ceiling.toNat ∧ c.policy.isRealtime = true
  · rw [if_pos hrises, if_pos hrises, if_pos rfl]
  · rw [if_neg hrises, if_neg hrises, if_neg (by decide)]

-- A robust mutex admits everybody.
theorem Made.admits_all {m : Host.Mutex} (h : Made attr m) (hrobust : m.robust = true)
    (c : Caller) : Admits attr c := fun hp => absurd (h.protocol.trans hp) (h.apart hrobust)

theorem step_call {k : Call} (hcan : s.Can c.thread) : s.step (.call c k) = s.called c k :=
  if_pos hcan

namespace Kept

-- Nobody has a mutex of which nobody has a hold, unless somebody is stuck in it.
theorem nobody (hk : Kept attr es s) (hheld : ∀ t, (register attr es).held t = 0)
    (hlost : (register attr es).health = .lost → Untried attr es) :
    s.mutex.raw.holder = none := by
  rw [hk.agrees.health] at hlost
  by_cases hhealth : s.mutex.raw.health = .lost
  · exact hk.unstuck hhealth (hlost hhealth)
  · by_contra hholder
    rcases Option.ne_none_iff_exists'.mp hholder with ⟨t, ht⟩
    have hpos := hk.agrees.depth_pos t ht hhealth
    rw [← hk.agrees.held_self ht, hheld t] at hpos
    exact Nat.lt_irrefl 0 hpos

theorem free (hk : Kept attr es s) {k : Call} (hcan : s.Can c.thread) (hwants : k.Wants)
    (hadmits : Admits attr c) (hholder : s.mutex.raw.holder = none) :
    ∃ s', s.step (.call c k)
      = some (s', [.answered c.thread k s.mutex.raw.health.greeting]) := by
  have ha := (hk.made.admits_iff c).mpr hadmits
  rw [step_call hcan]
  rcases Mutex.lock_free hholder ha with ⟨m', notes, hlock⟩
  rcases hwants with rfl | rfl | rfl
  · exact ⟨_, by rw [called, hlock, Option.map_some]⟩
  · exact ⟨_, by rw [called, Mutex.tryLock_free hholder ha]⟩
  · exact ⟨_, by rw [called, hlock, Option.map_some]⟩

theorem nests (hk : Kept attr es s) {k : Call} (hcan : s.Can c.thread) (hwants : k.Wants)
    (hkind : attr.kind = .recursive) (hheld : 0 < (register attr es).held c.thread)
    (hlimit : (register attr es).held c.thread < Host.Mutex.depthLimit) :
    ∃ s', s.step (.call c k) = some (s', [.answered c.thread k (.ok ())]) := by
  have hby := hk.agrees.holder hheld
  rw [hk.agrees.held_self hby] at hlimit
  have hrecursive := hk.made.kind.trans hkind
  rw [step_call hcan]
  rcases Mutex.lock_nests hby hrecursive hlimit with ⟨m', hlock⟩
  rcases hwants with rfl | rfl | rfl
  · exact ⟨_, by rw [called, hlock, Option.map_some]⟩
  · exact ⟨_, by rw [called, Mutex.tryLock_nests hby hrecursive hlimit]⟩
  · exact ⟨_, by rw [called, hlock, Option.map_some]⟩

-- A mutex with a holder that has not lost it is one with a hold.
theorem held_pos (hk : Kept attr es s) (hby : s.mutex.raw.holder = some t)
    (hrobust : attr.robust = false) : 0 < (register attr es).held t := by
  rw [hk.agrees.held_self hby]
  refine hk.agrees.depth_pos t hby ?_
  rw [hk.agrees.sound (hk.made.robust.trans hrobust)]
  decide

theorem barred (hk : Kept attr es s) {k : Call} (hcan : s.Can c.thread) (hwants : k.Wants)
    (hadmits : ¬Admits attr c) (hheld : (register attr es).held c.thread = 0) :
    s.step (.call c k) = some (s, [.answered c.thread k (.error (barrier attr c))]) := by
  have ha : s.mutex.raw.admits c = false :=
    Bool.eq_false_iff.mpr fun h => hadmits ((hk.made.admits_iff c).mp h)
  have hprotect := Host.Mutex.protocol_of_not_admits ha
  -- A mutex with a ceiling is not robust, so nobody has it without a hold.
  have hrobust : attr.robust = false := by
    rw [← hk.made.robust]
    exact Bool.eq_false_iff.mpr fun hr => hk.made.apart hr hprotect
  have hby : s.mutex.raw.heldBy c.thread = false := by
    rw [Bool.eq_false_iff, ne_eq, Host.Mutex.heldBy_iff]
    exact fun h => Nat.ne_of_gt (hk.held_pos h hrobust) hheld
  rw [step_call hcan, ← hk.made.barrier_eq hprotect]
  rcases hwants with rfl | rfl | rfl
  · rw [called, Mutex.lock_barred hby ha, Option.map_some]
  · rw [called, Mutex.tryLock_barred hby ha]
  · rw [called, Mutex.lock_barred hby ha, Option.map_some]

theorem leaves (hk : Kept attr es s) {waiter : Bool} (hleaves : s.stage t = .leaving)
    (hmem : t ∉ s.guards)
    (hgoes : ¬(waiter = true ∧ attr.protocol = .inherit ∧ attr.robust = false ∧
      0 < (register attr es).held t)) :
    ∃ s', s.step (.depart t waiter) = some (s', [.ended t]) := by
  refine ⟨_, if_pos ⟨hleaves, hmem, Bool.eq_false_iff.mpr fun haborts => hgoes ?_⟩⟩
  unfold Host.Mutex.aborts at haborts
  simp only [Bool.and_eq_true, beq_iff_eq, Bool.not_eq_true', Host.Mutex.heldBy_iff] at haborts
  rcases haborts with ⟨⟨⟨hwaiter, hby⟩, hprotocol⟩, hrobust⟩
  have hr := hk.made.robust.symm.trans hrobust
  exact ⟨hwaiter, hk.made.protocol.symm.trans hprotocol, hr, hk.held_pos hby hr⟩

theorem refused (hk : Kept attr es s) (hcan : s.Can c.thread)
    (hchecks : attr.kind ≠ .normal ∨ attr.robust = true)
    (hheld : (register attr es).held c.thread = 0) :
    s.step (.call c .unlock)
      = some (s, [.answered c.thread .unlock (.error .permissionDenied)]) := by
  have hc : s.mutex.raw.checksHolder = true := by
    unfold Host.Mutex.checksHolder
    rw [hk.made.kind, hk.made.robust]
    rcases hchecks with hkind | hrobust
    · simp [hkind]
    · simp [hrobust]
  have hlost : s.mutex.raw.holder = some c.thread → s.mutex.raw.health = .lost := by
    intro hby
    by_contra hne
    have hpos := hk.agrees.depth_pos c.thread hby hne
    rw [← hk.agrees.held_self hby, hheld] at hpos
    exact Nat.lt_irrefl 0 hpos
  rw [step_call hcan, called, if_neg fun hs => absurd (hc.symm.trans hs.1) (by decide),
    Mutex.unlock_stranger hc hlost]

-- The owner does not stray, and gives up a hold.
theorem gives (hk : Kept attr es s) (hhealth : (register attr es).health ≠ .lost)
    (hheld : 0 < (register attr es).held t) :
    ¬s.mutex.raw.Strays t ∧
      Entry.ofUnlocking t (s.mutex.unlock t).2.1 = some (.gaveUp t) := by
  have hby := hk.agrees.holder hheld
  exact ⟨fun hs => hs.2 hby, Mutex.unlock_holder hby (hk.agrees.health ▸ hhealth)⟩

theorem lost (hk : Kept attr es s) {before later : List Entry}
    (h : entries es = before ++ .gaveUp t :: later)
    (hhealth : (book attr before).health = .unrepaired) (hheld : (book attr before).held t = 1) :
    (register attr es).health = .lost := by
  have hfitting := hk.fitting
  rw [h] at hfitting
  rw [register, h]
  exact Register.lost_of_gaveUp hfitting hhealth hheld

-- A robust mutex with an owner is not destroyed, and all others are free or not.
theorem destroys (hk : Kept attr es s) (hhere : s.here = true) (hguards : s.guards = [])
    (hown : ¬(attr.robust = true ∧ ∃ t, 0 < (register attr es).held t)) :
    ∃ s' r, s.step .destroy = some (s', [.destroyed r]) ∧
      (r = .ok () ∨ r = .error .mutexIsLocked) ∧
      (r = .ok () ↔ ∀ t, (register attr es).held t = 0) := by
  have howned : s.Owned → ∃ t, 0 < (register attr es).held t := by
    rintro ⟨hholder, hdepth⟩
    rcases Option.ne_none_iff_exists'.mp hholder with ⟨t, ht⟩
    exact ⟨t, (hk.agrees.held_self ht).symm ▸ hdepth⟩
  refine ⟨{ s with here := false }, s.mutex.destroy,
    if_pos ⟨hhere, hguards, fun h => hown ⟨hk.made.robust ▸ h.1, howned h.2⟩⟩, ?_⟩
  rw [Mutex.destroy_eq]
  split_ifs with hlocked
  · -- The mutex is not robust, so its holder has a hold.
    have hsound := hk.agrees.sound hlocked.1
    have hholder : s.mutex.raw.holder ≠ none := hlocked.2.resolve_right fun hawaited =>
      absurd hk.made.awaited (Nat.ne_of_gt hawaited)
    rcases Option.ne_none_iff_exists'.mp hholder with ⟨t, ht⟩
    have hpos := hk.agrees.depth_pos t ht (by rw [hsound]; decide)
    rw [← hk.agrees.held_self ht] at hpos
    exact ⟨Or.inr rfl, iff_of_false (fun h => nomatch h)
      fun hnone => absurd (hnone t) (Nat.ne_of_gt hpos)⟩
  · refine ⟨Or.inl rfl, iff_of_true rfl fun t => ?_⟩
    by_contra hheld
    have hpos := Nat.pos_of_ne_zero hheld
    have hholder := hk.agrees.holder hpos
    cases hrobust : s.mutex.raw.robust with
    | true => exact hown ⟨hk.made.robust.symm.trans hrobust, t, hpos⟩
    | false =>
        exact hlocked ⟨hrobust, Or.inl (hholder ▸ Option.some_ne_none t)⟩

theorem lawful (hk : Kept attr es s) : Lawful attr es s where
  exclusive t u ht hu :=
    Option.some.inj ((hk.agrees.holder ht).symm.trans (hk.agrees.holder hu))
  living t hrobust hhealth ht :=
    hk.living t (hk.agrees.holder ht) (hk.made.robust.trans hrobust) (hk.agrees.health ▸ hhealth)
  counted t ht := by
    have hcount := Register.held_counted hk.fitting fun hr hmem => ht hr (hk.died t hmem)
    exact (Nat.zero_add _).symm.trans hcount
  free c k hcan hwants hadmits hheld hlost := by
    rw [hk.agrees.health]
    exact hk.free hcan hwants hadmits (hk.nobody hheld hlost)
  nests c k hcan hwants := hk.nests hcan hwants
  relocked c k hcan hk' hkind hheld := by
    have hlock := Mutex.lock_again (hk.agrees.holder hheld) (hk.made.kind.trans hkind)
    rw [step_call hcan]
    rcases hk' with rfl | rfl
    · rw [called, hlock, Option.map_some]
    · rw [called, hlock, Option.map_some]
  retried c hcan hkind hheld := by
    rw [step_call hcan, called,
      Mutex.tryLock_again (hk.agrees.holder hheld) (hk.made.kind.trans hkind), hk.made.robust,
      hk.made.protocol]
    rfl
  waits c k u hcan hk' hadmits hheld hu := by
    have hlock := Mutex.lock_taken (hk.agrees.holder hheld) hu ((hk.made.admits_iff c).mpr hadmits)
    rw [step_call hcan]
    rcases hk' with rfl | rfl
    · rw [called, hlock, Option.map_none]
    · rw [called, hlock, Option.map_none]
  busy c u hcan hadmits hheld hu := by
    rw [step_call hcan, called, Mutex.tryLock_taken (hk.agrees.holder hheld) hu
      ((hk.made.admits_iff c).mpr hadmits)]
  barred c k hcan hwants hadmits := hk.barred hcan hwants hadmits
  refused c hcan := hk.refused hcan
  unlocks c hcan hhealth hheld := by
    rcases hk.gives hhealth hheld with ⟨hstrays, hentry⟩
    refine ⟨{ s with mutex := (s.mutex.unlock c.thread).1 },
      .answered c.thread .unlock (s.mutex.unlock c.thread).2.1, ?_, hentry⟩
    rw [step_call hcan, called, if_neg hstrays]
  drops t hcan hmem hhealth hheld := by
    rcases hk.gives hhealth hheld with ⟨hstrays, hentry⟩
    exact ⟨_, _, if_pos ⟨hcan, hmem, hstrays⟩, hentry, rfl⟩
  repairs c hcan := by
    rw [step_call hcan, called, hk.agrees.health]
    refine ⟨fun hbad => ⟨{ s with mutex := s.mutex.consistent.1 }, ?_⟩, fun hgood => ?_⟩
    · have hrobust : s.mutex.raw.robust = true := hk.agrees.robust (by rw [hbad]; decide)
      rw [Mutex.consistent_unrepaired hrobust hbad]
    · rw [Mutex.consistent_refused hgood]
  guarded := hk.guards
  bare := hk.bare
  leaves t waiter hleaves hmem := hk.leaves hleaves hmem
  first before t mid x later u h hrobust hheld hhealth hmid hx := by
    have hfitting := hk.fitting
    rw [h] at hfitting
    exact Register.first_told hfitting hrobust hheld hhealth hmid hx
  told before u later h := by
    have hfitting := hk.fitting
    rw [h] at hfitting
    exact ⟨Register.told_first rfl hfitting, Register.adopted_held hfitting⟩
  lost before t later h hhealth hheld huntried := by
    have hlost := hk.lost h hhealth hheld
    have hraw : s.mutex.raw.health = .lost := hk.agrees.health.symm.trans hlost
    have hrobust : s.mutex.raw.robust = true := hk.agrees.robust (by rw [hraw]; decide)
    have hholder := hk.unstuck hraw huntried
    refine ⟨hk.agrees.held_none hholder, fun c k hcan hwants => ?_⟩
    have hfree := hk.free hcan hwants (hk.made.admits_all hrobust c) hholder
    rw [hraw] at hfree
    exact hfree
  destroys := hk.destroys

end Kept

end Steps

end Tenure

end HostLayer
