import HostLayer.Task.Control

/-!
# Granted Changes

What has become of a task when a change of its attributes has been granted.

The host answers a change or refuses it, and the library adds nothing to that
but the part of a name that the host keeps, the nearest priority of a policy,
and that an empty name or CPU set changes nothing. So a change that has been
granted leaves one thread as it was asked to be, and all others as they were.
Changes one after the other are granted if each of them is.

## Main definitions

* `TaskAttr.granted`: A thread that has given itself its attributes.

## Theorems

* `Control.change_ok`, `Control.andThen_ok`: Changes that have been granted.
* `Control.setNameWish_ok`, `Control.setSched_ok`, `Control.setAffinity_ok`: The
  single ones.
* `Control.applyWishes_ok`: All that a new task asks for.
-/

namespace HostLayer

namespace Host

namespace Threads

variable {s s' : Threads} {r : Rights} {caller t : ThreadId}

/-- Nothing changes where a thread is put where it was. -/
theorem put_thread (s : Threads) (t : ThreadId) : s.put t (s.thread t) = s := by
  refine congrArg Threads.mk (funext fun u => ?_)
  by_cases hu : u = t
  · rw [if_pos hu, hu]
  · rw [if_neg hu]

/-- Of two changes of a thread the later one counts. -/
theorem put_put (s : Threads) (t : ThreadId) (v w : Thread) : (s.put t v).put t w = s.put t w := by
  refine congrArg Threads.mk (funext fun u => ?_)
  by_cases hu : u = t
  · rw [if_pos hu, if_pos hu]
  · rw [if_neg hu, if_neg hu, put_other s v hu]

theorem setName_eq_ok {name : String} (h : s.setName r caller t name = .ok s') :
    s' = s.put t { s.thread t with name := name } := by
  unfold setName at h
  rcases hreach : reachName s r caller t with e | _
  · rw [hreach] at h
    exact absurd h (by simp only [bind, Except.bind, reduceCtorEq, not_false_eq_true])
  · rw [hreach] at h
    exact (Except.ok.inj h).symm

theorem setSched_eq_ok {policy : Policy} {priority : Int}
    (h : s.setSched r t policy priority = .ok s') :
    s' = s.put t { s.thread t with policy := policy, priority := priority } := by
  unfold setSched at h
  split at h
  next => exact absurd h (by simp only [reduceCtorEq, not_false_eq_true])
  next =>
    split at h
    next => exact absurd h (by simp only [reduceCtorEq, not_false_eq_true])
    next =>
      split at h
      next => exact absurd h (by simp only [reduceCtorEq, not_false_eq_true])
      next => exact (Except.ok.inj h).symm

theorem setAffinity_eq_ok {cpus : CpuSet} (hhere : (s.thread t).gone = false)
    (h : s.setAffinity r caller t cpus = .ok s') :
    s' = s.put t { s.thread t with affinity := cpus.inter r.cpus } := by
  have hplaced : s.placed caller t = t := by
    unfold placed
    rw [hhere]
    rfl
  simp only [setAffinity, hplaced] at h
  split at h
  next => exact absurd h (by simp only [reduceCtorEq, not_false_eq_true])
  next => exact (Except.ok.inj h).symm

end Threads

end Host

/-- A thread that has given itself the attributes, on a host with some CPUs. -/
def TaskAttr.granted (a : TaskAttr) (cpus : CpuSet) (v : Host.Thread) : Host.Thread :=
  { v with
    name := if a.name.isEmpty then v.name else Text.cut Host.nameLimit a.name
    policy := if a.wantsSched then a.policy else v.policy
    priority := if a.wantsSched then a.policy.clamp a.priority else v.priority
    affinity := if a.affinity.isEmpty then v.affinity else a.affinity.inter cpus }

namespace Control

-- Granted is what the host has accepted.
theorem change_ok {table : Errno.Table} {call : String} {s : Host.Threads}
    {r : Except Errno Host.Threads} (h : (change table call s r).2.1 = .ok ()) :
    ∃ s', r = .ok s' ∧ (change table call s r).1 = s' := by
  cases r with
  | ok s' => exact ⟨s', rfl, rfl⟩
  | error e => exact absurd h (by simp only [change, reduceCtorEq, not_false_eq_true])

-- Both of two changes have been granted if the second one has.
theorem andThen_ok {first : Change} {second : Host.Threads → Change}
    (h : (andThen first second).2.1 = .ok ()) :
    first.2.1 = .ok () ∧ (second first.1).2.1 = .ok () ∧
      (andThen first second).1 = (second first.1).1 := by
  rcases first with ⟨s, _ | _, notes⟩
  · exact absurd h (by simp only [andThen, reduceCtorEq, not_false_eq_true])
  · exact ⟨rfl, h, rfl⟩

section Single

variable {t : Target} {s : Host.Threads}

theorem setName_ok {name : String} (h : (setName t s name).2.1 = .ok ()) :
    (setName t s name).1 = s.put t.target
      { s.thread t.target with name := Text.cut Host.nameLimit name } := by
  unfold setName at h ⊢
  rcases hhost : TaskAttr.hostName name with e | host
  · rw [hhost] at h
    exact absurd h (by simp only [reduceCtorEq, not_false_eq_true])
  · rw [hhost] at h
    rcases change_ok h with ⟨s', hset, heq⟩
    rw [← (TaskAttr.hostName_eq_ok_iff.mp hhost).2]
    exact heq.trans (Host.Threads.setName_eq_ok hset)

/-- An empty name is no wish. -/
theorem setNameWish_ok {name : String} (h : (setNameWish t s name).2.1 = .ok ()) :
    (setNameWish t s name).1 = s.put t.target { s.thread t.target with
      name := if name.isEmpty then (s.thread t.target).name
        else Text.cut Host.nameLimit name } := by
  unfold setNameWish at h ⊢
  by_cases hempty : name.isEmpty = true
  · rw [if_pos hempty, if_pos hempty]
    exact (s.put_thread t.target).symm
  · rw [if_neg hempty] at h ⊢
    rw [if_neg hempty]
    exact setName_ok h

theorem setSched_ok {policy : Policy} {priority : Int}
    (h : (setSched t s policy priority).2.1 = .ok ()) :
    (setSched t s policy priority).1 = s.put t.target
      { s.thread t.target with policy := policy, priority := policy.clamp priority } := by
  rcases change_ok h with ⟨s', hset, heq⟩
  exact heq.trans (Host.Threads.setSched_eq_ok hset)

/-- Nor is an empty set. -/
theorem setAffinity_ok {cpus : CpuSet} (hhere : (s.thread t.target).gone = false)
    (h : (setAffinity t s cpus).2.1 = .ok ()) :
    (setAffinity t s cpus).1 = s.put t.target { s.thread t.target with
      affinity := if cpus.isEmpty then (s.thread t.target).affinity
        else cpus.inter t.rights.cpus } := by
  unfold setAffinity at h ⊢
  by_cases hempty : cpus.isEmpty = true
  · rw [if_pos hempty, if_pos hempty]
    exact (s.put_thread t.target).symm
  · rw [if_neg hempty] at h ⊢
    rw [if_neg hempty]
    rcases change_ok h with ⟨s', hset, heq⟩
    exact heq.trans (Host.Threads.setAffinity_eq_ok hhere hset)

end Single

/-- A thread that has been granted all that it has asked for is as it was, except
    for that. -/
theorem applyWishes_ok {t : Target} {s : Host.Threads} {a : TaskAttr}
    (hhere : (s.thread t.target).gone = false) (h : (applyWishes t s a).2.1 = .ok ()) :
    (applyWishes t s a).1 = s.put t.target (a.granted t.rights.cpus (s.thread t.target)) := by
  unfold applyWishes at h ⊢
  rcases andThen_ok h with ⟨hname, hrest, heq⟩
  rw [heq]
  rcases andThen_ok hrest with ⟨hsched, haffinity, heq'⟩
  rw [heq']
  rw [setNameWish_ok hname] at hsched haffinity ⊢
  -- The thread with its name, before and after policy and priority.
  generalize hnamed : s.put t.target _ = named at hsched haffinity ⊢
  have hmid : (if a.wantsSched then setSched t named a.policy a.priority else unchanged named).1
      = named.put t.target { named.thread t.target with
        policy := if a.wantsSched then a.policy else (named.thread t.target).policy
        priority := if a.wantsSched then a.policy.clamp a.priority
          else (named.thread t.target).priority } := by
    by_cases hwants : a.wantsSched = true
    · rw [if_pos hwants] at hsched ⊢
      rw [if_pos hwants, if_pos hwants]
      exact setSched_ok hsched
    · rw [if_neg hwants, if_neg hwants, if_neg hwants]
      exact (named.put_thread t.target).symm
  rw [hmid, ← hnamed] at haffinity ⊢
  simp only [Host.Threads.put_self, Host.Threads.put_put] at haffinity ⊢
  rw [setAffinity_ok (by rw [Host.Threads.put_self]; exact hhere) haffinity,
    Host.Threads.put_self, Host.Threads.put_put]
  rfl

end Control

end HostLayer
