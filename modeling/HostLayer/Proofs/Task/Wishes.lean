import HostLayer.Proofs.Task.Control
import HostLayer.Proofs.Task.Handshake

/-!
# What a New Task Is Like

The attributes of a task at the start of its entry, from those that were asked for
and those of its creator.

A new thread is a copy of its creator and then changes what it is asked to change. An
empty name and an empty CPU set stand for no wish, and the creator's are kept. But
the ordinary policy with the priority 0 stands for no wish as well
(`TaskAttr.wantsSched`), although a task that asks for it may have a creator with
another policy. Such a task then has the policy and the priority of its creator.

`asked_iff` says that nothing else goes wrong: a task that was started is as it was
asked to be if and only if it has asked for a policy or a priority or its
creator is an ordinary thread.

## Main definitions

* `TaskAttr.Asked`: A thread is as it was asked to be.

## Theorems

* `TaskAttr.granted_asked_iff`: Whether what is granted is what was asked for.
* `Handshake.Kept.started`: What was started has been granted everything.
* `Handshake.asked_iff`: Which tasks are as they were asked to be.
* `Handshake.realtime_creator_not_asked`: A task that was not.
-/

namespace HostLayer

namespace TaskAttr

/-- A thread is as it was asked to be by its creator. Where nothing is asked for,
    name and CPU set are the creator's. -/
structure Asked (a : TaskAttr) (cpus : CpuSet) (creator v : Host.Thread) : Prop where
  policy_eq : v.policy = a.policy
  priority_eq : v.priority = a.policy.clamp a.priority
  /-- The host leaves out the CPUs that it does not have. -/
  affinity_eq : v.affinity =
    if a.affinity.isEmpty then creator.affinity else a.affinity.inter cpus
  name_eq : v.name =
    if a.name.isEmpty then creator.name else Text.cut Host.nameLimit a.name

theorem wantsSched_eq_false_iff {a : TaskAttr} :
    a.wantsSched = false ↔ a.policy = .other ∧ a.priority = 0 := by
  simp [wantsSched]

/-- Only a policy and a priority that are not asked for can be wrong. -/
theorem granted_asked_iff (a : TaskAttr) (cpus : CpuSet) (v : Host.Thread) :
    a.Asked cpus v (a.granted cpus v) ↔
      a.wantsSched = true ∨ (v.policy = .other ∧ v.priority = 0) := by
  by_cases hwants : a.wantsSched = true
  · refine ⟨fun _ => Or.inl hwants, fun _ => ⟨?_, ?_, rfl, rfl⟩⟩
    · exact if_pos hwants
    · exact if_pos hwants
  · -- What is asked for is then what an ordinary thread has.
    rcases wantsSched_eq_false_iff.mp (Bool.eq_false_iff.mpr hwants) with ⟨hpolicy, hpriority⟩
    have hclamp : a.policy.clamp a.priority = 0 := by
      rw [hpolicy, hpriority]
      rfl
    have hgranted : (a.granted cpus v).policy = v.policy ∧
        (a.granted cpus v).priority = v.priority := ⟨if_neg hwants, if_neg hwants⟩
    constructor
    · intro h
      refine Or.inr ⟨?_, ?_⟩
      · rw [← hgranted.1, h.policy_eq, hpolicy]
      · rw [← hgranted.2, h.priority_eq, hclamp]
    · intro h
      rcases h.resolve_left hwants with ⟨hother, hzero⟩
      refine ⟨?_, ?_, rfl, rfl⟩
      · rw [hgranted.1, hother, hpolicy]
      · rw [hgranted.2, hzero, hclamp]

end TaskAttr

namespace Handshake

/-- A task has been started: its creator has been told so, or its entry has begun. -/
def Started (s : Handshake) : Prop :=
  s.block.entries ≠ 0 ∨ ∃ n, s.creator = .inr (.ok n)

-- What was started has been granted everything.
theorem Kept.started {number : ThreadId} {apply : Host.Threads → Control.Change}
    {threads : Host.Threads} {s : Handshake} (hk : Kept number apply threads s)
    (h : s.Started) :
    (apply threads).2.1 = .ok () ∧ s.block.threads = (apply threads).1 := by
  have hagreed : Agreed "" number apply threads s := hk.agreed
  rcases h with hentry | ⟨n, hn⟩
  · rcases hagreed.applied hentry with ⟨hok, hthreads, _⟩
    exact ⟨hok, hthreads⟩
  · refine ⟨?_, (hk.of_reported (hagreed.reported _ hn)).2.2⟩
    rcases hr : (apply threads).2.1 with e | _
    · exact absurd ((hagreed.error_iff _ e hn).mpr hr)
        (by simp only [reduceCtorEq, not_false_eq_true])
    · rfl

/-- A task that was started is as it was asked to be, whoever its creator is, except
    where it asks for no policy and no priority and its creator has others than an
    ordinary thread. It has those of its creator then. -/
theorem asked_iff (creator t : ThreadId) (r : Host.Rights) (a : TaskAttr)
    (threads : Host.Threads) (acts : List Act) (s : Handshake) (notes : List Note)
    (hrun : Schedule.play (step a.name t fun s => Control.applyWishes ⟨t, t, r⟩ s a)
      (start (threads.spawn creator t)) acts = some (s, notes)) (hstarted : s.Started) :
    (a.Asked r.cpus (threads.thread creator) (s.block.threads.thread t) ↔
      a.wantsSched = true ∨
        ((threads.thread creator).policy = .other ∧ (threads.thread creator).priority = 0)) ∧
    s.block.threads.thread t
      = a.granted r.cpus { threads.thread creator with gone := false } ∧
    ∀ u, u ≠ t → s.block.threads.thread u = threads.thread u := by
  have hnew : (threads.spawn creator t).thread t
      = { threads.thread creator with gone := false } := threads.put_self t _
  rcases (play_kept hrun).started hstarted with ⟨hok, hthreads⟩
  have hgranted := Control.applyWishes_ok (by rw [hnew]) hok
  rw [hgranted, hnew] at hthreads
  have hself : s.block.threads.thread t
      = a.granted r.cpus { threads.thread creator with gone := false } := by
    rw [hthreads, Host.Threads.put_self]
  refine ⟨?_, hself, fun u hu => ?_⟩
  · rw [hself]
    have hiff := a.granted_asked_iff r.cpus { threads.thread creator with gone := false }
    constructor
    · intro h
      exact hiff.mp ⟨h.policy_eq, h.priority_eq, h.affinity_eq, h.name_eq⟩
    · intro h
      have hasked := hiff.mpr h
      exact ⟨hasked.policy_eq, hasked.priority_eq, hasked.affinity_eq, hasked.name_eq⟩
  · rw [hthreads, Host.Threads.put_other _ _ hu]
    exact threads.put_other _ hu

/-- A real-time thread makes a task of another real-time policy, with a priority that is
    too high and a CPU set of its own. -/
theorem asked_iff_realtime : ∃ (threads : Host.Threads) (a : TaskAttr) (r : Host.Rights)
    (acts : List Act) (s : Handshake) (notes : List Note),
    threads.thread 1 = ⟨"main", .fifo, 10, CpuSet.ofList [0, 1], false⟩ ∧
    a = ⟨"", .roundRobin, 200, CpuSet.ofList [1, 2]⟩ ∧ r.cpus = CpuSet.ofList [0, 1] ∧
    Schedule.play (step a.name 2 fun s => Control.applyWishes ⟨2, 2, r⟩ s a)
      (start (threads.spawn 1 2)) acts = some (s, notes) ∧ s.Started ∧
    s.block.threads.thread 2 = ⟨"main", .roundRobin, 99, CpuSet.ofList [1], false⟩ ∧
    a.Asked r.cpus (threads.thread 1) (s.block.threads.thread 2) := by
  refine ⟨⟨fun _ => ⟨"main", .fifo, 10, CpuSet.ofList [0, 1], false⟩⟩, _,
    ⟨true, true, true, CpuSet.ofList [0, 1]⟩, List.replicate 6 (.thread none), ?s, ?notes, rfl, rfl,
    rfl, ?run, ?started, ?thread, ((asked_iff 1 2 _ _ _ _ _ _ ?run ?started).1).mpr (Or.inl rfl)⟩
  case run => rfl
  case started => exact Or.inl Nat.one_ne_zero
  case thread => rfl

/-- A thread that has made itself a real-time thread makes a task of the ordinary policy.
    The task is started and is a real-time thread too. -/
theorem realtime_creator_not_asked : ∃ (threads : Host.Threads) (r : Host.Rights) (acts : List Act)
    (s : Handshake) (notes : List Note),
    Control.setPolicy ⟨1, 1, r⟩ ⟨fun _ => ⟨"main", .other, 0, r.cpus, false⟩⟩ .fifo
      = (threads, .ok (), []) ∧
    Schedule.play (step TaskAttr.none.name 2 fun s =>
      Control.applyWishes ⟨2, 2, r⟩ s TaskAttr.none) (start (threads.spawn 1 2)) acts
      = some (s, notes) ∧
    s.creator = .inr (.ok 2) ∧ s.block.entries = 1 ∧ TaskAttr.none.policy = .other ∧
    (s.block.threads.thread 2).policy = .fifo ∧
    ¬ TaskAttr.none.Asked r.cpus (threads.thread 1) (s.block.threads.thread 2) := by
  refine ⟨_, ⟨true, true, true, CpuSet.ofList [0]⟩,
    List.replicate 6 (.thread none) ++ List.replicate 2 (.creator .early), _, _, rfl, rfl, rfl, rfl,
    rfl, rfl, fun h => ?_⟩
  exact absurd h.policy_eq (by decide)

end Handshake

end HostLayer
