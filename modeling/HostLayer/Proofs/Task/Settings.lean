import HostLayer.Proofs.CpuSet
import HostLayer.Proofs.Task.Calls

/-!
# Attributes Set and Read

What is read back of the attributes of a task after any changes of them.

The library shows a thread by its attributes. A change that is granted turns what is
shown of one thread into what was asked for: the name as far as the host keeps it, the
policy, the priority moved into the range of the policy, and the CPUs. What
stands for no wish leaves what was shown before. The priority is moved into the range of
the policy that the thread then has, whichever change has given it that policy.

A change that is refused has put the calls before the refused one into effect, and
no others.

## Main definitions

* `Control.shown`: A thread as the library shows it.
* `Control.Request.over`: Attributes changed as asked.
* `Control.Turned`: A change of what is shown of one thread.
* `Control.Reads`: What a reader gets to see.

## Theorems

* `Control.shown_reads`: A thread that has not ended is read as it is shown.
* `Control.Request.turned`: What a granted change comes to.
* `Control.settings_exact`: All of it, after any changes.
-/

namespace HostLayer

namespace Control

/-- A thread as the library shows it. -/
def shown (v : Host.Thread) : TaskAttr :=
  { TaskAttr.ofName (readName (nameBuffer v.name)) with
    policy := v.policy
    priority := v.priority
    affinity := v.affinity }

/-- Attributes changed as asked, on a machine with some CPUs. An empty name and an empty
    set change nothing. -/
def Request.over (cpus : CpuSet) (v : TaskAttr) : Request → TaskAttr
  | attr a =>
      { name := if a.name.isEmpty then v.name else Text.cut Host.nameLimit a.name
        policy := a.policy
        priority := a.policy.clamp a.priority
        affinity := if a.affinity.isEmpty then v.affinity else a.affinity.inter cpus }
  | policy wanted => { v with policy := wanted, priority := wanted.clamp v.priority }
  | priority wanted => { v with priority := v.policy.clamp wanted }
  | affinity asked =>
      { v with affinity := if asked.isEmpty then v.affinity else asked.inter cpus }

/-- One thread is shown with other attributes, and all others are as they were. -/
structure Turned (u : ThreadId) (f : TaskAttr → TaskAttr) (s s' : Host.Threads) : Prop where
  gone_eq : (s'.thread u).gone = (s.thread u).gone
  shown_eq : shown (s'.thread u) = f (shown (s.thread u))
  other : ∀ w, w ≠ u → s'.thread w = s.thread w

/-- What a reader gets to see: policy, priority and CPUs in any case, and everything if it
    can get to the name. -/
structure Reads (q : Target) (s : Host.Threads) (v : TaskAttr) : Prop where
  sched_eq : sched q s = (.ok (v.policy, v.priority), [])
  affinity_eq : affinity q s = v.affinity
  attr_eq : q.caller = q.target ∨ q.rights.descriptorLeft = true → attr q s = (.ok v, [])
  /-- It never sees anything else. -/
  attr_only : ∀ w, (attr q s).1 = .ok w → w = v

namespace Turned

variable {u : ThreadId} {f g : TaskAttr → TaskAttr} {s s' s'' : Host.Threads}

theorem trans (h : Turned u f s s') (h' : Turned u g s' s'') :
    Turned u (fun v => g (f v)) s s'' where
  gone_eq := h'.gone_eq.trans h.gone_eq
  shown_eq := h'.shown_eq.trans (congrArg g h.shown_eq)
  other w hw := (h'.other w hw).trans (h.other w hw)

theorem of_put {v : Host.Thread} (hgone : v.gone = (s.thread u).gone)
    (hshown : shown v = f (shown (s.thread u))) : Turned u f s (s.put u v) where
  gone_eq := by rw [Host.Threads.put_self, hgone]
  shown_eq := by rw [Host.Threads.put_self, hshown]
  other w hw := Host.Threads.put_other s v hw

end Turned

section Reading

variable {q : Target} {s : Host.Threads}

theorem reachName_of_here (h : (s.thread q.target).gone = false)
    (hreach : q.caller = q.target ∨ q.rights.descriptorLeft = true) :
    s.reachName q.rights q.caller q.target = .ok () := by
  unfold Host.Threads.reachName
  by_cases hself : q.caller = q.target
  · rw [if_pos hself]
  · rw [if_neg hself, hreach.resolve_left hself, h]
    rfl

/-- A thread that has not ended is read as it is shown. -/
theorem shown_reads (h : (s.thread q.target).gone = false) :
    Reads q s (shown (s.thread q.target)) where
  sched_eq := sched_of_here h
  affinity_eq := by
    rw [affinity, Host.Threads.affinity, Host.Threads.placed, h]
    rfl
  attr_eq hreach := by
    rw [attr, sched_of_here h, name_of_reachName (reachName_of_here h hreach)]
    simp only [affinity, Host.Threads.affinity, Host.Threads.placed, h, Bool.false_eq_true,
      if_false]
    rfl
  attr_only w hw := by
    rw [attr, sched_of_here h] at hw
    rcases hname : name q s with ⟨_ | n, more⟩
    · rw [hname] at hw
      exact absurd hw (by simp only [reduceCtorEq, not_false_eq_true])
    · have hn : n = readName (nameBuffer (s.thread q.target).name) :=
        name_eq_ok (by rw [hname])
      rw [hname] at hw
      rw [← Except.ok.inj hw, hn]
      simp only [affinity, Host.Threads.affinity, Host.Threads.placed, h, Bool.false_eq_true,
        if_false]
      rfl

end Reading

section Granted

variable {t : Target} {s : Host.Threads}

/-- A name without a NUL is shown as the host has it, unless it is longer than the host
    can have it. -/
theorem shown_eq {v : Host.Thread} (hnul : '\x00' ∉ v.name.toList)
    (hfits : v.name.utf8ByteSize ≤ TaskAttr.nameLimit) :
    shown v = ⟨v.name, v.policy, v.priority, v.affinity⟩ := by
  simp only [shown, TaskAttr.ofName, TaskAttr.setName]
  rw [readName_nameBuffer hnul, Text.cut_eq_self hfits]

theorem setNameWish_turned {n : String} (h : (setNameWish t s n).2.1 = .ok ()) :
    Turned t.target
      (fun v => { v with name := if n.isEmpty then v.name else Text.cut Host.nameLimit n }) s
      (setNameWish t s n).1 := by
  rw [setNameWish_ok h]
  refine .of_put rfl ?_
  unfold setNameWish at h
  by_cases hempty : n.isEmpty = true
  · simp only [if_pos hempty]
  · rw [if_neg hempty] at h
    simp only [if_neg hempty]
    exact shown_eq (setName_ok_cases h).1
      (Nat.le_trans (Text.utf8ByteSize_cut_le Host.nameLimit n) (by decide))

theorem setSched_turned {policy : Policy} {priority : Int}
    (h : (setSched t s policy priority).2.1 = .ok ()) :
    Turned t.target
      (fun v => { v with policy := policy, priority := policy.clamp priority }) s
      (setSched t s policy priority).1 := by
  rw [setSched_ok h]
  exact .of_put rfl rfl

theorem setAffinity_turned {cpus : CpuSet} (hhere : (s.thread t.target).gone = false)
    (h : (setAffinity t s cpus).2.1 = .ok ()) :
    Turned t.target
      (fun v => { v with
        affinity := if cpus.isEmpty then v.affinity else cpus.inter t.rights.cpus }) s
      (setAffinity t s cpus).1 := by
  rw [setAffinity_ok hhere h]
  exact .of_put rfl rfl

theorem setSched_here {policy : Policy} {priority : Int}
    (h : (setSched t s policy priority).2.1 = .ok ()) : (s.thread t.target).gone = false := by
  rcases change_ok h with ⟨s', hset, _⟩
  unfold Host.Threads.setSched at hset
  rcases hgone : (s.thread t.target).gone with _ | _
  · rfl
  · rw [hgone] at hset
    exact absurd hset (by simp only [if_true, reduceCtorEq, not_false_eq_true])

theorem reschedule_of_here (hhere : (s.thread t.target).gone = false)
    (wish : Policy → Int → Policy × Int) :
    reschedule t s wish =
      setSched t s (wish (s.thread t.target).policy (s.thread t.target).priority).1
        (wish (s.thread t.target).policy (s.thread t.target).priority).2 := by
  rw [reschedule, sched_of_here hhere]
  rfl

theorem reschedule_of_gone (hgone : (s.thread t.target).gone = true)
    (wish : Policy → Int → Policy × Int) :
    reschedule t s wish = (s, .error .notFound, []) := by
  rw [reschedule, sched_of_gone hgone]

theorem here_of_reschedule {wish : Policy → Int → Policy × Int}
    (h : (reschedule t s wish).2.1 = .ok ()) : (s.thread t.target).gone = false := by
  rcases hgone : (s.thread t.target).gone with _ | _
  · rfl
  · rw [reschedule_of_gone hgone] at h
    exact absurd h (by simp only [reduceCtorEq, not_false_eq_true])

namespace Request

/-- A change that is granted is of a thread that has not ended, or of a CPU set. -/
theorem here_of_ok {r : Request} (h : (r.perform t s).2.1 = .ok ()) :
    (s.thread t.target).gone = false ∨ ∃ cpus, r = affinity cpus := by
  cases r with
  | attr a =>
      rw [perform, setAttr] at h
      rcases andThen_ok h with ⟨hname, hrest, _⟩
      rw [← (setNameWish_turned hname).gone_eq]
      exact Or.inl (setSched_here (andThen_ok hrest).1)
  | policy wanted =>
      rw [perform, setPolicy] at h
      exact Or.inl (here_of_reschedule h)
  | priority wanted =>
      rw [perform, setPriority] at h
      exact Or.inl (here_of_reschedule h)
  | affinity cpus => exact Or.inr ⟨cpus, rfl⟩

/-- A change that is granted turns the thread into what was asked for. -/
theorem turned {r : Request} (hhere : (s.thread t.target).gone = false)
    (h : (r.perform t s).2.1 = .ok ()) :
    Turned t.target (r.over t.rights.cpus) s (r.perform t s).1 := by
  cases r with
  | attr a =>
      rw [perform, setAttr] at h ⊢
      rcases andThen_ok h with ⟨hname, hrest, heq⟩
      rcases andThen_ok hrest with ⟨hsched, haffinity, heq'⟩
      have hnamed := setNameWish_turned hname
      have hscheduled := setSched_turned hsched
      have hplaced := setAffinity_turned
        ((hscheduled.gone_eq.trans hnamed.gone_eq).trans hhere) haffinity
      rw [heq, heq']
      exact (hnamed.trans hscheduled).trans hplaced
  -- The priority to start from, or the policy, is the one that the thread is shown with.
  | policy wanted =>
      rw [perform, setPolicy, reschedule_of_here hhere] at h ⊢
      have hturned := setSched_turned h
      exact ⟨hturned.gone_eq, hturned.shown_eq, hturned.other⟩
  | priority wanted =>
      rw [perform, setPriority, reschedule_of_here hhere] at h ⊢
      have hturned := setSched_turned h
      exact ⟨hturned.gone_eq, hturned.shown_eq, hturned.other⟩
  | affinity cpus => exact setAffinity_turned hhere h

end Request

end Granted

/-- Attributes after any changes. A thread is what the granted calls have stored, and no call
    was for a priority out of range. One more change carries out its calls in order. If it
    is granted, it turns what can be read of the thread into what was asked for; only the
    CPU set of a thread that has ended is taken for that of the caller. If it is refused,
    the thread has what the calls before the refused one are for, and nothing else has
    changed. A set of CPUs that there are is stored as it is. -/
theorem settings_exact (start : Host.Threads) (requests : List (Target × Request)) (t : Target)
    (r : Request) :
    let s := after start requests
    let s' := (r.perform t s).1
    let v := s.thread t.target
    (∀ u, s.thread u = (history start requests).foldl (Reply.stored u) (start.thread u)) ∧
    (∀ y ∈ history start (requests ++ [(t, r)]), y.call.InRange) ∧
    r.perform t s = carry t s (r.calls t s) ∧
    ((r.perform t s).2.1 = .ok () →
      (v.gone = false ∨ ∃ cpus, r = .affinity cpus) ∧
      (v.gone = false → Turned t.target (r.over t.rights.cpus) s s' ∧
        ∀ q, q.target = t.target →
          Reads q s (shown v) ∧ Reads q s' (r.over t.rights.cpus (shown v)))) ∧
    (∀ e, (r.perform t s).2.1 = .error e →
      ∃ (done : List Call) (last : Answer Call) (late : List (Answer Call)),
        r.calls t s = done.map .ok ++ last :: late ∧
        s' = s.put t.target (done.foldl (Call.stored t.rights.cpus) v) ∧ Stops t s' e last) ∧
    (∀ cpus : CpuSet, (∀ cpu, cpus.contains cpu = true → t.rights.cpus.contains cpu = true) →
      cpus.inter t.rights.cpus = cpus) := by
  intro s s' v
  refine ⟨after_thread start requests, fun y => history_inRange, r.perform_eq t s, fun hok => ?_,
    fun e => Request.perform_refused, fun cpus => CpuSet.inter_eq_self⟩
  refine ⟨Request.here_of_ok hok, fun hhere => ?_⟩
  have hturned := Request.turned hhere hok
  refine ⟨hturned, fun q hq => ?_⟩
  have hreads : ∀ s : Host.Threads, (s.thread t.target).gone = false →
      Reads q s (shown (s.thread t.target)) := by
    rw [← hq]
    exact fun s => shown_reads
  have hafter := hreads s' (hturned.gone_eq.trans hhere)
  rw [hturned.shown_eq] at hafter
  exact ⟨hreads s hhere, hafter⟩

/-- A thread that has been given another policy takes all of one set of attributes, and of
    another one only what comes before a CPU that there is not. -/
theorem settings_exact_partial :
    let t : Target := ⟨1, 2, ⟨true, true, true, CpuSet.ofList [0, 1]⟩⟩
    let start : Host.Threads := ⟨fun _ => ⟨"main", .other, 0, CpuSet.ofList [0, 1], false⟩⟩
    let s := after start [(t, .policy .fifo)]
    let all : Request := .attr ⟨"abcdefghijklmn€", .roundRobin, 200, CpuSet.ofList [0]⟩
    let part : Request := .attr ⟨"worker", .roundRobin, -7, CpuSet.ofList [5]⟩
    attr t s = (.ok ⟨"main", .fifo, 1, CpuSet.ofList [0, 1]⟩, []) ∧
      attr t (all.perform t s).1
        = (.ok ⟨"abcdefghijklmn", .roundRobin, 99, CpuSet.ofList [0]⟩, []) ∧
      (part.perform t s).2.1 = .error .invalidParam ∧
      (part.perform t s).1.thread 2 = ⟨"worker", .roundRobin, 1, CpuSet.ofList [0, 1], false⟩ ∧
      (part.perform t s).1.thread 1 = s.thread 1 := by
  intro t start s all part
  have hall := settings_exact start [(t, .policy .fifo)] t all
  have hpart := settings_exact start [(t, .policy .fifo)] t part
  rcases ((hall.2.2.2.1 (by decide)).2 rfl).2 t rfl with ⟨hbefore, hafter⟩
  rw [shown_eq (by decide) (by decide)] at hbefore hafter
  have hrefused : (part.perform t s).2.1 = .error .invalidParam := by decide
  refine ⟨?_, ?_, hrefused, by decide, ?_⟩
  · exact (hbefore.attr_eq (Or.inr rfl)).trans (by decide)
  · exact (hafter.attr_eq (Or.inr rfl)).trans (by decide)
  · rcases hpart.2.2.2.2.1 _ hrefused with ⟨done, last, late, _, hstate, _⟩
    rw [hstate]
    exact s.put_other _ (by decide)

end Control

end HostLayer
