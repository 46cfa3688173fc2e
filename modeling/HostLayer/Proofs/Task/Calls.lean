import HostLayer.Proofs.Task.Control
import HostLayer.Proofs.Task.Names

/-!
# Calls of a Change

What the host is asked for when attributes of a task are changed.

Every change comes down to a list of calls, which are made one after the other up to the
first one that is refused. An entry can also be refused before the host is asked,
for a NUL in a name or for a task whose policy cannot be read. The calls are known
before the first one is made: none of them depends on what those before it have
done.

So a change that is refused has done what the calls before the refused one do, and
nothing else. A CPU set comes last, which is why the calls that have been made then
are all about the same thread, also if that thread has ended.

## Main definitions

* `Control.Call`: What the host can be asked to change.
* `Control.Call.ask`, `Control.Call.stored`: The host's answer, and what it stores.
* `Control.Request`: The changes of attributes, with `Control.Request.perform`.
* `Control.Request.calls`: The calls that a change comes down to.
* `Control.carry`: The calls one after the other.
* `Control.Reply`, `Control.history`: The calls of a run, with the answers.

## Theorems

* `Control.Request.perform_eq`: Every change carries out its calls.
* `Control.Request.inRange_of_mem_calls`: No call asks for a priority out of range.
* `Control.carry_refused`: A refused change has carried out a part of its calls.
* `Control.Request.perform_refused`: That part is told by the thread alone.
* `Control.after_thread`: A run leaves what the granted calls have stored.
-/

namespace HostLayer

namespace Control

/-- What the host is asked to change about a thread. -/
inductive Call
  | name (text : String)
  | sched (policy : Policy) (priority : Int)
  | affinity (cpus : CpuSet)
  deriving DecidableEq, Repr

namespace Call

/-- The host's answer. -/
def ask (t : Target) (s : Host.Threads) : Call → Except Errno Host.Threads
  | name text => s.setName t.rights t.caller t.target text
  | sched policy priority => s.setSched t.rights t.target policy priority
  | affinity cpus => s.setAffinity t.rights t.caller t.target cpus

/-- The causes for the host's reasons. -/
def table : Call → Errno.Table
  | name _ => nameCause
  | sched _ _ => setSchedCause
  | affinity _ => affinityCause

/-- The name of the call. -/
def symbol : Call → String
  | name _ => "pthread_setname_np"
  | sched _ _ => "pthread_setschedparam"
  | affinity _ => "pthread_setaffinity_np"

/-- A priority that is asked for is one that the policy has. -/
def InRange : Call → Prop
  | sched policy priority => policy.range.1 ≤ priority ∧ priority ≤ policy.range.2
  | _ => True

/-- The thread that the host takes the call to be about. -/
def about (t : Target) (s : Host.Threads) : Call → ThreadId
  | affinity _ => s.placed t.caller t.target
  | _ => t.target

/-- What the host stores, on a machine with some CPUs. -/
def stored (cpus : CpuSet) (v : Host.Thread) : Call → Host.Thread
  | name text => { v with name := text }
  | sched policy priority => { v with policy := policy, priority := priority }
  | affinity asked => { v with affinity := asked.inter cpus }

/-- The host stores what it has accepted, and nothing else. -/
theorem ask_eq_ok {t : Target} {s s' : Host.Threads} {c : Call} (h : c.ask t s = .ok s') :
    s' = s.put (c.about t s) (c.stored t.rights.cpus (s.thread (c.about t s))) := by
  cases c with
  | name text => exact Host.Threads.setName_eq_ok h
  | sched policy priority => exact Host.Threads.setSched_eq_ok h
  | affinity cpus =>
      simp only [ask, Host.Threads.setAffinity] at h
      split at h
      next => exact absurd h (by simp only [reduceCtorEq, not_false_eq_true])
      next => exact (Except.ok.inj h).symm

/-- A call for something else than a CPU set is about the thread that is meant, also if that
    thread has ended. -/
theorem about_of_ne {c : Call} (h : ∀ cpus, c ≠ affinity cpus) (t : Target) (s : Host.Threads) :
    c.about t s = t.target := by
  cases c with
  | name text => rfl
  | sched policy priority => rfl
  | affinity cpus => exact absurd rfl (h cpus)

end Call

/-- Calls one after the other, up to the first one that is refused. -/
def carry (t : Target) (s : Host.Threads) : List (Answer Call) → Change
  | [] => unchanged s
  | .error e :: _ => (s, .error e, [])
  | .ok c :: rest =>
      match c.ask t s with
      | .ok s' => carry t s' rest
      | .error why => change c.table c.symbol s (.error why)

/-- A change of attributes. -/
inductive Request
  | attr (a : TaskAttr)
  | policy (wanted : Policy)
  | priority (wanted : Int)
  | affinity (cpus : CpuSet)
  deriving DecidableEq, Repr

/-- The calls for a name. -/
def nameCalls (name : String) : List (Answer Call) :=
  if name.isEmpty then [] else [(TaskAttr.hostName name).map .name]

/-- The call for a policy and the nearest priority that it has. -/
def schedCall (policy : Policy) (priority : Int) : Call :=
  .sched policy (policy.clamp priority)

/-- The calls for a CPU set. -/
def affinityCalls (cpus : CpuSet) : List (Answer Call) :=
  if cpus.isEmpty then [] else [.ok (.affinity cpus)]

namespace Request

/-- What a change comes to. -/
def perform (t : Target) (s : Host.Threads) : Request → Change
  | attr a => setAttr t s a
  | policy wanted => setPolicy t s wanted
  | priority wanted => setPriority t s wanted
  | affinity cpus => setAffinity t s cpus

/-- The calls that a change comes down to. -/
def calls (t : Target) (s : Host.Threads) : Request → List (Answer Call)
  | attr a => nameCalls a.name ++ .ok (schedCall a.policy a.priority) :: affinityCalls a.affinity
  | policy wanted => [(sched t s).1.map fun v => schedCall wanted v.2]
  | priority wanted => [(sched t s).1.map fun v => schedCall v.1 wanted]
  | affinity cpus => affinityCalls cpus

end Request

section Carry

variable {t : Target} {s : Host.Threads}

theorem change_eq_carry (c : Call) : change c.table c.symbol s (c.ask t s) = carry t s [.ok c] := by
  rw [carry]
  rcases c.ask t s with why | s'
  · rfl
  · rfl

theorem carry_append (t : Target) (s : Host.Threads) (cs ds : List (Answer Call)) :
    carry t s (cs ++ ds) = andThen (carry t s cs) fun s' => carry t s' ds := by
  induction cs generalizing s with
  | nil => rfl
  | cons c cs ih =>
      rcases c with e | c
      · rfl
      · rw [List.cons_append, carry, carry]
        rcases c.ask t s with why | s'
        · rfl
        · exact ih s'

theorem setNameWish_eq (t : Target) (s : Host.Threads) (name : String) :
    setNameWish t s name = carry t s (nameCalls name) := by
  unfold setNameWish nameCalls
  by_cases hempty : name.isEmpty = true
  · rw [if_pos hempty, if_pos hempty, carry]
  · rw [if_neg hempty, if_neg hempty]
    unfold setName
    rcases TaskAttr.hostName name with e | host
    · rfl
    · exact change_eq_carry (.name host)

theorem setSched_eq (t : Target) (s : Host.Threads) (policy : Policy) (priority : Int) :
    setSched t s policy priority = carry t s [.ok (schedCall policy priority)] :=
  change_eq_carry (schedCall policy priority)

theorem setAffinity_eq (t : Target) (s : Host.Threads) (cpus : CpuSet) :
    setAffinity t s cpus = carry t s (affinityCalls cpus) := by
  unfold setAffinity affinityCalls
  by_cases hempty : cpus.isEmpty = true
  · rw [if_pos hempty, if_pos hempty, carry]
  · rw [if_neg hempty, if_neg hempty]
    exact change_eq_carry (.affinity cpus)

theorem sched_of_gone (h : (s.thread t.target).gone = true) :
    sched t s = (.error .notFound, []) := by
  unfold sched Host.Threads.sched
  simp only [h, if_true]
  rfl

theorem sched_of_here (h : (s.thread t.target).gone = false) :
    sched t s = (.ok ((s.thread t.target).policy, (s.thread t.target).priority), []) := by
  unfold sched Host.Threads.sched
  simp only [h, Bool.false_eq_true, if_false]
  rfl

/-- A change that starts from policy and priority as they are is one call, if they can be
    read. -/
theorem reschedule_eq (t : Target) (s : Host.Threads) (wish : Policy → Int → Policy × Int) :
    reschedule t s wish
      = carry t s [(sched t s).1.map fun v => schedCall (wish v.1 v.2).1 (wish v.1 v.2).2] := by
  unfold reschedule
  rcases hgone : (s.thread t.target).gone with _ | _
  · rw [sched_of_here hgone]
    exact setSched_eq t s _ _
  · rw [sched_of_gone hgone]
    rfl

namespace Request

/-- Every change carries out its calls. -/
theorem perform_eq (t : Target) (s : Host.Threads) (r : Request) :
    r.perform t s = carry t s (r.calls t s) := by
  cases r with
  | attr a =>
      rw [perform, calls, ← List.singleton_append, carry_append, ← setNameWish_eq]
      simp only [carry_append, ← setSched_eq, ← setAffinity_eq]
      rfl
  | policy wanted => exact reschedule_eq t s fun _ priority => (wanted, priority)
  | priority wanted => exact reschedule_eq t s fun policy _ => (policy, wanted)
  | affinity cpus => exact setAffinity_eq t s cpus

end Request

end Carry

section Members

variable {c : Call}

theorem exists_of_mem_map {α : Type} {x : Answer α} {f : α → Call} (h : .ok c ∈ [x.map f]) :
    ∃ v, c = f v := by
  have heq := List.mem_singleton.mp h
  rcases x with e | v
  · exact absurd heq (by simp only [Except.map, reduceCtorEq, not_false_eq_true])
  · exact ⟨v, Except.ok.inj heq⟩

theorem mem_nameCalls {name : String} (h : .ok c ∈ nameCalls name) : ∃ host, c = .name host := by
  unfold nameCalls at h
  split at h
  · exact absurd h List.not_mem_nil
  · exact exists_of_mem_map h

theorem mem_affinityCalls {cpus : CpuSet} (h : .ok c ∈ affinityCalls cpus) :
    c = .affinity cpus := by
  unfold affinityCalls at h
  split at h
  · exact absurd h List.not_mem_nil
  · exact Except.ok.inj (List.mem_singleton.mp h)

theorem schedCall_inRange (policy : Policy) (priority : Int) :
    (schedCall policy priority).InRange :=
  policy.clamp_mem priority

namespace Request

/-- A call for a priority is for one that the policy has. -/
theorem inRange_of_mem_calls {t : Target} {s : Host.Threads} {r : Request}
    (h : .ok c ∈ r.calls t s) : c.InRange := by
  cases r with
  | attr a =>
      rcases List.mem_append.mp h with hmem | hmem
      · rcases mem_nameCalls hmem with ⟨host, rfl⟩
        exact trivial
      · rcases List.mem_cons.mp hmem with heq | hmem
        · rw [Except.ok.inj heq]
          exact schedCall_inRange a.policy a.priority
        · rw [mem_affinityCalls hmem]
          exact trivial
  | policy wanted =>
      rcases exists_of_mem_map h with ⟨v, rfl⟩
      exact schedCall_inRange wanted v.2
  | priority wanted =>
      rcases exists_of_mem_map h with ⟨v, rfl⟩
      exact schedCall_inRange v.1 wanted
  | affinity cpus =>
      rw [mem_affinityCalls h]
      exact trivial

/-- There is one call for a CPU set at most, and it is the last one. -/
theorem exists_calls_eq (t : Target) (s : Host.Threads) (r : Request) :
    ∃ front back, r.calls t s = front ++ back ∧ back.length ≤ 1 ∧
      ∀ c, .ok c ∈ front → ∀ cpus, c ≠ .affinity cpus := by
  have hback : ∀ cpus, (affinityCalls cpus).length ≤ 1 := fun cpus => by
    unfold affinityCalls
    split
    · exact Nat.zero_le 1
    · exact Nat.le_refl 1
  cases r with
  | attr a =>
      refine ⟨nameCalls a.name ++ [.ok (schedCall a.policy a.priority)], affinityCalls a.affinity,
        List.append_cons _ _ _, hback a.affinity, fun c hmem cpus => ?_⟩
      rcases List.mem_append.mp hmem with hmem | hmem
      · rcases mem_nameCalls hmem with ⟨host, rfl⟩
        exact Call.noConfusion
      · rw [Except.ok.inj (List.mem_singleton.mp hmem)]
        exact Call.noConfusion
  | policy wanted | priority wanted =>
      refine ⟨_, [], (List.append_nil _).symm, Nat.zero_le 1, fun c hmem cpus => ?_⟩
      rcases exists_of_mem_map hmem with ⟨v, rfl⟩
      exact Call.noConfusion
  | affinity cpus => exact ⟨[], _, rfl, hback cpus, fun c hmem => absurd hmem List.not_mem_nil⟩

/-- So none of the calls before another one is for a CPU set. -/
theorem ne_affinity_of_calls_eq {t : Target} {s : Host.Threads} {r : Request}
    {early late : List (Answer Call)} {last : Answer Call}
    (h : r.calls t s = early ++ last :: late) (hmem : .ok c ∈ early) (cpus : CpuSet) :
    c ≠ .affinity cpus := by
  rcases r.exists_calls_eq t s with ⟨front, back, hsplit, hback, hfront⟩
  rw [hsplit] at h
  have hlength := congrArg List.length h
  simp only [List.length_append, List.length_cons] at hlength
  have hearly : early <+: front :=
    List.prefix_of_prefix_length_le (h ▸ List.prefix_append early _) (List.prefix_append front back)
      (by omega)
  exact hfront c (hearly.subset hmem) cpus

end Request

end Members

section Refusals

variable {t : Target} {s s' : Host.Threads} {c : Call}

/-- Why an entry stops the calls. -/
inductive Stops (t : Target) (s : Host.Threads) (e : Error) : Answer Call → Prop
  /-- The host is not asked. -/
  | unasked : Stops t s e (.error e)
  /-- The host refuses the call. -/
  | asked {c : Call} {why : Errno} (h : c.ask t s = .error why)
      (hcause : e = (Errno.translate c.table c.symbol why).1) : Stops t s e (.ok c)

/-- The threads as a granted call leaves them. -/
def store (t : Target) (s : Host.Threads) (c : Call) : Host.Threads :=
  s.put (c.about t s) (c.stored t.rights.cpus (s.thread (c.about t s)))

/-- What is refused has carried out the calls before the refused one. -/
theorem carry_refused {cs : List (Answer Call)} {e : Error} (h : (carry t s cs).2.1 = .error e) :
    ∃ (done : List Call) (last : Answer Call) (late : List (Answer Call)),
      cs = done.map .ok ++ last :: late ∧
      (carry t s cs).1 = done.foldl (store t) s ∧ Stops t (done.foldl (store t) s) e last := by
  induction cs generalizing s with
  | nil => exact absurd h (by simp only [carry, unchanged, reduceCtorEq, not_false_eq_true])
  | cons c cs ih =>
      rcases c with e' | c
      · rw [← Except.error.inj h]
        exact ⟨[], .error e', cs, rfl, rfl, .unasked⟩
      · rw [carry] at h ⊢
        rcases hask : c.ask t s with why | s'
        · rw [hask] at h
          exact ⟨[], .ok c, cs, rfl, rfl, .asked hask (Except.error.inj h).symm⟩
        · rw [hask] at h
          rcases ih h with ⟨done, last, late, hcs, hstate, hstops⟩
          have hstore : store t s c = s' := (Call.ask_eq_ok hask).symm
          refine ⟨c :: done, last, late, congrArg (.ok c :: ·) hcs, ?_⟩
          rw [List.foldl_cons, hstore]
          exact ⟨hstate, hstops⟩

/-- Calls for something else change the thread that is meant and no other one, each one what
    is left by those before it. -/
theorem foldl_store {done : List Call} (h : ∀ c ∈ done, ∀ cpus, c ≠ .affinity cpus) :
    done.foldl (store t) s
      = s.put t.target (done.foldl (Call.stored t.rights.cpus) (s.thread t.target)) := by
  induction done generalizing s with
  | nil => exact (s.put_thread t.target).symm
  | cons c done ih =>
      have hstore : store t s c
          = s.put t.target (c.stored t.rights.cpus (s.thread t.target)) := by
        rw [store, Call.about_of_ne (h c List.mem_cons_self)]
      rw [List.foldl_cons, List.foldl_cons, hstore,
        ih fun d hd => h d (List.mem_cons_of_mem c hd), Host.Threads.put_self, Host.Threads.put_put]

namespace Request

/-- A refused change has changed the thread as the calls before the refused one do, and no
    other thread. -/
theorem perform_refused {r : Request} {e : Error} (h : (r.perform t s).2.1 = .error e) :
    ∃ (done : List Call) (last : Answer Call) (late : List (Answer Call)),
      r.calls t s = done.map .ok ++ last :: late ∧
      (r.perform t s).1
        = s.put t.target (done.foldl (Call.stored t.rights.cpus) (s.thread t.target)) ∧
      Stops t (r.perform t s).1 e last := by
  rw [perform_eq] at h ⊢
  rcases carry_refused h with ⟨done, last, late, hcalls, hstate, hstops⟩
  have hdone : ∀ c ∈ done, ∀ cpus, c ≠ Call.affinity cpus := fun c hc =>
    ne_affinity_of_calls_eq hcalls (List.mem_map.mpr ⟨c, hc, rfl⟩)
  refine ⟨done, last, late, hcalls, ?_, hstate ▸ hstops⟩
  rw [hstate, foldl_store hdone]

end Request

end Refusals

/-- A call of a run: who made it, about which thread, and whether the host has refused
    it. -/
structure Reply where
  asker : Target
  about : ThreadId
  call : Call
  refusal : Option Errno
  deriving DecidableEq, Repr

/-- What a call of a run leaves of a thread. -/
def Reply.stored (u : ThreadId) (v : Host.Thread) (y : Reply) : Host.Thread :=
  if y.refusal = none ∧ y.about = u then y.call.stored y.asker.rights.cpus v else v

/-- The calls that are made, with the answers. -/
def log (t : Target) (s : Host.Threads) : List (Answer Call) → List Reply
  | [] => []
  | .error _ :: _ => []
  | .ok c :: rest =>
      match c.ask t s with
      | .ok s' => ⟨t, c.about t s, c, none⟩ :: log t s' rest
      | .error why => [⟨t, c.about t s, c, some why⟩]

/-- The threads after some changes. -/
def after (s : Host.Threads) (requests : List (Target × Request)) : Host.Threads :=
  requests.foldl (fun s q => (q.2.perform q.1 s).1) s

/-- All calls of some changes, with the answers. -/
def history (s : Host.Threads) : List (Target × Request) → List Reply
  | [] => []
  | q :: requests =>
      log q.1 s (q.2.calls q.1 s) ++ history (q.2.perform q.1 s).1 requests

section Runs

variable {t : Target} {s : Host.Threads}

theorem mem_calls_of_mem_log {cs : List (Answer Call)} {y : Reply} (h : y ∈ log t s cs) :
    .ok y.call ∈ cs := by
  induction cs generalizing s with
  | nil => exact absurd h List.not_mem_nil
  | cons c cs ih =>
      rcases c with e | c
      · exact absurd h List.not_mem_nil
      · rw [log] at h
        rcases hask : c.ask t s with why | s'
        · rw [hask] at h
          rw [List.mem_singleton.mp h]
          exact List.mem_cons_self
        · rw [hask] at h
          rcases List.mem_cons.mp h with rfl | hmem
          · exact List.mem_cons_self
          · exact List.mem_cons_of_mem _ (ih hmem)

/-- Calls leave of every thread what the granted ones about it have stored. -/
theorem carry_thread (t : Target) (s : Host.Threads) (cs : List (Answer Call)) (u : ThreadId) :
    (carry t s cs).1.thread u = (log t s cs).foldl (Reply.stored u) (s.thread u) := by
  induction cs generalizing s with
  | nil => rfl
  | cons c cs ih =>
      rcases c with e | c
      · rfl
      · rw [carry, log]
        rcases hask : c.ask t s with why | s'
        · simp only [change, List.foldl_cons, List.foldl_nil, Reply.stored, reduceCtorEq, false_and,
            if_false]
        · refine (ih s').trans (congrArg (List.foldl _ · _) ?_)
          rw [Call.ask_eq_ok hask, Reply.stored]
          by_cases hu : u = c.about t s
          · rw [hu, Host.Threads.put_self, if_pos ⟨rfl, rfl⟩]
          · rw [Host.Threads.put_other _ _ hu, if_neg fun h : _ ∧ _ => hu h.2.symm]

/-- Changes leave of every thread what the granted calls about it have stored. -/
theorem after_thread (s : Host.Threads) (requests : List (Target × Request)) (u : ThreadId) :
    (after s requests).thread u = (history s requests).foldl (Reply.stored u) (s.thread u) := by
  induction requests generalizing s with
  | nil => rfl
  | cons q requests ih =>
      rw [history, List.foldl_append, ← carry_thread, ← Request.perform_eq, ← ih]
      rfl

/-- In no run is the host asked for a priority that the policy does not have. -/
theorem history_inRange {requests : List (Target × Request)} {y : Reply}
    (h : y ∈ history s requests) : y.call.InRange := by
  induction requests generalizing s with
  | nil => exact absurd h List.not_mem_nil
  | cons q requests ih =>
      rcases List.mem_append.mp h with hmem | hmem
      · exact Request.inRange_of_mem_calls (mem_calls_of_mem_log hmem)
      · exact ih hmem

end Runs

end Control

end HostLayer
