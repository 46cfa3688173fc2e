import HostLayer.Demo.Inversion
import HostLayer.Proofs.CpuSet
import HostLayer.Proofs.Routine
import HostLayer.Proofs.Task.Handshake

/-!
# How Long the Highest Task Waits

What becomes of three tasks of different priority that share a mutex and a CPU.

Who has the CPU is a matter of ranks (`Course.running?_eq`). While the highest task
waits for the lowest one, a mutex that hands priorities on lifts the lowest task
above the middle one (`Course.holder_runs`). Without that the middle task keeps the
CPU for as long as it likes (`Course.middle_runs`).

So the highest task waits for what is left of the work of the lowest one, however
long the middle one works, or else until both have come to their end
(`Course.high_waits`). The tasks always come to the point where that question
arises (`Course.comes`), and all of them come to their end (`Course.course_ends`), so
the program prints the answer (`run_success`).

## Main definitions

* `lockOf`: The mutex of the program.
* `Course.scene`: The tasks after the lowest one has said that it holds the mutex.
* `wait`: How long the highest task waits.
* `Makes`: The host makes every task.

## Theorems

* `Course.running?_eq`: Whoever outranks the others has the CPU.
* `Course.holder_runs`, `Course.middle_runs`: Who has the CPU while the highest task
  waits.
* `Course.walk_work`: A task that has the CPU does its work.
* `Course.high_waits`: The wait of the highest task.
* `Course.comes`: The way to it.
* `Course.course_ends`: The whole way of the tasks.
* `makes_of_rights`: What it takes to make the tasks.
* `run_success`: What the program prints.
-/

namespace HostLayer

namespace Demo

namespace Inversion

/-- The mutex of the program, in somebody's hands or in nobody's. -/
def lockOf (inherits : Bool) (holder : Option Role) : Mutex where
  attr := word inherits
  raw := {
    kind := .normal
    robust := false
    protocol := if inherits then .inherit else .none
    ceiling := 0
    holder := holder.map Role.thread
    depth := if holder.isSome then 1 else 0
    health := .sound
    awaited := 0 }

theorem create_lockOf (inherits : Bool) :
    Mutex.create (word inherits) = .ok (lockOf inherits none) := by
  cases inherits <;> rfl

theorem lock_nobody (inherits : Bool) (r : Role) :
    (lockOf inherits none).lock r.caller = some (lockOf inherits (some r), .ok (), []) := by
  cases inherits <;> cases r <;> rfl

theorem lock_somebody (inherits : Bool) (r q : Role) :
    (lockOf inherits (some q)).lock r.caller = none := by
  cases inherits <;> cases r <;> cases q <;> rfl

theorem dropGuard_somebody (inherits : Bool) (r : Role) :
    ((lockOf inherits (some r)).dropGuard r.thread).1 = lockOf inherits none := by
  cases inherits <;> cases r <;> rfl

theorem heldBy_lockOf (inherits : Bool) (holder : Option Role) (r : Role) :
    (lockOf inherits holder).raw.heldBy r.thread = (holder == some r) := by
  cases holder with
  | none => cases r <;> rfl
  | some q => cases q <;> cases r <;> rfl

/-- The host makes every task. -/
def Makes (rights : Host.Rights) : Prop :=
  ∀ (r : Role) (threads : Host.Threads), ∃ threads' t notes,
    launch 1 r.thread rights r.attr threads = (threads', .ok t, notes)

/-- How long the highest task waits, by what is left of the work of the two others when
    it comes. -/
def wait (inherits : Bool) (low middle : Nat) : Nat :=
  if inherits then low else max low middle

/-- The first thread sleeps or waits, so it leaves it to the tasks what happens. -/
def Place.Rests (s : Course) : Place → Prop
  | looking time => s.now < time
  | making time => s.now < time
  | joining => True

theorem Role.mem_all (r : Role) : r ∈ Role.all := by
  cases r <;> decide

namespace Course

section Ranks

variable {s : Course} {r q : Role} {o : Order} {rest : List Order} {inherits : Bool}

theorem waits_of_order (h : s.todo r = o :: rest) (ho : o ≠ .take) : s.waits r = false := by
  unfold waits
  rw [h]
  split
  next heq => exact absurd (List.cons.inj heq).1 ho
  next => rfl

theorem waits_of_nil (h : s.todo r = []) : s.waits r = false := by
  rw [waits, h]

/-- Whoever comes for a mutex that somebody holds waits. -/
theorem waits_of_take (h : s.todo r = .take :: rest) (hm : s.mutex = lockOf inherits (some q)) :
    s.waits r = true := by
  rw [waits, h]
  simp only [hm, lock_somebody, Option.isNone_none]

theorem ready_of_order (h : s.todo r = o :: rest) (ho : o ≠ .take) : s.ready r = true := by
  rw [ready, waits_of_order h ho, h]
  rfl

/-- Whoever comes for a mutex that nobody holds can take it. -/
theorem ready_of_take (h : s.todo r = .take :: rest) (hm : s.mutex = lockOf inherits none) :
    s.ready r = true := by
  rw [ready, waits, h]
  simp only [hm, lock_nobody, Option.isNone_some]
  rfl

theorem not_ready_of_nil (h : s.todo r = []) : s.ready r = false := by
  rw [ready, h]
  rfl

theorem not_ready_of_waits (h : s.waits r = true) : s.ready r = false := by
  rw [ready, h, Bool.not_true, Bool.and_false]

/-- Whoever can use the CPU and outranks all others that can has it. -/
theorem running?_eq (hr : s.ready r = true)
    (hbest : ∀ q, q ≠ r → s.ready q = true → s.rank q < s.rank r) : s.running? = some r := by
  have hleads : s.leads r = true := by
    rw [leads, hr, Bool.true_and, List.all_eq_true]
    intro q _
    cases hready : s.ready q with
    | false => rfl
    | true =>
        rw [Bool.not_true, Bool.false_or, decide_eq_true_eq]
        by_cases hq : q = r
        · rw [hq]
        · exact Nat.le_of_lt (hbest q hq hready)
  have hothers : ∀ q, s.leads q = true → q = r := by
    intro q hq
    rw [leads, Bool.and_eq_true, List.all_eq_true] at hq
    by_cases hne : q = r
    · exact hne
    have hlt := hbest q hne hq.1
    have hle := hq.2 r r.mem_all
    rw [hr, Bool.not_true, Bool.false_or, decide_eq_true_eq] at hle
    omega
  unfold running?
  cases hfind : Role.all.find? s.leads with
  | none => exact absurd hleads (List.find?_eq_none.mp hfind r r.mem_all)
  | some q => rw [hothers q (List.find?_some hfind)]

/-- Whoever is the only one that can use the CPU has it. -/
theorem running?_alone (hr : s.ready r = true) (hothers : ∀ q, q ≠ r → s.ready q = false) :
    s.running? = some r :=
  running?_eq hr fun q hq hready => absurd ((hothers q hq).symm.trans hready) Bool.false_ne_true

theorem running?_none (h : ∀ r, s.ready r = false) : s.running? = none := by
  rw [running?, List.find?_eq_none]
  intro r _
  rw [leads, h r, Bool.false_and]
  exact Bool.false_ne_true

/-- Nothing is lent to whoever does not hold the mutex, or by nobody, or where
    priorities are not handed on. -/
theorem lent_eq_zero (h : ∀ q, s.waits q = true → s.mutex.raw.heldBy r.thread = true →
    s.mutex.raw.protocol ≠ .inherit) : s.lent r = 0 := by
  unfold lent
  split
  next hlends =>
    rw [Bool.and_eq_true, beq_iff_eq] at hlends
    have hnobody : Role.all.filter s.waits = [] := by
      rw [List.filter_eq_nil_iff]
      exact fun q _ hq => h q hq hlends.1 hlends.2
    rw [hnobody]
    rfl
  next => rfl

/-- A mutex that hands priorities on lends its holder the priority of everybody who
    waits for it. -/
theorem priority_le_lent (hprotocol : s.mutex.raw.protocol = .inherit)
    (hheld : s.mutex.raw.heldBy r.thread = true) (hwaits : s.waits q = true) :
    q.priority ≤ s.lent r := by
  rw [lent, hheld, hprotocol, if_pos (by decide)]
  exact List.le_max?_getD_of_mem
    (List.mem_map.mpr ⟨q, List.mem_filter.mpr ⟨q.mem_all, hwaits⟩, rfl⟩)

/-- Whoever can use the CPU has it, if all others that can have a lower priority and are
    lent nothing. -/
theorem running?_of_priority (hr : s.ready r = true)
    (hothers : ∀ q, q ≠ r → s.ready q = true → q.priority < r.priority ∧ s.lent q = 0) :
    s.running? = some r := by
  refine running?_eq hr fun q hne hq => ?_
  rcases hothers q hne hq with ⟨hlower, hlent⟩
  rw [rank, hlent, Nat.max_eq_left (Nat.zero_le _)]
  exact Nat.lt_of_lt_of_le hlower (Nat.le_max_left _ _)

/-- While the highest task waits for a mutex that hands priorities on, the lowest task
    has the CPU if it holds the mutex. -/
theorem holder_runs (hm : s.mutex = lockOf true (some .low)) (hwaits : s.waits .high = true)
    (hready : s.ready .low = true) : s.running? = some .low := by
  have hlent := priority_le_lent (r := .low) (by rw [hm]; rfl) (by rw [hm]; rfl) hwaits
  refine running?_eq hready fun q hne hq => ?_
  cases q with
  | low => exact absurd rfl hne
  | middle =>
      have hnothing : s.lent .middle = 0 :=
        lent_eq_zero fun _ _ hheld => absurd hheld (by rw [hm]; decide)
      rw [rank, rank, hnothing]
      exact Nat.lt_of_lt_of_le (by decide) (Nat.le_trans hlent (Nat.le_max_right _ _))
  | high => exact absurd ((not_ready_of_waits hwaits).symm.trans hq) Bool.false_ne_true

/-- While the highest task waits for a mutex that does not hand priorities on, the middle
    task has the CPU if it can use it. -/
theorem middle_runs (hm : s.mutex = lockOf false (some .low)) (hwaits : s.waits .high = true)
    (hready : s.ready .middle = true) : s.running? = some .middle := by
  refine running?_of_priority hready fun q hne hq => ?_
  cases q with
  | low => exact ⟨by decide, lent_eq_zero fun _ _ _ => by rw [hm]; decide⟩
  | middle => exact absurd rfl hne
  | high => exact absurd ((not_ready_of_waits hwaits).symm.trans hq) Bool.false_ne_true

/-- The highest task has the CPU if it can use it and nothing is lent to the others. -/
theorem high_runs (hlent : ∀ q, q ≠ Role.high → s.lent q = 0) (hready : s.ready .high = true) :
    s.running? = some .high := by
  refine running?_of_priority hready fun q hne _ => ⟨?_, hlent q hne⟩
  cases q with
  | low => decide
  | middle => decide
  | high => exact absurd rfl hne

end Ranks

section Walks

variable (rights : Host.Rights) (work : Role → Nat) {s t : Course} {r : Role} {p : Place}
  {rest : List Order} {threads : Host.Threads} {inherits : Bool} {now came e e' : Nat}
  {waited : Answer Nat} {middle : List Order}

-- The task that has the CPU gets a turn.
theorem walk_turn (hp : p.Rests s) (hr : s.running? = some r) (ht : s.obey r = t) :
    Walk (step rights work) 1 s p t p := by
  have hturn : s.turn = some t := by rw [turn, hr, Option.map_some, ht]
  have hbefore : ∀ time, s.before time = t := fun time => by rw [before, hturn, Option.getD_some]
  have hstep : step rights work s p = .goto t p [] := by
    cases p with
    | looking time => rw [step, if_pos (show s.now < time from hp), hbefore]
    | making time => rw [step, if_pos (show s.now < time from hp), hbefore]
    | joining => simp only [step, hturn]
  exact Walk.one hstep

/-- A task that has the CPU keeps it until its work should be over, and takes no more
    time if it should have been by now. -/
theorem walk_work (hr : s.running? = some r) (htodo : s.todo r = .workUntil e :: rest) :
    Walk (step rights work) (e - s.now + 1) s .joining
      ({ s with now := max s.now e }.assign r rest) .joining := by
  generalize hn : e - s.now = n
  induction n generalizing s with
  | zero =>
      refine walk_turn rights work trivial hr ?_
      rw [Nat.max_eq_left (by omega), obey, htodo]
      exact if_neg (by omega)
  | succ n ih =>
      -- A turn of work takes a millisecond and changes nothing else.
      have hturn : s.obey r = { s with now := s.now + 1 } := by
        rw [obey, htodo]
        exact if_pos (by omega)
      have hrest := ih (s := { s with now := s.now + 1 }) hr htodo (by simp only []; omega)
      rw [show max (s.now + 1) e = max s.now e by omega] at hrest
      rw [show n + 1 + 1 = 1 + (n + 1) by omega]
      exact (walk_turn rights work (p := .joining) trivial hr hturn).append hrest

theorem obey_take (htodo : s.todo r = .take :: rest) (hm : s.mutex = lockOf inherits none) :
    s.obey r = { s with mutex := lockOf inherits (some r) }.assign r rest := by
  rw [obey, htodo]
  simp only [hm, lock_nobody]

theorem obey_drop (htodo : s.todo r = .drop :: rest) (hm : s.mutex = lockOf inherits (some r)) :
    s.obey r = { s with mutex := lockOf inherits none }.assign r rest := by
  rw [obey, htodo]
  simp only [hm, dropGuard_somebody]

/-- The tasks after the lowest one has said that it holds the mutex. -/
def scene (threads : Host.Threads) (inherits : Bool) (holder : Option Role) (now came : Nat)
    (waited : Answer Nat) (low middle high : List Order) : Course :=
  ⟨now, threads, lockOf inherits holder, low, middle, high, true, came, waited⟩

/-- The lowest task drops its guard, and the highest one takes the mutex at once, sees
    how long it has waited, and drops it again. -/
theorem walk_handover
    (hr : (scene threads inherits (some .low) now came waited [.drop] middle
      [.take, .measure, .drop]).running? = some .low) :
    Walk (step rights work) 4
      (scene threads inherits (some .low) now came waited [.drop] middle [.take, .measure, .drop])
      .joining (scene threads inherits none now came (.ok (now - came)) [] middle []) .joining := by
  have hlent : ∀ (holder : Option Role) (w : Answer Nat) (orders : List Order),
      (∀ q, q ≠ Role.high → holder ≠ some q) → ∀ q, q ≠ Role.high →
        (scene threads inherits holder now came w [] middle orders).lent q = 0 := by
    intro holder w orders hholder q hq
    refine lent_eq_zero fun _ _ hheld => ?_
    rw [scene, heldBy_lockOf, beq_iff_eq] at hheld
    exact absurd hheld (hholder q hq)
  have hnobody : ∀ q, q ≠ Role.high → none ≠ some q := fun q _ => (Option.some_ne_none q).symm
  have hhigh : ∀ q, q ≠ Role.high → some Role.high ≠ some q :=
    fun q hq h => hq (Option.some.inj h).symm
  have hdrop := walk_turn rights work (p := .joining) trivial hr (obey_drop rfl rfl)
  have htake := walk_turn rights work (p := .joining) trivial
    (high_runs (hlent none waited [.take, .measure, .drop] hnobody) (ready_of_take rfl rfl))
    (obey_take rfl rfl)
  have hmeasure := walk_turn rights work (p := .joining) trivial
    (high_runs (hlent (some .high) waited [.measure, .drop] hhigh) (ready_of_order rfl nofun)) rfl
  have hlast := walk_turn rights work (p := .joining) trivial
    (high_runs (hlent (some .high) (.ok (now - came)) [.drop] hhigh) (ready_of_order rfl nofun))
    (obey_drop rfl rfl)
  exact ((hdrop.append htake).append hmeasure).append hlast

-- Nobody has anything left to do.
theorem step_over : step rights work
    (scene threads inherits none now came waited [] [] []) .joining
      = .done (scene threads inherits none now came waited [] [] []) waited [] := by
  have hnone : (scene threads inherits none now came waited [] [] []).running? = none :=
    running?_none fun r => not_ready_of_nil (by cases r <;> rfl)
  have hturn : (scene threads inherits none now came waited [] [] []).turn = none := by
    rw [turn, hnone, Option.map_none]
  simp only [step, hturn]
  rfl

/-- From the moment at which the highest task comes for the mutex, with the lowest task
    and the middle one still at work, the tasks come to their end, and the highest one
    has waited as long as it has to. -/
theorem high_waits (inherits : Bool) : ∃ n t, n ≤ (e - now) + (e' - now) + 6 ∧
    Walk (step rights work) n (scene threads inherits (some .low) now now waited
      [.workUntil e, .drop] [.workUntil e'] [.take, .measure, .drop]) .joining t .joining ∧
    step rights work t .joining = .done t (.ok (wait inherits (e - now) (e' - now))) [] ∧
    t.held = true := by
  have hwaits : ∀ time low middle, (scene threads inherits (some .low) time now waited low middle
      [.take, .measure, .drop]).waits .high = true :=
    fun _ _ _ => waits_of_take rfl rfl
  cases inherits with
  | true =>
      have hlow : ∀ time o rest, o ≠ .take → (scene threads true (some .low) time now waited
          (o :: rest) [.workUntil e'] [.take, .measure, .drop]).running? = some .low :=
        fun time o rest ho => holder_runs rfl (hwaits time _ _) (ready_of_order rfl ho)
      have hmiddle : (scene threads true none (max now e) now (.ok (max now e - now)) []
          [.workUntil e'] []).running? = some .middle :=
        running?_alone (ready_of_order rfl nofun) fun q hq => not_ready_of_nil (by
          cases q <;> first | rfl | exact absurd rfl hq)
      -- The lowest task works first, then the highest one, and the middle one is left.
      have hwork := walk_work rights work (hlow now (.workUntil e) [.drop] nofun) rfl
      have hhand := walk_handover rights work (hlow (max now e) .drop [] nofun)
      have hrest := walk_work rights work hmiddle rfl
      refine ⟨_, _, ?_, (hwork.append hhand).append hrest, ?_, rfl⟩
      · simp only [scene]
        omega
      · have hwaited : max now e - now = wait true (e - now) (e' - now) := by
          simp only [wait, if_true]
          omega
        rw [← hwaited]
        exact step_over rights work
  | false =>
      have hmiddle : (scene threads false (some .low) now now waited [.workUntil e, .drop]
          [.workUntil e'] [.take, .measure, .drop]).running? = some .middle :=
        middle_runs rfl (hwaits now _ _) (ready_of_order rfl nofun)
      have hlow : ∀ time o rest, o ≠ .take → (scene threads false (some .low) time now waited
          (o :: rest) [] [.take, .measure, .drop]).running? = some .low := by
        intro time o rest ho
        refine running?_alone (ready_of_order rfl ho) fun q hq => ?_
        cases q with
        | low => exact absurd rfl hq
        | middle => exact not_ready_of_nil rfl
        | high => exact not_ready_of_waits (hwaits time _ _)
      -- The middle task comes first, and only then the lowest one.
      have hfirst := walk_work rights work hmiddle rfl
      have hwork := walk_work rights work (hlow (max now e') (.workUntil e) [.drop] nofun) rfl
      have hhand := walk_handover rights work (hlow (max (max now e') e) .drop [] nofun)
      refine ⟨_, _, ?_, (hfirst.append hwork).append hhand, ?_, rfl⟩
      · simp only [scene]
        omega
      · have hwaited : max (max now e') e - now = wait false (e - now) (e' - now) := by
          simp only [wait, Bool.false_eq_true, if_false]
          omega
        rw [← hwaited]
        exact step_over rights work

variable {rights}

theorem make_ok (h : Makes rights) (s : Course) (r : Role) : ∃ threads,
    s.make rights work r = .ok ({ s with threads := threads }.assign r (orders work r)) := by
  rcases h r s.threads with ⟨threads, t, notes, hlaunch⟩
  exact ⟨threads, by simp only [make, hlaunch]⟩

-- The first thread makes the middle task, and the highest one.
theorem walk_middle (htime : ¬s.now < e) (hheld : s.held = true)
    (hmake : s.make rights work .middle = .ok t) :
    Walk (step rights work) 1 s (.looking e) t (.making (s.now + 1)) := by
  have hstep : step rights work s (.looking e) = .goto t (.making (s.now + 1)) [] := by
    simp only [step, if_neg htime, if_pos hheld, hmake]
  exact Walk.one hstep

theorem walk_high (htime : ¬s.now < e) (hmake : s.make rights work .high = .ok t) :
    Walk (step rights work) 1 s (.making e) t .joining := by
  have hstep : step rights work s (.making e) = .goto t .joining [] := by
    simp only [step, if_neg htime, hmake]
  exact Walk.one hstep

/-- The tasks while only the lowest one has been made. -/
def lonely (threads : Host.Threads) (inherits : Bool) (holder : Option Role) (now : Nat)
    (held : Bool) (low : List Order) : Course :=
  ⟨now, threads, lockOf inherits holder, low, [], [], held, 0, .ok 0⟩

-- The lowest task obeys its orders while the first thread sleeps.
theorem walk_lonely {holder holder' : Option Role} {now' : Nat} {held held' : Bool} {o : Order}
    {low : List Order} (hp : now < e) (ho : o = .take → holder = none)
    (ht : (lonely threads inherits holder now held (o :: rest)).obey .low
      = lonely threads inherits holder' now' held' low) :
    Walk (step rights work) 1 (lonely threads inherits holder now held (o :: rest)) (.looking e)
      (lonely threads inherits holder' now' held' low) (.looking e) := by
  refine walk_turn rights work hp (running?_alone ?_ fun q hq => not_ready_of_nil (by
    cases q <;> first | rfl | exact absurd rfl hq)) ht
  by_cases htake : o = .take
  · rw [htake, ho htake]
    exact ready_of_take rfl rfl
  · exact ready_of_order rfl htake

/-- The lowest task takes the mutex, says so, and has worked for a millisecond when the
    first thread looks again. -/
theorem walk_begin (hlow : 0 < work .low) :
    Walk (step rights work) 5 (lonely threads inherits none 0 false (orders work .low))
      (.looking 0)
      (lonely threads inherits (some .low) 1 true [.workUntil (0 + work .low), .drop])
      (.looking 1) := by
  have hlook : Walk (step rights work) 1
      (lonely threads inherits none 0 false (orders work .low)) (.looking 0)
      (lonely threads inherits none 0 false (orders work .low)) (.looking 1) :=
    Walk.one (show step rights work _ _ = .goto _ _ [] from rfl)
  have htake : Walk (step rights work) 1
      (lonely threads inherits none 0 false (orders work .low)) (.looking 1)
      (lonely threads inherits (some .low) 0 false [.announce, .work (work .low), .drop])
      (.looking 1) :=
    walk_lonely work Nat.one_pos (fun _ => rfl) (obey_take rfl rfl)
  have hannounce : Walk (step rights work) 1
      (lonely threads inherits (some .low) 0 false [.announce, .work (work .low), .drop])
      (.looking 1) (lonely threads inherits (some .low) 0 true [.work (work .low), .drop])
      (.looking 1) :=
    walk_lonely work Nat.one_pos nofun rfl
  have hwork : Walk (step rights work) 1
      (lonely threads inherits (some .low) 0 true [.work (work .low), .drop]) (.looking 1)
      (lonely threads inherits (some .low) 0 true [.workUntil (0 + work .low), .drop])
      (.looking 1) :=
    walk_lonely work Nat.one_pos nofun rfl
  have hturn : Walk (step rights work) 1
      (lonely threads inherits (some .low) 0 true [.workUntil (0 + work .low), .drop]) (.looking 1)
      (lonely threads inherits (some .low) 1 true [.workUntil (0 + work .low), .drop])
      (.looking 1) :=
    walk_lonely work Nat.one_pos nofun (if_pos (by simp only [lonely]; omega))
  exact (((hlook.append htake).append hannounce).append hwork).append hturn

-- Nothing is lent as long as the highest task has not come for the mutex.
theorem lent_early {o : Order} (high : List Order) (ho : o ≠ .take)
    (hhigh : ∀ rest, high ≠ .take :: rest) (q : Role) :
    (scene threads inherits (some .low) now came waited [.workUntil e, .drop] [o] high).lent q
      = 0 := by
  refine lent_eq_zero fun u hu => absurd hu ?_
  rw [Bool.not_eq_true]
  cases u with
  | low => exact waits_of_order rfl nofun
  | middle => exact waits_of_order rfl ho
  | high =>
      cases high with
      | nil => exact waits_of_nil rfl
      | cons o rest => exact waits_of_order rfl fun h => hhigh rest (h ▸ rfl)

/-- The first thread makes the middle task, which keeps the lowest one from the CPU and
    has worked for a millisecond when the first thread goes on. -/
theorem walk_second {before : Host.Threads} (hmiddle : 0 < work .middle)
    (hmake : (lonely before inherits (some .low) now true [.workUntil e, .drop]).make rights work
      .middle = .ok (scene threads inherits (some .low) now 0 (.ok 0) [.workUntil e, .drop]
        [.work (work .middle)] [])) :
    Walk (step rights work) 3
      (lonely before inherits (some .low) now true [.workUntil e, .drop]) (.looking now)
      (scene threads inherits (some .low) (now + 1) 0 (.ok 0) [.workUntil e, .drop]
        [.workUntil (now + work .middle)] []) (.making (now + 1)) := by
  have hruns : ∀ o, o ≠ .take → (scene threads inherits (some .low) now 0 (.ok 0)
      [.workUntil e, .drop] [o] []).running? = some .middle := by
    intro o ho
    refine running?_of_priority (ready_of_order rfl ho) fun q hne hq =>
      ⟨?_, lent_early [] ho nofun q⟩
    cases q with
    | low => decide
    | middle => exact absurd rfl hne
    | high => exact absurd ((not_ready_of_nil rfl).symm.trans hq) Bool.false_ne_true
  have hset : Walk (step rights work) 1
      (scene threads inherits (some .low) now 0 (.ok 0) [.workUntil e, .drop]
        [.work (work .middle)] []) (.making (now + 1))
      (scene threads inherits (some .low) now 0 (.ok 0) [.workUntil e, .drop]
        [.workUntil (now + work .middle)] []) (.making (now + 1)) :=
    walk_turn rights work (Nat.lt_succ_self now) (hruns _ nofun) rfl
  have hturn : Walk (step rights work) 1
      (scene threads inherits (some .low) now 0 (.ok 0) [.workUntil e, .drop]
        [.workUntil (now + work .middle)] []) (.making (now + 1))
      (scene threads inherits (some .low) (now + 1) 0 (.ok 0) [.workUntil e, .drop]
        [.workUntil (now + work .middle)] []) (.making (now + 1)) :=
    walk_turn rights work (Nat.lt_succ_self now) (hruns _ nofun)
      (if_pos (by simp only [scene]; omega))
  exact ((walk_middle work (Nat.lt_irrefl now) rfl hmake).append hset).append hturn

/-- The first thread makes the highest task, which comes for the mutex at once. -/
theorem walk_third {before : Host.Threads} {o : Order} (ho : o ≠ .take)
    (hmake : (scene before inherits (some .low) now 0 (.ok 0) [.workUntil e, .drop] [o] []).make
      rights work .high = .ok (scene threads inherits (some .low) now 0 (.ok 0)
        [.workUntil e, .drop] [o] [.come, .take, .measure, .drop])) :
    Walk (step rights work) 2
      (scene before inherits (some .low) now 0 (.ok 0) [.workUntil e, .drop] [o] [])
      (.making now)
      (scene threads inherits (some .low) now now (.ok 0) [.workUntil e, .drop] [o]
        [.take, .measure, .drop]) .joining :=
  (walk_high work (Nat.lt_irrefl now) hmake).append
    (walk_turn rights work trivial (high_runs (fun q _ =>
      lent_early [.come, .take, .measure, .drop] ho nofun q) (ready_of_order rfl nofun)) rfl)

/-- The tasks come to the moment at which the highest one comes for the mutex: two
    milliseconds after the lowest one has begun, and one after the middle one. -/
theorem comes (h : Makes rights) (inherits : Bool) (threads : Host.Threads)
    (hlow : 0 < work .low) (hmiddle : 0 < work .middle) :
    ∃ s threads', (fresh threads (lockOf inherits none)).make rights work .low = .ok s ∧
      Walk (step rights work) 10 s (.looking 0) (scene threads' inherits (some .low) 2 2 (.ok 0)
        [.workUntil (0 + work .low), .drop] [.workUntil (1 + work .middle)]
        [.take, .measure, .drop]) .joining := by
  rcases make_ok work h (fresh threads (lockOf inherits none)) .low with ⟨t₁, hfirst⟩
  rcases make_ok work h (lonely t₁ inherits (some .low) 1 true
    [.workUntil (0 + work .low), .drop]) .middle with ⟨t₂, hsecond⟩
  rcases make_ok work h (scene t₂ inherits (some .low) 2 0 (.ok 0)
    [.workUntil (0 + work .low), .drop] [.workUntil (1 + work .middle)] []) .high with ⟨t₃, hthird⟩
  exact ⟨_, t₃, hfirst, ((walk_begin work hlow).append (walk_second work hmiddle hsecond)).append
    (walk_third work nofun hthird)⟩

/-- However long the tasks work, they come to their end, and the highest one reports how
    long it has waited. -/
theorem course_ends (h : Makes rights) (inherits : Bool) (threads : Host.Threads)
    (hlow : 0 < work .low) (hmiddle : 0 < work .middle) : ∃ s t notes,
    (fresh threads (lockOf inherits none)).make rights work .low = .ok s ∧
    runSteps (step rights work) (steps work) s (.looking 0) []
      = ⟨t, .inr (.ok (wait inherits (work .low - 2) (work .middle - 1))), notes⟩ ∧
    t.held = true := by
  rcases comes work h inherits threads hlow hmiddle with ⟨s, threads', hmake, hcomes⟩
  rcases high_waits rights work inherits with ⟨n, t, hn, hwaits, hdone, hheld⟩
  rcases runSteps_walk _ (hcomes.append hwaits) with ⟨notes, hrun⟩
  have hfuel : steps work = 10 + n + ((steps work - 11 - n) + 1) := by
    simp only [steps]
    omega
  refine ⟨s, t, [] ++ notes ++ [], hmake, ?_, hheld⟩
  rw [hfuel, hrun, runSteps_done _ _ _ _ _ _ _ _ hdone, Nat.zero_add, Nat.add_comm 1,
    Nat.add_sub_add_right (work .middle) 1 1]

end Walks

end Course

/-- A task gets the attributes that it asks for, where priorities may be used and the
    first CPU is there. -/
theorem wishes_granted {rights : Host.Rights} (hrealtime : rights.realtime = true)
    (hcpu : rights.cpus.contains 0 = true) (r : Role) (s : Host.Threads)
    (hhere : (s.thread r.thread).gone = false) :
    (Control.applyWishes ⟨r.thread, r.thread, rights⟩ s r.attr).2.1 = .ok () := by
  have hplace : ((CpuSet.ofList [0]).inter rights.cpus).isEmpty = false := by
    have hboth := CpuSet.contains_inter (CpuSet.ofList [0]) rights.cpus 0
    rw [hcpu, Bool.and_true] at hboth
    rw [Bool.eq_false_iff, CpuSet.isEmpty, ne_eq, beq_iff_eq]
    intro hempty
    rw [CpuSet.contains, hempty] at hboth
    exact absurd hboth (by decide)
  have hname : ∃ s', Control.setNameWish ⟨r.thread, r.thread, rights⟩ s r.attr.name
      = (s', .ok (), []) ∧ (s'.thread r.thread).gone = false := by
    refine ⟨s.put r.thread { s.thread r.thread with name := r.name }, ?_, ?_⟩
    · cases r <;> rfl
    · rw [Host.Threads.put_self]
      exact hhere
  rcases hname with ⟨s₁, hname, hstill⟩
  have hsched : ∃ s', Control.setSched ⟨r.thread, r.thread, rights⟩ s₁ r.attr.policy
      r.attr.priority = (s', .ok (), []) := by
    refine ⟨s₁.put r.thread { s₁.thread r.thread with policy := .fifo, priority := r.priority }, ?_⟩
    unfold Control.setSched Host.Threads.setSched
    rw [hstill, hrealtime]
    cases r <;> rfl
  rcases hsched with ⟨s₂, hsched⟩
  have haffinity : (Control.setAffinity ⟨r.thread, r.thread, rights⟩ s₂ r.attr.affinity).2.1
      = .ok () := by
    rw [Control.setAffinity, show r.attr.affinity = CpuSet.ofList [0] by cases r <;> rfl,
      Host.Threads.setAffinity]
    simp only [hplace]
    rfl
  have hwants : r.attr.wantsSched = true := by cases r <;> rfl
  simp only [Control.applyWishes, hname, Control.andThen, hwants, if_true, hsched]
  exact haffinity

/-- The host makes the tasks of a process that may use priorities, as long as there is
    memory for a stack and the first CPU. -/
theorem makes_of_rights {rights : Host.Rights} (hrealtime : rights.realtime = true)
    (hstack : rights.stackLeft = true) (hcpu : rights.cpus.contains 0 = true) : Makes rights := by
  intro r threads
  have hhere : ((threads.spawn 1 r.thread).thread r.thread).gone = false := by
    rw [Host.Threads.spawn, Host.Threads.put_self]
  have hanswer := (Startup.run_eq ⟨r.thread, r.thread, rights⟩ r.attr
    (threads.spawn 1 r.thread)).2
  rw [wishes_granted hrealtime hcpu r _ hhere] at hanswer
  rw [launch, if_pos hstack]
  rcases hrun : Startup.run ⟨r.thread, r.thread, rights⟩ r.attr (threads.spawn 1 r.thread) with
    ⟨threads', answer, notes⟩
  rw [hrun] at hanswer
  exact ⟨threads', r.thread, notes, by rw [show answer = .ok r.thread from hanswer]⟩

/-- The program runs to its end and prints how long the highest task has waited: for
    the rest of the work of the lowest one, or for that of the middle one. -/
theorem run_success {rights : Host.Rights} (h : Makes rights) (threads : Host.Threads)
    (args : List String) : run rights threads args
      = .success (title (!args.contains plainArgument) ++ "[LOW] holding\n"
        ++ report (wait (!args.contains plainArgument) 998 4999)) := by
  unfold run
  generalize (!args.contains plainArgument) = inherits
  rcases Course.course_ends programWork h inherits threads (by decide) (by decide) with
    ⟨s, t, notes, hmake, hrun, hheld⟩
  simp only [create_lockOf, hmake, hrun, printed, hheld, if_true]
  rfl

end Inversion

end Demo

end HostLayer
