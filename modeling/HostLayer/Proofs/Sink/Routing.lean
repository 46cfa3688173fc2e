import HostLayer.Host.Mutex
import HostLayer.Proofs.Ring.Opening
import HostLayer.Proofs.Routine
import HostLayer.Proofs.Schedule
import HostLayer.Sink

/-!
# Routing

Where messages go while the sink is set up and closed under way.

The threads of a process format messages, read them, set the sink up and close it,
all at once. None of these calls is a single step. Whoever sets the sink up first
opens or makes a ring, in many host calls, and then puts it into the sink. Whoever
has formatted a message first looks where it goes and then hands it over there, and
whoever reads looks where messages come from. Between any two steps others can do
theirs, and other processes can change the objects of the host as they like.

The rings are those of the host, but a ring need not be sound. What a writer does
in a step is a parameter here, so that writing can fail, as it does where the lock
of a ring cannot be had. With `Ring.writeStep` for it, a message that nobody
disturbs does what `Sink.emit` says (`Outlet.emit_alone`), and a sink that is set
up alone becomes what `Sink.setup` makes of it (`Outlet.setup_alone`).

All that matters about the past is which ring was put into the sink last and
whether the sink was closed since (`Outlet.current`). A thread that has looked
keeps to what it has found, and this is what is kept along a run: every thread on
its way to a destination has found it at its last look, and it was the current one
then (`Outlet.Found`).

## Main definitions

* `Ring.Writer`: What a writer does in a step.
* `Outlet.Errand`, `Outlet`: What a thread is about, and the process.
* `Outlet.Act`, `Outlet.Seen`, `Outlet.step`: What can happen, and what is seen.
* `Outlet.current`: The destination, from what has been seen.
* `Outlet.Happened`: What an act can come to.
* `Outlet.Found`, `Outlet.Right`, `Outlet.Kept`: What is kept along every run.
* `Outlet.Relayed`, `Outlet.Routed`: What can be relied on.

## Theorems

* `Outlet.emit_alone`, `Outlet.setup_alone`: Calls that nobody disturbs.
* `Outlet.step_happened`: The cases of a step.
* `Outlet.happened_kept`, `Outlet.play_kept`: What a step keeps, and a run.
* `Outlet.messages_routed`: Where all messages go, for every run.
-/

namespace HostLayer

/-- What a writer does to the memory of a ring in one step. -/
abbrev Ring.Writer : Type :=
  Ring.Geometry → List UInt8 → Memory → Ring.Write → Step Memory Ring.Write (Answer Unit)

namespace Outlet

/-- Where a thread stands in a call on the sink. -/
inductive Errand
  /-- A ring is being opened or made. -/
  | making (r : RingHandle.Request) (p : RingHandle.Place)
  /-- The ring is there, and the sink is about to get it. -/
  | made (h : RingHandle)
  /-- The fragments of a message are together. -/
  | formatted (fragments : List (List UInt8))
  /-- The message is about to be printed. -/
  | printing (fragments : List (List UInt8))
  /-- The message is being written to a ring. -/
  | writing (fragments : List (List UInt8)) (h : RingHandle) (p : Ring.Write)
  /-- A message is wanted. -/
  | seeking (room : Nat) (deadline : Option Timer)
  /-- A message is being read from a ring. -/
  | reading (h : RingHandle) (room : Nat) (deadline : Option Timer) (p : Ring.Read)

/-- The destination that the thread has found. -/
def Errand.aim : Errand → Option Sink.Destination
  | .printing _ => some .standardOutput
  | .writing _ h _ => some (.ring h)
  | .reading h _ _ _ => some (.ring h)
  | _ => none

end Outlet

/-- A process with its sink, the objects of the host, what has been printed, and what
    the threads are about. -/
structure Outlet where
  sink : Sink
  objects : ObjectShelf
  printed : List UInt8
  errands : ThreadId → Option Outlet.Errand

namespace Outlet

open Sink (Destination)

/-- The thread is about something else. -/
def turn (s : Outlet) (t : ThreadId) (e : Option Errand) : Outlet :=
  { s with errands := fun u => if u = t then e else s.errands u }

/-- The objects of the host are as given. -/
def renew (s : Outlet) (objects : ObjectShelf) : Outlet :=
  { s with objects := objects }

/-- What can happen. -/
inductive Act
  /-- A thread begins to set the sink up. -/
  | setup (t : ThreadId) (descriptorLeft : Bool) (name : String) (g : Ring.Geometry)
  | close
  /-- A thread formats a message. -/
  | emit (t : ThreadId) (fragments : List (List UInt8))
  /-- A thread begins to read a message into a buffer of `room` bytes. -/
  | get (t : ThreadId) (room : Nat) (deadline : Option Timer)
  /-- A thread makes its next step, with deadlines on the clock `source`. -/
  | move (t : ThreadId) (deviceFull : Bool) (source : ClockSource) (clock : Clock)
  /-- A signal arrives at a thread that reads. -/
  | signal (t : ThreadId)
  /-- Somebody else changes the objects of the host. -/
  | meddle (objects : ObjectShelf)

/-- What is seen. -/
inductive Seen
  /-- A call to set the sink up is over. -/
  | setUp (t : ThreadId) (answer : Answer RingHandle)
  | closed
  /-- A thread has looked where messages go. -/
  | looked (t : ThreadId) (d : Destination)
  /-- A message has been handed over. -/
  | emitted (t : ThreadId) (fragments : List (List UInt8)) (d : Destination)
      (message : List UInt8) (answer : Answer Unit)
  /-- A call to read a message is over. -/
  | got (t : ThreadId) (d : Destination) (answer : Answer (List UInt8))

/-- The thread that has done what is seen, if it matters. -/
def Seen.thread : Seen → Option ThreadId
  | .setUp t _ => some t
  | .closed => none
  | .looked t _ => some t
  | .emitted t _ _ _ _ => some t
  | .got t _ _ => some t

/-- Where messages go from now on, if that changes. -/
def Seen.redirect : Seen → Option Destination
  | .setUp _ (.ok h) => some (.ring h)
  | .closed => some .standardOutput
  | _ => none

/-- What is printed. -/
def Seen.output : Seen → List UInt8
  | .emitted _ _ .standardOutput message (.ok ()) => message
  | _ => []

/-- The step of a thread at the ring `h`, from what it does to the memory of the ring. -/
def relay (s : Outlet) (t : ThreadId) (h : RingHandle) {π α : Type} (x : Step Memory π α)
    (errand : π → Errand) (seen : α → Seen) : Option (Outlet × List Seen) :=
  match x with
  | .goto m q _ => some ((s.turn t (some (errand q))).renew (s.objects.put h.object m), [])
  | .done m answer _ => some ((s.turn t none).renew (s.objects.put h.object m), [seen answer])
  | .waits => none

/-- The step of a thread that is about something. -/
def proceed (writer : Ring.Writer) (s : Outlet) (t : ThreadId) (deviceFull : Bool)
    (source : ClockSource) (clock : Clock) : Errand → Option (Outlet × List Seen)
  | .making r p =>
      match RingHandle.createStep r s.objects p with
      | .goto objects q _ => some ((s.turn t (some (.making r q))).renew objects, [])
      | .done objects (.ok h) _ => some ((s.turn t (some (.made h))).renew objects, [])
      | .done objects (.error e) _ =>
          some ((s.turn t none).renew objects, [.setUp t (.error e)])
      | .waits => none
  | .made h =>
      some ({ s.turn t none with sink := (s.sink.replace (.ring h)).1 }, [.setUp t (.ok h)])
  | .formatted fragments =>
      match s.sink.load with
      | .standardOutput => some (s.turn t (some (.printing fragments)), [.looked t .standardOutput])
      | .ring h => some (s.turn t (some (.writing fragments h .storing)), [.looked t (.ring h)])
  | .printing fragments =>
      match Sink.print deviceFull (Sink.format fragments) with
      | .ok () => some ({ s.turn t none with printed := s.printed ++ Sink.format fragments },
          [.emitted t fragments .standardOutput (Sink.format fragments) (.ok ())])
      | .error e => some (s.turn t none,
          [.emitted t fragments .standardOutput (Sink.format fragments) (.error e)])
  | .writing fragments h p =>
      s.relay t h (writer h.geometry (Sink.format fragments) (s.objects.memory h.object) p)
        (.writing fragments h) (.emitted t fragments (.ring h) (Sink.format fragments))
  | .seeking room deadline =>
      match s.sink.source with
      | .ok h => some (s.turn t (some (.reading h room deadline Ring.Read.start)),
          [.looked t (.ring h)])
      | .error e => some (s.turn t none, [.looked t s.sink.load, .got t s.sink.load (.error e)])
  | .reading h room deadline p =>
      s.relay t h (Ring.readStep h.geometry room source deadline clock (s.objects.memory h.object) p)
        (.reading h room deadline) (.got t (.ring h))

/-- What an act does, and what is seen of it. A thread begins a call only where it is
    about nothing else. -/
def step (writer : Ring.Writer) (s : Outlet) : Act → Option (Outlet × List Seen)
  | .setup t left name g =>
      match s.errands t with
      | some _ => none
      | none =>
          if ¬g.Valid then some (s, [.setUp t (.error .invalidParam)])
          else match ObjectName.check (ObjectName.withSlash name) with
            | .error e => some (s, [.setUp t (.error e)])
            | .ok host => some (s.turn t (some (.making ⟨name, host, g, left⟩ RingHandle.start)), [])
  | .close => some ({ s with sink := s.sink.close }, [.closed])
  | .emit t fragments =>
      match s.errands t with
      | some _ => none
      | none => some (s.turn t (some (.formatted fragments)), [])
  | .get t room deadline =>
      match s.errands t with
      | some _ => none
      | none => some (s.turn t (some (.seeking room deadline)), [])
  | .move t deviceFull source clock =>
      match s.errands t with
      | some e => proceed writer s t deviceFull source clock e
      | none => none
  | .signal t =>
      match s.errands t with
      | some (.reading h room deadline p) =>
          some (s.turn t (some (.reading h room deadline (Ring.readInterrupted p))), [])
      | _ => none
  | .meddle objects => some (s.renew objects, [])

/-- The destination after what has been seen, with `d` before: the ring that the sink
    got last, or the standard output if it was closed since. -/
def current (d : Destination) (es : List Seen) : Destination :=
  (es.filterMap Seen.redirect).getLast?.getD d

theorem current_append (d : Destination) (es fs : List Seen) :
    current d (es ++ fs) = current (current d es) fs := by
  rw [current, List.filterMap_append, List.getLast?_append]
  cases h : (fs.filterMap Seen.redirect).getLast? <;> simp only [current, h, Option.some_or,
    Option.none_or, Option.getD_some, Option.getD_none]

theorem turn_self (s : Outlet) (t : ThreadId) (e : Option Errand) :
    (s.turn t e).errands t = e := if_pos rfl

theorem turn_other (s : Outlet) {t u : ThreadId} (e : Option Errand) (h : u ≠ t) :
    (s.turn t e).errands u = s.errands u := if_neg h

theorem turn_turn (s : Outlet) (t : ThreadId) (e f : Option Errand) :
    (s.turn t e).turn t f = s.turn t f := by
  simp only [turn, Outlet.mk.injEq, true_and]
  funext u
  split_ifs <;> rfl

-- Threads and objects are changed apart.
theorem renew_turn (s : Outlet) (objects : ObjectShelf) (t : ThreadId) (e : Option Errand) :
    (s.renew objects).turn t e = (s.turn t e).renew objects := rfl

theorem renew_objects (s : Outlet) (objects : ObjectShelf) :
    (s.renew objects).objects = objects := rfl

theorem renew_renew (s : Outlet) (objects objects' : ObjectShelf) :
    (s.renew objects).renew objects' = s.renew objects' := rfl

-- A thread that is through is about nothing, as it was before.
theorem turn_none {s : Outlet} {t : ThreadId} (h : s.errands t = none) : s.turn t none = s := by
  have herrands : (fun u => if u = t then none else s.errands u) = s.errands := by
    funext u
    split_ifs with hu
    · rw [hu, h]
    · rfl
  rw [turn, herrands]

section Alone

variable {s : Outlet} {t : ThreadId} (full : Bool) (source : ClockSource) (clock : Clock)

theorem move_eq {writer : Ring.Writer} {e : Errand} (h : s.errands t = some e) :
    step writer s (.move t full source clock) = proceed writer s t full source clock e := by
  simp only [step, h]

-- A writer that nobody disturbs puts its message in, and then a token.
theorem write_alone (objects : ObjectShelf) (h : RingHandle) (message : List UInt8) :
    ∃ m more, Ring.writeStep h.geometry message
        (Ring.insert h.geometry (objects.memory h.object) message).1 .posting = .done m (.ok ()) more ∧
      h.write objects message = (objects.put h.object m, .ok (),
        (Ring.insert h.geometry (objects.memory h.object) message).2 ++ more) := by
  have hend : ∀ m : Memory, ∃ m' more,
      Ring.writeStep h.geometry message m .posting = .done m' (.ok ()) more := by
    intro m
    simp only [Ring.writeStep]
    split
    next => exact ⟨_, _, rfl⟩
    next => exact ⟨_, _, rfl⟩
  rcases hend (Ring.insert h.geometry (objects.memory h.object) message).1 with ⟨m, more, hpost⟩
  refine ⟨m, more, hpost, ?_⟩
  have hstore : Ring.writeStep h.geometry message (objects.memory h.object) .storing
      = .goto (Ring.insert h.geometry (objects.memory h.object) message).1 .posting
        (Ring.insert h.geometry (objects.memory h.object) message).2 := rfl
  simp only [RingHandle.write, Ring.write, Ring.writeSteps, runSteps, hstore, hpost,
    List.nil_append]

/-- A message that nobody disturbs goes where `Sink.emit` sends it. -/
theorem emit_alone (hidle : s.errands t = none) (fragments : List (List UInt8)) : ∃ n,
    Schedule.play (step Ring.writeStep) s
      (.emit t fragments :: List.replicate n (.move t full source clock))
      = some ({ s with
          objects := (s.sink.emit s.objects full fragments).objects
          printed := s.printed ++ (s.sink.emit s.objects full fragments).printed },
        [.looked t s.sink.load, .emitted t fragments s.sink.load (Sink.format fragments)
          (s.sink.emit s.objects full fragments).answer]) := by
  have hbegin : step Ring.writeStep s (.emit t fragments)
      = some (s.turn t (some (.formatted fragments)), []) := by simp only [step, hidle]
  rcases hd : s.sink.load with _ | h
  · -- The message is printed, or the device does not take it.
    have hlook : step Ring.writeStep (s.turn t (some (.formatted fragments)))
        (.move t full source clock)
        = some (s.turn t (some (.printing fragments)), [.looked t .standardOutput]) := by
      have hload : (s.turn t (some (.formatted fragments))).sink.load = .standardOutput := hd
      rw [move_eq full source clock (turn_self s t _), proceed, hload]
      simp only [turn_turn]
    refine ⟨2, Schedule.play_cons hbegin (Schedule.play_cons hlook (Schedule.play_one ?_))⟩
    rw [move_eq full source clock (turn_self s t _)]
    rcases hp : Sink.print full (Sink.format fragments) with e | ⟨⟩
    · simp only [proceed, Sink.emit, hd, hp, turn_turn, turn_none hidle, List.append_nil]
    · simp only [proceed, Sink.emit, hd, hp, turn_turn, turn_none hidle]
      rfl
  · -- The message is written in two steps.
    rcases write_alone s.objects h (Sink.format fragments) with ⟨m, more, hpost, hwrite⟩
    have hlook : step Ring.writeStep (s.turn t (some (.formatted fragments)))
        (.move t full source clock)
        = some (s.turn t (some (.writing fragments h .storing)), [.looked t (.ring h)]) := by
      have hload : (s.turn t (some (.formatted fragments))).sink.load = .ring h := hd
      rw [move_eq full source clock (turn_self s t _), proceed, hload]
      simp only [turn_turn]
    have hstore : step Ring.writeStep (s.turn t (some (.writing fragments h .storing)))
        (.move t full source clock)
        = some ((s.turn t (some (.writing fragments h .posting))).renew (s.objects.put h.object
          (Ring.insert h.geometry (s.objects.memory h.object) (Sink.format fragments)).1), []) := by
      rw [move_eq full source clock (turn_self s t _)]
      simp only [proceed, relay, Ring.writeStep, turn_turn]
      rfl
    refine ⟨3, Schedule.play_cons hbegin (Schedule.play_cons hlook
      (Schedule.play_cons hstore (Schedule.play_one ?_)))⟩
    rw [move_eq full source clock (if_pos rfl)]
    simp only [proceed, relay, renew_objects, ObjectShelf.put_memory_self, hpost, ObjectShelf.put_put,
      renew_turn, renew_renew, turn_turn, turn_none hidle, Sink.emit, hd, hwrite, List.append_nil]
    rfl

-- The ring is there after as many steps as it takes.
theorem making_run (writer : Ring.Writer) (r : RingHandle.Request) (h : RingHandle) :
    ∀ (fuel : Nat) (objects : ObjectShelf) (p : RingHandle.Place) (notes : List Note),
      (runSteps (RingHandle.createStep r) fuel objects p notes).outcome = .inr (.ok h) →
      ∃ n, Schedule.play (step writer) ((s.turn t (some (.making r p))).renew objects)
        (List.replicate n (.move t full source clock))
        = some ((s.turn t (some (.made h))).renew
            (runSteps (RingHandle.createStep r) fuel objects p notes).state, []) := by
  intro fuel
  induction fuel with
  | zero =>
      intro objects p notes hout
      exact absurd hout (by simp only [runSteps, reduceCtorEq, not_false_eq_true])
  | succ fuel ih =>
      intro objects p notes hout
      have hmove : step writer ((s.turn t (some (.making r p))).renew objects)
          (.move t full source clock) = _ := move_eq full source clock (turn_self s t _)
      cases hs : RingHandle.createStep r objects p with
      | goto objects' q more =>
          simp only [runSteps, hs] at hout ⊢
          simp only [proceed, renew_objects, hs, renew_turn, renew_renew, turn_turn] at hmove
          rcases ih objects' q (notes ++ more) hout with ⟨n, hrest⟩
          exact ⟨n + 1, Schedule.play_cons hmove hrest⟩
      | done objects' answer more =>
          rw [runSteps_done _ _ _ _ _ _ _ _ hs, Sum.inr.injEq] at hout
          rw [hout] at hs
          simp only [proceed, renew_objects, hs, renew_turn, renew_renew, turn_turn] at hmove
          refine ⟨1, ?_⟩
          rw [runSteps_done _ _ _ _ _ _ _ _ hs]
          exact Schedule.play_one hmove
      | waits =>
          simp only [runSteps, hs] at hout
          exact absurd hout (by simp only [reduceCtorEq, not_false_eq_true])

/-- A sink that is set up alone becomes what `Sink.setup` makes of it. -/
theorem setup_alone (writer : Ring.Writer) (hidle : s.errands t = none) {left : Bool}
    {name : String} {g : Ring.Geometry} {k : Sink} {objects : ObjectShelf} {notes : List Note}
    (hsetup : s.sink.setup s.objects left name g = (k, objects, .ok (), notes)) : ∃ n h,
    Schedule.play (step writer) s
      (.setup t left name g :: (List.replicate n (.move t full source clock) ++
        [.move t full source clock]))
      = some ({ s with sink := k, objects := objects }, [.setUp t (.ok h)]) := by
  unfold Sink.setup at hsetup
  split at hsetup
  next _ _ h _ hcreate =>
    simp only [Prod.mk.injEq] at hsetup
    rcases hsetup with ⟨rfl, rfl, -, -⟩
    unfold RingHandle.create at hcreate
    by_cases hg : g.Valid
    case neg =>
      rw [if_pos hg] at hcreate
      exact absurd hcreate RingHandle.refused_ne
    rw [if_neg (not_not_intro hg)] at hcreate
    rcases hname : ObjectName.check (ObjectName.withSlash name) with e | host
    · rw [hname] at hcreate
      exact absurd hcreate RingHandle.refused_ne
    simp only [hname] at hcreate
    split at hcreate
    next answer hout =>
      simp only [Prod.mk.injEq] at hcreate
      rcases hcreate with ⟨rfl, rfl, -⟩
      have hbegin : step writer s (.setup t left name g)
          = some (s.turn t (some (.making ⟨name, host, g, left⟩ RingHandle.start)), []) := by
        simp only [step, hidle, if_neg (not_not_intro hg), hname]
      rcases making_run full source clock writer ⟨name, host, g, left⟩ h RingHandle.createSteps
        s.objects RingHandle.start [] hout with ⟨n, hmaking⟩
      refine ⟨n, h, Schedule.play_cons hbegin (Schedule.play_append _ _ _ _ _ _ [] _ hmaking
        (Schedule.play_one ?_))⟩
      rw [move_eq full source clock (if_pos rfl)]
      simp only [proceed, renew_turn, turn_turn, turn_none hidle]
      rfl
    next => exact absurd hcreate RingHandle.refused_ne
  next => exact absurd hsetup (by simp only [Prod.mk.injEq, reduceCtorEq, false_and, and_false,
      not_false_eq_true])

end Alone

/-- What acts do. -/
inductive Happened (s : Outlet) : Outlet → List Seen → Prop
  | began (t : ThreadId) (e : Errand) (he : e.aim = none) : Happened s (s.turn t (some e)) []
  /-- The sink is not set up. -/
  | refused (t : ThreadId) (e : Error) (objects : ObjectShelf) :
      Happened s ((s.turn t none).renew objects) [.setUp t (.error e)]
  | installed (t : ThreadId) (h : RingHandle) :
      Happened s { s.turn t none with sink := ⟨.ring h⟩ } [.setUp t (.ok h)]
  | closed : Happened s { s with sink := s.sink.close } [.closed]
  | meddled (objects : ObjectShelf) : Happened s (s.renew objects) []
  /-- A thread goes on, and keeps the destination that it has found. -/
  | worked (t : ThreadId) (e f : Errand) (objects : ObjectShelf) (he : s.errands t = some e)
      (haim : f.aim = e.aim) : Happened s ((s.turn t (some f)).renew objects) []
  | looked (t : ThreadId) (e : Errand) (d : Destination) (hd : s.sink.load = d)
      (haim : e.aim = some d) : Happened s (s.turn t (some e)) [.looked t d]
  | printed (t : ThreadId) (fragments : List (List UInt8))
      (he : s.errands t = some (.printing fragments)) :
      Happened s { s.turn t none with printed := s.printed ++ Sink.format fragments }
        [.emitted t fragments .standardOutput (Sink.format fragments) (.ok ())]
  /-- A message has been handed to a ring, or has not been printed. -/
  | emitted (t : ThreadId) (e : Errand) (fragments : List (List UInt8)) (d : Destination)
      (answer : Answer Unit) (objects : ObjectShelf) (he : s.errands t = some e)
      (haim : e.aim = some d)
      (hout : (Seen.emitted t fragments d (Sink.format fragments) answer).output = []) :
      Happened s ((s.turn t none).renew objects)
        [.emitted t fragments d (Sink.format fragments) answer]
  /-- There is no ring to read from. -/
  | nowhere (t : ThreadId) (hd : s.sink.load = .standardOutput) :
      Happened s (s.turn t none)
        [.looked t .standardOutput, .got t .standardOutput (.error .unavailable)]
  | got (t : ThreadId) (e : Errand) (h : RingHandle) (answer : Answer (List UInt8))
      (objects : ObjectShelf) (he : s.errands t = some e) (haim : e.aim = some (.ring h)) :
      Happened s ((s.turn t none).renew objects) [.got t (.ring h) answer]

-- The step of a thread that is about something.
theorem proceed_happened {writer : Ring.Writer} {s s' : Outlet} {t : ThreadId} {full : Bool}
    {source : ClockSource} {clock : Clock} {e : Errand} {es : List Seen}
    (he : s.errands t = some e)
    (h : proceed writer s t full source clock e = some (s', es)) : Happened s s' es := by
  cases e with
  | making r p =>
      simp only [proceed] at h
      split at h
      next objects q _ _ =>
        simp only [Option.some.injEq, Prod.mk.injEq] at h
        rcases h with ⟨rfl, rfl⟩
        exact .worked t _ (.making r q) objects he rfl
      next objects ring _ _ =>
        simp only [Option.some.injEq, Prod.mk.injEq] at h
        rcases h with ⟨rfl, rfl⟩
        exact .worked t _ (.made ring) objects he rfl
      next objects e _ _ =>
        simp only [Option.some.injEq, Prod.mk.injEq] at h
        rcases h with ⟨rfl, rfl⟩
        exact .refused t e objects
      next => exact absurd h (by simp only [reduceCtorEq, not_false_eq_true])
  | made ring =>
      simp only [proceed, Option.some.injEq, Prod.mk.injEq] at h
      rcases h with ⟨rfl, rfl⟩
      exact .installed t ring
  | formatted fragments =>
      simp only [proceed] at h
      split at h
      next hd =>
        simp only [Option.some.injEq, Prod.mk.injEq] at h
        rcases h with ⟨rfl, rfl⟩
        exact .looked t _ _ hd rfl
      next ring hd =>
        simp only [Option.some.injEq, Prod.mk.injEq] at h
        rcases h with ⟨rfl, rfl⟩
        exact .looked t _ _ hd rfl
  | printing fragments =>
      simp only [proceed] at h
      split at h
      next =>
        simp only [Option.some.injEq, Prod.mk.injEq] at h
        rcases h with ⟨rfl, rfl⟩
        exact .printed t fragments he
      next e _ =>
        simp only [Option.some.injEq, Prod.mk.injEq] at h
        rcases h with ⟨rfl, rfl⟩
        exact .emitted t _ fragments .standardOutput (.error e) s.objects he rfl rfl
  | writing fragments ring p =>
      simp only [proceed, relay] at h
      split at h
      next m q _ _ =>
        simp only [Option.some.injEq, Prod.mk.injEq] at h
        rcases h with ⟨rfl, rfl⟩
        exact .worked t _ (.writing fragments ring q) _ he rfl
      next m answer _ _ =>
        simp only [Option.some.injEq, Prod.mk.injEq] at h
        rcases h with ⟨rfl, rfl⟩
        exact .emitted t _ fragments (.ring ring) answer _ he rfl rfl
      next => exact absurd h (by simp only [reduceCtorEq, not_false_eq_true])
  | seeking room deadline =>
      simp only [proceed, Sink.source] at h
      rcases hd : s.sink.load with _ | ring
      · simp only [hd, Option.some.injEq, Prod.mk.injEq] at h
        rcases h with ⟨rfl, rfl⟩
        exact .nowhere t hd
      · simp only [hd, Option.some.injEq, Prod.mk.injEq] at h
        rcases h with ⟨rfl, rfl⟩
        exact .looked t _ _ hd rfl
  | reading ring room deadline p =>
      simp only [proceed, relay] at h
      split at h
      next m q _ _ =>
        simp only [Option.some.injEq, Prod.mk.injEq] at h
        rcases h with ⟨rfl, rfl⟩
        exact .worked t _ (.reading ring room deadline q) _ he rfl
      next m answer _ _ =>
        simp only [Option.some.injEq, Prod.mk.injEq] at h
        rcases h with ⟨rfl, rfl⟩
        exact .got t _ ring answer _ he rfl
      next => exact absurd h (by simp only [reduceCtorEq, not_false_eq_true])

/-- A step does what acts do. -/
theorem step_happened {writer : Ring.Writer} {s s' : Outlet} {a : Act} {es : List Seen}
    (h : step writer s a = some (s', es)) : Happened s s' es := by
  cases a with
  | setup t left name g =>
      simp only [step] at h
      split at h
      next => exact absurd h (by simp only [reduceCtorEq, not_false_eq_true])
      next hidle =>
        -- A call that is refused at once leaves its thread idle.
        have hrefused : ∀ e, Happened s s [.setUp t (.error e)] := fun e => by
          have h := Happened.refused (s := s) t e s.objects
          rwa [turn_none hidle] at h
        split_ifs at h
        · split at h
          next e _ =>
            simp only [Option.some.injEq, Prod.mk.injEq] at h
            rcases h with ⟨rfl, rfl⟩
            exact hrefused e
          next =>
            simp only [Option.some.injEq, Prod.mk.injEq] at h
            rcases h with ⟨rfl, rfl⟩
            exact .began t _ rfl
        · simp only [Option.some.injEq, Prod.mk.injEq] at h
          rcases h with ⟨rfl, rfl⟩
          exact hrefused .invalidParam
  | close =>
      simp only [step, Option.some.injEq, Prod.mk.injEq] at h
      rcases h with ⟨rfl, rfl⟩
      exact .closed
  | emit t fragments =>
      simp only [step] at h
      split at h
      next => exact absurd h (by simp only [reduceCtorEq, not_false_eq_true])
      next =>
        simp only [Option.some.injEq, Prod.mk.injEq] at h
        rcases h with ⟨rfl, rfl⟩
        exact .began t _ rfl
  | get t room deadline =>
      simp only [step] at h
      split at h
      next => exact absurd h (by simp only [reduceCtorEq, not_false_eq_true])
      next =>
        simp only [Option.some.injEq, Prod.mk.injEq] at h
        rcases h with ⟨rfl, rfl⟩
        exact .began t _ rfl
  | move t full source clock =>
      simp only [step] at h
      split at h
      next e he => exact proceed_happened he h
      next => exact absurd h (by simp only [reduceCtorEq, not_false_eq_true])
  | signal t =>
      simp only [step] at h
      split at h
      next ring room deadline p he =>
        simp only [Option.some.injEq, Prod.mk.injEq] at h
        rcases h with ⟨rfl, rfl⟩
        exact .worked t _ (.reading ring room deadline (Ring.readInterrupted p)) s.objects he rfl
      next => exact absurd h (by simp only [reduceCtorEq, not_false_eq_true])
  | meddle objects =>
      simp only [step, Option.some.injEq, Prod.mk.injEq] at h
      rcases h with ⟨rfl, rfl⟩
      exact .meddled objects

/-- The thread has found the destination `d` at its last look, which was the current one
    then, and has done nothing since. -/
def Found (d₀ : Destination) (es : List Seen) (t : ThreadId) (d : Destination) : Prop :=
  ∃ before after, es = before ++ .looked t d :: after ∧ d = current d₀ before ∧
    ∀ e ∈ after, e.thread ≠ some t

/-- What is seen is as it should be, after everything that has been seen before. -/
def Right (d₀ : Destination) (before : List Seen) : Seen → Prop
  | .looked _ d => d = current d₀ before
  | .emitted t fragments d message _ =>
      message = fragments.flatten.take Limits.formatted ∧ Found d₀ before t d
  | .got t d answer => Found d₀ before t d ∧ (d = .standardOutput → answer = .error .unavailable)
  | _ => True

/-- Everything that has been seen is as it should be. -/
def AllRight (d₀ : Destination) (es : List Seen) : Prop :=
  ∀ before e after, es = before ++ e :: after → Right d₀ before e

theorem AllRight.snoc {d₀ : Destination} {es : List Seen} {e : Seen} (h : AllRight d₀ es)
    (he : Right d₀ es e) : AllRight d₀ (es ++ [e]) := by
  intro before f after heq
  rcases List.eq_nil_or_concat after with rfl | ⟨after, last, rfl⟩
  · rcases List.append_inj' heq rfl with ⟨rfl, hlast⟩
    rw [← List.cons.inj hlast |>.1]
    exact he
  · rw [List.concat_eq_append, ← List.cons_append, ← List.append_assoc] at heq
    exact h before f after (List.append_inj' heq rfl).1

theorem Found.append {d₀ d : Destination} {es fs : List Seen} {t : ThreadId}
    (h : Found d₀ es t d) (hfs : ∀ e ∈ fs, e.thread ≠ some t) : Found d₀ (es ++ fs) t d := by
  rcases h with ⟨before, after, rfl, hd, hafter⟩
  refine ⟨before, after ++ fs, by rw [List.append_assoc, List.cons_append], hd, fun e he => ?_⟩
  exact (List.mem_append.mp he).elim (hafter e) (hfs e)

-- Whoever looks finds the current destination.
theorem Found.now {d₀ d : Destination} {es : List Seen} {t : ThreadId} (h : d = current d₀ es) :
    Found d₀ (es ++ [.looked t d]) t d :=
  ⟨es, [], rfl, h, List.forall_mem_nil _⟩

/-- What is kept along every run that has begun with the destination `d₀` and with
    `p₀` printed. -/
structure Kept (d₀ : Destination) (p₀ : List UInt8) (es : List Seen) (s : Outlet) : Prop where
  sink : s.sink.load = current d₀ es
  printed : s.printed = p₀ ++ (es.map Seen.output).flatten
  found : ∀ t e d, s.errands t = some e → e.aim = some d → Found d₀ es t d
  right : AllRight d₀ es

/-- A step of one thread keeps what the others have found. -/
theorem Kept.next {d₀ : Destination} {p₀ : List UInt8} {es fs : List Seen} {s s' : Outlet}
    {t : ThreadId} {e : Option Errand} (h : Kept d₀ p₀ es s)
    (herrands : s'.errands = (s.turn t e).errands) (hsink : s'.sink.load = current s.sink.load fs)
    (hprinted : s'.printed = s.printed ++ (fs.map Seen.output).flatten)
    (hfs : ∀ f ∈ fs, f.thread = some t)
    (hfound : ∀ f d, e = some f → f.aim = some d → Found d₀ (es ++ fs) t d)
    (hright : AllRight d₀ (es ++ fs)) : Kept d₀ p₀ (es ++ fs) s' where
  sink := by rw [hsink, h.sink, current_append]
  printed := by
    rw [hprinted, h.printed, List.map_append, List.flatten_append, List.append_assoc]
  found u f d hu haim := by
    rw [herrands] at hu
    by_cases hut : u = t
    · rw [hut, turn_self] at hu
      exact hut ▸ hfound f d hu haim
    · rw [turn_other s e hut] at hu
      refine (h.found u f d hu haim).append fun g hg hthread => hut ?_
      exact Option.some.inj (hthread.symm.trans (hfs g hg))
  right := hright

/-- A step keeps it. -/
theorem happened_kept {d₀ : Destination} {p₀ : List UInt8} {es fs : List Seen} {s s' : Outlet}
    (h : Happened s s' fs) (hk : Kept d₀ p₀ es s) : Kept d₀ p₀ (es ++ fs) s' := by
  have hnone : ∀ (t : ThreadId) (gs : List Seen) (f : Errand) (d : Destination),
      none = some f → f.aim = some d → Found d₀ (es ++ gs) t d :=
    fun _ _ _ _ h => absurd h (by simp only [reduceCtorEq, not_false_eq_true])
  cases h with
  | began t e he =>
      refine hk.next rfl rfl (List.append_nil _).symm (List.forall_mem_nil _) (fun f d hf haim => ?_)
        ((List.append_nil es).symm ▸ hk.right)
      rw [← Option.some.inj hf, he] at haim
      exact absurd haim (by simp only [reduceCtorEq, not_false_eq_true])
  | refused t e objects =>
      exact hk.next rfl rfl (List.append_nil _).symm (List.forall_mem_singleton.mpr rfl)
        (hnone t _) (hk.right.snoc trivial)
  | installed t ring =>
      exact hk.next rfl rfl (List.append_nil _).symm (List.forall_mem_singleton.mpr rfl)
        (hnone t _) (hk.right.snoc trivial)
  | closed =>
      refine ⟨by rw [current_append]; rfl, ?_, fun t e d he haim => ?_, hk.right.snoc trivial⟩
      · rw [List.map_append, List.flatten_append, ← List.append_assoc, ← hk.printed]
        exact (List.append_nil _).symm
      · exact (hk.found t e d he haim).append (List.forall_mem_singleton.mpr (by
          simp only [Seen.thread, ne_eq, reduceCtorEq, not_false_eq_true]))
  | meddled objects =>
      rw [List.append_nil]
      exact ⟨hk.sink, hk.printed, hk.found, hk.right⟩
  | worked t e f objects he haim =>
      refine hk.next rfl rfl (List.append_nil _).symm (List.forall_mem_nil _)
        (fun g d hg hd => ?_) ((List.append_nil es).symm ▸ hk.right)
      rw [← Option.some.inj hg, haim] at hd
      exact (hk.found t e d he hd).append (List.forall_mem_nil _)
  | looked t e d hd haim =>
      have hcurrent : d = current d₀ es := hd.symm.trans hk.sink
      refine hk.next rfl rfl (List.append_nil _).symm (List.forall_mem_singleton.mpr rfl)
        (fun f d' hf hd' => ?_) (hk.right.snoc hcurrent)
      rw [← Option.some.inj hf, haim, Option.some.injEq] at hd'
      exact hd' ▸ Found.now hcurrent
  | printed t fragments he =>
      refine hk.next rfl rfl ?_ (List.forall_mem_singleton.mpr rfl) (hnone t _)
        (hk.right.snoc ⟨Sink.format_eq_take fragments, hk.found t _ _ he rfl⟩)
      exact congrArg (s.printed ++ ·) (List.append_nil _).symm
  | emitted t e fragments d answer objects he haim hout =>
      refine hk.next rfl rfl ?_ (List.forall_mem_singleton.mpr rfl) (hnone t _)
        (hk.right.snoc ⟨Sink.format_eq_take fragments, hk.found t e d he haim⟩)
      rw [List.map_singleton, hout]
      exact (List.append_nil _).symm
  | nowhere t hd =>
      have hcurrent : .standardOutput = current d₀ es := hd.symm.trans hk.sink
      have hlook := hk.right.snoc (e := .looked t .standardOutput) hcurrent
      have hboth := hlook.snoc (e := .got t .standardOutput (.error .unavailable))
        ⟨Found.now hcurrent, fun _ => rfl⟩
      rw [List.append_assoc] at hboth
      refine hk.next rfl rfl (List.append_nil _).symm (fun f hf => ?_) (hnone t _) hboth
      rcases List.mem_cons.mp hf with rfl | hf
      · rfl
      · rw [List.mem_singleton.mp hf]
        rfl
  | got t e ring answer objects he haim =>
      exact hk.next rfl rfl (List.append_nil _).symm (List.forall_mem_singleton.mpr rfl)
        (hnone t _) (hk.right.snoc ⟨hk.found t e _ he haim, fun h => absurd h (by
          simp only [reduceCtorEq, not_false_eq_true])⟩)

/-- Runs keep it. -/
theorem play_kept {writer : Ring.Writer} {s t : Outlet} {acts : List Act} {es : List Seen}
    (hidle : ∀ k, s.errands k = none)
    (hrun : Schedule.play (step writer) s acts = some (t, es)) :
    Kept s.sink.load s.printed es t := by
  have hstart : Kept s.sink.load s.printed [] s :=
    ⟨rfl, (List.append_nil _).symm, fun k e d he => absurd ((hidle k).symm.trans he) (by
      simp only [reduceCtorEq, not_false_eq_true]), fun before e after h => absurd h (by
      simp only [List.nil_eq, List.append_eq_nil_iff, reduceCtorEq, and_false, not_false_eq_true])⟩
  -- What has been seen so far is the second system.
  rcases Schedule.play_simulates (step writer) (fun _ => True)
    (fun u seen => Kept s.sink.load s.printed seen u) (fun seen es seen' => seen' = seen ++ es)
    (fun seen => (List.append_nil seen).symm)
    (fun _ _ _ _ _ h h' => by rw [h', h, List.append_assoc])
    (fun u seen a u' es hu _ hstep => ⟨seen ++ es, rfl, happened_kept (step_happened hstep) hu⟩)
    acts s t [] es hstart (fun _ _ => trivial) hrun with ⟨seen, rfl, hkept⟩
  exact hkept

/-- A thread at the ring `h` has done to the memory of the ring what the step says, and
    nothing else: it goes on there, or it is through and answers what the step answers. -/
def Relayed (s : Outlet) (t : ThreadId) (h : RingHandle) {π α : Type} (x : Step Memory π α)
    (errand : π → Errand) (seen : α → Seen) (u : Outlet) (fs : List Seen) : Prop :=
  u.sink = s.sink ∧ u.printed = s.printed ∧ ∃ m, u.objects = s.objects.put h.object m ∧
    ((∃ q notes, x = .goto m q notes ∧ u.errands t = some (errand q) ∧ fs = []) ∨
      ∃ answer notes, x = .done m answer notes ∧ u.errands t = none ∧ fs = [seen answer])

/-- What can be relied on between two states, with what has been seen from the one to
    the other. -/
structure Routed (writer : Ring.Writer) (s t : Outlet) (es : List Seen) : Prop where
  /-- Messages go to the ring that the sink got last, or to the standard output if it was
      closed since. A call to set the sink up that fails changes nothing. -/
  destination : t.sink.load = current s.sink.load es
  /-- Whoever looks finds the destination that is the current one. -/
  looked : ∀ before after k d, es = before ++ .looked k d :: after →
    d = current s.sink.load before
  /-- A message is the first 530 bytes of its fragments, and goes where its thread has
      found that it goes. -/
  emitted : ∀ before after k fragments d message answer,
    es = before ++ .emitted k fragments d message answer :: after →
      message = fragments.flatten.take 530 ∧ Found s.sink.load before k d
  /-- Messages are read from where they go, and there are none where that is no ring. -/
  got : ∀ before after k d answer, es = before ++ .got k d answer :: after →
    Found s.sink.load before k d ∧ (d = .standardOutput → answer = .error .unavailable)
  /-- Nothing is printed but the messages that went to the standard output, one after
      the other. -/
  printed : t.printed = s.printed ++ (es.map Seen.output).flatten
  /-- A thread that writes to a ring does nothing else. Its writer gets the first 530
      bytes at once, and what the writer answers is the answer. -/
  writes : ∀ k fragments h p, t.errands k = some (.writing fragments h p) →
    ∀ full source clock u fs, step writer t (.move k full source clock) = some (u, fs) →
      Relayed t k h
        (writer h.geometry (fragments.flatten.take 530) (t.objects.memory h.object) p)
        (.writing fragments h) (.emitted k fragments (.ring h) (fragments.flatten.take 530)) u fs
  /-- A thread that reads from a ring does nothing else, and answers what it finds. -/
  reads : ∀ k h room deadline p, t.errands k = some (.reading h room deadline p) →
    ∀ full source clock u fs, step writer t (.move k full source clock) = some (u, fs) →
      Relayed t k h
        (Ring.readStep h.geometry room source deadline clock (t.objects.memory h.object) p)
        (.reading h room deadline) (.got k (.ring h)) u fs

theorem relay_relayed {s u : Outlet} {t : ThreadId} {h : RingHandle} {π α : Type}
    {x : Step Memory π α} {errand : π → Errand} {seen : α → Seen} {fs : List Seen}
    (hstep : s.relay t h x errand seen = some (u, fs)) : Relayed s t h x errand seen u fs := by
  unfold relay at hstep
  split at hstep
  next m q notes =>
    simp only [Option.some.injEq, Prod.mk.injEq] at hstep
    rcases hstep with ⟨rfl, rfl⟩
    exact ⟨rfl, rfl, m, rfl, Or.inl ⟨q, notes, rfl, turn_self s t _, rfl⟩⟩
  next m answer notes =>
    simp only [Option.some.injEq, Prod.mk.injEq] at hstep
    rcases hstep with ⟨rfl, rfl⟩
    exact ⟨rfl, rfl, m, rfl, Or.inr ⟨answer, notes, rfl, turn_self s t _, rfl⟩⟩
  next => exact absurd hstep (by simp only [reduceCtorEq, not_false_eq_true])

/-- Every message goes to the one destination that was the current one when its thread
    looked, whoever sets the sink up, closes it, writes and reads meanwhile. -/
theorem messages_routed {writer : Ring.Writer} {s t : Outlet} {acts : List Act} {es : List Seen}
    (hidle : ∀ k, s.errands k = none)
    (hrun : Schedule.play (step writer) s acts = some (t, es)) : Routed writer s t es := by
  have hkept := play_kept hidle hrun
  exact
    { destination := hkept.sink
      looked := fun before after k d => hkept.right before _ after
      emitted := fun before after k fragments d message answer => hkept.right before _ after
      got := fun before after k d answer => hkept.right before _ after
      printed := hkept.printed
      writes := fun k fragments h p hk full source clock u fs hstep => by
        rw [move_eq full source clock hk, proceed, Sink.format_eq_take] at hstep
        exact relay_relayed hstep
      reads := fun k h room deadline p hk full source clock u fs hstep => by
        rw [move_eq full source clock hk] at hstep
        exact relay_relayed hstep }

/-- A process that has just started. -/
def fresh : Outlet := ⟨Sink.fresh, ObjectShelf.empty, [], fun _ => none⟩

/-- A message is printed, the sink is set up, a second message is written to the ring and
    read from it, the sink is closed, and nothing can be read any more. -/
def walkthrough : List Act :=
  let move : Act := .move 0 false .monotonic ⟨0, 0⟩
  [.emit 0 [[104], [105, 10]], move, move] ++
    (.setup 0 true "log" ⟨2, 8⟩ :: List.replicate 18 move) ++
    [.emit 0 [[104, 111]], move, move, move, .get 0 8 none, move, move, move, .close,
      .get 1 8 none, .move 1 false .monotonic ⟨0, 0⟩]

/-- What is seen of it. The ring is object 1, and the second message goes there. -/
def walkthroughSeen : List Seen :=
  let ring : RingHandle := ⟨1, 128, ⟨2, 8⟩⟩
  [.looked 0 .standardOutput,
    .emitted 0 [[104], [105, 10]] .standardOutput [104, 105, 10] (.ok ()), .setUp 0 (.ok ring),
    .looked 0 (.ring ring), .emitted 0 [[104, 111]] (.ring ring) [104, 111] (.ok ()),
    .looked 0 (.ring ring), .got 0 (.ring ring) (.ok [104, 111]), .closed,
    .looked 1 .standardOutput, .got 1 .standardOutput (.error .unavailable)]

theorem messages_routed_walkthrough : (∀ k, fresh.errands k = none) ∧ ∃ t,
    Schedule.play (step Ring.writeStep) fresh walkthrough = some (t, walkthroughSeen) ∧
      Routed Ring.writeStep fresh t walkthroughSeen := by
  have hseen : (Schedule.play (step Ring.writeStep) fresh walkthrough).map Prod.snd
      = some walkthroughSeen := rfl
  rcases Option.map_eq_some_iff.mp hseen with ⟨⟨t, es⟩, hrun, rfl⟩
  exact ⟨fun _ => rfl, t, hrun, messages_routed (fun _ => rfl) hrun⟩

end Outlet

end HostLayer
