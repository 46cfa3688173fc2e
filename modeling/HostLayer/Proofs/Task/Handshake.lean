import HostLayer.Proofs.Schedule
import HostLayer.Task.Startup

/-!
# The Startup Handshake

What the creator of a task and the new thread agree on, whoever of them moves when.

The two move in any order. The token of the thread may be lost, and each wait of
the creator may end with the token, early, or with a failure, as often as the
host likes. What the attributes come to is not fixed either: `apply` is whatever
the new thread does to the threads of the process before anything else.

The block is written by the thread alone, apart from the token. So what is in it
follows from where the thread stands (`Startup.written`), and what the creator
knows follows from what it has read there (`Handshake.Knows`). Both together are
kept by every step of either of them. The status word is all that the creator
gets to see of a failure, and it says which one it was.

The creator never has to wait for more than the thread. Six steps are all that
the thread takes, none of which waits, and once the thread has reported, the
creator has at most five left. Where there is no memory for a thread, nobody is
there to agree with, and `launch` hands back the refusal of the host.

## Main definitions

* `Startup.written`: The block, from where the thread stands.
* `Handshake`, `Handshake.step`: Both sides at work.
* `Handshake.Happened`: What an act can come to.
* `Handshake.Knows`, `Handshake.Kept`: What is kept along every run.
* `Handshake.Agreed`: What the two agree on.

## Theorems

* `Handshake.step_happened`: The cases of a step.
* `Handshake.happened_kept`, `Handshake.play_kept`: What a step keeps, and a run.
* `Handshake.happened_thread_ahead`, `Handshake.happened_creator_ahead`: Both
  sides come to an end.
* `Handshake.thread_moves`, `Handshake.Kept.creator_moves`: Neither is stuck.
* `Handshake.startup_agrees`: The agreement, for every run.
* `Startup.run_eq`: Where one side moves after the other.
-/

namespace HostLayer

namespace Startup

/-- The report of a thread with a number, whose attributes have come to `made`. -/
def report (number : ThreadId) (made : Control.Change) : Startup :=
  { fresh made.1 with number := number, status := made.2.1.status, reported := true }

/-- What is in the block when the thread stands at a place or is through, apart
    from the token. -/
def written (threads : Host.Threads) (number : ThreadId) (made : Control.Change) :
    Option Thread → Startup
  | some .applying => fresh threads
  | some (.numbering _) => fresh made.1
  | some (.stating _) => { fresh made.1 with number := number }
  | some (.marking _) => { fresh made.1 with number := number, status := made.2.1.status }
  | some (.waking _) => report number made
  | some (.leaving _) => report number made
  | none =>
      match made.2.1 with
      | .ok () => { report number made with entries := 1 }
      | .error _ => { report number made with ended := true }

/-- A thread carries what its attributes have come to until it is through. -/
def Thread.Carries (outcome : Answer Unit) : Thread → Prop
  | applying => True
  | numbering r => r = outcome
  | stating r => r = outcome
  | marking r => r = outcome
  | waking r => r = outcome
  | leaving r => r = outcome

/-- The steps that a thread still has to take. -/
def Thread.ahead : Option Thread → Nat
  | some applying => 6
  | some (numbering _) => 5
  | some (stating _) => 4
  | some (marking _) => 3
  | some (waking _) => 2
  | some (leaving _) => 1
  | none => 0

theorem Thread.ahead_le (p : Option Thread) : Thread.ahead p ≤ threadSteps := by
  rcases p with _ | p
  · exact Nat.zero_le _
  · cases p <;> simp only [ahead, threadSteps] <;> omega

/-- The steps that a creator still has to take once the report has been made. -/
def Creator.ahead : Creator ⊕ Answer ThreadId → Nat
  | .inl waiting => 5
  | .inl resting => 4
  | .inl checking => 3
  | .inl reading => 2
  | .inl (joining _) => 1
  | .inr _ => 0

theorem Creator.ahead_le (c : Creator ⊕ Answer ThreadId) : Creator.ahead c ≤ 5 := by
  rcases c with p | r
  · cases p <;> simp only [ahead] <;> omega
  · exact Nat.zero_le _

-- A thread that is through has started the entry or has ended.
theorem written_ok {threads : Host.Threads} {number : ThreadId} {made : Control.Change}
    (h : made.2.1 = .ok ()) :
    written threads number made none = { report number made with entries := 1 } := by
  unfold written
  rw [h]

theorem written_error {threads : Host.Threads} {number : ThreadId} {made : Control.Change}
    {e : Error} (h : made.2.1 = .error e) :
    written threads number made none = { report number made with ended := true } := by
  unfold written
  rw [h]

-- The mark comes with everything that it stands for.
theorem written_reported {threads : Host.Threads} {number : ThreadId} {made : Control.Change}
    {p : Option Thread} (h : (written threads number made p).reported = true) :
    (written threads number made p).number = number ∧
      (written threads number made p).status = made.2.1.status ∧
      (written threads number made p).threads = made.1 := by
  rcases p with _ | p
  · rcases hr : made.2.1 with e | _
    · rw [written_error hr, ← hr]
      exact ⟨rfl, rfl, rfl⟩
    · rw [written_ok hr, ← hr]
      exact ⟨rfl, rfl, rfl⟩
  · cases p with
    | waking r => exact ⟨rfl, rfl, rfl⟩
    | leaving r => exact ⟨rfl, rfl, rfl⟩
    | _ => exact absurd h Bool.false_ne_true

-- The entry comes last, after a report, and only if everything has been granted.
theorem written_entries (threads : Host.Threads) (number : ThreadId) (made : Control.Change)
    (p : Option Thread) : (written threads number made p).entries = 0 ∨ made.2.1 = .ok () ∧
      written threads number made p = { report number made with entries := 1 } := by
  rcases p with _ | p
  · rcases hr : made.2.1 with e | _
    · exact Or.inl (congrArg Startup.entries (written_error hr))
    · exact Or.inr ⟨rfl, written_ok hr⟩
  · exact Or.inl (by cases p <;> rfl)

-- A thread that has ended is through.
theorem written_ended {threads : Host.Threads} {number : ThreadId} {made : Control.Change}
    {p : Option Thread} (h : (written threads number made p).ended = true) : p = none := by
  rcases p with _ | p
  · rfl
  · cases p <;> exact absurd h Bool.false_ne_true

end Startup

open Startup

/-- The creator of a task and the new thread, while both are at work. -/
structure Handshake where
  block : Startup
  /-- Where the thread stands, unless it is through. -/
  thread : Option Thread
  /-- Where the creator stands, or what it was answered. -/
  creator : Creator ⊕ Answer ThreadId

namespace Handshake

/-- The thread has been made, and nobody has moved. -/
def start (threads : Host.Threads) : Handshake :=
  ⟨fresh threads, some .applying, .inl .checking⟩

/-- What can happen. -/
inductive Act
  /-- The thread moves. If it is about to put the token down, it may fail. -/
  | thread (lost : Option Error)
  /-- The creator moves. If it waits, the wait ends somehow. -/
  | creator (wake : Wake)

/-- Is it the thread that moves? -/
def Act.byThread : Act → Bool
  | thread _ => true
  | creator _ => false

/-- Is it the creator that moves? -/
def Act.byCreator : Act → Bool
  | thread _ => false
  | creator _ => true

section Run

variable (name : String) (number : ThreadId) (apply : Host.Threads → Control.Change)

/-- One move, with the notes that are made. The task is called `name`, and the
    thread has the number `number` and gives itself its attributes by `apply`. -/
def step (s : Handshake) : Act → Option (Handshake × List Note)
  | .thread lost =>
      match s.thread with
      | none => none
      | some p =>
          match threadStep apply number lost s.block p with
          | .goto b q notes => some (⟨b, some q, s.creator⟩, notes)
          | .done b _ notes => some (⟨b, none, s.creator⟩, notes)
          | .waits => none
  | .creator wake =>
      match s.creator with
      | .inr _ => none
      | .inl p =>
          match creatorStep name wake s.block p with
          | .goto b q notes => some (⟨b, s.thread, .inl q⟩, notes)
          | .done b r notes => some (⟨b, s.thread, .inr r⟩, notes)
          | .waits => none

/-- What an act can come to. -/
inductive Happened (s : Handshake) : Act → Handshake → Prop
  | apply (lost : Option Error) (h : s.thread = some .applying) :
      Happened s (.thread lost) ⟨{ s.block with threads := (apply s.block.threads).1 },
        some (.numbering (apply s.block.threads).2.1), s.creator⟩
  | number (lost : Option Error) (r : Answer Unit) (h : s.thread = some (.numbering r)) :
      Happened s (.thread lost)
        ⟨{ s.block with number := number }, some (.stating r), s.creator⟩
  | state (lost : Option Error) (r : Answer Unit) (h : s.thread = some (.stating r)) :
      Happened s (.thread lost)
        ⟨{ s.block with status := r.status }, some (.marking r), s.creator⟩
  | mark (lost : Option Error) (r : Answer Unit) (h : s.thread = some (.marking r)) :
      Happened s (.thread lost) ⟨{ s.block with reported := true }, some (.waking r), s.creator⟩
  | wake (lost : Option Error) (r : Answer Unit) (ready : Semaphore)
      (h : s.thread = some (.waking r)) :
      Happened s (.thread lost) ⟨{ s.block with ready := ready }, some (.leaving r), s.creator⟩
  | enter (lost : Option Error) (h : s.thread = some (.leaving (.ok ()))) :
      Happened s (.thread lost)
        ⟨{ s.block with entries := s.block.entries + 1 }, none, s.creator⟩
  | leave (lost : Option Error) (e : Error) (h : s.thread = some (.leaving (.error e))) :
      Happened s (.thread lost) ⟨{ s.block with ended := true }, none, s.creator⟩
  | look (wake : Wake) (h : s.creator = .inl .checking) :
      Happened s (.creator wake)
        ⟨s.block, s.thread, .inl (if s.block.reported then .reading else .waiting)⟩
  | early (wake : Wake) (q : Creator) (h : s.creator = .inl .waiting)
      (hq : q = .checking ∨ q = .resting) :
      Happened s (.creator wake) ⟨s.block, s.thread, .inl q⟩
  | take (wake : Wake) (ready : Semaphore) (h : s.creator = .inl .waiting)
      (htake : s.block.ready.take? = some ready) :
      Happened s (.creator wake) ⟨{ s.block with ready := ready }, s.thread, .inl .reading⟩
  | rest (wake : Wake) (h : s.creator = .inl .resting) :
      Happened s (.creator wake) ⟨s.block, s.thread, .inl .checking⟩
  | refuse (wake : Wake) (e : Error) (h : s.creator = .inl .reading)
      (he : Error.ofCode? s.block.status = some e) :
      Happened s (.creator wake) ⟨s.block, s.thread, .inl (.joining e)⟩
  | accept (wake : Wake) (h : s.creator = .inl .reading)
      (he : Error.ofCode? s.block.status = none) :
      Happened s (.creator wake) ⟨s.block, s.thread, .inr (.ok s.block.number)⟩
  | join (wake : Wake) (e : Error) (h : s.creator = .inl (.joining e))
      (hended : s.block.ended = true) :
      Happened s (.creator wake) ⟨s.block, s.thread, .inr (.error e)⟩

/-- What the creator has read in the block, where `outcome` is what the
    attributes have come to. -/
def Knows (outcome : Answer Unit) (b : Startup) : Creator ⊕ Answer ThreadId → Prop
  | .inl .reading => b.reported = true
  | .inl (.joining e) => b.reported = true ∧ outcome = .error e
  | .inl _ => True
  | .inr r => b.reported = true ∧ (r = outcome.map fun _ => number) ∧
      ∀ e, r = .error e → b.ended = true

/-- What is kept along every run that starts with `threads`. -/
structure Kept (threads : Host.Threads) (s : Handshake) : Prop where
  block_eq : { s.block with ready := ⟨0⟩ } = written threads number (apply threads) s.thread
  carries : ∀ p, s.thread = some p → p.Carries (apply threads).2.1
  token : s.block.ready.value ≠ 0 → s.block.reported = true
  knows : Knows number (apply threads).2.1 s.block s.creator

/-- What the two agree on in a state of a run that starts with `threads`. -/
structure Agreed (threads : Host.Threads) (s : Handshake) : Prop where
  /-- There is an answer only after the report. -/
  reported : ∀ r, s.creator = .inr r → s.block.reported = true
  error_iff : ∀ r e, s.creator = .inr r → (r = .error e ↔ (apply threads).2.1 = .error e)
  number_eq : ∀ n, s.creator = .inr (.ok n) → n = s.block.number ∧ n = number
  /-- An error is handed back only when the thread has ended. -/
  joined : ∀ e, s.creator = .inr (.error e) → s.thread = none ∧ s.block.ended = true
  refused : ∀ e, (apply threads).2.1 = .error e → s.block.entries = 0
  entries_le : s.block.entries ≤ 1
  /-- Before the entry everything has been granted and reported. -/
  applied : s.block.entries ≠ 0 → (apply threads).2.1 = .ok () ∧
    s.block.threads = (apply threads).1 ∧ s.block.reported = true
  /-- If everything is granted, the last step of the thread is the entry. -/
  entered : s.thread = none → (apply threads).2.1 = .ok () → s.block.entries = 1
  thread_goes_on : s.thread ≠ none → ∀ lost, s.step name number apply (.thread lost) ≠ none
  creator_goes_on : s.thread = none → (∀ r, s.creator ≠ .inr r) →
    s.step name number apply (.creator .early) ≠ none
  thread_ends : ∀ acts t notes,
    Schedule.play (step name number apply) s acts = some (t, notes) →
      acts.countP Act.byThread ≤ threadSteps
  creator_ends : s.block.reported = true → ∀ acts t notes,
    Schedule.play (step name number apply) s acts = some (t, notes) →
      acts.countP Act.byCreator ≤ 5

end Run

section Steps

variable {name : String} {number : ThreadId} {apply : Host.Threads → Control.Change}
  {threads : Host.Threads} {s s' : Handshake} {notes : List Note}

-- What the creator has read is not taken back.
theorem Knows.mono {outcome : Answer Unit} {b b' : Startup} {c : Creator ⊕ Answer ThreadId}
    (h : Knows number outcome b c) (hreported : b.reported = true → b'.reported = true)
    (hended : b.ended = true → b'.ended = true) : Knows number outcome b' c := by
  unfold Knows at h ⊢
  split at h
  next => exact hreported h
  next => exact ⟨hreported h.1, h.2⟩
  next => exact trivial
  next => exact ⟨hreported h.1, h.2.1, fun e he => hended (h.2.2 e he)⟩

namespace Kept

-- The report, as far as it has been made.
theorem of_reported (hk : Kept number apply threads s) (h : s.block.reported = true) :
    s.block.number = number ∧ s.block.status = (apply threads).2.1.status ∧
      s.block.threads = (apply threads).1 := by
  have hb := hk.block_eq
  have hreport := written_reported ((congrArg Startup.reported hb).symm.trans h)
  rw [← hb] at hreport
  exact hreport

/-- The thread moves on and writes something. -/
theorem advance (hk : Kept number apply threads s) (b : Startup) (p : Option Thread)
    (hblock : { b with ready := ⟨0⟩ } = written threads number (apply threads) p)
    (hcarries : ∀ q, p = some q → q.Carries (apply threads).2.1)
    (htoken : b.ready.value ≠ 0 → b.reported = true)
    (hreported : s.block.reported = true → b.reported = true)
    (hended : s.block.ended = true → b.ended = true) :
    Kept number apply threads ⟨b, p, s.creator⟩ :=
  ⟨hblock, hcarries, htoken, hk.knows.mono hreported hended⟩

/-- The creator moves on and takes at most the token. -/
theorem follow (hk : Kept number apply threads s) (ready : Semaphore)
    (c : Creator ⊕ Answer ThreadId) (htoken : ready.value ≠ 0 → s.block.reported = true)
    (hknows : Knows number (apply threads).2.1 s.block c) :
    Kept number apply threads ⟨{ s.block with ready := ready }, s.thread, c⟩ :=
  ⟨hk.block_eq, hk.carries, htoken, hknows.mono id id⟩

end Kept

theorem start_kept : Kept number apply threads (start threads) :=
  ⟨rfl, fun _ hp => Option.some.inj hp ▸ trivial, fun h => absurd rfl h, trivial⟩

theorem step_happened (a : Act) (h : s.step name number apply a = some (s', notes)) :
    Happened number apply s a s' := by
  cases a with
  | thread lost =>
      simp only [step] at h
      rcases hp : s.thread with _ | p
      · rw [hp] at h
        exact absurd h (by simp only [reduceCtorEq, not_false_eq_true])
      rw [hp] at h
      cases p with
      | applying =>
          simp only [threadStep, Option.some.injEq, Prod.mk.injEq] at h
          exact h.1 ▸ .apply lost hp
      | numbering r =>
          simp only [threadStep, Option.some.injEq, Prod.mk.injEq] at h
          exact h.1 ▸ .number lost r hp
      | stating r =>
          simp only [threadStep, Option.some.injEq, Prod.mk.injEq] at h
          exact h.1 ▸ .state lost r hp
      | marking r =>
          simp only [threadStep, Option.some.injEq, Prod.mk.injEq] at h
          exact h.1 ▸ .mark lost r hp
      | waking r =>
          cases lost with
          | none =>
              simp only [threadStep, Option.some.injEq, Prod.mk.injEq] at h
              exact h.1 ▸ .wake none r _ hp
          | some e =>
              simp only [threadStep, Option.some.injEq, Prod.mk.injEq] at h
              exact h.1 ▸ .wake (some e) r s.block.ready hp
      | leaving r =>
          cases r with
          | ok _ =>
              simp only [threadStep, Option.some.injEq, Prod.mk.injEq] at h
              exact h.1 ▸ .enter lost hp
          | error e =>
              simp only [threadStep, Option.some.injEq, Prod.mk.injEq] at h
              exact h.1 ▸ .leave lost e hp
  | creator wake =>
      simp only [step] at h
      rcases hp : s.creator with p | r
      · rw [hp] at h
        cases p with
        | checking =>
            simp only [creatorStep, Option.some.injEq, Prod.mk.injEq] at h
            exact h.1 ▸ .look wake hp
        | waiting =>
            cases wake with
            | early =>
                simp only [creatorStep, Option.some.injEq, Prod.mk.injEq] at h
                exact h.1 ▸ .early .early _ hp (Or.inl rfl)
            | failed e =>
                simp only [creatorStep, Option.some.injEq, Prod.mk.injEq] at h
                exact h.1 ▸ .early (.failed e) _ hp (Or.inr rfl)
            | token =>
                simp only [creatorStep] at h
                rcases htake : s.block.ready.take? with _ | ready
                · simp only [htake, reduceCtorEq] at h
                · simp only [htake, Option.some.injEq, Prod.mk.injEq] at h
                  exact h.1 ▸ .take .token ready hp htake
        | resting =>
            simp only [creatorStep, Option.some.injEq, Prod.mk.injEq] at h
            exact h.1 ▸ .rest wake hp
        | reading =>
            simp only [creatorStep] at h
            rcases he : Error.ofCode? s.block.status with _ | e
            · simp only [he, Option.some.injEq, Prod.mk.injEq] at h
              exact h.1 ▸ .accept wake hp he
            · simp only [he, Option.some.injEq, Prod.mk.injEq] at h
              exact h.1 ▸ .refuse wake e hp he
        | joining e =>
            simp only [creatorStep] at h
            by_cases hended : s.block.ended = true
            · simp only [hended, if_true, Option.some.injEq, Prod.mk.injEq] at h
              exact h.1 ▸ .join wake e hp hended
            · simp only [if_neg hended, reduceCtorEq] at h
      · rw [hp] at h
        exact absurd h (by simp only [reduceCtorEq, not_false_eq_true])

/-- What either of the two does keeps what is kept. -/
theorem happened_kept {a : Act} (hk : Kept number apply threads s)
    (h : Happened number apply s a s') : Kept number apply threads s' := by
  have hb := hk.block_eq
  have hknows := hk.knows
  cases h with
  | apply lost hp =>
      rw [hp] at hb
      have hthreads : s.block.threads = threads := congrArg Startup.threads hb
      rw [hthreads]
      exact hk.advance _ _ (congrArg (fun b => { b with threads := (apply threads).1 }) hb)
        (fun q hq => Option.some.inj hq ▸ rfl) hk.token id id
  | number lost r hp =>
      rw [hp] at hb
      exact hk.advance _ _ (congrArg (fun b => { b with number := number }) hb)
        (fun q hq => Option.some.inj hq ▸ hk.carries (.numbering r) hp) hk.token id id
  | state lost r hp =>
      rw [hp] at hb
      obtain rfl : r = _ := hk.carries _ hp
      exact hk.advance _ _ (congrArg (fun b => { b with status := (apply threads).2.1.status }) hb)
        (fun q hq => Option.some.inj hq ▸ rfl) hk.token id id
  | mark lost r hp =>
      rw [hp] at hb
      exact hk.advance _ _ (congrArg (fun b => { b with reported := true }) hb)
        (fun q hq => Option.some.inj hq ▸ hk.carries (.marking r) hp) (fun _ => rfl)
        (fun _ => rfl) id
  | wake lost r ready hp =>
      rw [hp] at hb
      have hmark : s.block.reported = true := congrArg Startup.reported hb
      exact hk.advance _ _ hb (fun q hq => Option.some.inj hq ▸ hk.carries (.waking r) hp)
        (fun _ => hmark) id id
  | enter lost hp =>
      rw [hp] at hb
      have hok : (apply threads).2.1 = .ok () := (hk.carries _ hp).symm
      have hnone : s.block.entries = 0 := congrArg Startup.entries hb
      refine hk.advance _ _ ?_ (fun q hq => absurd hq.symm (Option.some_ne_none q)) hk.token id id
      rw [written_ok hok, hnone]
      exact congrArg (fun b => { b with entries := 1 }) hb
  | leave lost e hp =>
      rw [hp] at hb
      have herror : (apply threads).2.1 = .error e := (hk.carries _ hp).symm
      refine hk.advance _ _ ?_ (fun q hq => absurd hq.symm (Option.some_ne_none q)) hk.token id
        (fun _ => rfl)
      rw [written_error herror]
      exact congrArg (fun b => { b with ended := true }) hb
  | look wake hp =>
      refine hk.follow s.block.ready _ hk.token ?_
      split
      next hmark => exact hmark
      next => exact trivial
  | early wake q hp hq =>
      refine hk.follow s.block.ready _ hk.token ?_
      rcases hq with rfl | rfl <;> exact trivial
  | take wake ready hp htake =>
      -- The token that is taken was put down after the mark.
      have hmark : s.block.reported = true := by
        refine hk.token fun hzero => ?_
        simp only [Semaphore.take?, hzero, reduceCtorEq] at htake
      exact hk.follow ready _ (fun _ => hmark) hmark
  | rest wake hp => exact hk.follow s.block.ready _ hk.token trivial
  | refuse wake e hp he =>
      rw [hp] at hknows
      rw [(hk.of_reported hknows).2.1, Error.ofCode?_status] at he
      refine hk.follow s.block.ready _ hk.token ⟨hknows, ?_⟩
      split at he
      next => exact absurd he (by simp only [reduceCtorEq, not_false_eq_true])
      next hr => rw [hr, Option.some.inj he]
  | accept wake hp he =>
      rw [hp] at hknows
      rcases hk.of_reported hknows with ⟨hnumber, hstatus, _⟩
      rw [hstatus, Error.ofCode?_status] at he
      refine hk.follow s.block.ready _ hk.token ⟨hknows, ?_, fun e hr => ?_⟩
      · split at he
        next hr => rw [hr, hnumber]; rfl
        next => exact absurd he (by simp only [reduceCtorEq, not_false_eq_true])
      · exact absurd hr (by simp only [reduceCtorEq, not_false_eq_true])
  | join wake e hp hended =>
      rw [hp] at hknows
      refine hk.follow s.block.ready _ hk.token ⟨hknows.1, ?_, fun _ _ => hended⟩
      rw [hknows.2]
      rfl

theorem play_kept {acts : List Act}
    (h : Schedule.play (step name number apply) (start threads) acts = some (s, notes)) :
    Kept number apply threads s :=
  Schedule.play_keeps (step name number apply) (fun _ => True) (fun _ => True)
    (Kept number apply threads)
    (fun _ a _ _ hk _ _ hstep => happened_kept hk (step_happened a hstep))
    acts _ s notes start_kept (fun _ _ => trivial) (fun _ _ => trivial) h

/-- The steps of a thread are used up. -/
theorem happened_thread_ahead {a : Act} (h : Happened number apply s a s') :
    Thread.ahead s'.thread + (if a.byThread then 1 else 0) ≤ Thread.ahead s.thread := by
  cases h with
  | apply _ hp => rw [hp]; exact Nat.le_refl _
  | number _ _ hp => rw [hp]; exact Nat.le_refl _
  | state _ _ hp => rw [hp]; exact Nat.le_refl _
  | mark _ _ hp => rw [hp]; exact Nat.le_refl _
  | wake _ _ _ hp => rw [hp]; exact Nat.le_refl _
  | enter _ hp => rw [hp]; exact Nat.le_refl _
  | leave _ _ hp => rw [hp]; exact Nat.le_refl _
  | _ => exact Nat.le_refl _

/-- Once the report has been made, so are those of the creator. -/
theorem happened_creator_ahead {a : Act} (hmark : s.block.reported = true)
    (h : Happened number apply s a s') : s'.block.reported = true ∧
      Creator.ahead s'.creator + (if a.byCreator then 1 else 0) ≤ Creator.ahead s.creator := by
  cases h with
  | mark _ _ _ => exact ⟨rfl, Nat.le_refl _⟩
  | look _ hp =>
      rw [hp, hmark]
      exact ⟨rfl, Nat.le_refl _⟩
  | early _ q hp hq =>
      rw [hp]
      rcases hq with rfl | rfl
      · exact ⟨hmark, Nat.le_succ _⟩
      · exact ⟨hmark, Nat.le_refl _⟩
  | take _ _ hp _ =>
      rw [hp]
      simp only [Creator.ahead, Act.byCreator, if_true]
      exact ⟨hmark, by omega⟩
  | rest _ hp => rw [hp]; exact ⟨hmark, Nat.le_refl _⟩
  | refuse _ _ hp _ => rw [hp]; exact ⟨hmark, Nat.le_refl _⟩
  | accept _ hp _ => rw [hp]; exact ⟨hmark, Nat.le_succ _⟩
  | join _ _ hp _ => rw [hp]; exact ⟨hmark, Nat.le_refl _⟩
  | _ => exact ⟨hmark, Nat.le_refl _⟩

/-- A thread that is not through can move. -/
theorem thread_moves (h : s.thread ≠ none) (lost : Option Error) :
    s.step name number apply (.thread lost) ≠ none := by
  rcases hp : s.thread with _ | p
  · exact absurd hp h
  simp only [step, hp]
  cases p with
  | waking r => cases lost <;> exact Option.some_ne_none _
  | leaving r => cases r <;> exact Option.some_ne_none _
  | _ => exact Option.some_ne_none _

/-- A creator without an answer can move when the thread is through. -/
theorem Kept.creator_moves (hk : Kept number apply threads s) (hp : s.thread = none)
    (h : ∀ r, s.creator ≠ .inr r) : s.step name number apply (.creator .early) ≠ none := by
  rcases hc : s.creator with p | r
  · simp only [step, hc]
    cases p with
    | reading =>
        simp only [creatorStep]
        cases Error.ofCode? s.block.status <;> exact Option.some_ne_none _
    | joining e =>
        have hknows := hk.knows
        have hb := hk.block_eq
        rw [hc] at hknows
        rw [hp, written_error hknows.2] at hb
        have hended : s.block.ended = true := congrArg Startup.ended hb
        simp only [creatorStep, hended, if_true]
        exact Option.some_ne_none _
    | _ => exact Option.some_ne_none _
  · exact absurd hc (h r)

theorem Kept.agreed (hk : Kept number apply threads s) : Agreed name number apply threads s := by
  have hb := hk.block_eq
  -- What the creator knows when it has an answer.
  have hanswer : ∀ r, s.creator = .inr r → s.block.reported = true ∧
      (r = (apply threads).2.1.map fun _ => number) ∧
      ∀ e, r = .error e → s.block.ended = true := by
    intro r hr
    have hknows := hk.knows
    rw [hr] at hknows
    exact hknows
  have hentries : s.block.entries = 0 ∨ (apply threads).2.1 = .ok () ∧
      { s.block with ready := ⟨0⟩ } = { report number (apply threads) with entries := 1 } := by
    have hw := written_entries threads number (apply threads) s.thread
    rw [← hb] at hw
    exact hw
  refine ⟨fun r hr => (hanswer r hr).1, fun r e hr => ?_, fun n hn => ?_, fun e he => ?_,
    fun e he => ?_, ?_, fun hne => ?_, fun hp hok => ?_, thread_moves, hk.creator_moves,
    fun acts t notes h => ?_, fun hmark acts t notes h => ?_⟩
  · rw [(hanswer r hr).2.1]
    rcases (apply threads).2.1 with _ | _ <;> simp [Except.map]
  · rcases hanswer _ hn with ⟨hmark, heq, _⟩
    have hnumber : n = number := by
      rcases hr : (apply threads).2.1 with _ | _
      · rw [hr] at heq
        exact absurd heq (by simp only [Except.map, reduceCtorEq, not_false_eq_true])
      · rw [hr] at heq
        exact Except.ok.inj heq
    exact ⟨hnumber.trans (hk.of_reported hmark).1.symm, hnumber⟩
  · have hended := (hanswer _ he).2.2 e rfl
    exact ⟨written_ended ((congrArg Startup.ended hb).symm.trans hended), hended⟩
  · rcases hentries with hnone | ⟨hok, _⟩
    · exact hnone
    · exact absurd (he.symm.trans hok) (by simp only [reduceCtorEq, not_false_eq_true])
  · rcases hentries with hnone | ⟨_, heq⟩
    · exact hnone ▸ Nat.zero_le _
    · exact Nat.le_of_eq (congrArg Startup.entries heq)
  · rcases hentries with hnone | ⟨hok, heq⟩
    · exact absurd hnone hne
    · exact ⟨hok, congrArg Startup.threads heq, congrArg Startup.reported heq⟩
  · rw [hp, written_ok hok] at hb
    exact congrArg Startup.entries hb
  · have hle := Schedule.play_countP_le (step name number apply) (fun _ => True) Act.byThread
      (fun s => Thread.ahead s.thread) (fun _ => True)
      (fun _ a _ _ _ _ hstep => ⟨trivial, happened_thread_ahead (step_happened a hstep)⟩)
      acts s t notes trivial (fun _ _ => trivial) h
    exact Nat.le_trans (Nat.le_of_add_left_le hle) (Thread.ahead_le s.thread)
  · have hle := Schedule.play_countP_le (step name number apply) (fun _ => True) Act.byCreator
      (fun s => Creator.ahead s.creator) (fun s => s.block.reported = true)
      (fun _ a _ _ hm _ hstep => happened_creator_ahead hm (step_happened a hstep))
      acts s t notes hmark (fun _ _ => trivial) h
    exact Nat.le_trans (Nat.le_of_add_left_le hle) (Creator.ahead_le s.creator)

/-- Whatever the attributes of a task come to, and in whatever order its creator
    and its thread move, the two agree. -/
theorem startup_agrees (a : TaskAttr) (number : ThreadId) (apply : Host.Threads → Control.Change)
    (threads : Host.Threads) (acts : List Act) (s : Handshake) (notes : List Note)
    (h : Schedule.play (step a.name number apply) (start threads) acts = some (s, notes)) :
    Agreed a.name number apply threads s :=
  (play_kept h).agreed

/-- A thread may not have the policy that is asked for. Its creator waits in vain
    twice, and the token is lost. -/
theorem startup_agrees_refused : ∃ (a : TaskAttr) (apply : Host.Threads → Control.Change)
    (threads : Host.Threads) (acts : List Act) (s : Handshake) (notes : List Note),
    a = { TaskAttr.none with policy := .fifo, priority := 5 } ∧
    apply = (fun threads => Control.applyWishes
      ⟨2, 2, ⟨false, true, true, CpuSet.empty.insert 0⟩⟩ threads a) ∧
    Schedule.play (step a.name 2 apply) (start threads) acts = some (s, notes) ∧
    s.creator = .inr (.error .permissionDenied) ∧ Agreed a.name 2 apply threads s := by
  refine ⟨_, _, ⟨fun _ => ⟨"main", .other, 0, CpuSet.empty.insert 0, false⟩⟩,
    [.creator .early, .creator (.failed .operationFailed), .thread none, .thread none,
      .creator .early, .creator .early, .thread none, .creator .early, .thread none,
      .creator .early, .creator .early, .thread (some .invalidParam), .thread none,
      .creator .early], ?s, ?notes, rfl, rfl, ?run, ?answer, startup_agrees _ 2 _ _ _ _ _ ?run⟩
  case run => rfl
  case answer => rfl

end Steps

end Handshake

namespace Startup

/-- Where one side moves after the other, the creator gets what the attributes
    have come to. -/
theorem run_eq (t : Control.Target) (a : TaskAttr) (threads : Host.Threads) :
    (run t a threads).1 = (Control.applyWishes t threads a).1 ∧
      (run t a threads).2.1 = (Control.applyWishes t threads a).2.1.map fun _ => t.caller := by
  rcases h : Control.applyWishes t threads a with ⟨made, r, notes⟩
  have hcode := Error.ofCode?_status r
  rcases r with e | _
  · simp only [] at hcode
    simp [run, runSteps, threadSteps, creatorSteps, threadStep, creatorStep, fresh, h, hcode,
      Semaphore.post, Semaphore.put, Semaphore.maximum, Except.map]
  · simp only [] at hcode
    simp [run, runSteps, threadSteps, creatorSteps, threadStep, creatorStep, fresh, h, hcode,
      Semaphore.post, Semaphore.put, Semaphore.maximum, Except.map]

end Startup

end HostLayer
