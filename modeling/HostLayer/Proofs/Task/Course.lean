import HostLayer.Proofs.Task.Handshake
import HostLayer.Task.Ending
import Mathlib.Tactic.ByContra
import Mathlib.Tactic.SplitIfs

/-!
# The Course of a Task

What becomes of a task and of its result, from its start to whoever joins it.

The task and its creator go through the startup first, and the creator gets a
handle if the thread has told it that all is well. Whoever has the handle asks the
task to end as often as it likes, and then gives the handle away, or joins the task
with it, which can be done once. Meanwhile the thread comes to its entry, reaches
places where it waits, and ends somehow: with a value, by itself, or at such a place
because it was asked to. All of them move in any order.

A thread that could not start leaves a token, which is no value of the entry. The
word that a thread leaves follows from what has been seen of it (`Life.left`), and
the token is the one word of which nothing is seen. It is left only where the creator
is told of an error and gets no handle, so nobody joins such a thread with a handle
(`Course.Kept.token`). All other words can be told apart by what they deliver.

A request is nothing but a mark on a task that still runs. Two courses that differ in
such a mark alone look the same as long as the task reaches no place where it waits
(`Course.step_masks`), and once the task has ended there is nothing to mark.

A word crosses from thread to thread as an address, of which two values are taken.
`RawWord.open_address` says that a box is never at one of them.

## Main definitions

* `RawWord.address`, `RawWord.open?`: A word as an address.
* `Course`, `Course.Handle`: A task, and what has become of its handle.
* `Course.Act`, `Course.Seen`, `Course.step`: What can happen, and what is seen.
* `Life.left`: What is seen of a word.
* `Course.Kept`: What is kept along every run.
* `Course.Masks`: Courses that differ in a request alone.
* `Course.Delivered`: What can be relied on.

## Theorems

* `RawWord.open_address`: An address is read as the word that it stands for.
* `Course.step_kept`, `Course.play_kept`: What a step keeps, and a run.
* `Course.step_masks`, `Course.play_masks`: What is seen of a request.
* `Course.results_delivered`: The result of a task, for every run.
-/

namespace HostLayer

namespace RawWord

variable {α : Type}

-- Only the value of an entry is delivered as one, and only a token is an error.
theorem deliver_value_iff {w : RawWord α} {a : α} :
    w.deliver = .ok (some a) ↔ w = .box (.value a) := by
  cases w with
  | box b => cases b <;> simp only [deliver, Except.ok.injEq, Option.some.injEq, box.injEq,
      Box.value.injEq, reduceCtorEq]
  | _ => simp only [deliver, Except.ok.injEq, reduceCtorEq]

theorem deliver_none_iff {w : RawWord α} :
    w.deliver = .ok none ↔ w = .cancelled ∨ w = .null := by
  cases w with
  | box b => cases b <;> simp only [deliver, Except.ok.injEq, reduceCtorEq, or_self]
  | _ => simp only [deliver, reduceCtorEq, or_true, or_false]

theorem deliver_ok {w : RawWord α} (h : w ≠ .box .token) : ∃ o, w.deliver = .ok o := by
  cases w with
  | box b =>
      cases b with
      | value a => exact ⟨some a, rfl⟩
      | token => exact absurd rfl h
  | _ => exact ⟨none, rfl⟩

/-- The address that marks a cancelled thread, the last one of all. -/
def cancelMark : UInt64 := 0xffffffffffffffff

/-- The word as an address, where a box is at `place`. -/
def address (place : UInt64) : RawWord α → UInt64
  | null => 0
  | cancelled => cancelMark
  | box _ => place

/-- What joining makes of an address, if there is anything to be made of it. -/
def open? (memory : UInt64 → Option (Box α)) (p : UInt64) : Option (Answer (Option α)) :=
  if p = 0 ∨ p = cancelMark then some (.ok none) else (memory p).map fun b => (box b).deliver

/-- An address is read as the word that it stands for: a box is somewhere, and at a
    multiple of eight. -/
theorem open_address {w : RawWord α} {place : UInt64} {memory : UInt64 → Option (Box α)}
    (hplace : place ≠ 0) (haligned : place.toNat % 8 = 0)
    (hbox : ∀ b, w = .box b → memory place = some b) :
    open? memory (w.address place) = some w.deliver := by
  cases w with
  | null => rfl
  | cancelled => rfl
  | box b =>
      have hmark : place ≠ cancelMark := by
        rintro rfl
        exact absurd haligned (by decide)
      rw [address, open?, if_neg (not_or_intro hplace hmark), hbox b rfl, Option.map_some]

end RawWord

namespace Life

variable {α : Type}

/-- The word of a task that is seen: none while it runs, and not the token. -/
def left : Life α → List (RawWord α)
  | running _ => []
  | ended (.box .token) => []
  | ended w => [w]

theorem left_length (l : Life α) : l.left.length ≤ 1 := by
  unfold left
  split
  next => exact Nat.zero_le _
  next => exact Nat.zero_le _
  next => exact Nat.le_refl 1

theorem left_ended {w : RawWord α} (h : w ≠ .box .token) : (ended w).left = [w] := by
  cases w with
  | box b =>
      cases b with
      | value a => rfl
      | token => exact absurd rfl h
  | null => rfl
  | cancelled => rfl

theorem eq_ended {l : Life α} {w : RawWord α} (h : l.word? = some w) : l = ended w := by
  cases l with
  | running asked => exact absurd h (by simp only [word?, reduceCtorEq, not_false_eq_true])
  | ended w' => exact congrArg ended (Option.some.inj h)

-- What becomes of a life depends on whether it has ended, and with which word.
theorem cancel_word (l : Life α) : l.cancel.word? = l.word? := by
  cases l <;> rfl

theorem finish_word (l : Life α) (a : α) :
    (l.finish a).word? = some (l.word?.getD (.box (.value a))) := by
  cases l <;> rfl

theorem exit_word (l : Life α) : l.exit.word? = some (l.word?.getD .null) := by
  cases l <;> rfl

end Life

/-- What has become of the handle of a task. -/
inductive Course.Handle
  /-- Nobody has got it. -/
  | none
  | held
  /-- Somebody waits with it for the end of the task. -/
  | joining
  /-- It has been given away, or used up by joining. -/
  | gone
  deriving DecidableEq, Repr

/-- A task with results of type `α`: its startup, its life, and its handle. -/
structure Course (α : Type) where
  startup : Handshake
  life : Life α
  handle : Course.Handle

namespace Course

variable {α : Type}

/-- What can happen. -/
inductive Act (α : Type)
  /-- The thread or its creator makes a step of the startup. -/
  | start (a : Handshake.Act)
  /-- The task reaches a place where it waits. -/
  | wait
  /-- The entry returns a value. -/
  | finish (a : α)
  /-- The task ends itself. -/
  | exit
  /-- The task is asked to end. -/
  | destroy
  /-- The handle is given away. -/
  | drop
  /-- Somebody begins to wait for the end of the task, with its handle. -/
  | join
  /-- Whoever waits for the end of the task gets its result. -/
  | collect

/-- What is seen. -/
inductive Seen (α : Type)
  /-- The creator has been answered. -/
  | created (r : Answer ThreadId)
  /-- The entry has returned. -/
  | returned (a : α)
  /-- The task has ended itself. -/
  | exited
  /-- The task has been cancelled. -/
  | cancelled
  | joined (r : Answer (Option α))

/-- The word that a task has left, from what is seen. -/
def Seen.word? : Seen α → Option (RawWord α)
  | .returned a => some (.box (.value a))
  | .exited => some .null
  | .cancelled => some .cancelled
  | _ => none

theorem Seen.word?_eq_value {e : Seen α} {a : α} :
    e.word? = some (.box (.value a)) ↔ e = .returned a := by
  cases e <;> simp only [word?, Option.some.injEq, RawWord.box.injEq, Box.value.injEq,
    returned.injEq, reduceCtorEq]

theorem Seen.word?_eq_null {e : Seen α} : e.word? = some .null ↔ e = .exited := by
  cases e <;> simp only [word?, Option.some.injEq, reduceCtorEq]

theorem Seen.word?_eq_cancelled {e : Seen α} : e.word? = some .cancelled ↔ e = .cancelled := by
  cases e <;> simp only [word?, Option.some.injEq, reduceCtorEq]

/-- The answer to whoever has joined the task. -/
def Seen.joined? : Seen α → Option (Answer (Option α))
  | .joined r => some r
  | _ => none

/-- The thread has been made, and nobody has moved. -/
def begin (threads : Host.Threads) : Course α :=
  ⟨Handshake.start threads, .running false, .none⟩

/-- The thread is in its entry. -/
def InEntry (s : Course α) : Prop :=
  s.startup.block.entries ≠ 0 ∧ s.life.word?.isNone = true

instance (s : Course α) : Decidable s.InEntry :=
  inferInstanceAs (Decidable (_ ∧ _))

section Run

variable (name : String) (number : ThreadId) (apply : Host.Threads → Control.Change)

/-- The thread and its creator after a step of the startup. A thread that could not start
    leaves a token, and a creator that is told of none gets a handle. -/
def started (s : Course α) (a : Handshake.Act) (h : Handshake) : Course α × List (Seen α) :=
  if a.byThread then
    ({ s with startup := h, life := if h.block.ended then .ended (.box .token) else s.life }, [])
  else match h.creator with
    | .inl _ => ({ s with startup := h }, [])
    | .inr (.ok n) => ({ s with startup := h, handle := .held }, [.created (.ok n)])
    | .inr (.error e) => ({ s with startup := h }, [.created (.error e)])

/-- What an act does, and what is seen of it. The task is called `name`, and its thread
    has the number `number` and gives itself its attributes by `apply`. -/
def step (s : Course α) : Act α → Option (Course α × List (Seen α))
  | .start a =>
      if a.byThread ∧ s.life.word?.isSome then none
      else (s.startup.step name number apply a).map fun p => s.started a p.1
  | .wait =>
      match s.life with
      | .running true => some ({ s with life := s.life.reachWait }, [.cancelled])
      | .running false => some ({ s with life := s.life.reachWait }, [])
      | .ended _ => none
  | .finish a =>
      if s.InEntry then some ({ s with life := s.life.finish a }, [.returned a]) else none
  | .exit => if s.InEntry then some ({ s with life := s.life.exit }, [.exited]) else none
  | .destroy => if s.handle = .held then some ({ s with life := s.life.cancel }, []) else none
  | .drop => if s.handle = .held then some ({ s with handle := .gone }, []) else none
  | .join => if s.handle = .held then some ({ s with handle := .joining }, []) else none
  | .collect =>
      match s.handle, s.life.word? with
      | .joining, some w => some ({ s with handle := .gone }, [.joined w.deliver])
      | _, _ => none

end Run

section Steps

variable {name : String} {number : ThreadId} {apply : Host.Threads → Control.Change}
  {threads : Host.Threads} {s s' t : Course α} {es fs : List (Seen α)}

-- The thread does not answer its creator, and the creator is answered once.
theorem thread_creator {h h' : Handshake} {lost : Option Error} {notes : List Note}
    (hstep : h.step name number apply (.thread lost) = some (h', notes)) :
    h'.creator = h.creator := by
  simp only [Handshake.step] at hstep
  split at hstep
  next => exact absurd hstep (by simp only [reduceCtorEq, not_false_eq_true])
  next =>
    split at hstep
    next => simp only [Option.some.injEq, Prod.mk.injEq] at hstep; rw [← hstep.1]
    next => simp only [Option.some.injEq, Prod.mk.injEq] at hstep; rw [← hstep.1]
    next => exact absurd hstep (by simp only [reduceCtorEq, not_false_eq_true])

theorem creator_unanswered {h h' : Handshake} {wake : Startup.Wake} {notes : List Note}
    (hstep : h.step name number apply (.creator wake) = some (h', notes)) (r : Answer ThreadId) :
    h.creator ≠ .inr r := by
  intro hr
  simp only [Handshake.step, hr] at hstep
  exact absurd hstep (by simp only [reduceCtorEq, not_false_eq_true])

-- A thread ends without an entry only where its attributes are refused.
theorem refused_of_ended {h : Handshake} (hk : Handshake.Kept number apply threads h)
    (hended : h.block.ended = true) : ∃ e, (apply threads).2.1 = .error e := by
  have hb := hk.block_eq
  have hwritten : (Startup.written threads number (apply threads) h.thread).ended = true :=
    (congrArg Startup.ended hb).symm.trans hended
  rw [Startup.written_ended hwritten] at hwritten
  rcases hr : (apply threads).2.1 with e | _
  · exact ⟨e, rfl⟩
  · rw [Startup.written_ok hr] at hwritten
    exact absurd hwritten Bool.false_ne_true

-- A creator that gets a handle is told that everything has been granted.
theorem granted_of_answered {h : Handshake} (hk : Handshake.Kept number apply threads h)
    (name : String) {n : ThreadId} (hn : h.creator = .inr (.ok n)) :
    (apply threads).2.1 = .ok () := by
  rcases hr : (apply threads).2.1 with e | _
  · have hagreed : Handshake.Agreed name number apply threads h := hk.agreed
    have herror := (hagreed.error_iff _ e hn).mpr hr
    exact absurd herror (by simp only [reduceCtorEq, not_false_eq_true])
  · rfl

/-- What is kept along every run that starts with `threads`. -/
structure Kept (number : ThreadId) (apply : Host.Threads → Control.Change) (threads : Host.Threads)
    (es : List (Seen α)) (s : Course α) : Prop where
  startup : Handshake.Kept number apply threads s.startup
  /-- The word of the task is what has been seen. -/
  words : es.filterMap Seen.word? = s.life.left
  /-- A token is left only where the start has failed. -/
  token : s.life = .ended (.box .token) → ∃ e, (apply threads).2.1 = .error e
  /-- There is a handle only where the creator has been told of no error. -/
  handed : s.handle ≠ .none → ∃ n, s.startup.creator = .inr (.ok n)
  /-- A creator is told of the error that there is. -/
  refused : ∀ e, .created (.error e) ∈ es → (apply threads).2.1 = .error e
  /-- Nobody has joined the task before the handle is used up. -/
  unjoined : s.handle ≠ .gone → es.filterMap Seen.joined? = []
  /-- Whoever has joined the task has got what its word delivers. -/
  joined : es.filterMap Seen.joined? = [] ∨
    ∃ w, s.life = .ended w ∧ es.filterMap Seen.joined? = [w.deliver]

-- There is no handle of a task that could not start.
theorem Kept.handle_of_refused (hk : Kept number apply threads es s)
    (h : ∃ e, (apply threads).2.1 = .error e) : s.handle = .none := by
  by_contra hne
  rcases hk.handed hne with ⟨n, hn⟩
  rcases h with ⟨e, he⟩
  rw [granted_of_answered hk.startup "" hn] at he
  exact absurd he (by simp only [reduceCtorEq, not_false_eq_true])

theorem begin_kept : Kept number apply threads [] (begin threads : Course α) where
  startup := Handshake.start_kept
  words := rfl
  token h := absurd h (by simp only [begin, reduceCtorEq, not_false_eq_true])
  handed h := absurd rfl h
  refused _ h := absurd h List.not_mem_nil
  unjoined _ := rfl
  joined := Or.inl rfl

-- Nobody has joined a task that runs.
theorem Kept.unjoined_of_running (hk : Kept number apply threads es s)
    (h : s.life.word? = none) : es.filterMap Seen.joined? = [] := by
  rcases hk.joined with hnone | ⟨w, hw, -⟩
  · exact hnone
  · rw [hw] at h
    exact absurd h (by simp only [Life.word?, reduceCtorEq, not_false_eq_true])

/-- The life of a task goes on or ends, and what is seen of it is a word or nothing. -/
theorem Kept.live (hk : Kept number apply threads es s) (h : s.life.word? = none) (l : Life α)
    (hwords : fs.filterMap Seen.word? = l.left)
    (htoken : l = .ended (.box .token) → ∃ e, (apply threads).2.1 = .error e)
    (hcreated : ∀ r, .created r ∉ fs) (hjoined : fs.filterMap Seen.joined? = []) :
    Kept number apply threads (es ++ fs) { s with life := l } where
  startup := hk.startup
  words := by
    have hleft : s.life.left = [] := by
      rcases hl : s.life with asked | w
      · rfl
      · rw [hl] at h
        exact absurd h (by simp only [Life.word?, reduceCtorEq, not_false_eq_true])
    rw [List.filterMap_append, hk.words, hleft, hwords, List.nil_append]
  token := htoken
  handed := hk.handed
  refused e he := by
    rcases List.mem_append.mp he with he | he
    · exact hk.refused e he
    · exact absurd he (hcreated _)
  unjoined hg := by rw [List.filterMap_append, hk.unjoined hg, hjoined, List.nil_append]
  joined := Or.inl (by
    rw [List.filterMap_append, hk.unjoined_of_running h, hjoined, List.nil_append])

/-- The handle goes into other hands, and nothing is seen of it. -/
theorem Kept.pass (hk : Kept number apply threads es s) (hheld : s.handle = .held)
    (h : Handle) : Kept number apply threads (es ++ []) { s with handle := h } := by
  have hhandle : s.handle ≠ .none := by rw [hheld]; decide
  have hgone : s.handle ≠ .gone := by rw [hheld]; decide
  rw [List.append_nil]
  exact ⟨hk.startup, hk.words, hk.token, fun _ => hk.handed hhandle, hk.refused,
    fun _ => hk.unjoined hgone, hk.joined⟩

/-- The handle is used up, and the word is delivered. -/
theorem Kept.collected (hk : Kept number apply threads es s) {w : RawWord α}
    (hjoining : s.handle = .joining) (hw : s.life.word? = some w) :
    Kept number apply threads (es ++ [.joined w.deliver]) { s with handle := .gone } where
  startup := hk.startup
  words := by
    rw [List.filterMap_append, hk.words]
    exact List.append_nil _
  token := hk.token
  handed _ := hk.handed (by rw [hjoining]; decide)
  refused e he := by
    rcases List.mem_append.mp he with he | he
    · exact hk.refused e he
    · exact absurd (List.mem_singleton.mp he) (by simp only [reduceCtorEq, not_false_eq_true])
  unjoined h := absurd rfl h
  joined := by
    rw [List.filterMap_append, hk.unjoined (by rw [hjoining]; decide)]
    exact Or.inr ⟨w, Life.eq_ended hw, rfl⟩

-- A step of the startup.
theorem started_kept (hk : Kept number apply threads es s) {a : Handshake.Act} {h : Handshake}
    {notes : List Note} (hrunning : ¬(a.byThread ∧ s.life.word?.isSome))
    (hstep : s.startup.step name number apply a = some (h, notes)) :
    Kept number apply threads (es ++ (s.started a h).2) (s.started a h).1 := by
  have hstartup := Handshake.happened_kept hk.startup (Handshake.step_happened a hstep)
  cases a with
  | thread lost =>
      have hcreator := thread_creator hstep
      have hlife : s.life.word? = none := by
        rw [← Option.not_isSome_iff_eq_none]
        exact fun hsome => hrunning ⟨rfl, hsome⟩
      simp only [started, Handshake.Act.byThread, if_true]
      by_cases hended : h.block.ended = true
      · have hlive : Kept number apply threads (es ++ []) { s with life := .ended (.box .token) } :=
          hk.live hlife _ rfl (fun _ => refused_of_ended hstartup hended)
            (fun _ => List.not_mem_nil) rfl
        rw [if_pos hended]
        exact ⟨hstartup, hlive.words, hlive.token, fun hne => hcreator ▸ hk.handed hne,
          hlive.refused, hlive.unjoined, hlive.joined⟩
      · rw [if_neg hended, List.append_nil]
        exact ⟨hstartup, hk.words, hk.token, fun hne => hcreator ▸ hk.handed hne, hk.refused,
          hk.unjoined, hk.joined⟩
  | creator wake =>
      -- The creator has not been answered, so nobody has a handle.
      have hnone : s.handle = .none := by
        by_contra hne
        rcases hk.handed hne with ⟨n, hn⟩
        exact creator_unanswered hstep _ hn
      have hgone : s.handle ≠ .gone := by rw [hnone]; decide
      simp only [started, Handshake.Act.byThread, Bool.false_eq_true, if_false]
      split
      next p hp =>
        rw [List.append_nil]
        exact ⟨hstartup, hk.words, hk.token, fun hne => absurd hnone hne, hk.refused,
          hk.unjoined, hk.joined⟩
      next n hn =>
        refine ⟨hstartup, ?_, hk.token, fun _ => ⟨n, hn⟩, fun e he => ?_, fun _ => ?_, ?_⟩
        · rw [List.filterMap_append, hk.words]
          exact List.append_nil _
        · rcases List.mem_append.mp he with he | he
          · exact hk.refused e he
          · exact absurd (List.mem_singleton.mp he) (by
              simp only [Seen.created.injEq, reduceCtorEq, not_false_eq_true])
        · rw [List.filterMap_append, hk.unjoined hgone]
          rfl
        · rw [List.filterMap_append, hk.unjoined hgone]
          exact Or.inl rfl
      next e he =>
        have hagreed : Handshake.Agreed name number apply threads h := hstartup.agreed
        have herror := (hagreed.error_iff _ e he).mp rfl
        refine ⟨hstartup, ?_, hk.token, fun hne => absurd hnone hne, fun e' he' => ?_, fun _ => ?_,
          ?_⟩
        · rw [List.filterMap_append, hk.words]
          exact List.append_nil _
        · rcases List.mem_append.mp he' with he' | he'
          · exact hk.refused e' he'
          · rw [List.mem_singleton, Seen.created.injEq, Except.error.injEq] at he'
            rw [he', herror]
        · rw [List.filterMap_append, hk.unjoined hgone]
          rfl
        · rw [List.filterMap_append, hk.unjoined hgone]
          exact Or.inl rfl

/-- Every step keeps it. -/
theorem step_kept {a : Act α} (hk : Kept number apply threads es s)
    (h : step name number apply s a = some (s', fs)) :
    Kept number apply threads (es ++ fs) s' := by
  cases a with
  | start a =>
      simp only [step] at h
      split_ifs at h with hrunning
      rcases Option.map_eq_some_iff.mp h with ⟨⟨h', notes⟩, hstep, heq⟩
      have hkept := started_kept hk hrunning hstep
      rw [heq] at hkept
      exact hkept
  | wait =>
      simp only [step] at h
      split at h
      next hl =>
        simp only [Option.some.injEq, Prod.mk.injEq] at h
        rcases h with ⟨rfl, rfl⟩
        have hword : s.life.word? = none := by rw [hl]; rfl
        have hends : s.life.reachWait = .ended .cancelled := by rw [hl]; rfl
        refine hk.live hword _ (by rw [hends]; rfl) (fun htoken => ?_)
          (fun _ => by simp only [List.mem_singleton, reduceCtorEq, not_false_eq_true]) rfl
        rw [hends] at htoken
        exact absurd htoken (by simp only [Life.ended.injEq, reduceCtorEq, not_false_eq_true])
      next hl =>
        simp only [Option.some.injEq, Prod.mk.injEq] at h
        rcases h with ⟨rfl, rfl⟩
        have hword : s.life.word? = none := by rw [hl]; rfl
        have hwaits : s.life.reachWait = .running false := by rw [hl]; rfl
        refine hk.live hword _ (by rw [hwaits]; rfl) (fun htoken => ?_)
          (fun _ => List.not_mem_nil) rfl
        rw [hwaits] at htoken
        exact absurd htoken (by simp only [reduceCtorEq, not_false_eq_true])
      next => exact absurd h (by simp only [reduceCtorEq, not_false_eq_true])
  | finish a =>
      simp only [step] at h
      split_ifs at h with hin
      simp only [Option.some.injEq, Prod.mk.injEq] at h
      rcases h with ⟨rfl, rfl⟩
      have hword := Option.isNone_iff_eq_none.mp hin.2
      rcases hl : s.life with asked | w
      · refine hk.live hword _ rfl (fun htoken => ?_)
          (fun _ => by simp only [List.mem_singleton, reduceCtorEq, not_false_eq_true]) rfl
        rw [Life.finish] at htoken
        exact absurd htoken (by
          simp only [Life.ended.injEq, RawWord.box.injEq, reduceCtorEq, not_false_eq_true])
      · rw [hl] at hword
        exact absurd hword (by simp only [Life.word?, reduceCtorEq, not_false_eq_true])
  | exit =>
      simp only [step] at h
      split_ifs at h with hin
      simp only [Option.some.injEq, Prod.mk.injEq] at h
      rcases h with ⟨rfl, rfl⟩
      have hword := Option.isNone_iff_eq_none.mp hin.2
      rcases hl : s.life with asked | w
      · refine hk.live hword _ rfl (fun htoken => ?_)
          (fun _ => by simp only [List.mem_singleton, reduceCtorEq, not_false_eq_true]) rfl
        rw [Life.exit] at htoken
        exact absurd htoken (by simp only [Life.ended.injEq, reduceCtorEq, not_false_eq_true])
      · rw [hl] at hword
        exact absurd hword (by simp only [Life.word?, reduceCtorEq, not_false_eq_true])
  | destroy =>
      simp only [step] at h
      split_ifs at h with hheld
      simp only [Option.some.injEq, Prod.mk.injEq] at h
      rcases h with ⟨rfl, rfl⟩
      rcases hl : s.life with asked | w
      · have hword : s.life.word? = none := by rw [hl]; rfl
        refine hk.live hword _ rfl (fun htoken => ?_) (fun _ => List.not_mem_nil) rfl
        rw [Life.cancel] at htoken
        exact absurd htoken (by simp only [reduceCtorEq, not_false_eq_true])
      · rw [Life.cancel_ended, ← hl, List.append_nil]
        exact hk
  | drop =>
      simp only [step] at h
      split_ifs at h with hheld
      simp only [Option.some.injEq, Prod.mk.injEq] at h
      rcases h with ⟨rfl, rfl⟩
      exact hk.pass hheld .gone
  | join =>
      simp only [step] at h
      split_ifs at h with hheld
      simp only [Option.some.injEq, Prod.mk.injEq] at h
      rcases h with ⟨rfl, rfl⟩
      exact hk.pass hheld .joining
  | collect =>
      simp only [step] at h
      split at h
      next w hjoining hw =>
        simp only [Option.some.injEq, Prod.mk.injEq] at h
        rcases h with ⟨rfl, rfl⟩
        exact hk.collected hjoining hw
      next => exact absurd h (by simp only [reduceCtorEq, not_false_eq_true])

/-- Every run keeps it. -/
theorem play_kept {acts : List (Act α)}
    (h : Schedule.play (step name number apply) (begin threads) acts = some (s, es)) :
    Kept number apply threads es s := by
  rcases Schedule.play_simulates (step name number apply) (fun _ => True)
    (fun s seen => Kept number apply threads seen s) (fun seen fs all => all = seen ++ fs)
    (fun _ => (List.append_nil _).symm) (fun _ _ _ _ _ h1 h2 => by rw [h2, h1, List.append_assoc])
    (fun _ seen _ _ fs hk _ hstep => ⟨seen ++ fs, rfl, step_kept hk hstep⟩)
    acts _ _ [] es begin_kept (fun _ _ => trivial) h with ⟨all, rfl, hk⟩
  exact hk

namespace Kept

-- Somebody who has got an answer has got what the word of the task delivers, which is
-- not a token.
theorem joined_word (hk : Kept number apply threads es s) {r : Answer (Option α)}
    (hr : .joined r ∈ es) :
    ∃ w, w ≠ .box .token ∧ r = w.deliver ∧ es.filterMap Seen.word? = [w] := by
  have hmem : r ∈ es.filterMap Seen.joined? := List.mem_filterMap.mpr ⟨_, hr, rfl⟩
  rcases hk.joined with hnone | ⟨w, hlife, hone⟩
  · rw [hnone] at hmem
    exact absurd hmem List.not_mem_nil
  · have htoken : w ≠ .box .token := by
      rintro rfl
      have hgone : s.handle = .none := hk.handle_of_refused (hk.token hlife)
      rw [hk.unjoined (by rw [hgone]; decide)] at hmem
      exact absurd hmem List.not_mem_nil
    rw [hone, List.mem_singleton] at hmem
    exact ⟨w, htoken, hmem, by rw [hk.words, hlife, Life.left_ended htoken]⟩

-- Something is seen of the end of a task if its word is the one of that end.
theorem seen_iff {w w' : RawWord α} (h : es.filterMap Seen.word? = [w]) {e : Seen α}
    (he : ∀ e', Seen.word? e' = some w' ↔ e' = e) : e ∈ es ↔ w = w' := by
  have hmem : w' ∈ es.filterMap Seen.word? ↔ e ∈ es := by
    rw [List.mem_filterMap]
    constructor
    · rintro ⟨e', hin, hw⟩
      exact (he e').mp hw ▸ hin
    · exact fun hin => ⟨e, hin, (he e).mpr rfl⟩
  rw [← hmem, h, List.mem_singleton, eq_comm]

end Kept

/-- Two courses that differ in nothing but in whether a task that runs has been asked to
    end. -/
structure Masks (s t : Course α) : Prop where
  startup : s.startup = t.startup
  handle : s.handle = t.handle
  word : s.life.word? = t.life.word?

namespace Masks

theorem symm (h : Masks s t) : Masks t s :=
  ⟨h.startup.symm, h.handle.symm, h.word.symm⟩

theorem inEntry (h : Masks s t) : s.InEntry ↔ t.InEntry := by
  rw [InEntry, InEntry, h.startup, h.word]

end Masks

theorem started_masks (hm : Masks s t) (a : Handshake.Act) (h : Handshake) :
    (s.started a h).2 = (t.started a h).2 ∧ Masks (s.started a h).1 (t.started a h).1 := by
  simp only [started]
  split
  next =>
    refine ⟨rfl, rfl, hm.handle, ?_⟩
    split
    next => rfl
    next => exact hm.word
  next =>
    split
    next => exact ⟨rfl, rfl, hm.handle, hm.word⟩
    next => exact ⟨rfl, rfl, rfl, hm.word⟩
    next => exact ⟨rfl, rfl, hm.handle, hm.word⟩

/-- A request is not seen in a step, unless the task reaches a place where it waits. -/
theorem step_masks {a : Act α} (hm : Masks s t) (ha : a ≠ .wait)
    (h : step name number apply s a = some (s', fs)) :
    ∃ t', step name number apply t a = some (t', fs) ∧ Masks s' t' := by
  cases a with
  | start a =>
      simp only [step] at h ⊢
      rw [← hm.word, ← hm.startup]
      split_ifs at h ⊢
      rcases Option.map_eq_some_iff.mp h with ⟨⟨h', notes⟩, hstep, heq⟩
      have hstarted := started_masks hm a h'
      rw [heq] at hstarted
      refine ⟨(t.started a h').1, ?_, hstarted.2⟩
      rw [hstep, Option.map_some, show fs = (t.started a h').2 from hstarted.1]
  | wait => exact absurd rfl ha
  | finish a =>
      simp only [step] at h ⊢
      split_ifs at h with hin
      simp only [Option.some.injEq, Prod.mk.injEq] at h
      rcases h with ⟨rfl, rfl⟩
      refine ⟨_, if_pos (hm.inEntry.mp hin), hm.startup, hm.handle, ?_⟩
      rw [Life.finish_word, Life.finish_word, hm.word]
  | exit =>
      simp only [step] at h ⊢
      split_ifs at h with hin
      simp only [Option.some.injEq, Prod.mk.injEq] at h
      rcases h with ⟨rfl, rfl⟩
      refine ⟨_, if_pos (hm.inEntry.mp hin), hm.startup, hm.handle, ?_⟩
      rw [Life.exit_word, Life.exit_word, hm.word]
  | destroy =>
      simp only [step] at h ⊢
      split_ifs at h with hheld
      simp only [Option.some.injEq, Prod.mk.injEq] at h
      rcases h with ⟨rfl, rfl⟩
      refine ⟨_, if_pos (hm.handle ▸ hheld), hm.startup, hm.handle, ?_⟩
      rw [Life.cancel_word, Life.cancel_word, hm.word]
  | drop =>
      simp only [step] at h ⊢
      split_ifs at h with hheld
      simp only [Option.some.injEq, Prod.mk.injEq] at h
      rcases h with ⟨rfl, rfl⟩
      exact ⟨_, if_pos (hm.handle ▸ hheld), hm.startup, rfl, hm.word⟩
  | join =>
      simp only [step] at h ⊢
      split_ifs at h with hheld
      simp only [Option.some.injEq, Prod.mk.injEq] at h
      rcases h with ⟨rfl, rfl⟩
      exact ⟨_, if_pos (hm.handle ▸ hheld), hm.startup, rfl, hm.word⟩
  | collect =>
      simp only [step] at h ⊢
      rw [← hm.handle, ← hm.word]
      split at h
      next w hjoining hw =>
        simp only [Option.some.injEq, Prod.mk.injEq] at h
        rcases h with ⟨rfl, rfl⟩
        exact ⟨_, rfl, hm.startup, rfl, hm.word⟩
      next => exact absurd h (by simp only [reduceCtorEq, not_false_eq_true])

/-- A request is not seen in a run, unless the task reaches a place where it waits. -/
theorem play_masks {acts : List (Act α)} (hm : Masks s t) (hacts : ∀ a ∈ acts, a ≠ .wait)
    (h : Schedule.play (step name number apply) s acts = some (s', es)) :
    ∃ t', Schedule.play (step name number apply) t acts = some (t', es) ∧ Masks s' t' := by
  induction acts generalizing s t es with
  | nil =>
      simp only [Schedule.play, Option.some.injEq, Prod.mk.injEq] at h
      rcases h with ⟨rfl, rfl⟩
      exact ⟨t, rfl, hm⟩
  | cons a rest ih =>
      rcases (Schedule.play_cons_iff _ s s' a rest es).mp h with
        ⟨s₁, first, later, hfirst, hplay, rfl⟩
      rcases step_masks hm (hacts a List.mem_cons_self) hfirst with ⟨t₁, hstep, hm₁⟩
      rcases ih hm₁ (fun b hb => hacts b (List.mem_cons_of_mem a hb)) hplay with ⟨t', hrun, hm'⟩
      exact ⟨t', Schedule.play_cons hstep hrun, hm'⟩

-- So the two look the same.
theorem Masks.looks_eq {acts : List (Act α)} (hm : Masks s t) (hacts : ∀ a ∈ acts, a ≠ .wait) :
    (Schedule.play (step name number apply) s acts).map Prod.snd =
      (Schedule.play (step name number apply) t acts).map Prod.snd := by
  have hone : ∀ {s t : Course α}, Masks s t → ∀ es,
      (Schedule.play (step name number apply) s acts).map Prod.snd = some es →
        (Schedule.play (step name number apply) t acts).map Prod.snd = some es := by
    intro s t hm es h
    rcases Option.map_eq_some_iff.mp h with ⟨⟨s', _⟩, hrun, rfl⟩
    rcases play_masks hm hacts hrun with ⟨t', hrun', -⟩
    exact Option.map_eq_some_iff.mpr ⟨_, hrun', rfl⟩
  exact Option.ext fun es => ⟨hone hm es, hone hm.symm es⟩

/-- A request to end is not seen if the task has ended, or reaches no place where it
    waits. -/
theorem destroy_unseen {after : List (Act α)} (hheld : s.handle = .held)
    (h : s.life.word?.isSome ∨ ∀ a ∈ after, a ≠ .wait) :
    (Schedule.play (step name number apply) s (.destroy :: after)).map Prod.snd =
      (Schedule.play (step name number apply) s after).map Prod.snd := by
  have hplay : (Schedule.play (step name number apply) s (.destroy :: after)).map Prod.snd =
      (Schedule.play (step name number apply) { s with life := s.life.cancel } after).map
        Prod.snd := by
    simp only [Schedule.play, step, if_pos hheld]
    cases Schedule.play (step name number apply) { s with life := s.life.cancel } after <;> rfl
  rw [hplay]
  rcases h with hended | hacts
  · rcases hl : s.life with asked | w
    · rw [hl] at hended
      exact absurd hended Bool.false_ne_true
    · rw [Life.cancel_ended, ← hl]
  · exact Masks.looks_eq ⟨rfl, rfl, Life.cancel_word s.life⟩ hacts

variable (name number apply) in
/-- What can be relied on, after a run of which `es` has been seen. -/
structure Delivered (es : List (Seen α)) (s : Course α) : Prop where
  /-- A task ends once, and nobody joins it twice. -/
  ending : (es.filterMap Seen.word?).length ≤ 1
  once : (es.filterMap Seen.joined?).length ≤ 1
  /-- Whoever joins the task gets the value that the entry has returned, if it has
      returned, and nothing if the task has been cancelled or has ended itself. -/
  value_iff : ∀ r a, .joined r ∈ es → (r = .ok (some a) ↔ .returned a ∈ es)
  none_iff : ∀ r, .joined r ∈ es → (r = .ok none ↔ .cancelled ∈ es ∨ .exited ∈ es)
  /-- There is no other answer. -/
  joined_ok : ∀ r, .joined r ∈ es → ∃ o, r = .ok o
  /-- It is the answer that an address stands for, wherever the box is. -/
  crosses : ∀ r, .joined r ∈ es → ∃ w, es.filterMap Seen.word? = [w] ∧
    ∀ place memory, place ≠ 0 → place.toNat % 8 = 0 →
      (∀ b, w = .box b → memory place = some b) →
      RawWord.open? memory (w.address place) = some r
  /-- Whoever waits for the end of a task gets an answer when it has ended. -/
  collects : s.handle = .joining → s.life.word?.isSome →
    ∃ t o, step name number apply s .collect = some (t, [.joined (.ok o)])
  /-- There is no handle of a task that could not start, and nobody has joined it. -/
  unstarted : ∀ e, .created (.error e) ∈ es → s.handle = .none ∧ ∀ r, .joined r ∉ es
  token : s.life = .ended (.box .token) → s.handle = .none ∧ ∀ r, .joined r ∉ es
  /-- A request to end changes nothing, whatever happens afterwards, if the task has ended
      or reaches no place where it waits. -/
  destroyed : s.handle = .held → ∀ after : List (Act α),
    s.life.word?.isSome ∨ (∀ a ∈ after, a ≠ .wait) →
      (Schedule.play (step name number apply) s (.destroy :: after)).map Prod.snd =
        (Schedule.play (step name number apply) s after).map Prod.snd

-- Nobody has joined a task that could not start.
theorem Kept.unjoined_of_refused (hk : Kept number apply threads es s)
    (h : ∃ e, (apply threads).2.1 = .error e) : s.handle = .none ∧ ∀ r, .joined r ∉ es := by
  have hnone := hk.handle_of_refused h
  refine ⟨hnone, fun r hr => ?_⟩
  have hmem : r ∈ es.filterMap Seen.joined? := List.mem_filterMap.mpr ⟨_, hr, rfl⟩
  rw [hk.unjoined (by rw [hnone]; decide)] at hmem
  exact absurd hmem List.not_mem_nil

theorem Kept.delivered (hk : Kept number apply threads es s) :
    Delivered name number apply es s where
  ending := by
    rw [hk.words]
    exact Life.left_length s.life
  once := by
    rcases hk.joined with hnone | ⟨w, -, hone⟩
    · rw [hnone]
      exact Nat.zero_le _
    · rw [hone]
      exact Nat.le_refl 1
  value_iff r a hr := by
    rcases hk.joined_word hr with ⟨w, -, rfl, hword⟩
    rw [RawWord.deliver_value_iff, Kept.seen_iff hword fun _ => Seen.word?_eq_value]
  none_iff r hr := by
    rcases hk.joined_word hr with ⟨w, -, rfl, hword⟩
    rw [RawWord.deliver_none_iff, Kept.seen_iff hword fun _ => Seen.word?_eq_cancelled,
      Kept.seen_iff hword fun _ => Seen.word?_eq_null]
  joined_ok r hr := by
    rcases hk.joined_word hr with ⟨w, htoken, rfl, -⟩
    exact RawWord.deliver_ok htoken
  crosses r hr := by
    rcases hk.joined_word hr with ⟨w, -, rfl, hword⟩
    exact ⟨w, hword, fun _ _ => RawWord.open_address⟩
  collects hjoining hsome := by
    rcases Option.isSome_iff_exists.mp hsome with ⟨w, hw⟩
    have htoken : w ≠ .box .token := by
      rintro rfl
      have hnone := hk.handle_of_refused (hk.token (Life.eq_ended hw))
      rw [hjoining] at hnone
      exact absurd hnone (by decide)
    rcases RawWord.deliver_ok htoken with ⟨o, ho⟩
    exact ⟨{ s with handle := .gone }, o, by simp only [step, hjoining, hw, ho]⟩
  unstarted e he := hk.unjoined_of_refused ⟨e, hk.refused e he⟩
  token h := hk.unjoined_of_refused (hk.token h)
  destroyed hheld _ := destroy_unseen hheld

/-- Whatever the entry does, and whoever asks the task to end, joins it or gives its
    handle away meanwhile, its result is delivered. -/
theorem results_delivered (name : String) (number : ThreadId)
    (apply : Host.Threads → Control.Change) (threads : Host.Threads) (acts : List (Act α))
    (s : Course α) (es : List (Seen α))
    (hrun : Schedule.play (step name number apply) (begin threads) acts = some (s, es)) :
    Delivered name number apply es s :=
  (play_kept hrun).delivered

/-- A task is asked to end, returns five all the same, and is joined. -/
theorem results_delivered_five : ∃ (threads : Host.Threads) (acts : List (Act Nat))
    (s : Course Nat) (es : List (Seen Nat)),
    es = [.created (.ok 2), .returned 5, .joined (.ok (some 5))] ∧ .destroy ∈ acts ∧
    Schedule.play (step "worker" 2 fun t => (t, .ok (), [])) (begin threads) acts
      = some (s, es) ∧
    Delivered "worker" 2 (fun t => (t, .ok (), [])) es s := by
  let threads : Host.Threads := ⟨fun _ => ⟨"main", .other, 0, CpuSet.empty.insert 0, false⟩⟩
  let acts : List (Act Nat) := List.replicate 6 (.start (.thread none)) ++
    List.replicate 2 (.start (.creator .early)) ++ [.destroy, .join, .finish 5, .collect]
  have hseen : (Schedule.play (step "worker" 2 fun t => (t, .ok (), [])) (begin threads)
      acts).map Prod.snd = some [.created (.ok 2), .returned 5, .joined (.ok (some 5))] := rfl
  rcases Option.map_eq_some_iff.mp hseen with ⟨⟨s, es⟩, hrun, hes⟩
  exact ⟨threads, acts, s, es, hes, by simp [acts], hrun,
    results_delivered "worker" 2 _ threads acts s es hrun⟩

end Steps

end Course

end HostLayer
