import HostLayer.Proofs.Ipc.Transfer

/-!
# Delivery

What one host call does to the queues, whichever call it is.

Opening a queue finds the one that the name stands for, or makes one with the
geometry that is asked for (`QueueShelf.Opened`). Removing a name leaves all queues
alone. One step of a call to send or to receive moves exactly one message that the
queue can serve, or it leaves the queue as it is (`QueueHandle.Effect`), and this
holds with and without a deadline.

A message that the queue has the room for can still be turned away, for one of five
reasons, and its length is not among them (`QueueHandle.Turned`).

## Main definitions

* `QueueShelf.Backed`: A handle and its queue agree on the length of messages.
* `QueueShelf.added`, `QueueShelf.Opened`: What opening does.
* `QueueHandle.Effect`: What a step of a call does.
* `QueueHandle.Turned`: Why a message that fits is not taken.

## Theorems

* `QueueShelf.open_opened`, `QueueShelf.unlink_cases`: The calls with names.
* `QueueHandle.step_effect`: The calls that wait.
* `QueueHandle.ask_turned`, `QueueHandle.step_turned`: A message that fits.
-/

namespace HostLayer

namespace QueueShelf

/-- The queue of a handle exists, and its messages are as long as the handle says. -/
def Backed (s : QueueShelf) (h : QueueHandle) : Prop :=
  ∃ q, s.queues h.queue = some q ∧ h.maxMessageSize = q.maxMessageSize

theorem put_self {s : QueueShelf} {i : Nat} {q : Host.Queue} (h : s.queues i = some q) :
    s.put i q = s := by
  have hqueues : (fun j => if j = i then some q else s.queues j) = s.queues := by
    funext j
    split_ifs with hj
    · rw [hj, h]
    · rfl
  rw [put, hqueues]

theorem put_queues_self (s : QueueShelf) (i : Nat) (q : Host.Queue) :
    (s.put i q).queues i = some q := if_pos rfl

theorem put_queues_of_ne (s : QueueShelf) {i j : Nat} (q : Host.Queue) (h : j ≠ i) :
    (s.put i q).queues j = s.queues j := if_neg h

/-- The shelf with a new queue under the name `host`. -/
def added (s : QueueShelf) (host : String) (attr : QueueAttr) : QueueShelf :=
  { s.put s.next ⟨attr.maxMessages, attr.maxMessageSize, []⟩ with
    names := fun n => if n = host then some s.next else s.names n
    mode := fun j => if j = s.next then attr.mode else s.mode j
    next := s.next + 1 }

/-- What opening a queue comes to: the shelf after it, and what the caller is told. -/
inductive Opened (s : QueueShelf) (attr : QueueAttr) : QueueShelf → Answer QueueHandle → Prop
  /-- The queue is there, and keeps its geometry. -/
  | found (host : String) (h : QueueHandle) (hn : s.names host = some h.queue)
      (hsize : h.maxMessageSize = ((s.queues h.queue).map (·.maxMessageSize)).getD 0) :
      Opened s attr s (.ok h)
  /-- The queue is made, with the geometry of the attributes. -/
  | made (host : String) (h : QueueHandle) (hn : h.queue = s.next)
      (hsize : h.maxMessageSize = attr.maxMessageSize) (hcreat : attr.has QueueFlags.creat = true) :
      Opened s attr (s.added host attr) (.ok h)
  | refused (e : Error) : Opened s attr s (.error e)

-- The host finds a queue, makes one, or does nothing.
theorem hostOpen_cases (s : QueueShelf) (left : Bool) (host : String) (attr : QueueAttr) :
    (∃ e, s.hostOpen left host attr = .error e) ∨
    (∃ i, s.hostOpen left host attr = .ok (s, i) ∧ s.names host = some i) ∨
    (s.hostOpen left host attr = .ok (s.added host attr, s.next) ∧
      attr.has QueueFlags.creat = true) := by
  unfold hostOpen
  by_cases hleft : !left
  · exact Or.inl ⟨_, if_pos hleft⟩
  by_cases hreserved : reserved host
  · exact Or.inl ⟨_, by rw [if_neg hleft, if_pos hreserved]⟩
  rw [if_neg hleft, if_neg hreserved]
  rcases hn : s.names host with _ | i
  · simp only []
    split_ifs with hcreat
    · exact Or.inl ⟨_, rfl⟩
    · unfold Host.Queue.create
      split_ifs
      · refine Or.inr (Or.inr ⟨rfl, ?_⟩)
        rwa [Bool.not_eq_true', Bool.not_eq_false] at hcreat
      · exact Or.inl ⟨_, rfl⟩
  · simp only []
    split_ifs
    · exact Or.inl ⟨_, rfl⟩
    · exact Or.inr (Or.inl ⟨i, rfl, rfl⟩)
    · exact Or.inl ⟨_, rfl⟩

/-- Opening a queue finds one, makes one, or fails and does nothing. -/
theorem open_opened (s : QueueShelf) (left : Bool) (name : String) (attr : QueueAttr) :
    Opened s attr (s.open left name attr).1 (s.open left name attr).2.1 := by
  unfold «open»
  split
  next e _ => exact .refused e
  next host _ =>
    rcases hostOpen_cases s left host attr with ⟨e, h⟩ | ⟨i, h, hi⟩ | ⟨h, hcreat⟩
    · rw [h]
      exact .refused _
    · rw [h]
      exact .found host _ hi rfl
    · rw [h]
      refine .made host _ rfl ?_ hcreat
      simp only [added, put_queues_self, Option.map_some, Option.getD_some]

/-- Removing a name takes it away from its queue, or fails and does nothing. -/
theorem unlink_cases (s : QueueShelf) (name : String) :
    (∃ host, (s.unlink name).1 = { s with names := fun n => if n = host then none else s.names n } ∧
      (s.unlink name).2.1 = .ok ()) ∨
    ((s.unlink name).1 = s ∧ ∃ e, (s.unlink name).2.1 = .error e) := by
  unfold unlink
  split
  next e _ => exact Or.inr ⟨rfl, e, rfl⟩
  next host _ =>
    simp only []
    split_ifs
    · exact Or.inr ⟨rfl, _, rfl⟩
    · split
      next => exact Or.inr ⟨rfl, _, rfl⟩
      next => exact Or.inl ⟨host, rfl, rfl⟩

end QueueShelf

namespace QueueHandle

/-- What a step of a call at the place `p` does to the queue. -/
inductive Effect (h : QueueHandle) (r : Request) (q : Host.Queue) (p : Place) :
    Step Host.Queue Place (Answer (Option Host.QueueMessage)) → Prop
  /-- The call goes on, if it is about anything that fits the handle. -/
  | onward (p' : Place) (hp : p' ≠ .checking) (hf : p = .checking → h.fits r = true) :
      Effect h r q p (.goto q p' [])
  | failed (e : Error) : Effect h r q p (.done q (.error e) [])
  /-- One message is moved. -/
  | moved (q' : Host.Queue) (result : Option Host.QueueMessage) (hp : p ≠ .checking)
      (hform : ¬r.Malformed q) (ht : Transferred q r result q') :
      Effect h r q p (.done q' (.ok result) [])
  | waiting (hp : p ≠ .checking) : Effect h r q p .waits

-- What is done is something that the queue can serve.
theorem not_malformed_of_done {h : QueueHandle} {r : Request} {q q' : Host.Queue}
    {limit : Option HostTime} {wall : Nat} {result : Option Host.QueueMessage}
    (ha : h.attempt r q limit wall = .done q' result) : ¬r.Malformed q := by
  intro hm
  cases r with
  | send m =>
      simp only [attempt, Host.Queue.send] at ha
      split_ifs at ha with hbad hprio hdir hlen hroom
      · rcases hm with hm | hm
        · exact hprio hm
        · exact hlen hm
      · rcases stall_cases Unit h.descriptor limit wall with ⟨hs, _⟩ | ⟨hs, _⟩ | ⟨hs, _⟩ <;>
          exact absurd ha (by simp only [hs, reduceCtorEq, not_false_eq_true])
  | receive room =>
      have hroom : room < q.maxMessageSize := hm
      simp only [attempt, Host.Queue.receive, if_pos hroom] at ha
      split_ifs at ha

-- Asking the host moves one message, or leaves the queue as it is.
theorem ask_effect (h : QueueHandle) (r : Request) (clock : Clock) (q : Host.Queue)
    (limit : Option HostTime) (p : Place) (hp : p ≠ .checking)
    (stalled : Step Host.Queue Place (Answer (Option Host.QueueMessage)))
    (hstalled : Effect h r q p stalled) : Effect h r q p (h.ask r clock q limit stalled) := by
  rcases ask_cases h r clock q limit stalled with ⟨q', result, ha, ht⟩ | ⟨e, ha, _⟩ | ⟨ha, _⟩
  · rw [ha]
    refine .moved q' result hp ?_ ht
    -- The answer can only be that of the attempt.
    rcases attempt_cases h r q limit clock.realtime with ⟨q₁, r₁, hdone, _⟩ | ⟨e, href, _⟩ | ⟨hw, _⟩
    · exact not_malformed_of_done hdone
    · simp only [ask, href, Step.done.injEq, reduceCtorEq, false_and, and_false] at ha
    · simp only [ask, hw] at ha
      rw [ha] at hstalled
      cases hstalled with
      | moved _ _ _ hform _ => exact hform
  · rw [ha]
    exact .failed e
  · rw [ha]
    exact hstalled

/-- A step of a call moves one message, or leaves the queue as it is. -/
theorem step_effect (h : QueueHandle) (r : Request) (source : ClockSource) (deadline : Option Timer)
    (clock : Clock) (q : Host.Queue) (p : Place) :
    Effect h r q p (h.step r source deadline clock q p) := by
  cases p with
  | checking =>
      simp only [step]
      split_ifs with hf
      · exact .onward .asking (by simp only [ne_eq, reduceCtorEq, not_false_eq_true]) fun _ => hf
      · exact .failed _
  | asking =>
      have hp : Place.asking ≠ .checking := by simp only [ne_eq, reduceCtorEq, not_false_eq_true]
      -- Whatever the deadline is, the call would sleep next.
      have hsleep : ∀ limit, Effect h r q .asking (.goto q (.asleep limit) []) := fun limit =>
        .onward _ (by simp only [ne_eq, reduceCtorEq, not_false_eq_true]) fun hc => absurd hc hp
      simp only [step]
      split
      next => exact ask_effect h r clock q none .asking hp _ (hsleep none)
      next d =>
        split
        next => exact .failed _
        next limit _ => exact ask_effect h r clock q (some limit) .asking hp _ (hsleep (some limit))
  | asleep limit =>
      have hp : Place.asleep limit ≠ .checking := by
        simp only [ne_eq, reduceCtorEq, not_false_eq_true]
      exact ask_effect h r clock q limit (.asleep limit) hp _ (.waiting hp)

/-- Why the host does not take a message of a length that the queue takes. -/
inductive Turned (d : Host.Descriptor) (q : Host.Queue) (priority : Nat) (limit : Option HostTime)
    (wall : Nat) : Error → Prop
  | deadline (h : Host.Queue.badDeadline limit = true) :
      Turned d q priority limit wall .invalidParam
  | priority (h : Host.Queue.priorities ≤ priority) : Turned d q priority limit wall .invalidParam
  | direction (h : d.canSend = false) : Turned d q priority limit wall .permissionDenied
  | full (hq : q.maxMessages ≤ q.pending.length) (h : d.nonblocking = true) :
      Turned d q priority limit wall .busy
  | late (hq : q.maxMessages ≤ q.pending.length) (h : Host.Queue.late wall limit = true) :
      Turned d q priority limit wall .timeout

/-- The host turns a message that fits away for one of five reasons. -/
theorem ask_turned {h : QueueHandle} {m : Host.QueueMessage} {clock : Clock} {q q' : Host.Queue}
    {limit : Option HostTime} {stalled : Step Host.Queue Place (Answer (Option Host.QueueMessage))}
    {e : Error} {notes : List Note} (hlen : m.body.length ≤ q.maxMessageSize)
    (hstalled : stalled ≠ .done q' (.error e) notes)
    (ha : h.ask (.send m) clock q limit stalled = .done q' (.error e) notes) :
    Turned h.descriptor q m.priority limit clock.realtime e := by
  simp only [ask, attempt, Host.Queue.send, if_neg (Nat.not_lt.mpr hlen)] at ha
  split_ifs at ha with hbad hprio hdir hroom
  · simp only [Errno.translate, transferCause, Step.done.injEq, Except.error.injEq] at ha
    exact ha.2.1 ▸ .deadline hbad
  · simp only [Errno.translate, transferCause, Step.done.injEq, Except.error.injEq] at ha
    exact ha.2.1 ▸ .priority hprio
  · simp only [Errno.translate, transferCause, Step.done.injEq, Except.error.injEq] at ha
    exact ha.2.1 ▸ .direction (by rwa [Bool.not_eq_true'] at hdir)
  · simp only [Step.done.injEq, reduceCtorEq, false_and, and_false] at ha
  · have hfull := Nat.le_of_not_lt hroom
    rcases stall_cases Unit h.descriptor limit clock.realtime with
      ⟨hs, hn⟩ | ⟨hs, hl⟩ | ⟨hs, hl⟩
    · simp only [hs, Errno.translate, transferCause, Step.done.injEq, Except.error.injEq] at ha
      exact ha.2.1 ▸ .full hfull hn
    · simp only [hs, Errno.translate, transferCause, Step.done.injEq, Except.error.injEq] at ha
      exact ha.2.1 ▸ .late hfull hl
    · simp only [hs] at ha
      exact absurd ha hstalled

/-- Why a call to send a message of a length that the queue takes fails: its deadline
    cannot be told to the host, or the host turns the message away. -/
inductive SendFails (h : QueueHandle) (m : Host.QueueMessage) (source : ClockSource)
    (deadline : Option Timer) (clock : Clock) (q : Host.Queue) : Place → Error → Prop
  | untold (d : Timer) (hd : deadline = some d) (hw : clock.wallDeadline? source d = none) :
      SendFails h m source deadline clock q .asking .invalidParam
  | asked (e : Error) (limit : Option HostTime)
      (hl : limit = none ∧ deadline = none ∨
        ∃ d, deadline = some d ∧ clock.wallDeadline? source d = limit)
      (ht : Turned h.descriptor q m.priority limit clock.realtime e) :
      SendFails h m source deadline clock q .asking e
  | woken (e : Error) (limit : Option HostTime)
      (ht : Turned h.descriptor q m.priority limit clock.realtime e) :
      SendFails h m source deadline clock q (.asleep limit) e

/-- A call to send a message that fits never fails for its length. -/
theorem step_turned {h : QueueHandle} {m : Host.QueueMessage} {source : ClockSource}
    {deadline : Option Timer} {clock : Clock} {q q' : Host.Queue} {p : Place} {e : Error}
    {notes : List Note} (hsize : h.maxMessageSize = q.maxMessageSize)
    (hlen : m.body.length ≤ q.maxMessageSize)
    (hs : h.step (.send m) source deadline clock q p = .done q' (.error e) notes) :
    SendFails h m source deadline clock q p e := by
  cases p with
  | checking =>
      have hf : h.fits (.send m) = true := by
        rw [fits, hsize]
        exact decide_eq_true hlen
      simp only [step, if_pos hf, reduceCtorEq] at hs
  | asking =>
      simp only [step] at hs
      split at hs
      next =>
        exact .asked e none (Or.inl ⟨rfl, rfl⟩)
          (ask_turned hlen (by simp only [ne_eq, reduceCtorEq, not_false_eq_true]) hs)
      next d =>
        split at hs
        next hw =>
          simp only [Step.done.injEq, Except.error.injEq] at hs
          exact hs.2.1 ▸ .untold d rfl hw
        next limit hw =>
          exact .asked e (some limit) (Or.inr ⟨d, rfl, hw⟩)
            (ask_turned hlen (by simp only [ne_eq, reduceCtorEq, not_false_eq_true]) hs)
  | asleep limit =>
      exact .woken e limit (ask_turned hlen (by simp only [ne_eq, reduceCtorEq, not_false_eq_true]) hs)

end QueueHandle

end HostLayer
