import HostLayer.Host.Mutex
import HostLayer.Proofs.Ipc.Books
import HostLayer.Proofs.Ipc.Delivery
import HostLayer.Proofs.Schedule

/-!
# Mail

Any number of handles to any number of queues, and any number of threads that send
and receive through them.

Handles are opened with any flags and any geometry, and closed again. Names are
removed at any time, and the same name may stand for another queue later. A thread
begins a call with a handle and then makes one host call after the other, at any
time of day, while others do the same; signals arrive wherever a call stands. A
call has a handle of its own, as it has been when the call began.

Every queue has its books, in which everything is entered that callers see to
succeed. The queue holds what is outstanding there at all times
(`Mail.happened_booked`). The books have no rule for a message that is received
while another one is due, so there are books for a run only if everything was
received in the right order, each message at most once, and byte for byte.

The length that a handle remembers is that of its queue, since a queue keeps its
geometry (`QueueShelf.Keeps`) and nobody makes a handle but by opening a queue. So
a message that is too long for the queue is too long for the handle, and the host
never hears of it.

## Main definitions

* `MailCall`, `Mail`: A call on its way, and the queues with all of them.
* `Mail.Act`, `Mail.Seen`, `Mail.step`: What can happen, and what is seen of it.
* `Mail.Seen.entry`: What goes into the books of a queue.
* `QueueShelf.Orderly`, `Mail.Orderly`: What is kept along every run.
* `QueueShelf.Keeps`: Queues stay, with their geometry.
* `Mail.Happened`: What an act can come to.
* `Mail.Conserved`: What can be relied on.

## Theorems

* `Mail.step_happened`: The cases of a step.
* `Mail.happened_orderly`, `Mail.happened_booked`: What a step does to the queues.
* `Mail.play_orderly`, `Mail.play_booked`: What a run does to them.
* `Mail.tooLong_refused`, `Mail.fitting_fails`: Messages of the wrong length, and of
  the right one.
* `Mail.mail_conserved`: Nothing is lost, for every run.
-/

namespace HostLayer

/-- A call to send or to receive that is on its way. -/
structure MailCall where
  handle : QueueHandle
  request : QueueHandle.Request
  deadline : Option Timer
  /-- Where the call stands. -/
  place : QueueHandle.Place

/-- The queues, the open handles and the calls of all threads. -/
structure Mail where
  shelf : QueueShelf
  handles : Nat → Option QueueHandle
  calls : ThreadId → Option MailCall

/-- What is in a queue, which is nothing if there is none. -/
def QueueShelf.pendingOf (s : QueueShelf) (n : Nat) : List Host.QueueMessage :=
  match s.queues n with
  | some q => q.pending
  | none => []

namespace Mail

/-- The handle at `i` is another one, or none. -/
def holds (s : Mail) (i : Nat) (h : Option QueueHandle) : Mail :=
  { s with handles := fun j => if j = i then h else s.handles j }

/-- The call of a thread is another one, or none. -/
def busy (s : Mail) (t : ThreadId) (c : Option MailCall) : Mail :=
  { s with calls := fun u => if u = t then c else s.calls u }

/-- What can happen. -/
inductive Act
  /-- A queue is opened, and its handle kept at `i`. -/
  | opening (i : Nat) (descriptorLeft : Bool) (name : String) (attr : QueueAttr)
  | closing (i : Nat)
  | unlinking (name : String)
  /-- The handle at `i` is asked about its queue. -/
  | asking (i : Nat)
  /-- A thread begins a call with the handle at `i`, with or without a deadline. -/
  | calling (t : ThreadId) (i : Nat) (r : QueueHandle.Request) (deadline : Option Timer)
  /-- A thread makes its next step, with deadlines on the clock `source`. -/
  | moving (t : ThreadId) (source : ClockSource) (clock : Clock)
  /-- A signal arrives at a thread. -/
  | signalling (t : ThreadId)

/-- What callers are told. -/
inductive Seen
  | opened (i : Nat) (answer : Answer QueueHandle)
  | closed (i : Nat)
  | unlinked (answer : Answer Unit)
  | told (h : QueueHandle) (status : QueueStatus)
  | answered (t : ThreadId) (h : QueueHandle) (r : QueueHandle.Request)
      (answer : Answer (Option Host.QueueMessage))

/-- What goes into the books of queue `n`. -/
def Seen.entry (n : Nat) : Seen → Option QueueBooks.Entry
  | .answered _ h (.send m) (.ok _) => if h.queue = n then some (.sent m) else none
  | .answered _ h (.receive _) (.ok (some m)) => if h.queue = n then some (.received m) else none
  | _ => none

/-- A call has succeeded that is there to change the queues or their names. -/
def Seen.Effective : Seen → Prop
  | .opened _ (.ok _) => True
  | .unlinked (.ok _) => True
  | .answered _ _ _ (.ok _) => True
  | _ => False

/-- A message that is received has had the room that it needs. -/
def Seen.Whole : Seen → Prop
  | .answered _ _ (.receive room) (.ok (some m)) => m.body.length ≤ room
  | _ => True

/-- What an act does, and what is seen of it. -/
def step (s : Mail) : Act → Option (Mail × List Seen)
  | .opening i left name attr =>
      match s.handles i with
      | some _ => none
      | none =>
          let (shelf, answer, _) := s.shelf.open left name attr
          some ({ s with shelf := shelf }.holds i answer.toOption, [.opened i answer])
  | .closing i =>
      match s.handles i with
      | none => none
      | some _ => some (s.holds i none, [.closed i])
  | .unlinking name =>
      let (shelf, answer, _) := s.shelf.unlink name
      some ({ s with shelf := shelf }, [.unlinked answer])
  | .asking i =>
      match s.handles i with
      | none => none
      | some h => (s.shelf.status h).map fun status => (s, [.told h status])
  | .calling t i r deadline =>
      match s.calls t, s.handles i with
      | none, some h => some (s.busy t (some ⟨h, r, deadline, .checking⟩), [])
      | _, _ => none
  | .moving t source clock =>
      match s.calls t with
      | none => none
      | some c =>
          match s.shelf.queues c.handle.queue with
          | none => none
          | some q =>
              match c.handle.step c.request source c.deadline clock q c.place with
              | .goto q' p _ =>
                  some ({ s with shelf := s.shelf.put c.handle.queue q' }.busy t
                    (some { c with place := p }), [])
              | .done q' answer _ =>
                  some ({ s with shelf := s.shelf.put c.handle.queue q' }.busy t none,
                    [.answered t c.handle c.request answer])
              | .waits => none
  | .signalling t =>
      match s.calls t with
      | none => none
      | some c =>
          match QueueHandle.interrupted c.deadline c.place with
          | .inl p => some (s.busy t (some { c with place := p }), [])
          | .inr e => some (s.busy t none, [.answered t c.handle c.request (.error e)])

end Mail

namespace QueueShelf

/-- Numbers are given to queues in order, every name stands for a queue, and no queue
    holds more or longer messages than it was made for. -/
structure Orderly (s : QueueShelf) : Prop where
  fresh : ∀ n, s.next ≤ n → s.queues n = none
  named : ∀ host n, s.names host = some n → ∃ q, s.queues n = some q
  bounded : ∀ n q, s.queues n = some q → q.pending.length ≤ q.maxMessages
  short : ∀ n q, s.queues n = some q → ∀ m ∈ q.pending, m.body.length ≤ q.maxMessageSize

/-- Every queue stays, and keeps the geometry that it was made with. -/
def Keeps (s t : QueueShelf) : Prop :=
  ∀ n q, s.queues n = some q → ∃ q', t.queues n = some q' ∧ q'.maxMessages = q.maxMessages ∧
    q'.maxMessageSize = q.maxMessageSize

theorem Keeps.refl (s : QueueShelf) : s.Keeps s :=
  fun _ q hq => ⟨q, hq, rfl, rfl⟩

theorem Keeps.trans {s t u : QueueShelf} (h : s.Keeps t) (h' : t.Keeps u) : s.Keeps u := by
  intro n q hq
  rcases h n q hq with ⟨q₁, hq₁, hm₁, hs₁⟩
  rcases h' n q₁ hq₁ with ⟨q₂, hq₂, hm₂, hs₂⟩
  exact ⟨q₂, hq₂, hm₂.trans hm₁, hs₂.trans hs₁⟩

theorem Backed.keeps {s t : QueueShelf} {h : QueueHandle} (hb : s.Backed h) (hk : s.Keeps t) :
    t.Backed h := by
  rcases hb with ⟨q, hq, hsize⟩
  rcases hk _ q hq with ⟨q', hq', -, hs⟩
  exact ⟨q', hq', hsize.trans hs.symm⟩

theorem pendingOf_eq {s : QueueShelf} {n : Nat} {q : Host.Queue} (h : s.queues n = some q) :
    s.pendingOf n = q.pending := by
  rw [pendingOf, h]

-- No other queue is touched.
theorem pendingOf_put_of_ne (s : QueueShelf) {i n : Nat} (q : Host.Queue) (h : n ≠ i) :
    (s.put i q).pendingOf n = s.pendingOf n := by
  rw [pendingOf, put_queues_of_ne s q h, pendingOf]

/-- A new queue is under a number that no queue has had, and all others stay. -/
theorem Orderly.added {s : QueueShelf} (hs : s.Orderly) (host : String) (attr : QueueAttr) :
    (s.added host attr).Orderly ∧ s.Keeps (s.added host attr) := by
  have hnew : (s.added host attr).queues s.next
      = some ⟨attr.maxMessages, attr.maxMessageSize, []⟩ := s.put_queues_self _ _
  have hold : ∀ n, n ≠ s.next → (s.added host attr).queues n = s.queues n :=
    fun n hn => s.put_queues_of_ne _ hn
  refine ⟨⟨fun n hn => ?_, fun name n hn => ?_, fun n q hq => ?_, fun n q hq m hm => ?_⟩,
    fun n q hq => ?_⟩
  · have hlt : s.next < n := hn
    rw [hold n (Nat.ne_of_gt hlt)]
    exact hs.fresh n (Nat.le_of_lt hlt)
  · by_cases hns : n = s.next
    · exact ⟨_, by rw [hns, hnew]⟩
    · rw [hold n hns]
      simp only [QueueShelf.added] at hn
      split_ifs at hn with hname
      · exact absurd (Option.some.inj hn).symm hns
      · exact hs.named name n hn
  · by_cases hns : n = s.next
    · rw [hns, hnew] at hq
      rw [← Option.some.inj hq]
      exact Nat.zero_le _
    · rw [hold n hns] at hq
      exact hs.bounded n q hq
  · by_cases hns : n = s.next
    · rw [hns, hnew] at hq
      rw [← Option.some.inj hq] at hm
      exact absurd hm List.not_mem_nil
    · rw [hold n hns] at hq
      exact hs.short n q hq m hm
  · have hns : n ≠ s.next := by
      rintro rfl
      rw [hs.fresh _ (Nat.le_refl _)] at hq
      exact absurd hq (by simp only [reduceCtorEq, not_false_eq_true])
    exact ⟨q, by rw [hold n hns, hq], rfl, rfl⟩

-- A new queue is empty, as if it had been there.
theorem pendingOf_added {s : QueueShelf} (hs : s.Orderly) (host : String) (attr : QueueAttr)
    (n : Nat) : (s.added host attr).pendingOf n = s.pendingOf n := by
  by_cases hn : n = s.next
  · have hnew : (s.added host attr).queues s.next
        = some ⟨attr.maxMessages, attr.maxMessageSize, []⟩ := s.put_queues_self _ _
    rw [hn, pendingOf_eq hnew, pendingOf, hs.fresh _ (Nat.le_refl _)]
  · exact pendingOf_put_of_ne s _ hn

/-- A queue that has moved a message that it can serve is in order, as all others are. -/
theorem Orderly.put {s : QueueShelf} (hs : s.Orderly) {i : Nat} {q q' : Host.Queue}
    {r : QueueHandle.Request} {result : Option Host.QueueMessage} (hq : s.queues i = some q)
    (hform : ¬r.Malformed q) (ht : QueueHandle.Transferred q r result q') :
    (s.put i q').Orderly ∧ s.Keeps (s.put i q') := by
  -- A transfer keeps the geometry, and puts in only what fits.
  have hgeom : q'.maxMessages = q.maxMessages ∧ q'.maxMessageSize = q.maxMessageSize := by
    cases ht with
    | sent m h => exact ⟨rfl, rfl⟩
    | received room m earlier later h he hl => exact ⟨rfl, rfl⟩
  have hbound : q'.pending.length ≤ q'.maxMessages := by
    cases ht with
    | sent m h =>
        rw [List.length_append, List.length_singleton]
        exact h
    | received room m earlier later h he hl =>
        have hb := hs.bounded i q hq
        rw [h, List.length_append, List.length_cons] at hb
        rw [List.length_append]
        omega
  have hshort : ∀ m ∈ q'.pending, m.body.length ≤ q'.maxMessageSize := by
    cases ht with
    | sent m h =>
        intro x hx
        rcases List.mem_append.mp hx with hx | hx
        · exact hs.short i q hq x hx
        · rw [List.mem_singleton.mp hx]
          exact Nat.le_of_not_lt fun hlt => hform (Or.inr hlt)
    | received room m earlier later h he hl =>
        intro x hx
        refine hs.short i q hq x ?_
        rw [h]
        exact List.mem_append.mpr ((List.mem_append.mp hx).imp id (List.mem_cons_of_mem m))
  refine ⟨⟨fun n hn => ?_, fun name n hn => ?_, fun n x hx => ?_, fun n x hx => ?_⟩, fun n x hx => ?_⟩
  all_goals by_cases hni : n = i
  · rw [hni] at hn
    rw [hs.fresh i hn] at hq
    exact absurd hq (by simp only [reduceCtorEq, not_false_eq_true])
  · rw [s.put_queues_of_ne q' hni]
    exact hs.fresh n hn
  · exact ⟨q', by rw [hni, put_queues_self]⟩
  · rw [s.put_queues_of_ne q' hni]
    exact hs.named name n hn
  · rw [hni, put_queues_self] at hx
    exact Option.some.inj hx ▸ hbound
  · rw [s.put_queues_of_ne q' hni] at hx
    exact hs.bounded n x hx
  · rw [hni, put_queues_self] at hx
    exact Option.some.inj hx ▸ hshort
  · rw [s.put_queues_of_ne q' hni] at hx
    exact hs.short n x hx
  · rw [hni, hq] at hx
    rw [hni, put_queues_self, ← Option.some.inj hx]
    exact ⟨q', rfl, hgeom⟩
  · exact ⟨x, by rw [s.put_queues_of_ne q' hni, hx], rfl, rfl⟩

/-- What opening a queue makes is in order, and so is the handle. -/
theorem Opened.orderly {s s' : QueueShelf} {attr : QueueAttr} {answer : Answer QueueHandle}
    (ho : s.Opened attr s' answer) (hs : s.Orderly) :
    s'.Orderly ∧ s.Keeps s' ∧ (∀ n, s'.pendingOf n = s.pendingOf n) ∧
      ∀ h, answer.toOption = some h → s'.Backed h := by
  cases ho with
  | found host h hn hsize =>
      rcases hs.named host _ hn with ⟨q, hq⟩
      refine ⟨hs, .refl s, fun _ => rfl, fun h' heq => ?_⟩
      rw [← Option.some.inj heq]
      exact ⟨q, hq, by rw [hsize, hq, Option.map_some, Option.getD_some]⟩
  | made host h hn hsize hcreat =>
      have hadded := hs.added host attr
      refine ⟨hadded.1, hadded.2, pendingOf_added hs host attr, fun h' heq => ?_⟩
      rw [← Option.some.inj heq]
      exact ⟨_, by rw [hn]; exact s.put_queues_self _ _, hsize⟩
  | refused e =>
      exact ⟨hs, .refl s, fun _ => rfl, fun h heq => absurd heq (by
        simp only [Except.toOption, reduceCtorEq, not_false_eq_true])⟩

end QueueShelf

namespace Mail

/-- The shelf is in order, handles and calls have queues behind them, and a message
    that is past the check of its length has passed it. -/
structure Orderly (s : Mail) : Prop where
  shelf : s.shelf.Orderly
  handles : ∀ i h, s.handles i = some h → s.shelf.Backed h
  calls : ∀ t c, s.calls t = some c → s.shelf.Backed c.handle ∧
    (c.place = .checking ∨ c.handle.fits c.request = true)

/-- What acts do. -/
inductive Happened (s : Mail) : Act → Mail → List Seen → Prop
  | opened (i : Nat) (left : Bool) (name : String) (attr : QueueAttr) (shelf : QueueShelf)
      (answer : Answer QueueHandle) (hi : s.handles i = none)
      (ho : s.shelf.Opened attr shelf answer) :
      Happened s (.opening i left name attr) ({ s with shelf := shelf }.holds i answer.toOption)
        [.opened i answer]
  | closed (i : Nat) : Happened s (.closing i) (s.holds i none) [.closed i]
  | unlinked (name host : String) : Happened s (.unlinking name)
      { s with shelf := { s.shelf with
        names := fun n => if n = host then none else s.shelf.names n } } [.unlinked (.ok ())]
  | spared (name : String) (e : Error) : Happened s (.unlinking name) s [.unlinked (.error e)]
  | told (i : Nat) (h : QueueHandle) (status : QueueStatus) :
      Happened s (.asking i) s [.told h status]
  | began (t : ThreadId) (i : Nat) (h : QueueHandle) (r : QueueHandle.Request)
      (deadline : Option Timer) (hi : s.handles i = some h) :
      Happened s (.calling t i r deadline) (s.busy t (some ⟨h, r, deadline, .checking⟩)) []
  /-- A call stands somewhere else, or is woken where it stands. -/
  | walked (a : Act) (t : ThreadId) (c : MailCall) (p : QueueHandle.Place)
      (hc : s.calls t = some c)
      (hp : p = c.place ∨ (c.place = .checking → c.handle.fits c.request = true)) :
      Happened s a (s.busy t (some { c with place := p })) []
  | failed (a : Act) (t : ThreadId) (c : MailCall) (e : Error) (hc : s.calls t = some c) :
      Happened s a (s.busy t none) [.answered t c.handle c.request (.error e)]
  /-- A call has moved a message. -/
  | moved (t : ThreadId) (source : ClockSource) (clock : Clock) (c : MailCall) (q q' : Host.Queue)
      (result : Option Host.QueueMessage) (hc : s.calls t = some c)
      (hq : s.shelf.queues c.handle.queue = some q) (hform : ¬c.request.Malformed q)
      (ht : QueueHandle.Transferred q c.request result q') :
      Happened s (.moving t source clock)
        ({ s with shelf := s.shelf.put c.handle.queue q' }.busy t none)
        [.answered t c.handle c.request (.ok result)]

-- A step of a call.
theorem moving_happened {s s' : Mail} {t : ThreadId} {source : ClockSource} {clock : Clock}
    {es : List Seen} (h : step s (.moving t source clock) = some (s', es)) :
    Happened s (.moving t source clock) s' es := by
  simp only [step] at h
  split at h
  next => exact absurd h (by simp only [reduceCtorEq, not_false_eq_true])
  next c hc =>
    split at h
    next => exact absurd h (by simp only [reduceCtorEq, not_false_eq_true])
    next q hq =>
      have heffect := c.handle.step_effect c.request source c.deadline clock q c.place
      split at h
      next q' p _ heq =>
        simp only [Option.some.injEq, Prod.mk.injEq] at h
        rcases h with ⟨rfl, rfl⟩
        rw [heq] at heffect
        cases heffect with
        | onward _ _ hf =>
            rw [QueueShelf.put_self hq]
            exact .walked _ t c p hc (Or.inr hf)
      next q' answer _ heq =>
        simp only [Option.some.injEq, Prod.mk.injEq] at h
        rcases h with ⟨rfl, rfl⟩
        rw [heq] at heffect
        cases heffect with
        | failed e =>
            rw [QueueShelf.put_self hq]
            exact .failed _ t c e hc
        | moved _ result _ hform ht => exact .moved t source clock c q q' result hc hq hform ht
      next => exact absurd h (by simp only [reduceCtorEq, not_false_eq_true])

-- A signal moves no message.
theorem signalling_happened {s s' : Mail} {t : ThreadId} {es : List Seen}
    (h : step s (.signalling t) = some (s', es)) : Happened s (.signalling t) s' es := by
  simp only [step] at h
  split at h
  next => exact absurd h (by simp only [reduceCtorEq, not_false_eq_true])
  next c hc =>
    rcases hp : c.place with _ | _ | limit
    · simp only [hp, QueueHandle.interrupted, Option.some.injEq, Prod.mk.injEq] at h
      rcases h with ⟨rfl, rfl⟩
      exact .walked _ t c _ hc (Or.inl hp.symm)
    · simp only [hp, QueueHandle.interrupted, Option.some.injEq, Prod.mk.injEq] at h
      rcases h with ⟨rfl, rfl⟩
      exact .walked _ t c _ hc (Or.inl hp.symm)
    · rw [hp, QueueHandle.interrupted] at h
      by_cases hd : c.deadline.isNone
      · simp only [if_pos hd, Option.some.injEq, Prod.mk.injEq] at h
        rcases h with ⟨rfl, rfl⟩
        exact .failed _ t c _ hc
      · simp only [if_neg hd, Option.some.injEq, Prod.mk.injEq] at h
        rcases h with ⟨rfl, rfl⟩
        refine .walked _ t c _ hc (Or.inr fun hcheck => ?_)
        rw [hp] at hcheck
        exact absurd hcheck (by simp only [reduceCtorEq, not_false_eq_true])

/-- A step does what acts do. -/
theorem step_happened {s s' : Mail} {a : Act} {es : List Seen} (h : step s a = some (s', es)) :
    Happened s a s' es := by
  cases a with
  | opening i left name attr =>
      simp only [step] at h
      split at h
      next => exact absurd h (by simp only [reduceCtorEq, not_false_eq_true])
      next hi =>
        simp only [Option.some.injEq, Prod.mk.injEq] at h
        rcases h with ⟨rfl, rfl⟩
        exact .opened i left name attr _ _ hi (s.shelf.open_opened left name attr)
  | closing i =>
      simp only [step] at h
      split at h
      next => exact absurd h (by simp only [reduceCtorEq, not_false_eq_true])
      next =>
        simp only [Option.some.injEq, Prod.mk.injEq] at h
        rcases h with ⟨rfl, rfl⟩
        exact .closed i
  | unlinking name =>
      simp only [step, Option.some.injEq, Prod.mk.injEq] at h
      rcases h with ⟨rfl, rfl⟩
      rcases s.shelf.unlink_cases name with ⟨host, hshelf, hok⟩ | ⟨hshelf, e, he⟩
      · rw [hshelf, hok]
        exact .unlinked name host
      · rw [hshelf, he]
        exact .spared name e
  | asking i =>
      simp only [step] at h
      split at h
      next => exact absurd h (by simp only [reduceCtorEq, not_false_eq_true])
      next hd _ =>
        rcases Option.map_eq_some_iff.mp h with ⟨status, -, heq⟩
        simp only [Prod.mk.injEq] at heq
        rcases heq with ⟨rfl, rfl⟩
        exact .told i hd status
  | calling t i r deadline =>
      simp only [step] at h
      split at h
      next hd _ hi =>
        simp only [Option.some.injEq, Prod.mk.injEq] at h
        rcases h with ⟨rfl, rfl⟩
        exact .began t i hd r deadline hi
      next => exact absurd h (by simp only [reduceCtorEq, not_false_eq_true])
  | moving t source clock => exact moving_happened h
  | signalling t => exact signalling_happened h

-- The queues are other ones, and everything that was there is still backed.
theorem Orderly.reshelved {s : Mail} (hs : s.Orderly) {shelf : QueueShelf} (ho : shelf.Orderly)
    (hk : s.shelf.Keeps shelf) : ({ s with shelf := shelf } : Mail).Orderly where
  shelf := ho
  handles i h hi := (hs.handles i h hi).keeps hk
  calls t c hc := ⟨(hs.calls t c hc).1.keeps hk, (hs.calls t c hc).2⟩

theorem Orderly.holds {s : Mail} (hs : s.Orderly) (i : Nat) (h : Option QueueHandle)
    (hh : ∀ h', h = some h' → s.shelf.Backed h') : (s.holds i h).Orderly where
  shelf := hs.shelf
  handles j h' hj := by
    simp only [Mail.holds] at hj
    split_ifs at hj with hji
    · exact hh h' hj
    · exact hs.handles j h' hj
  calls := hs.calls

theorem Orderly.busy {s : Mail} (hs : s.Orderly) (t : ThreadId) (c : Option MailCall)
    (hc : ∀ c', c = some c' → s.shelf.Backed c'.handle ∧
      (c'.place = .checking ∨ c'.handle.fits c'.request = true)) : (s.busy t c).Orderly where
  shelf := hs.shelf
  handles := hs.handles
  calls u c' hu := by
    simp only [Mail.busy] at hu
    split_ifs at hu with hut
    · exact hc c' hu
    · exact hs.calls u c' hu

theorem Orderly.idle {s : Mail} (hs : s.Orderly) (t : ThreadId) : (s.busy t none).Orderly :=
  hs.busy t none fun _ h => absurd h (by simp only [reduceCtorEq, not_false_eq_true])

/-- A step keeps everything in order, and all queues with their geometry. -/
theorem happened_orderly {s s' : Mail} {a : Act} {es : List Seen} (h : Happened s a s' es)
    (hs : s.Orderly) : s'.Orderly ∧ s.shelf.Keeps s'.shelf := by
  cases h with
  | opened i left name attr shelf answer hi ho =>
      rcases ho.orderly hs.shelf with ⟨horder, hkeeps, -, hbacked⟩
      exact ⟨(hs.reshelved horder hkeeps).holds i _ hbacked, hkeeps⟩
  | closed i =>
      exact ⟨hs.holds i none fun _ h => absurd h (by
        simp only [reduceCtorEq, not_false_eq_true]), .refl _⟩
  | unlinked name host =>
      refine ⟨hs.reshelved ⟨hs.shelf.fresh, fun n k hn => ?_, hs.shelf.bounded, hs.shelf.short⟩
        (.refl s.shelf), .refl s.shelf⟩
      simp only [] at hn
      split_ifs at hn
      exact hs.shelf.named n k hn
  | spared name e => exact ⟨hs, .refl _⟩
  | told i h status => exact ⟨hs, .refl _⟩
  | began t i h r deadline hi =>
      refine ⟨hs.busy t _ fun c hc => ?_, .refl _⟩
      rw [← Option.some.inj hc]
      exact ⟨hs.handles i h hi, Or.inl rfl⟩
  | walked a t c p hc hp =>
      refine ⟨hs.busy t _ fun c' hc' => ?_, .refl _⟩
      rw [← Option.some.inj hc']
      refine ⟨(hs.calls t c hc).1, ?_⟩
      rcases hp with rfl | hf
      · exact (hs.calls t c hc).2
      · exact Or.inr ((hs.calls t c hc).2.elim hf id)
  | failed a t c e hc => exact ⟨hs.idle t, .refl _⟩
  | moved t source clock c q q' result hc hq hform ht =>
      rcases hs.shelf.put hq hform ht with ⟨horder, hkeeps⟩
      exact ⟨(hs.reshelved horder hkeeps).idle t, hkeeps⟩

-- Only the entry of its own queue is made.
theorem entry_of_ne {n : Nat} {t : ThreadId} {h : QueueHandle} {r : QueueHandle.Request}
    {answer : Answer (Option Host.QueueMessage)} (hn : h.queue ≠ n) :
    (Seen.answered t h r answer).entry n = none := by
  rcases r with m | room
  · rcases answer with e | result
    · rfl
    · exact if_neg hn
  · rcases answer with e | (_ | m)
    · rfl
    · rfl
    · exact if_neg hn

open QueueBooks in
/-- What a message that is moved does to the books of its queue. -/
theorem transferred_booked {q q' : Host.Queue} {r : QueueHandle.Request}
    {result : Option Host.QueueMessage} (ht : QueueHandle.Transferred q r result q')
    {b : QueueBooks} (hb : b.Balanced) (hpending : q.pending = b.pending) (t : ThreadId)
    (h : QueueHandle) : ∃ b', Booked b
      ([Seen.answered t h r (.ok result)].filterMap (·.entry h.queue)) b' ∧
      q'.pending = b'.pending := by
  cases ht with
  | sent m hroom =>
      have hentry : (Seen.answered t h (.send m) (.ok none)).entry h.queue = some (.sent m) :=
        if_pos rfl
      refine ⟨b.send m, ?_, ?_⟩
      · rw [List.filterMap_cons_some hentry]
        exact .sent b _ m [] (.nothing _)
      · rw [pending_send hb, ← hpending]
  | received room m earlier later hq he hl =>
      rcases due_of_pending (hpending ▸ hq) he hl with ⟨n, hdue, hrest⟩
      have hentry : (Seen.answered t h (.receive room) (.ok (some m))).entry h.queue
          = some (.received m) := if_pos rfl
      refine ⟨b.take n, ?_, hrest.symm⟩
      rw [List.filterMap_cons_some hentry]
      exact .received b _ n m [] hdue (.nothing _)

open QueueBooks in
/-- A queue holds what is outstanding in its books, after a step if it did before. -/
theorem happened_booked {s s' : Mail} {a : Act} {es : List Seen} (h : Happened s a s' es)
    (hs : s.Orderly) (n : Nat) {b : QueueBooks} (hb : b.Balanced)
    (hpending : s.shelf.pendingOf n = b.pending) :
    ∃ b', Booked b (es.filterMap (·.entry n)) b' ∧ s'.shelf.pendingOf n = b'.pending := by
  cases h with
  | opened i left name attr shelf answer hi ho =>
      exact ⟨b, .nothing b, ((ho.orderly hs.shelf).2.2.1 n).trans hpending⟩
  | moved t source clock c q q' result hc hq hform ht =>
      by_cases hn : c.handle.queue = n
      · rw [← hn, QueueShelf.pendingOf_eq hq] at hpending
        rcases transferred_booked ht hb hpending t c.handle with ⟨b', hbooked, hb'⟩
        refine ⟨b', hn ▸ hbooked, ?_⟩
        rw [← hn]
        exact (QueueShelf.pendingOf_eq (s.shelf.put_queues_self _ _)).trans hb'
      · refine ⟨b, ?_, ?_⟩
        · rw [List.filterMap_cons_none (entry_of_ne hn)]
          exact .nothing b
        · exact (QueueShelf.pendingOf_put_of_ne s.shelf q' (Ne.symm hn)).trans hpending
  | failed a t c e hc =>
      refine ⟨b, ?_, hpending⟩
      rcases hr : c.request with m | room
      · exact .nothing b
      · exact .nothing b
  | _ => exact ⟨b, .nothing b, hpending⟩

/-- Where nothing has succeeded, nothing has changed. -/
theorem happened_unchanged {s s' : Mail} {a : Act} {es : List Seen} (h : Happened s a s' es)
    (hno : ∀ e ∈ es, ¬e.Effective) : s'.shelf = s.shelf := by
  cases h with
  | opened i left name attr shelf answer hi ho =>
      cases ho with
      | refused e => rfl
      | _ => exact absurd trivial (hno _ (List.mem_singleton.mpr rfl))
  | unlinked name host => exact absurd trivial (hno _ (List.mem_singleton.mpr rfl))
  | moved t source clock c q q' result hc hq hform ht =>
      exact absurd trivial (hno _ (List.mem_singleton.mpr rfl))
  | _ => rfl

/-- A message is received whole. -/
theorem happened_whole {s s' : Mail} {a : Act} {es : List Seen} (h : Happened s a s' es)
    (hs : s.Orderly) : ∀ e ∈ es, e.Whole := by
  cases h with
  | moved t source clock c q q' result hc hq hform ht =>
      refine List.forall_mem_singleton.mpr ?_
      generalize c.request = r at hform ht ⊢
      cases ht with
      | sent m hroom => trivial
      | received room m earlier later heq he hl =>
          have hshort := hs.shelf.short _ q hq m
            (heq ▸ List.mem_append_right earlier List.mem_cons_self)
          exact Nat.le_trans hshort (Nat.le_of_not_lt hform)
  | failed a t c e hc =>
      refine List.forall_mem_singleton.mpr ?_
      rcases hr : c.request with m | room <;> trivial
  | walked a t c p hc hp => exact List.forall_mem_nil _
  | began t i h r deadline hi => exact List.forall_mem_nil _
  | _ => exact List.forall_mem_singleton.mpr trivial

/-- Runs keep everything in order. -/
theorem play_orderly {s t : Mail} {acts : List Act} {es : List Seen} (hs : s.Orderly)
    (hrun : Schedule.play step s acts = some (t, es)) :
    t.Orderly ∧ s.shelf.Keeps t.shelf :=
  Schedule.play_keeps step (fun _ => True) (fun _ => True)
    (fun u => u.Orderly ∧ s.shelf.Keeps u.shelf)
    (fun _ _ _ _ hu _ _ h =>
      have hnext := happened_orderly (step_happened h) hu.1
      ⟨hnext.1, hu.2.trans hnext.2⟩)
    acts s t es ⟨hs, .refl _⟩ (fun _ _ => trivial) (fun _ _ => trivial) hrun

open QueueBooks in
/-- A queue holds what is outstanding in its books, after every run. -/
theorem play_booked {s t : Mail} {acts : List Act} {es : List Seen} (hs : s.Orderly)
    (hrun : Schedule.play step s acts = some (t, es)) (n : Nat) :
    ∃ b, Booked (opening (s.shelf.pendingOf n)) (es.filterMap (·.entry n)) b ∧
      t.shelf.pendingOf n = b.pending := by
  have hstart : s.Orderly ∧ (opening (s.shelf.pendingOf n)).Balanced ∧
      s.shelf.pendingOf n = (opening (s.shelf.pendingOf n)).pending :=
    ⟨hs, opening_balanced _, (pending_opening _).symm⟩
  rcases Schedule.play_simulates step (fun _ => True)
    (fun u b => u.Orderly ∧ b.Balanced ∧ u.shelf.pendingOf n = b.pending)
    (fun b es b' => Booked b (es.filterMap (·.entry n)) b') (fun b => .nothing b)
    (fun b c d es fs h h' => by
      rw [List.filterMap_append]
      exact h.append h')
    (fun u b a u' es hu _ hstep => by
      have h := step_happened hstep
      rcases happened_booked h hu.1 n hu.2.1 hu.2.2 with ⟨b', hbooked, hpending⟩
      exact ⟨b', hbooked, (happened_orderly h hu.1).1, hbooked.balanced hu.2.1, hpending⟩)
    acts s t _ es hstart (fun _ _ => trivial) hrun with ⟨b, hbooked, -, -, hpending⟩
  exact ⟨b, hbooked, hpending⟩

/-- Whoever receives has room for the message. -/
theorem play_whole {s t : Mail} {acts : List Act} {es : List Seen} (hs : s.Orderly)
    (hrun : Schedule.play step s acts = some (t, es)) : ∀ e ∈ es, e.Whole :=
  (Schedule.play_shows step (fun _ => True) Orderly Seen.Whole
    (fun _ _ _ _ hu _ h => ⟨(happened_orderly (step_happened h) hu).1,
      happened_whole (step_happened h) hu⟩)
    acts s t es hs (fun _ _ => trivial) hrun).2

/-- A message that is too long for its queue is refused with the next step of the
    call, whatever else there is to object to. -/
theorem tooLong_refused {s : Mail} (hs : s.Orderly) {t : ThreadId} {c : MailCall}
    {m : Host.QueueMessage} {q : Host.Queue} (hc : s.calls t = some c) (hr : c.request = .send m)
    (hq : s.shelf.queues c.handle.queue = some q) (hlen : q.maxMessageSize < m.body.length)
    (source : ClockSource) (clock : Clock) :
    step s (.moving t source clock)
      = some (s.busy t none, [.answered t c.handle c.request (.error .invalidParam)]) := by
  rcases hs.calls t c hc with ⟨⟨q₁, hq₁, hsize⟩, hplace⟩
  rw [hq, Option.some.injEq] at hq₁
  have hf : c.handle.fits c.request = false := by
    rw [hr, QueueHandle.fits, hsize, ← hq₁]
    exact decide_eq_false (Nat.not_le.mpr hlen)
  have hchecking : c.place = .checking := hplace.resolve_right (by
    rw [hf]
    exact Bool.false_ne_true)
  simp only [step, hc, hq, hchecking, QueueHandle.step, hf, Bool.false_eq_true, if_false,
    QueueShelf.put_self hq]

/-- A message of a length that its queue takes is never refused for its length. -/
theorem fitting_fails {s s' : Mail} (hs : s.Orderly) {t : ThreadId} {c : MailCall}
    {m : Host.QueueMessage} {q : Host.Queue} (hc : s.calls t = some c) (hr : c.request = .send m)
    (hq : s.shelf.queues c.handle.queue = some q) (hlen : m.body.length ≤ q.maxMessageSize)
    {source : ClockSource} {clock : Clock} {e : Error}
    (h : step s (.moving t source clock)
      = some (s', [.answered t c.handle c.request (.error e)])) :
    c.handle.SendFails m source c.deadline clock q c.place e := by
  rcases (hs.calls t c hc).1 with ⟨q₁, hq₁, hsize⟩
  rw [hq, Option.some.injEq] at hq₁
  rw [← hq₁] at hsize
  simp only [step, hc, hq] at h
  split at h
  next => simp only [Option.some.injEq, Prod.mk.injEq, reduceCtorEq, and_false] at h
  next q' answer notes heq =>
    simp only [Option.some.injEq, Prod.mk.injEq, List.cons.injEq, Seen.answered.injEq, and_true,
      true_and] at h
    rw [hr, h.2] at heq
    exact QueueHandle.step_turned hsize hlen heq
  next => exact absurd h (by simp only [reduceCtorEq, not_false_eq_true])

-- A queue tells how many messages are in it, and its handle how long they can be.
theorem asking_told {s : Mail} (hs : s.Orderly) {i : Nat} {h : QueueHandle}
    (hi : s.handles i = some h) : ∃ q, s.shelf.queues h.queue = some q ∧
      h.maxMessageSize = q.maxMessageSize ∧ step s (.asking i) =
        some (s, [.told h ⟨q.maxMessages, q.maxMessageSize, q.pending.length⟩]) := by
  rcases hs.handles i h hi with ⟨q, hq, hsize⟩
  exact ⟨q, hq, hsize, by simp only [step, hi, QueueShelf.status, hq, Option.map_some]⟩

/-- What can be relied on between two states, with what has been seen from the one to
    the other. -/
structure Conserved (s t : Mail) (es : List Seen) : Prop where
  /-- Everything is in order again. In particular no queue holds more messages than it
      was made for. -/
  orderly : t.Orderly
  /-- Queues stay, and keep the geometry that they were made with. -/
  keeps : s.shelf.Keeps t.shelf
  /-- Every queue holds what has been sent and not been received. Each receipt was that
      of the message that was due, and no message was received twice. -/
  books : ∀ n, ∃ b, QueueBooks.Booked (QueueBooks.opening (s.shelf.pendingOf n))
    (es.filterMap (·.entry n)) b ∧ b.Balanced ∧ t.shelf.pendingOf n = b.pending
  /-- What is in a queue has been sent, and what has been sent and is not there any
      more has been received. -/
  counts : ∀ n, (t.shelf.pendingOf n).length +
      ((es.filterMap (·.entry n)).filterMap QueueBooks.Entry.received?).length =
    (s.shelf.pendingOf n).length +
      ((es.filterMap (·.entry n)).filterMap QueueBooks.Entry.sent?).length
  /-- Messages are received whole. -/
  whole : ∀ e ∈ es, e.Whole
  /-- A handle knows how long the messages of its queue can be, and the queue says how
      many are in it. -/
  told : ∀ i h, t.handles i = some h → ∃ q, t.shelf.queues h.queue = some q ∧
    h.maxMessageSize = q.maxMessageSize ∧ step t (.asking i) =
      some (t, [.told h ⟨q.maxMessages, q.maxMessageSize, q.pending.length⟩])
  /-- A queue that is made has the geometry of the attributes and is empty, and any
      other opening leaves all queues as they are. -/
  opened : ∀ i left name attr u h,
    step t (.opening i left name attr) = some (u, [.opened i (.ok h)]) →
      u.shelf = t.shelf ∨ t.shelf.queues h.queue = none ∧
        u.shelf.queues h.queue = some ⟨attr.maxMessages, attr.maxMessageSize, []⟩
  /-- A call to send a message that is too long is refused with its next step, whatever
      the deadline, the clocks, the descriptor and the queue are like. -/
  tooLong : ∀ k c m q, t.calls k = some c → c.request = .send m →
    t.shelf.queues c.handle.queue = some q → q.maxMessageSize < m.body.length →
      ∀ source clock, step t (.moving k source clock)
        = some (t.busy k none, [.answered k c.handle c.request (.error .invalidParam)])
  /-- A call to send any other message fails for something else than its length. -/
  fitting : ∀ k c m q, t.calls k = some c → c.request = .send m →
    t.shelf.queues c.handle.queue = some q → m.body.length ≤ q.maxMessageSize →
      ∀ source clock u e, step t (.moving k source clock)
        = some (u, [.answered k c.handle c.request (.error e)]) →
          c.handle.SendFails m source c.deadline clock q c.place e
  /-- Where nobody is told of a success, all queues and names are as they were. -/
  unchanged : ∀ a u fs, step t a = some (u, fs) → (∀ e ∈ fs, ¬e.Effective) → u.shelf = t.shelf

-- Where a queue is made, there was none.
theorem opening_opened {s u : Mail} (hs : s.Orderly) {i : Nat} {left : Bool} {name : String}
    {attr : QueueAttr} {h : QueueHandle}
    (hstep : step s (.opening i left name attr) = some (u, [.opened i (.ok h)])) :
    u.shelf = s.shelf ∨ s.shelf.queues h.queue = none ∧
      u.shelf.queues h.queue = some ⟨attr.maxMessages, attr.maxMessageSize, []⟩ := by
  cases step_happened hstep with
  | opened _ _ _ _ shelf _ hi ho =>
      cases ho with
      | found host _ hn hsize => exact Or.inl rfl
      | made host _ hn hsize hcreat =>
          rw [hn]
          exact Or.inr ⟨hs.shelf.fresh _ (Nat.le_refl _), s.shelf.put_queues_self _ _⟩

/-- Nothing is lost, nothing is doubled and nothing overtakes what is due, whoever
    opens, closes, removes, sends and receives whatever whenever. -/
theorem mail_conserved {s t : Mail} {acts : List Act} {es : List Seen} (hs : s.Orderly)
    (hrun : Schedule.play step s acts = some (t, es)) : Conserved s t es := by
  have ht := (play_orderly hs hrun).1
  have hbooks : ∀ n, ∃ b, QueueBooks.Booked (QueueBooks.opening (s.shelf.pendingOf n))
      (es.filterMap (·.entry n)) b ∧ b.Balanced ∧ t.shelf.pendingOf n = b.pending := by
    intro n
    rcases play_booked hs hrun n with ⟨b, hbooked, hpending⟩
    exact ⟨b, hbooked, hbooked.balanced (QueueBooks.opening_balanced _), hpending⟩
  exact
    { orderly := ht
      keeps := (play_orderly hs hrun).2
      books := hbooks
      counts := by
        intro n
        rcases hbooks n with ⟨b, hbooked, hbalanced, hpending⟩
        have htaken := congrArg List.length hbooked.taken_eq
        have hsent := congrArg List.length hbooked.sent_eq
        simp only [QueueBooks.opening, List.map_nil, List.nil_append, List.length_map,
          List.length_append] at htaken hsent
        rw [hpending, ← htaken, ← hsent, hbalanced.complete]
      whole := play_whole hs hrun
      told := fun i h hi => asking_told ht hi
      opened := fun i left name attr u h hstep => opening_opened ht hstep
      tooLong := fun k c m q hc hr hq hlen => tooLong_refused ht hc hr hq hlen
      fitting := fun k c m q hc hr hq hlen source clock u e h => fitting_fails ht hc hr hq hlen h
      unchanged := fun a u fs hstep hno => happened_unchanged (step_happened hstep) hno }

/-- No queue exists, and nobody calls. -/
def fresh (limits : Host.QueueLimits) : Mail :=
  ⟨QueueShelf.empty limits, fun _ => none, fun _ => none⟩

theorem fresh_orderly (limits : Host.QueueLimits) : (fresh limits).Orderly := by
  -- There is nothing that could be out of order.
  have hnone : ∀ {α : Type} (x : α), (none : Option α) ≠ some x := by
    simp only [ne_eq, reduceCtorEq, not_false_eq_true, implies_true]
  exact ⟨⟨fun _ _ => rfl, fun _ n h => absurd h (hnone n), fun _ q h => absurd h (hnone q),
    fun _ q h => absurd h (hnone q)⟩, fun _ h hi => absurd hi (hnone h),
    fun _ c hc => absurd hc (hnone c)⟩

/-- A thread makes a call without a deadline that does not have to wait. -/
def Act.through (t : ThreadId) (i : Nat) (r : QueueHandle.Request) : List Act :=
  [.calling t i r none, .moving t .monotonic ⟨0, 0⟩, .moving t .monotonic ⟨0, 0⟩]

/-- A queue for two messages of up to four bytes is made and loses its name. It gets two
    messages, of which the second one is more urgent, and refuses one that is too
    long. -/
def errands : List Act :=
  [.opening 0 true "/mail" (QueueAttr.ofGeometry 2 4), .unlinking "/mail"] ++
    Act.through 0 0 (.send ⟨[1], 0⟩) ++ Act.through 0 0 (.send ⟨[2, 3], 7⟩) ++
    [.calling 1 0 (.send ⟨[1, 2, 3, 4, 5], 0⟩) none, .moving 1 .monotonic ⟨0, 0⟩, .asking 0] ++
    Act.through 0 0 (.receive 4) ++ Act.through 1 0 (.receive 4)

-- The more urgent message is received first.
theorem mail_conserved_errands : (fresh ⟨10, 8192⟩).Orderly ∧ ∃ t es,
    Schedule.play step (fresh ⟨10, 8192⟩) errands = some (t, es) ∧
    es.filterMap (·.entry 0) = [.sent ⟨[1], 0⟩, .sent ⟨[2, 3], 7⟩, .received ⟨[2, 3], 7⟩,
      .received ⟨[1], 0⟩] ∧ Conserved (fresh ⟨10, 8192⟩) t es := by
  have hseen : (Schedule.play step (fresh ⟨10, 8192⟩) errands).map (·.2.filterMap (·.entry 0))
      = some [.sent ⟨[1], 0⟩, .sent ⟨[2, 3], 7⟩, .received ⟨[2, 3], 7⟩, .received ⟨[1], 0⟩] := rfl
  rcases Option.map_eq_some_iff.mp hseen with ⟨⟨t, es⟩, hrun, hentries⟩
  exact ⟨fresh_orderly _, t, es, hrun, hentries, mail_conserved (fresh_orderly _) hrun⟩

end Mail

end HostLayer
