import HostLayer.Ipc.Queue
import Mathlib.Tactic.SplitIfs

/-!
# Transfers

What one attempt to send or to receive a message does to a queue.

An attempt looks at many things in a fixed order, and what is left of it is short.
It has moved exactly one message (`QueueHandle.Transferred`), or it is refused for
one of six reasons (`QueueHandle.Refused`), or it waits. Nothing else is used of
the host's rules later.

The message that is received is the oldest of those with the highest priority, and
it is taken out of where it stood (`Host.Queue.pick_eq_some`).

## Main definitions

* `QueueHandle.Transferred`: One message has been moved.
* `QueueHandle.Refused`: The reasons for a refusal.
* `QueueHandle.Request.Malformed`: A request that a queue cannot serve, whatever
  it holds.
* `QueueHandle.Place.asks`, `QueueHandle.Stepped`: The steps of a call.

## Theorems

* `Host.Queue.pick_eq_some`: The message that is received next.
* `QueueHandle.attempt_cases`: What an attempt does.
* `QueueHandle.ask_cases`: The answer of the library to an attempt.
* `QueueHandle.step_stepped`: What a step of a call with a deadline does.
-/

namespace HostLayer

namespace Host

namespace Queue

/-- What is received next is the oldest of the messages with the highest priority:
    all before it have a lower one, and none behind it has a higher one. -/
theorem pick_eq_some {ms rest : List QueueMessage} {m : QueueMessage}
    (h : pick ms = some (m, rest)) : ∃ earlier later, ms = earlier ++ m :: later ∧
      rest = earlier ++ later ∧ (∀ x ∈ earlier, x.priority < m.priority) ∧
      ∀ x ∈ later, x.priority ≤ m.priority := by
  induction ms generalizing m rest with
  | nil => exact absurd h (by simp only [pick, reduceCtorEq, not_false_eq_true])
  | cons first ms ih =>
      have hnone : ∀ x ∈ ([] : List QueueMessage), x.priority < m.priority :=
        fun x hx => absurd hx List.not_mem_nil
      rw [pick] at h
      split at h
      next hp =>
        -- Nothing is behind the first message.
        simp only [Option.some.injEq, Prod.mk.injEq] at h
        rcases h with ⟨rfl, rfl⟩
        cases ms with
        | nil => exact ⟨[], [], rfl, rfl, hnone, fun x hx => absurd hx List.not_mem_nil⟩
        | cons second ms =>
            have hsome := pick_isSome second ms
            rw [hp] at hsome
            exact absurd hsome (by decide)
      next best others hp =>
        rcases ih hp with ⟨earlier, later, rfl, rfl, hearlier, hlater⟩
        split at h
        next hlt =>
          simp only [Option.some.injEq, Prod.mk.injEq] at h
          rcases h with ⟨rfl, rfl⟩
          refine ⟨first :: earlier, later, rfl, rfl, fun x hx => ?_, hlater⟩
          rcases List.mem_cons.mp hx with rfl | hx
          · exact hlt
          · exact hearlier x hx
        next hge =>
          -- The first message stays ahead of the best one behind it.
          simp only [Option.some.injEq, Prod.mk.injEq] at h
          rcases h with ⟨rfl, rfl⟩
          refine ⟨[], earlier ++ best :: later, rfl, rfl, hnone, fun x hx => ?_⟩
          have hbest : best.priority ≤ first.priority := Nat.le_of_not_lt hge
          rcases List.mem_append.mp hx with hx | hx
          · exact Nat.le_trans (Nat.le_of_lt (hearlier x hx)) hbest
          · rcases List.mem_cons.mp hx with rfl | hx
            · exact hbest
            · exact Nat.le_trans (hlater x hx) hbest

end Queue

end Host

namespace QueueHandle

/-- A queue cannot serve the request, whatever it holds and whenever it is asked:
    the priority does not exist, the message does not fit the queue, or no message
    of the queue is sure to fit the buffer. -/
def Request.Malformed (q : Host.Queue) : Request → Prop
  | .send m => Host.Queue.priorities ≤ m.priority ∨ q.maxMessageSize < m.body.length
  | .receive room => room < q.maxMessageSize

/-- The queue before, what has been received if anything, and the queue after a
    request that has moved one message. -/
inductive Transferred (q : Host.Queue) : Request → Option Host.QueueMessage → Host.Queue → Prop
  | sent (m : Host.QueueMessage) (h : q.pending.length < q.maxMessages) :
      Transferred q (.send m) none { q with pending := q.pending ++ [m] }
  | received (room : Nat) (m : Host.QueueMessage) (earlier later : List Host.QueueMessage)
      (h : q.pending = earlier ++ m :: later) (he : ∀ x ∈ earlier, x.priority < m.priority)
      (hl : ∀ x ∈ later, x.priority ≤ m.priority) :
      Transferred q (.receive room) (some m) { q with pending := earlier ++ later }

/-- Why the host refuses a request that comes with a deadline, at the time of day
    `wall`. -/
inductive Refused (d : Host.Descriptor) (q : Host.Queue) (limit : Option HostTime) (wall : Nat)
    (r : Request) : Errno → Prop
  | deadline (h : Host.Queue.badDeadline limit = true) : Refused d q limit wall r .invalid
  | malformed (e : Errno) (he : e = .invalid ∨ e = .messageSize) (h : r.Malformed q) :
      Refused d q limit wall r e
  | direction : Refused d q limit wall r .badDescriptor
  | stalled (h : d.nonblocking = true) : Refused d q limit wall r .tryAgain
  | late (h : Host.Queue.late wall limit = true) : Refused d q limit wall r .timedOut

-- A request that cannot be served now.
theorem stall_cases (α : Type) (d : Host.Descriptor) (limit : Option HostTime) (wall : Nat) :
    ((Host.Queue.stall d limit wall : Host.QueueAttempt α) = .refused .tryAgain ∧
      d.nonblocking = true) ∨
    (Host.Queue.stall d limit wall : Host.QueueAttempt α) = .refused .timedOut ∧
      Host.Queue.late wall limit = true ∨
    (Host.Queue.stall d limit wall : Host.QueueAttempt α) = .waiting ∧
      Host.Queue.late wall limit = false := by
  unfold Host.Queue.stall
  cases hn : d.nonblocking with
  | true => exact Or.inl ⟨rfl, rfl⟩
  | false =>
      cases hl : Host.Queue.late wall limit with
      | true => exact Or.inr (Or.inl ⟨rfl, rfl⟩)
      | false => exact Or.inr (Or.inr ⟨rfl, rfl⟩)

/-- An attempt has moved one message, or it is refused for a reason, or it waits
    and its deadline has not passed. -/
theorem attempt_cases (h : QueueHandle) (r : Request) (q : Host.Queue) (limit : Option HostTime)
    (wall : Nat) :
    (∃ q' result, h.attempt r q limit wall = .done q' result ∧ Transferred q r result q') ∨
    (∃ e, h.attempt r q limit wall = .refused e ∧ Refused h.descriptor q limit wall r e) ∨
    (h.attempt r q limit wall = .waiting ∧ Host.Queue.late wall limit = false) := by
  cases r with
  | send m =>
      simp only [attempt, Host.Queue.send]
      split_ifs with hbad hprio hdir hlen hroom
      · exact Or.inr (Or.inl ⟨_, rfl, .deadline hbad⟩)
      · exact Or.inr (Or.inl ⟨_, rfl, .malformed _ (Or.inl rfl) (Or.inl hprio)⟩)
      · exact Or.inr (Or.inl ⟨_, rfl, .direction⟩)
      · exact Or.inr (Or.inl ⟨_, rfl, .malformed _ (Or.inr rfl) (Or.inr hlen)⟩)
      · exact Or.inl ⟨_, _, rfl, .sent m hroom⟩
      · rcases stall_cases Unit h.descriptor limit wall with
          ⟨hs, hn⟩ | ⟨hs, hl⟩ | ⟨hs, hl⟩
        · exact Or.inr (Or.inl ⟨_, by rw [hs], .stalled hn⟩)
        · exact Or.inr (Or.inl ⟨_, by rw [hs], .late hl⟩)
        · exact Or.inr (Or.inr ⟨by rw [hs], hl⟩)
  | receive room =>
      simp only [attempt, Host.Queue.receive]
      split_ifs with hbad hdir hroom
      · exact Or.inr (Or.inl ⟨_, rfl, .deadline hbad⟩)
      · exact Or.inr (Or.inl ⟨_, rfl, .direction⟩)
      · exact Or.inr (Or.inl ⟨_, rfl, .malformed _ (Or.inr rfl) hroom⟩)
      · cases hp : Host.Queue.pick q.pending with
        | some x =>
            rcases x with ⟨m, rest⟩
            rcases Host.Queue.pick_eq_some hp with ⟨earlier, later, hq, rfl, he, hl⟩
            exact Or.inl ⟨_, _, rfl, .received room m earlier later hq he hl⟩
        | none =>
            rcases stall_cases Host.QueueMessage h.descriptor limit wall with
              ⟨hs, hn⟩ | ⟨hs, hl⟩ | ⟨hs, hl⟩
            · exact Or.inr (Or.inl ⟨_, by simp only [hs], .stalled hn⟩)
            · exact Or.inr (Or.inl ⟨_, by simp only [hs], .late hl⟩)
            · exact Or.inr (Or.inr ⟨by simp only [hs], hl⟩)

/-- What the library makes of a refusal: the reason says it all, and nothing is
    called an interruption. -/
theorem Refused.answer {d : Host.Descriptor} {q : Host.Queue} {limit : Option HostTime}
    {wall : Nat} {r : Request} {e : Errno} (h : Refused d q limit wall r e) (call : String) :
    ∃ cause, Errno.translate transferCause call e = (cause, []) ∧ cause ≠ .interrupted ∧
      (cause = .timeout → Host.Queue.late wall limit = true) ∧
      (cause = .invalidParam → Host.Queue.badDeadline limit = true ∨ r.Malformed q) := by
  cases h with
  | deadline hbad => exact ⟨_, rfl, by decide, fun h => absurd h (by decide), fun _ => Or.inl hbad⟩
  | malformed _ he hm =>
      rcases he with rfl | rfl
      · exact ⟨_, rfl, by decide, fun h => absurd h (by decide), fun _ => Or.inr hm⟩
      · exact ⟨_, rfl, by decide, fun h => absurd h (by decide), fun _ => Or.inr hm⟩
  | direction =>
      exact ⟨_, rfl, by decide, fun h => absurd h (by decide), fun h => absurd h (by decide)⟩
  | stalled _ =>
      exact ⟨_, rfl, by decide, fun h => absurd h (by decide), fun h => absurd h (by decide)⟩
  | late hl => exact ⟨_, rfl, by decide, fun _ => hl, fun h => absurd h (by decide)⟩

/-- Asking the host moves one message, or ends the call with a cause and changes
    nothing, or gets stuck. -/
theorem ask_cases (h : QueueHandle) (r : Request) (clock : Clock) (q : Host.Queue)
    (limit : Option HostTime)
    (stalled : Step Host.Queue Place (Answer (Option Host.QueueMessage))) :
    (∃ q' result, h.ask r clock q limit stalled = .done q' (.ok result) [] ∧
      Transferred q r result q') ∨
    (∃ cause, h.ask r clock q limit stalled = .done q (.error cause) [] ∧
      cause ≠ .interrupted ∧
      (cause = .timeout → Host.Queue.late clock.realtime limit = true) ∧
      (cause = .invalidParam → Host.Queue.badDeadline limit = true ∨ r.Malformed q)) ∨
    (h.ask r clock q limit stalled = stalled ∧ Host.Queue.late clock.realtime limit = false) := by
  unfold ask
  rcases attempt_cases h r q limit clock.realtime with
    ⟨q', result, ha, ht⟩ | ⟨e, ha, hr⟩ | ⟨ha, hl⟩
  · exact Or.inl ⟨q', result, by rw [ha], ht⟩
  · rcases hr.answer (r.call limit) with ⟨cause, hcause, hint, hlate, hbad⟩
    exact Or.inr (Or.inl ⟨cause, by simp only [ha, hcause], hint, hlate, hbad⟩)
  · exact Or.inr (Or.inr ⟨by rw [ha], hl⟩)

/-- The deadline for the host with which it is asked at a place, if it is asked
    there. -/
def Place.asks (source : ClockSource) (d : Timer) (clock : Clock) :
    Place → Option (Option HostTime)
  | .checking => none
  | .asking => (clock.wallDeadline? source d).map some
  | .asleep limit => some limit

/-- The steps of a call with the deadline `d` on the clock `source`, at a time that
    `clock` shows. -/
inductive Stepped (h : QueueHandle) (r : Request) (source : ClockSource) (d : Timer)
    (clock : Clock) (q : Host.Queue) :
    Place → Step Host.Queue Place (Answer (Option Host.QueueMessage)) → Prop
  | accept (hf : h.fits r = true) : Stepped h r source d clock q .checking (.goto q .asking [])
  | tooLong (hf : h.fits r = false) :
      Stepped h r source d clock q .checking (.done q (.error .invalidParam) [])
  /-- There is no deadline for the host. -/
  | refuse (hd : clock.wallDeadline? source d = none) :
      Stepped h r source d clock q .asking (.done q (.error .invalidParam) [])
  /-- One message is moved. -/
  | deliver (p : Place) (limit : Option HostTime) (q' : Host.Queue)
      (result : Option Host.QueueMessage) (hp : p.asks source d clock = some limit)
      (ht : Transferred q r result q') :
      Stepped h r source d clock q p (.done q' (.ok result) [])
  /-- The host refuses, and the reason says it all. -/
  | fail (p : Place) (limit : Option HostTime) (cause : Error)
      (hp : p.asks source d clock = some limit) (hi : cause ≠ .interrupted)
      (hlate : cause = .timeout → Host.Queue.late clock.realtime limit = true)
      (hbad : cause = .invalidParam → Host.Queue.badDeadline limit = true ∨ r.Malformed q) :
      Stepped h r source d clock q p (.done q (.error cause) [])
  /-- The request cannot be served, and the thread sleeps. -/
  | sleep (limit : HostTime) (hd : clock.wallDeadline? source d = some limit) :
      Stepped h r source d clock q .asking (.goto q (.asleep (some limit)) [])
  | rest (limit : Option HostTime) (hl : Host.Queue.late clock.realtime limit = false) :
      Stepped h r source d clock q (.asleep limit) .waits

theorem step_stepped (h : QueueHandle) (r : Request) (source : ClockSource) (d : Timer)
    (clock : Clock) (q : Host.Queue) (p : Place) :
    Stepped h r source d clock q p (h.step r source (some d) clock q p) := by
  cases p with
  | checking =>
      simp only [step]
      split_ifs with hf
      · exact .accept hf
      · exact .tooLong (Bool.eq_false_iff.mpr hf)
  | asking =>
      cases hl : clock.wallDeadline? source d with
      | none =>
          simp only [step, hl]
          exact .refuse hl
      | some limit =>
          have hp : Place.asking.asks source d clock = some (some limit) := by
            simp only [Place.asks, hl, Option.map_some]
          simp only [step, hl]
          rcases ask_cases h r clock q (some limit) (.goto q (.asleep (some limit)) []) with
            ⟨q', result, ha, ht⟩ | ⟨cause, ha, hi, hlate, hbad⟩ | ⟨ha, _⟩
          · rw [ha]
            exact .deliver .asking (some limit) q' result hp ht
          · rw [ha]
            exact .fail .asking (some limit) cause hp hi hlate hbad
          · rw [ha]
            exact .sleep limit hl
  | asleep limit =>
      simp only [step]
      rcases ask_cases h r clock q limit .waits with
        ⟨q', result, ha, ht⟩ | ⟨cause, ha, hi, hlate, hbad⟩ | ⟨ha, hl⟩
      · rw [ha]
        exact .deliver (.asleep limit) limit q' result rfl ht
      · rw [ha]
        exact .fail (.asleep limit) limit cause rfl hi hlate hbad
      · rw [ha]
        exact .rest limit hl

end QueueHandle

end HostLayer
