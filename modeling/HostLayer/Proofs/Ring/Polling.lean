import HostLayer.Proofs.Host.Instant
import HostLayer.Proofs.Ring.Encoding
import HostLayer.Proofs.Ring.Queue
import HostLayer.Proofs.Ring.Wakeup
import HostLayer.Proofs.Rounds

/-!
# Polling a Ring

A reader whose deadline has already passed.

Such a reader does not sleep, and it still finds what there is to find. The host
gives it a token as long as there is one, whatever the deadline says, and a
message that is there has a token. A token may also be left over from a message
that was dropped; then the reader takes it, finds nothing and goes round once
more. So it is the tokens that get less with every round, not the messages, and
the number of rounds is at most that of the tokens and one more, in which the
deadline ends the call.

Time goes on while the call is made. All that is asked of the clocks is that none
of them is set back on the way.

## Main definitions

* `Clock.Onward`: Times at which the steps of a call are made.
* `Ring.poll`: A reader at which time goes on.
* `Ring.Beside`: What is beside the tokens and the flag is unchanged.

## Theorems

* `Clock.wallDeadline?_passed`: The host gets a deadline that has passed as well.
* `Ring.poll_refused`: A deadline that is not normalized.
* `Ring.poll_message`: A reader where there is a message.
* `Ring.poll_empty`: A reader where there is none.
* `Ring.poll_ends`: Polling a ring that any calls have been made on.
-/

namespace HostLayer

-- The host finds that a deadline has passed if its caller does.
theorem HostTime.reached_of_value_le (t : Timer) (now : Nat) (ht : t.Normalized)
    (h : t.value ≤ now) : (ofTimer t).reached now = true := by
  by_cases hc : t.Countable
  · exact (reached_iff t now hc).mpr h
  · exact reached_of_not_countable t now ht hc

namespace Clock

/-- Times at which the steps of a call are made, one after the other: no clock is
    set back, and the seconds of all of them fit a word. -/
structure Onward (times : Nat → Clock) : Prop where
  fits : ∀ n source, (times n).nanos source < word64 * nanosPerSecond
  onward : ∀ n source, (times n).nanos source ≤ (times (n + 1)).nanos source

-- A deadline that has passed stays passed.
theorem Onward.passed {times : Nat → Clock} (h : Onward times) {source : ClockSource} {d : Timer}
    (hp : Passed source d (times 0)) : ∀ n, Passed source d (times n) := by
  intro n
  induction n with
  | zero => exact hp
  | succ n ih => exact Nat.le_trans ih (h.onward n source)

/-- From a deadline that has passed the host gets one that has passed as well, and
    stays so unless the time of day is set back. -/
theorem wallDeadline?_passed (c : Clock) (source : ClockSource) (d : Timer) (hd : d.Normalized)
    (hfits : ∀ source, c.nanos source < word64 * nanosPerSecond) (hp : Passed source d c) :
    ∃ limit, c.wallDeadline? source d = some limit ∧
      ∀ now, c.realtime ≤ now → limit.reached now = true := by
  cases source with
  | realtime =>
      refine ⟨_, wallDeadline?_realtime c d hd, fun now hnow => ?_⟩
      exact HostTime.reached_of_value_le d now hd (Nat.le_trans hp hnow)
  | monotonic =>
      -- Nothing is left until the deadline, so the host gets the time of day.
      have hzero : (d.distance (c.now .monotonic)).toNat = 0 := by
        rw [Timer.toNat_distance, value_now c .monotonic (hfits .monotonic)]
        exact Nat.sub_eq_zero_of_le (Nat.le_trans (Nat.min_le_left _ _) hp)
      have hnow := value_now c .realtime (hfits .realtime)
      rcases Timer.addNanos?_eq (c.now .realtime) (d.distance (c.now .monotonic))
        (now_normalized c .realtime) (by rw [hnow, hzero]; exact hfits .realtime) with
        ⟨t, ht, hnorm, hvalue⟩
      refine ⟨HostTime.ofTimer t, ?_, fun now hle => ?_⟩
      · unfold wallDeadline?
        rw [if_pos hd]
        simp only [ht, Option.map_some]
      · rw [hnow, hzero] at hvalue
        exact HostTime.reached_of_value_le t now hnorm (by rw [hvalue]; exact hle)

end Clock

namespace Ring

/-- A reader at which time goes on from one step to the next. -/
def poll (g : Geometry) (source : ClockSource) (d : Timer) (times : Nat → Clock) :
    Reading × Nat → Read → Step (Reading × Nat) Read (Answer Nat) :=
  atTimes (fun clock => receiveStep g source (some d) clock) times

/-- A reader is about to ask for a token, as it does once in every round. -/
def asks (p : Read) : Bool := p == .start

/-- Two memories have the same indices, and the same bytes behind the header. -/
structure Beside (g : Geometry) (m m' : Memory) : Prop where
  indices_eq : indices? g m' = indices? g m
  bytes_eq : ∀ i, headerSize ≤ i → m'.byte i = m.byte i

theorem Beside.trans {g : Geometry} {m m' m'' : Memory} (h : Beside g m m')
    (h' : Beside g m' m'') : Beside g m m'' :=
  ⟨h'.indices_eq.trans h.indices_eq, fun i hi => (h'.bytes_eq i hi).trans (h.bytes_eq i hi)⟩

-- Tokens are beside everything else.
theorem beside_setTokens (g : Geometry) (m : Memory) (s : Semaphore) :
    Beside g m (setTokens m s) :=
  ⟨(pending_setTokens g m s).1, setTokens_beyond m s⟩

-- The tokens fit their word.
theorem tokens_lt (m : Memory) : (tokens m).value < word32 := by
  have hload := m.loadNat_lt tokensAt 4
  rw [Memory.widthLimit_word32] at hload
  exact hload

section Rounds

variable (g : Geometry) (source : ClockSource) (d : Timer) (times : Nat → Clock)

/-- A deadline that is not normalized is refused, and nothing is changed. -/
theorem poll_refused (hd : ¬d.Normalized) (s : Reading) (n : Nat) :
    Concludes (poll g source d times) asks (s, n) .start (s, n + 1) (.error .invalidParam) 1 1 := by
  have hstep : poll g source d times (s, n) .start
      = .done (s, n + 1) (.error .invalidParam) [] := by
    simp only [poll, atTimes, receiveStep, Read.start, readStep, Semaphore.step, Semaphore.limit?,
      Clock.wallDeadline?_of_not_normalized _ source d hd, Option.map_none, Step.lift, waitFailure]
  exact Concludes.last hstep

-- The first step of a round in which there is a token.
theorem poll_token (hd : d.Normalized) (ht : Clock.Onward times)
    (hp : ∀ n, Clock.Passed source d (times n)) (s : Reading) (n : Nat)
    (htokens : 0 < (tokens s.memory).value) :
    poll g source d times (s, n) .start
      = .goto (⟨setTokens s.memory ⟨(tokens s.memory).value - 1⟩, s.buffer⟩, n + 1) .holding
          [] := by
  rcases Clock.wallDeadline?_passed (times n) source d hd (ht.fits n) (hp n) with ⟨limit, hl, _⟩
  rcases wait_with_token g s.buffer.length source (some d) (times n) s.memory .asking htokens with
    hw | ⟨_, hnone, _⟩
  · simp only [poll, atTimes, receiveStep, Read.start, hw, Step.lift, id]
  · rw [Semaphore.limit?, hl, Option.map_some] at hnone
    exact absurd hnone (by simp only [reduceCtorEq, not_false_eq_true])

-- The second step of a round in which there is a message.
theorem poll_look (hg : g.InRange) (s : Reading) (n : Nat) (msg : List UInt8)
    (rest : List (List UInt8)) (h : pending g s.memory = msg :: rest) :
    poll g source d times (s, n) .holding
      = .done (⟨(remove g s.memory).1, overwrite s.buffer (msg.take s.buffer.length)⟩, n + 1)
          (.ok (msg.take s.buffer.length).length) (remove g s.memory).2.2 := by
  simp only [poll, atTimes, receiveStep_of_pending g hg source (some d) (times n) s msg rest h,
    Step.lift]

/-- Where there are a token and a message, the reader gets the message in its first
    round. -/
theorem poll_message (hg : g.InRange) (hd : d.Normalized) (ht : Clock.Onward times)
    (hp : ∀ n, Clock.Passed source d (times n)) (s : Reading) (n : Nat)
    (htokens : 0 < (tokens s.memory).value) (msg : List UInt8) (rest : List (List UInt8))
    (hpending : pending g s.memory = msg :: rest) :
    ∃ m, Concludes (poll g source d times) asks (s, n) .start
        (⟨m, overwrite s.buffer (msg.take s.buffer.length)⟩, n + 2)
        (.ok (msg.take s.buffer.length).length) 2 1 ∧
      pending g m = rest ∧ tokens m = ⟨(tokens s.memory).value - 1⟩ ∧
      ∀ i, headerSize ≤ i → m.byte i = s.memory.byte i := by
  have htoken := poll_token g source d times hd ht hp s n htokens
  have hmessage : pending g (setTokens s.memory ⟨(tokens s.memory).value - 1⟩) = msg :: rest := by
    rw [(pending_setTokens g s.memory _).2, hpending]
  have hlook := poll_look g source d times hg
    ⟨setTokens s.memory ⟨(tokens s.memory).value - 1⟩, s.buffer⟩ (n + 1) msg rest hmessage
  refine ⟨_, Concludes.before htoken (Concludes.last hlook), ?_, ?_, fun i hi => ?_⟩
  · rw [(pending_remove g hg _).1, hmessage, List.tail_cons]
  · rw [tokens_remove]
    exact tokens_setTokens _ _ (Nat.lt_of_le_of_lt (Nat.sub_le _ 1) (tokens_lt s.memory))
  · rw [remove_slots g _ i hi, setTokens_beyond s.memory _ i hi]

-- The last round, in which there is no token.
theorem poll_last (hd : d.Normalized) (ht : Clock.Onward times)
    (hp : ∀ n, Clock.Passed source d (times n)) (s : Reading) (n : Nat)
    (htokens : (tokens s.memory).value = 0) :
    Concludes (poll g source d times) asks (s, n) .start (s, n + 2) (.error .unavailable) 2 1 := by
  rcases Clock.wallDeadline?_passed (times n) source d hd (ht.fits n) (hp n) with
    ⟨limit, hl, hreached⟩
  have hempty : (tokens s.memory).take? = none := by
    unfold Semaphore.take?
    rw [htokens]
  have hlate : Semaphore.late (times (n + 1)) (some limit) = true :=
    hreached _ (ht.onward n .realtime)
  have hsleep : poll g source d times (s, n) .start
      = .goto (s, n + 1) (.waiting (.asleep (some limit))) [] := by
    simp only [poll, atTimes, receiveStep, Read.start, readStep, Semaphore.step, Semaphore.limit?,
      hl, Option.map_some, hempty, Step.lift, id]
  have hgiveUp : poll g source d times (s, n + 1) (.waiting (.asleep (some limit)))
      = .done (s, n + 2) (.error .unavailable) [] := by
    simp only [poll, atTimes, receiveStep, readStep, Semaphore.step, hempty, hlate, if_true,
      Step.lift, waitFailure]
  exact Concludes.before hsleep (Concludes.last hgiveUp)

/-- Where there is no message, the reader takes all tokens, one in each round, and
    comes back with nothing. -/
theorem poll_empty (hg : g.InRange) (hd : d.Normalized) (ht : Clock.Onward times)
    (hp : ∀ n, Clock.Passed source d (times n)) : ∀ (v : Nat) (s : Reading) (n : Nat),
    (tokens s.memory).value = v → pending g s.memory = [] →
    (∃ i, indices? g s.memory = some i) →
    ∃ m, Concludes (poll g source d times) asks (s, n) .start (⟨m, s.buffer⟩, n + (2 * v + 2))
        (.error .unavailable) (2 * v + 2) (v + 1) ∧
      pending g m = [] ∧ tokens m = ⟨0⟩ ∧ Beside g s.memory m := by
  intro v
  induction v with
  | zero =>
      intro s n hv hnone _
      exact ⟨s.memory, poll_last g source d times hd ht hp s n hv, hnone,
        congrArg Semaphore.mk hv, rfl, fun _ _ => rfl⟩
  | succ v ih =>
      intro s n hv hnone hi
      have htoken := poll_token g source d times hd ht hp s n (by omega)
      rw [hv, Nat.add_sub_cancel] at htoken
      have hbeside := beside_setTokens g s.memory ⟨v⟩
      have hempty : pending g (setTokens s.memory ⟨v⟩) = [] := by
        rw [(pending_setTokens g s.memory _).2, hnone]
      -- What is left after the first round is the same with one token less.
      rcases pending_remove g hg (setTokens s.memory ⟨v⟩) with ⟨htail, hhead, hindices⟩
      rw [hempty] at htail hhead
      rcases hr : remove g (setTokens s.memory ⟨v⟩) with ⟨m₂, found, notes⟩
      have htokens := tokens_remove g (setTokens s.memory ⟨v⟩)
      have hslots := remove_slots g (setTokens s.memory ⟨v⟩)
      rw [hr] at htail hhead hindices htokens hslots
      simp only [List.head?_nil] at hhead
      rcases hi with ⟨i, hi⟩
      have hi' := (hindices i (hbeside.indices_eq.trans hi)).mpr hempty
      have hword : v < word32 := by
        have hlt := tokens_lt s.memory
        omega
      rcases ih ⟨m₂, s.buffer⟩ (n + 2)
        (by rw [htokens, tokens_setTokens s.memory ⟨v⟩ hword]) htail ⟨i, hi'⟩ with
        ⟨m, hends, hp', ht', hb'⟩
      refine ⟨m, ?_, hp', ht', hbeside.trans
        (Beside.trans ⟨hi'.trans (hbeside.indices_eq.trans hi).symm, hslots⟩ hb')⟩
      have hlook : poll g source d times (⟨setTokens s.memory ⟨v⟩, s.buffer⟩, n + 1) .holding
          = .goto (⟨m₂, s.buffer⟩, n + 2) .start notes := by
        simp only [poll, atTimes, receiveStep, readStep, hr, hhead, Step.lift, id]
      have hround := Concludes.before htoken (Concludes.before hlook hends)
      rw [show n + 2 + (2 * v + 2) = n + (2 * (v + 1) + 2) by omega,
        show 2 * v + 2 + 1 + 1 = 2 * (v + 1) + 2 by omega,
        show (if asks .start then 1 else 0) + ((if asks .holding then 1 else 0) + (v + 1))
          = v + 1 + 1 from by
            rw [if_pos (show asks .start = true by decide),
              if_neg (show ¬asks .holding = true by decide)]
            omega] at hround
      exact hround

end Rounds

/-- Polling a ring never misses a message and always comes to an end.

    After any calls of any number of parties that are over by now, in which no
    token failed to be put down, a reader whose deadline has passed comes back
    after as many rounds as there are tokens and one more, at most. If there is a
    message, it gets the oldest one, cut to its buffer, and this message is gone
    from the ring; the bytes of the buffer behind it are the old ones. If there is
    none, it comes back with nothing: the buffer, the indices and the slots are as
    before, and no token is left. A deadline that is not normalized is refused, and
    nothing is changed at all. -/
theorem poll_ends (g : Geometry) (hg : g.Valid) (m : Memory) (acts : List Act) (s : Traffic)
    (es : List Sight) (hacts : ∀ a ∈ acts, a.OfParties) (hposts : ∀ e ∈ es, e ≠ .unwoken)
    (h : Schedule.play Traffic.step (Traffic.fresh g m) acts = some (s, es)) (hsettled : s.Settled)
    (source : ClockSource) (d : Timer) (times : Nat → Clock) (buffer : List UInt8) :
    (¬d.Normalized → Concludes (poll g source d times) asks (⟨s.memory, buffer⟩, 0) .start
      (⟨s.memory, buffer⟩, 1) (.error .invalidParam) 1 1) ∧
    (d.Normalized → Clock.Onward times → Clock.Passed source d (times 0) →
      (∀ msg rest, pending g s.memory = msg :: rest →
        0 < (tokens s.memory).value ∧
        ∃ m', Concludes (poll g source d times) asks (⟨s.memory, buffer⟩, 0) .start
            (⟨m', msg.take (min msg.length buffer.length)
              ++ buffer.drop (min msg.length buffer.length)⟩, 2)
            (.ok (min msg.length buffer.length)) 2 1 ∧
          pending g m' = rest ∧ tokens m' = ⟨(tokens s.memory).value - 1⟩ ∧
          ∀ i, headerSize ≤ i → m'.byte i = s.memory.byte i) ∧
      (pending g s.memory = [] →
        ∃ m', Concludes (poll g source d times) asks (⟨s.memory, buffer⟩, 0) .start
            (⟨m', buffer⟩, 2 * (tokens s.memory).value + 2) (.error .unavailable)
            (2 * (tokens s.memory).value + 2) ((tokens s.memory).value + 1) ∧
          pending g m' = [] ∧ tokens m' = ⟨0⟩ ∧ indices? g m' = indices? g s.memory ∧
          ∀ i, headerSize ≤ i → m'.byte i = s.memory.byte i)) := by
  refine ⟨fun hd => poll_refused g source d times hd _ 0, fun hd ht hp => ⟨?_, fun hnone => ?_⟩⟩
  · intro msg rest hmsg
    have htokens := (Traffic.play_balanced g hg m acts s es hposts h).tokens_pos hsettled
      (by rw [hmsg]; exact List.cons_ne_nil msg rest)
    rcases poll_message g source d times hg.1 hd ht (ht.passed hp) ⟨s.memory, buffer⟩ 0 htokens
      msg rest hmsg with ⟨m', hends, hkept⟩
    have hcut : msg.take buffer.length = msg.take (min msg.length buffer.length) := by
      rw [Nat.min_comm, List.take_eq_take_min]
    have hlen : (msg.take buffer.length).length = min msg.length buffer.length := by
      rw [List.length_take, Nat.min_comm]
    simp only [overwrite, hlen] at hends
    rw [hcut] at hends
    exact ⟨htokens, m', hends, hkept⟩
  · have hindices := (play_queued g hg.1 acts _ s es (Traffic.fresh_agreed g m hg)
      ⟨_, indices?_header m g hg⟩ hacts h).2
    rcases poll_empty g source d times hg.1 hd ht (ht.passed hp) _ ⟨s.memory, buffer⟩ 0 rfl hnone
      hindices with ⟨m', hends, hp', ht', hb⟩
    rw [Nat.zero_add] at hends
    exact ⟨m', hends, hp', ht', hb.indices_eq, hb.bytes_eq⟩

-- A message is dropped and leaves its token behind. The one that is there is found
-- in the first round; once it is gone, the token costs one round more.
theorem poll_ends_surplus :
    (∃ s es m', Schedule.play Traffic.step (Traffic.fresh ⟨2, 4⟩ (Memory.zeros 120))
        [.write 0 [1], .move 0 .realtime ⟨0, 0⟩, .move 0 .realtime ⟨0, 0⟩, .write 0 [2, 3, 4, 5],
          .move 0 .realtime ⟨0, 0⟩, .move 0 .realtime ⟨0, 0⟩] = some (s, es) ∧
      Concludes (poll ⟨2, 4⟩ .monotonic ⟨0, 0⟩ fun _ => ⟨5, 5⟩) asks (⟨s.memory, [9, 9]⟩, 0) .start
        (⟨m', [2, 3]⟩, 2) (.ok 2) 2 1 ∧ tokens m' = ⟨1⟩) ∧
    ∃ s es m', Schedule.play Traffic.step (Traffic.fresh ⟨2, 4⟩ (Memory.zeros 120))
        [.write 0 [1], .move 0 .realtime ⟨0, 0⟩, .move 0 .realtime ⟨0, 0⟩, .write 0 [2, 3, 4, 5],
          .move 0 .realtime ⟨0, 0⟩, .move 0 .realtime ⟨0, 0⟩, .read 0 10 none,
          .move 0 .realtime ⟨0, 0⟩, .move 0 .realtime ⟨0, 0⟩] = some (s, es) ∧
      Concludes (poll ⟨2, 4⟩ .monotonic ⟨0, 0⟩ fun _ => ⟨5, 5⟩) asks (⟨s.memory, [9, 9]⟩, 0) .start
        (⟨m', [9, 9]⟩, 4) (.error .unavailable) 4 2 ∧ tokens m' = ⟨0⟩ := by
  have honward : Clock.Onward fun _ => ⟨5, 5⟩ :=
    ⟨fun _ source => by cases source <;> decide, fun _ _ => Nat.le_refl _⟩
  have hpassed : Clock.Passed .monotonic ⟨0, 0⟩ ⟨5, 5⟩ := Nat.zero_le 5
  have hsettled : ∀ s : Traffic, (s.parties.all fun p => !p.posting && !p.holding) = true →
      s.Settled := fun s hall p hm => by simpa using List.all_eq_true.mp hall p hm
  refine ⟨?_, ?_⟩
  · have hrun : (Schedule.play Traffic.step (Traffic.fresh ⟨2, 4⟩ (Memory.zeros 120))
        [.write 0 [1], .move 0 .realtime ⟨0, 0⟩, .move 0 .realtime ⟨0, 0⟩, .write 0 [2, 3, 4, 5],
          .move 0 .realtime ⟨0, 0⟩, .move 0 .realtime ⟨0, 0⟩]).map
        (fun r => (r.2, pending ⟨2, 4⟩ r.1.memory, tokens r.1.memory,
          r.1.parties.all fun p => !p.posting && !p.holding))
        = some ([.stored [1], .stored [2, 3, 4, 5]], [[2, 3, 4]], ⟨2⟩, true) := by
      decide +kernel
    rcases Option.map_eq_some_iff.mp hrun with ⟨⟨s, es⟩, hplay, hes⟩
    simp only [Prod.mk.injEq] at hes
    rcases hes with ⟨rfl, hp, htokens, hall⟩
    rcases ((poll_ends ⟨2, 4⟩ (by decide) (Memory.zeros 120) _ s _ (by simp [Act.OfParties])
      (by decide) hplay (hsettled s hall) .monotonic ⟨0, 0⟩ (fun _ => ⟨5, 5⟩) [9, 9]).2 (by decide)
      honward hpassed).1 [2, 3, 4] [] hp with ⟨_, m', hends, _, hleft, _⟩
    rw [htokens] at hleft
    exact ⟨s, _, m', hplay, hends, hleft⟩
  · have hrun : (Schedule.play Traffic.step (Traffic.fresh ⟨2, 4⟩ (Memory.zeros 120))
        [.write 0 [1], .move 0 .realtime ⟨0, 0⟩, .move 0 .realtime ⟨0, 0⟩, .write 0 [2, 3, 4, 5],
          .move 0 .realtime ⟨0, 0⟩, .move 0 .realtime ⟨0, 0⟩, .read 0 10 none,
          .move 0 .realtime ⟨0, 0⟩, .move 0 .realtime ⟨0, 0⟩]).map
        (fun r => (r.2, pending ⟨2, 4⟩ r.1.memory, tokens r.1.memory,
          r.1.parties.all fun p => !p.posting && !p.holding))
        = some ([.stored [1], .stored [2, 3, 4, 5], .looked 10 (some [2, 3, 4])], [], ⟨1⟩,
          true) := by
      decide +kernel
    rcases Option.map_eq_some_iff.mp hrun with ⟨⟨s, es⟩, hplay, hes⟩
    simp only [Prod.mk.injEq] at hes
    rcases hes with ⟨rfl, hp, htokens, hall⟩
    rcases ((poll_ends ⟨2, 4⟩ (by decide) (Memory.zeros 120) _ s _ (by simp [Act.OfParties])
      (by decide) hplay (hsettled s hall) .monotonic ⟨0, 0⟩ (fun _ => ⟨5, 5⟩) [9, 9]).2 (by decide)
      honward hpassed).2 hp with ⟨m', hends, _, hleft, _⟩
    rw [htokens] at hends
    exact ⟨s, _, m', hplay, hends, hleft⟩

end Ring

end HostLayer
