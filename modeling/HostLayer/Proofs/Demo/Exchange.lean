import HostLayer.Proofs.Demo.Moves

/-!
# Mailbox Runs

What a mailbox does, whoever gets the turns and whenever signals arrive.

The two semaphores and the numbers in progress add up to one. A side has a number in
progress from the token that it takes up to the one that it puts down, so at most one
side is there, and that is all that keeps the slot in order: the mutex is always
found free. Hence stores and loads take turns, and what is loaded is what has been
stored before.

Nobody waits for ever, either. As long as somebody has not ended, somebody can go on,
and nothing that the other side or a signal does takes that away. So every part of
a schedule in which both get a turn brings both together closer to their ends, and
how far these are is known. The first is an invariant of single acts (`Kept.next`), the
second an induction on parts of schedules (`Kept.fair`).

## Main definitions

* `Demo.Exchange.accesses`: How the slot is used in a run.
* `Demo.Exchange.handed`: The numbers are put into the slot and found there in turn.
* `Demo.Exchange.Balance`: What both sides have done adds up.
* `Demo.Exchange.Alternates`: So many stores and loads have taken turns.
* `Demo.Exchange.Kept`: The invariant of a run.
* `Demo.Exchange.Awake`: The turn of a side that can go on.
* `Demo.Exchange.Finished`, `Demo.Exchange.Orderly`: What there is to be said of a mailbox.

## Theorems

* `Demo.Exchange.Balance.move`: The sums survive a move.
* `Demo.Exchange.Kept.next`, `Demo.Exchange.Kept.play`: The invariant survives an act, and
  a run.
* `Demo.Exchange.Kept.awake`: Somebody can go on.
* `Demo.Exchange.Kept.nearer`, `Demo.Exchange.Kept.fair`: A part of a schedule in which both
  get a turn, and several.
* `Demo.Exchange.alternating_finished`: The turns that the program gives are enough.
* `Demo.Exchange.run_success`: What the program ends with.
* `Demo.Exchange.orderly_and_live`: The mailbox is in order, and the program ends.
-/

namespace HostLayer

namespace Demo

namespace Mailbox

namespace Access

/-- What is in the slot after a use. -/
def after (slot : Nat) : Access → Nat
  | stored n => n
  | loaded _ => slot

/-- The number that is found. -/
def loaded? : Access → Option Nat
  | stored _ => none
  | loaded n => some n

end Access

end Mailbox

namespace Exchange

open Mailbox

/-- How the slot is used by an act. -/
def access (k : Exchange) : Act → List Access
  | .produce => Producer.access k.producer
  | .consume => Consumer.access k.box k.consumer
  | _ => []

/-- How the slot is used in a run. -/
def accesses (rounds : Nat) (k : Exchange) : List Act → List Access
  | [] => []
  | a :: acts => k.access a ++ (k.next rounds a).accesses rounds acts

/-- The numbers from one to `n`, each put into the slot and then found there. -/
def handed : Nat → List Access
  | 0 => []
  | n + 1 => handed n ++ [.stored (n + 1), .loaded (n + 1)]

/-- Both sides have ended well. -/
def Finished (k : Exchange) : Prop :=
  k.producer = .inr (.ok ()) ∧ k.consumer = .inr (.ok ())

section Handed

theorem handed_mono {n m : Nat} (h : n ≤ m) : handed n <+: handed m := by
  induction h with
  | refl => exact List.prefix_refl _
  | step _ ih => exact ih.trans (List.prefix_append _ _)

theorem handed_after (n : Nat) : (handed n).foldl Access.after 0 = n := by
  cases n with
  | zero => rfl
  | succ n =>
      rw [handed, List.foldl_append]
      rfl

theorem handed_loaded (n : Nat) : (handed n).filterMap Access.loaded? = List.range' 1 n := by
  induction n with
  | zero => rfl
  | succ n ih =>
      rw [handed, List.filterMap_append, ih, List.range'_concat, Nat.one_mul, Nat.add_comm 1 n]
      rfl

/-- The slot has been filled `p` times and emptied `c` times, in turn. -/
inductive Alternates : Nat → Nat → List Access → Prop
  | emptied (n : Nat) : Alternates n n (handed n)
  | filled (n : Nat) : Alternates (n + 1) n (handed n ++ [.stored (n + 1)])

namespace Alternates

variable {n p c : Nat} {log : List Access}

theorem store (h : Alternates n n log) : Alternates (n + 1) n (log ++ [.stored (n + 1)]) := by
  cases h with
  | emptied => exact .filled n

theorem load (h : Alternates (n + 1) n log) :
    Alternates (n + 1) (n + 1) (log ++ [.loaded (n + 1)]) := by
  cases h with
  | filled =>
      rw [List.append_assoc]
      exact .emptied (n + 1)

theorem log_within (h : Alternates p c log) {m : Nat} (hle : p ≤ m) : log <+: handed m := by
  cases h with
  | emptied => exact handed_mono hle
  | filled =>
      have hnext : handed c ++ [.stored (c + 1)] <+: handed (c + 1) :=
        ⟨[.loaded (c + 1)], List.append_assoc _ _ _⟩
      exact hnext.trans (handed_mono hle)

theorem log_after (h : Alternates p c log) : log.foldl Access.after 0 = p := by
  cases h with
  | emptied => exact handed_after p
  | filled n =>
      rw [List.foldl_append]
      rfl

theorem log_eq (h : Alternates n n log) : log = handed n := by
  cases h with
  | emptied => rfl

end Alternates

end Handed

section Balance

variable {rounds a b : Nat} {me them : Manner} {s s' : Mailbox} {p p' c : Tally}
  {new : List Access}

/-- What the two sides have done adds up to what is in the mailbox, if at first there were
    `a` free and `b` filled slots. -/
structure Balance (me them : Manner) (a b : Nat) (s : Mailbox) (p c : Tally) : Prop where
  free : s.empty.value + p.taken = a + c.posted
  filled : s.full.value + c.taken = b + p.posted
  produced : s.produced = p.counted
  consumed : s.consumed = c.counted
  plain : s.lock.raw.Plain
  mine : p.inside = true → s.lock.raw.holder = some me.thread
  theirs : c.inside = true → s.lock.raw.holder = some them.thread
  nobody : p.inside = false → c.inside = false → s.lock.raw.holder = none

namespace Balance

/-- The same from the other side. -/
theorem turn (h : Balance me them a b s p c) : Balance them me b a s.turned c p :=
  ⟨h.filled, h.free, h.consumed, h.produced, h.plain, h.theirs, h.mine,
    fun hc hp => h.nobody hp hc⟩

variable (hone : a + b = 1) (hp : p.Steady rounds) (hc : c.Steady rounds)

include hone hc

/-- While one side has a number in progress, the other has none. -/
theorem exclusive (h : Balance me them a b s p c) (htaken : p.taken = p.posted + 1) :
    c.taken = c.posted ∧ c.inside = false := by
  have heven : c.taken = c.posted := by
    have hfree := h.free
    have hfilled := h.filled
    have hused := hc.used_le
    have hposted := hc.posted_le
    omega
  refine ⟨heven, Bool.eq_false_iff.mpr fun hinside => ?_⟩
  have htheirs := hc.inside_taken hinside
  omega

include hp

/-- A side can rely on what it relies on. -/
theorem ready (h : Balance me them a b s p c) : Ready me s p := by
  refine ⟨h.plain, fun htaken hinside => ?_, h.mine, ?_⟩
  · exact h.nobody hinside (h.exclusive hone hc htaken).2
  · have hfree := h.free
    have hfilled := h.filled
    have hsteady := And.intro hp.used_le hp.posted_le
    have hothers := And.intro hc.used_le hc.posted_le
    rw [Semaphore.maximum]
    omega

theorem move (h : Balance me them a b s p c) (hmove : Move me s p s' p' new) :
    Balance me them a b s' p' c := by
  cases hmove with
  | idle _ => exact h
  | proceed lines asks less _ =>
      exact ⟨h.free, h.filled, h.produced, h.consumed, h.plain, h.mine, h.theirs, h.nobody⟩
  | take e less he _ =>
      have hfree : e.value + (p.taken + 1) = a + c.posted := by
        have hbefore := h.free
        omega
      exact ⟨hfree, h.filled, h.produced, h.consumed, h.plain, h.mine, h.theirs, h.nobody⟩
  | lock less htaken _ =>
      -- Nobody else is inside, so there is one holder afterwards.
      have hout := (h.exclusive hone hc htaken).2
      exact ⟨h.free, h.filled, h.produced, h.consumed, h.plain.taken me.thread, fun _ => rfl,
        fun hinside => absurd hinside (by rw [hout]; exact Bool.false_ne_true),
        fun hinside => Bool.noConfusion hinside⟩
  | use less _ _ =>
      exact ⟨h.free, h.filled, h.produced, h.consumed, h.plain, h.mine, h.theirs, h.nobody⟩
  | unlock less hinside _ =>
      have hout := (h.exclusive hone hc (hp.inside_taken hinside)).2
      exact ⟨h.free, h.filled, h.produced, h.consumed, h.plain.freed,
        fun hinside' => absurd hinside' Bool.false_ne_true,
        fun hinside' => absurd hinside' (by rw [hout]; exact Bool.false_ne_true), fun _ _ => rfl⟩
  | count less _ =>
      exact ⟨h.free, h.filled, congrArg (· + 1) h.produced, h.consumed, h.plain, h.mine, h.theirs,
        h.nobody⟩
  | post f less hf _ =>
      have hfilled : f.value + c.taken = b + (p.posted + 1) := by
        have hbefore := h.filled
        omega
      exact ⟨h.free, hfilled, h.produced, h.consumed, h.plain, h.mine, h.theirs, h.nobody⟩

end Balance

end Balance

/-- What is kept along every run: where the two sides stand, that what they have done adds
    up, and that they have used the slot in turn. -/
structure Kept (rounds : Nat) (k : Exchange) (p c : Tally) (log : List Access) : Prop where
  producer : Producer.Stands rounds k.producer p
  consumer : Consumer.Stands rounds k.consumer c
  balance : Balance Producer.manner Consumer.manner 1 0 k.box p c
  slot : k.box.slot = p.used
  in_turn : Alternates p.used c.used log

/-- The act is a turn of a side that can go on. -/
def Awake (k : Exchange) (p c : Tally) : Act → Prop
  | .produce => p.Able k.box
  | .consume => c.Able k.box.turned
  | _ => False

theorem play_append (rounds : Nat) (k : Exchange) (before after : List Act) :
    k.play rounds (before ++ after) = (k.play rounds before).play rounds after :=
  List.foldl_append

theorem awake_of_box {k k' : Exchange} {p c : Tally} {a : Act} (hbox : k'.box = k.box)
    (h : Awake k p c a) : Awake k' p c a := by
  cases a with
  | produce =>
      rw [Awake, hbox]
      exact h
  | consume =>
      rw [Awake, hbox]
      exact h
  | signalProducer => exact h
  | signalConsumer => exact h

namespace Kept

variable {rounds : Nat} {k : Exchange} {p c : Tally} {log : List Access}

/-- A side with a token that has not used the slot for it finds the slot as it should be:
    the producer finds a number that has been loaded, the consumer one that has not. -/
theorem used_of_taken (h : Kept rounds k p c log) :
    (p.used < p.taken → p.used = c.used) ∧ (c.used < c.taken → p.used = c.used + 1) := by
  have hfree := h.balance.free
  have hfilled := h.balance.filled
  have hp := h.producer.steady
  have hc := h.consumer.steady
  have hbefore := And.intro hp.used_le hp.posted_le
  have hbehind := And.intro hc.used_le hc.posted_le
  omega

theorem produce (h : Kept rounds k p c log) :
    ∃ p', Move Producer.manner k.box p (k.next rounds .produce).box p' (k.access .produce) ∧
      Kept rounds (k.next rounds .produce) p' c (log ++ k.access .produce) := by
  have hp := h.producer.steady
  have hc := h.consumer.steady
  rcases Producer.stands_move h.producer (h.balance.ready rfl hp hc) with ⟨p', hmove, hstands⟩
  refine ⟨p', hmove, hstands, h.consumer, h.balance.move rfl hp hc hmove, ?_, ?_⟩
  · rcases hmove.used_cases with ⟨hused, hslot, -⟩ | ⟨-, hused, hslot, -⟩
    · exact hslot.trans (hused ▸ h.slot)
    · exact hslot.trans hused.symm
  · rcases hmove.used_cases with ⟨hused, -, hnew⟩ | ⟨htaken, hused, -, hnew⟩
    · rw [hused, access, hnew, List.append_nil]
      exact h.in_turn
    · have heven := h.used_of_taken.1 htaken
      have hlog := h.in_turn
      rw [heven] at hlog
      rw [hused, access, hnew, heven]
      exact hlog.store

theorem consume (h : Kept rounds k p c log) :
    ∃ c', Move Consumer.manner k.box.turned c (k.next rounds .consume).box.turned c'
        (k.access .consume) ∧
      Kept rounds (k.next rounds .consume) p c' (log ++ k.access .consume) := by
  have hp := h.producer.steady
  have hc := h.consumer.steady
  have hturned := h.balance.turn
  rcases Consumer.stands_move h.consumer (hturned.ready rfl hc hp) with ⟨c', hmove, hstands⟩
  refine ⟨c', hmove, h.producer, hstands, (hturned.move rfl hc hp hmove).turn, ?_, ?_⟩
  · rcases hmove.used_cases with ⟨-, hslot, -⟩ | ⟨-, -, hslot, -⟩
    · exact hslot.trans h.slot
    · exact hslot.trans h.slot
  · rcases hmove.used_cases with ⟨hused, -, hnew⟩ | ⟨htaken, hused, -, hnew⟩
    · rw [hused, access, hnew, List.append_nil]
      exact h.in_turn
    · have hahead := h.used_of_taken.2 htaken
      have hlog := h.in_turn
      have hload : (Consumer.manner.use k.box.turned.slot (c.used + 1)).2 = .loaded (c.used + 1) :=
        congrArg Access.loaded (h.slot.trans hahead)
      rw [hahead] at hlog
      rw [hused, access, hnew, hload, hahead]
      exact hlog.load

/-- Nothing counts but the mailbox and the tallies of the places. -/
theorem of_box {k' : Exchange} (h : Kept rounds k p c log) (hbox : k'.box = k.box)
    (hproducer : Producer.Stands rounds k'.producer p)
    (hconsumer : Consumer.Stands rounds k'.consumer c) : Kept rounds k' p c log :=
  ⟨hproducer, hconsumer, hbox ▸ h.balance, hbox ▸ h.slot, h.in_turn⟩

/-- One act, whatever it is. It leads no side away from its end. A side that can go on comes
    closer to its end if it is its turn, and if not, it still can go on. -/
theorem next (h : Kept rounds k p c log) (a : Act) :
    ∃ p' c', Kept rounds (k.next rounds a) p' c' (log ++ k.access a) ∧
      p'.ahead + c'.ahead ≤ p.ahead + c.ahead ∧
      (Awake k p c a → p'.ahead + c'.ahead < p.ahead + c.ahead) ∧
      ∀ b, b ≠ a → Awake k p c b → Awake (k.next rounds a) p' c' b := by
  cases a with
  | produce =>
      rcases h.produce with ⟨p', hmove, hkept⟩
      refine ⟨p', c, hkept, Nat.add_le_add_right hmove.closer.1 _,
        fun hable => Nat.add_lt_add_right (hmove.closer.2 hable) _, fun b hb hable => ?_⟩
      cases b with
      | produce => exact absurd rfl hb
      | consume => exact ⟨hable.1, fun hasks => Nat.lt_of_lt_of_le (hable.2 hasks) hmove.full_le⟩
      | signalProducer => exact hable
      | signalConsumer => exact hable
  | consume =>
      rcases h.consume with ⟨c', hmove, hkept⟩
      refine ⟨p, c', hkept, Nat.add_le_add_left hmove.closer.1 _,
        fun hable => Nat.add_lt_add_left (hmove.closer.2 hable) _, fun b hb hable => ?_⟩
      cases b with
      | produce => exact ⟨hable.1, fun hasks => Nat.lt_of_lt_of_le (hable.2 hasks) hmove.full_le⟩
      | consume => exact absurd rfl hb
      | signalProducer => exact hable
      | signalConsumer => exact hable
  | signalProducer =>
      rcases Producer.stands_signal h.producer with ⟨hbox, hstands⟩
      have hnone : k.access .signalProducer = [] := rfl
      refine ⟨p, c, ?_, Nat.le_refl _, fun hable => hable.elim, fun b _ hable => ?_⟩
      · rw [hnone, List.append_nil]
        exact h.of_box hbox hstands h.consumer
      · exact awake_of_box hbox hable
  | signalConsumer =>
      rcases Consumer.stands_signal h.consumer with ⟨hbox, hstands⟩
      have hnone : k.access .signalConsumer = [] := rfl
      refine ⟨p, c, ?_, Nat.le_refl _, fun hable => hable.elim, fun b _ hable => ?_⟩
      · rw [hnone, List.append_nil]
        exact h.of_box hbox h.producer hstands
      · exact awake_of_box hbox hable

/-- A run keeps it, and leads no side away from its end. -/
theorem play (acts : List Act) (h : Kept rounds k p c log) :
    ∃ p' c', Kept rounds (k.play rounds acts) p' c' (log ++ k.accesses rounds acts) ∧
      p'.ahead + c'.ahead ≤ p.ahead + c.ahead := by
  induction acts generalizing k p c log with
  | nil =>
      rw [accesses, List.append_nil]
      exact ⟨p, c, h, Nat.le_refl _⟩
  | cons a acts ih =>
      rcases h.next a with ⟨p₁, c₁, hnext, hle, -, -⟩
      rcases ih hnext with ⟨p₂, c₂, hplay, hle'⟩
      rw [accesses, ← List.append_assoc]
      exact ⟨p₂, c₂, hplay, Nat.le_trans hle' hle⟩

/-- As long as somebody has not ended, somebody can go on. -/
theorem awake (h : Kept rounds k p c log) (hahead : 0 < p.ahead + c.ahead) :
    Awake k p c .produce ∨ Awake k p c .consume := by
  have hfree := h.balance.free
  have hfilled := h.balance.filled
  have hp := h.producer.steady
  have hc := h.consumer.steady
  rcases p.able_or k.box with hable | hpover | ⟨hpasks, hnofree⟩
  · exact Or.inl hable
  · rcases c.able_or k.box.turned with hable | hcover | ⟨hcasks, hnofilled⟩
    · exact Or.inr hable
    · omega
    · -- All numbers have been put down, and this one has not been taken.
      have hposted := (hp.arrived hpover).1
      have htaken := (hc.asks_even hcasks).2
      change k.box.full.value = 0 at hnofilled
      omega
  · have hpeven := hp.asks_even hpasks
    rcases c.able_or k.box.turned with hable | hcover | ⟨hcasks, hnofilled⟩
    · exact Or.inr hable
    · have hposted := (hc.arrived hcover).1
      omega
    · have hceven := hc.asks_even hcasks
      change k.box.full.value = 0 at hnofilled
      omega

/-- A part of a schedule in which a side that can go on gets a turn. -/
theorem nearer {a : Act} {acts : List Act} (h : Kept rounds k p c log) (hawake : Awake k p c a)
    (hmem : a ∈ acts) :
    ∃ p' c', Kept rounds (k.play rounds acts) p' c' (log ++ k.accesses rounds acts) ∧
      p'.ahead + c'.ahead < p.ahead + c.ahead := by
  induction acts generalizing k p c log with
  | nil => exact absurd hmem List.not_mem_nil
  | cons b acts ih =>
      rcases h.next b with ⟨p₁, c₁, hnext, hle, hlt, hothers⟩
      rw [accesses, ← List.append_assoc]
      by_cases hab : a = b
      · rcases hnext.play acts with ⟨p₂, c₂, hplay, hle'⟩
        exact ⟨p₂, c₂, hplay, Nat.lt_of_le_of_lt hle' (hlt (hab ▸ hawake))⟩
      · have hin : a ∈ acts := (List.mem_cons.mp hmem).resolve_left hab
        rcases ih hnext (hothers a hab hawake) hin with ⟨p₂, c₂, hplay, hlt'⟩
        exact ⟨p₂, c₂, hplay, Nat.lt_of_lt_of_le hlt' hle⟩

/-- Parts of a schedule in which both sides get a turn, as many as there are steps to the ends
    of both. -/
theorem fair (segments : List (List Act)) (h : Kept rounds k p c log)
    (hturns : ∀ acts ∈ segments, .produce ∈ acts ∧ .consume ∈ acts)
    (hlength : p.ahead + c.ahead ≤ segments.length) :
    (k.play rounds segments.flatten).Finished := by
  induction segments generalizing k p c log with
  | nil =>
      have hzero : p.ahead = 0 ∧ c.ahead = 0 := Nat.add_eq_zero_iff.mp (Nat.le_zero.mp hlength)
      exact ⟨h.producer.ahead_eq_zero hzero.1, h.consumer.ahead_eq_zero hzero.2⟩
  | cons acts segments ih =>
      have hrest := fun acts' hmem => hturns acts' (List.mem_cons_of_mem acts hmem)
      have hboth := hturns acts List.mem_cons_self
      have hcloser : ∃ p' c' log', Kept rounds (k.play rounds acts) p' c' log' ∧
          p'.ahead + c'.ahead ≤ segments.length := by
        rw [List.length_cons] at hlength
        rcases Nat.eq_zero_or_pos (p.ahead + c.ahead) with hzero | hpos
        · rcases h.play acts with ⟨p', c', hplay, hle⟩
          exact ⟨p', c', _, hplay, by omega⟩
        · rcases h.awake hpos with hawake | hawake
          · rcases h.nearer hawake hboth.1 with ⟨p', c', hplay, hlt⟩
            exact ⟨p', c', _, hplay, by omega⟩
          · rcases h.nearer hawake hboth.2 with ⟨p', c', hplay, hlt⟩
            exact ⟨p', c', _, hplay, by omega⟩
      rcases hcloser with ⟨p', c', log', hkept, hle⟩
      rw [List.flatten_cons, play_append]
      exact ih hkept hrest hle

end Kept

/-- What there is to be said of a mailbox and of how its slot has been used. -/
structure Orderly (rounds : Nat) (k : Exchange) (log : List Access) : Prop where
  /-- Nothing is put into the slot before the last number has been found there, and nothing is
      found there twice. -/
  in_turn : log <+: handed rounds
  /-- The slot is changed in no other way. -/
  slot_eq : k.box.slot = log.foldl Access.after 0
  tokens_le : k.box.empty.value + k.box.full.value ≤ 1
  produced_le : k.box.produced ≤ rounds
  consumed_le : k.box.consumed ≤ rounds
  /-- Nobody has ended with an error. -/
  producer_ok : ∀ r, k.producer = .inr r → r = .ok ()
  consumer_ok : ∀ r, k.consumer = .inr r → r = .ok ()
  /-- At the end the counters are right, the slot is free and the consumer has found all
      numbers. -/
  finished : k.Finished → k.box.produced = rounds ∧ k.box.consumed = rounds ∧
    k.box.full = ⟨0⟩ ∧ k.box.empty = ⟨1⟩ ∧ log = handed rounds ∧
    log.filterMap Access.loaded? = List.range' 1 rounds

theorem Kept.orderly {rounds : Nat} {k : Exchange} {p c : Tally} {log : List Access}
    (h : Kept rounds k p c log) : Orderly rounds k log := by
  have hp := h.producer.steady
  have hc := h.consumer.steady
  have hused : p.used ≤ rounds := Nat.le_trans hp.used_le hp.taken_le
  refine ⟨h.in_turn.log_within hused, h.slot.trans h.in_turn.log_after.symm, ?_, ?_, ?_,
    fun r hr => ?_, fun r hr => ?_, fun hfinished => ?_⟩
  · have hfree := h.balance.free
    have hfilled := h.balance.filled
    have hbefore := Nat.le_trans hp.posted_le hp.used_le
    have hbehind := Nat.le_trans hc.posted_le hc.used_le
    omega
  · exact Nat.le_trans (Nat.le_of_eq h.balance.produced) (Nat.le_trans hp.counted_le hused)
  · exact Nat.le_trans (Nat.le_of_eq h.balance.consumed)
      (Nat.le_trans hc.counted_le (Nat.le_trans hc.used_le hc.taken_le))
  · exact (Producer.Stands.of_ended (hr ▸ h.producer)).1
  · exact (Consumer.Stands.of_ended (hr ▸ h.consumer)).1
  · have hpended := (Producer.Stands.of_ended (hfinished.1 ▸ h.producer)).2
    have hcended := (Consumer.Stands.of_ended (hfinished.2 ▸ h.consumer)).2
    rw [hpended, hcended] at h
    have hfree : k.box.empty.value + rounds = 1 + rounds := h.balance.free
    have hfilled : k.box.full.value + rounds = 0 + rounds := h.balance.filled
    have hlog : log = handed rounds := h.in_turn.log_eq
    refine ⟨h.balance.produced, h.balance.consumed, ?_, ?_, hlog, hlog ▸ handed_loaded rounds⟩
    · exact congrArg Semaphore.mk (Nat.add_right_cancel hfilled)
    · exact congrArg Semaphore.mk (Nat.add_right_cancel hfree)

/-- A plain word makes a plain mutex that nobody holds. -/
theorem create_plain :
    ∃ lock, Mutex.create SyncAttr.plain = .ok lock ∧ lock.raw.Plain ∧ lock.raw.holder = none :=
  ⟨_, rfl, ⟨rfl, rfl, rfl, rfl⟩, rfl⟩

theorem kept_start {lock : Mutex} (rounds : Nat) (hplain : lock.raw.Plain)
    (hfree : lock.raw.holder = none) :
    ∃ p c, Kept rounds (start lock rounds) p c [] ∧ p.ahead + c.ahead ≤ turns rounds := by
  have hbegun : (0 : Nat) + rounds = rounds := Nat.zero_add rounds
  refine ⟨_, _, ⟨.waiting 0 rounds .asking hbegun (Or.inl rfl),
    .waiting 0 rounds .asking hbegun (Or.inl rfl), ?_, rfl, .emptied 0⟩, ?_⟩
  · exact ⟨rfl, rfl, rfl, rfl, hplain, Bool.noConfusion, Bool.noConfusion, fun _ _ => hfree⟩
  · rw [turns]
    change 8 * rounds + 1 + (7 * rounds + 1) ≤ _
    omega

/-- The turns that the program gives its sides are enough for any number of rounds. -/
theorem alternating_finished {lock : Mutex} (rounds : Nat) (hplain : lock.raw.Plain)
    (hfree : lock.raw.holder = none) :
    ((start lock rounds).play rounds (alternating (turns rounds))).Finished := by
  have hturns : ∀ n, alternating n = (List.replicate n [.produce, .consume]).flatten := by
    intro n
    induction n with
    | zero => rfl
    | succ n ih =>
        rw [alternating, ih, List.replicate_succ, List.flatten_cons]
        rfl
  rcases kept_start rounds hplain hfree with ⟨p, c, hkept, hahead⟩
  rw [hturns]
  refine hkept.fair _ (fun acts hmem => ?_) (by rwa [List.length_replicate])
  rw [List.eq_of_mem_replicate hmem]
  exact ⟨List.mem_cons_self, List.mem_cons_of_mem _ List.mem_cons_self⟩

/-- The program prints what its sides have printed, and the counters. -/
theorem run_eq {lock : Mutex} {k : Exchange} (hcreate : Mutex.create SyncAttr.plain = .ok lock)
    (hk : (start lock Mailbox.rounds).play Mailbox.rounds (alternating (turns Mailbox.rounds)) = k)
    (hfinished : k.Finished) :
    run = .success (text ("Producer-Consumer Demo" :: k.box.lines ++ [k.box.summary])) := by
  unfold run
  split
  next e he =>
    exact absurd (hcreate.symm.trans he) (by simp only [reduceCtorEq, not_false_eq_true])
  next lock' hlock =>
    obtain rfl : lock = lock' := Except.ok.inj (hcreate.symm.trans hlock)
    simp only [hk, hfinished.1, hfinished.2, answer]

/-- The program ends well and has handed over all its numbers. -/
theorem run_success :
    ∃ lines, run = .success (text ("Producer-Consumer Demo" :: lines ++
      ["produced " ++ toString Mailbox.rounds ++ ", consumed " ++ toString Mailbox.rounds])) := by
  rcases create_plain with ⟨lock, hcreate, hplain, hfree⟩
  have hfinished := alternating_finished Mailbox.rounds hplain hfree
  rcases kept_start Mailbox.rounds hplain hfree with ⟨p, c, hstart, -⟩
  rcases hstart.play (alternating (turns Mailbox.rounds)) with ⟨p', c', hkept, -⟩
  have hover := hkept.orderly.finished hfinished
  have hrun := run_eq hcreate rfl hfinished
  rw [summary, hover.1, hover.2.1] at hrun
  exact ⟨_, hrun⟩

/-- With any number of rounds, whoever gets the turns and whenever signals arrive: the mailbox
    is in order, so that each number is found in the slot once and before the next one is put
    there, and no error comes up. From there on it takes no more than a known number of parts of a
    schedule in which both sides get a turn until both have ended, with whatever signals
    and other turns in between, so nobody is stuck. -/
theorem orderly_and_live (rounds : Nat) :
    ∃ lock, Mutex.create SyncAttr.plain = .ok lock ∧ ∀ acts,
      Orderly rounds ((start lock rounds).play rounds acts)
          ((start lock rounds).accesses rounds acts) ∧
        ∀ segments : List (List Act), turns rounds ≤ segments.length →
          (∀ part ∈ segments, .produce ∈ part ∧ .consume ∈ part) →
            (((start lock rounds).play rounds acts).play rounds segments.flatten).Finished := by
  rcases create_plain with ⟨lock, hcreate, hplain, hfree⟩
  rcases kept_start rounds hplain hfree with ⟨p, c, hstart, hahead⟩
  refine ⟨lock, hcreate, fun acts => ?_⟩
  rcases hstart.play acts with ⟨p', c', hkept, hle⟩
  refine ⟨hkept.orderly, fun segments hlength hturns => hkept.fair segments hturns ?_⟩
  exact Nat.le_trans hle (Nat.le_trans hahead hlength)

/-- The consumer comes first and sleeps, and from then on every turn comes after a signal. -/
theorem orderly_and_live_interrupted :
    (∀ part ∈ List.replicate (turns 2) [.signalConsumer, .consume, .signalProducer, .produce],
      Act.produce ∈ part ∧ Act.consume ∈ part) ∧
      ∃ lock, Mutex.create SyncAttr.plain = .ok lock ∧
        Orderly 2 ((start lock 2).play 2 [.consume, .produce])
          ((start lock 2).accesses 2 [.consume, .produce]) ∧
        (((start lock 2).play 2 [.consume, .produce]).play 2 (List.replicate (turns 2)
          [.signalConsumer, .consume, .signalProducer, .produce]).flatten).Finished := by
  have hturns : ∀ part ∈ List.replicate (turns 2)
      [.signalConsumer, .consume, .signalProducer, .produce],
      Act.produce ∈ part ∧ Act.consume ∈ part := by
    intro part hmem
    rw [List.eq_of_mem_replicate hmem]
    decide
  rcases orderly_and_live 2 with ⟨lock, hcreate, hruns⟩
  rcases hruns [.consume, .produce] with ⟨horderly, hlive⟩
  exact ⟨hturns, lock, hcreate, horderly,
    hlive _ (Nat.le_of_eq List.length_replicate.symm) hturns⟩

end Exchange

end Demo

end HostLayer
