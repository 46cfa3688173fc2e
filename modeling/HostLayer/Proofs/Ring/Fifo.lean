import HostLayer.Proofs.Ring.Ledger

/-!
# Ring Queues

A ring is a bounded queue that drops its oldest message.

The changes that parties make under the lock are compared with a ledger, which
is such a queue by definition. `Shows` is the relation between the two: the
indices are in range, and the messages in the ring are what a reader finds of
the messages in the queue. Each change keeps it, and so does every step that is
no change, in whatever order the parties move; then it holds after every run
that began with a new ring (`traffic_refines_queue`).

Strangers are left out here. A stranger who stores an index makes messages go
that no writer has pushed out.

## Main definitions

* `Ring.Shows`: A memory shows the queue of a ledger.

## Theorems

* `Ring.shows_insert`, `Ring.shows_remove`: The two changes.
* `Ring.shows_callStep`, `Ring.shows_step`: A step of a call, and any act.
* `Ring.traffic_refines_queue`: Every run of a ring is one of a queue.
-/

namespace HostLayer

namespace Ring

/-- The memory shows the queue: its indices are in range, and its messages are
    what is kept of the entries. -/
def Shows (g : Geometry) (m : Memory) (l : Ledger) : Prop :=
  (∃ i, indices? g m = some i) ∧ pending g m = l.queue.map fun e => kept g e.1

-- What shows a queue has as many messages, at most all slots but one.
theorem Shows.length_eq {g : Geometry} {m : Memory} {l : Ledger} (h : Shows g m l)
    (hg : g.InRange) : ∃ read write, indices? g m = some (read, write) ∧
      l.queue.length = (write + g.slots - read) % g.slots ∧ l.queue.length ≤ g.slots - 1 := by
  rcases h.1 with ⟨⟨read, write⟩, hi⟩
  have hlen : (pending g m).length = l.queue.length := by rw [h.2, List.length_map]
  have hlt := length_pending_lt g m (by have := hg.1; omega)
  refine ⟨read, write, hi, ?_, by omega⟩
  rw [← hlen, pending_of_indices g m read write hi, length_texts]
  rfl

/-- A message that is inserted is entered as written. -/
theorem shows_insert (g : Geometry) (hg : g.InRange) (m : Memory) (l : Ledger)
    (msg : List UInt8) (h : Shows g m l) :
    ∃ l', l.record g (.stored msg) = some l' ∧ Shows g (insert g m msg).1 l' := by
  refine ⟨_, rfl, indices?_insert g hg m msg, ?_⟩
  rw [pending_insert g hg, h.2, makeRoom_map, List.map_append]
  rfl

/-- What a reader finds is what the ledger has as its oldest entry. -/
theorem shows_remove (g : Geometry) (hg : g.InRange) (m : Memory) (l : Ledger) (room : Nat)
    (h : Shows g m l) :
    ∃ l', l.record g (.looked room ((remove g m).2.1.map (List.take room))) = some l' ∧
      Shows g (remove g m).1 l' := by
  rcases pending_remove g hg m with ⟨htail, hhead, _⟩
  have hi := indices?_remove g hg m
  rw [h.2] at htail hhead
  -- The two queues are empty together.
  cases hq : l.queue with
  | nil =>
      rw [hq, List.map_nil, List.head?_nil] at hhead
      rw [hq, List.map_nil, List.tail_nil] at htail
      refine ⟨l, ?_, hi, by rw [htail, hq]; rfl⟩
      simp only [Ledger.record, hq, hhead, Option.map_none, if_true]
  | cons e rest =>
      rw [hq, List.map_cons, List.head?_cons] at hhead
      rw [hq, List.map_cons, List.tail_cons] at htail
      refine ⟨{ l with queue := rest, taken := l.taken ++ [e] }, ?_, hi, htail⟩
      simp only [Ledger.record, hq, hhead, Option.map_some, if_true]

-- Tokens are kept beside the messages.
theorem shows_setTokens (g : Geometry) (m : Memory) (l : Ledger) (s : Semaphore)
    (h : Shows g m l) : Shows g (setTokens m s) l := by
  have hsame := pending_setTokens g m s
  exact ⟨by rw [hsame.1]; exact h.1, by rw [hsame.2]; exact h.2⟩

/-- A step of a call is entered as what is seen of it. -/
theorem shows_callStep (g : Geometry) (hg : g.InRange) (source : ClockSource) (clock : Clock)
    (m m' : Memory) (c : Call) (c' : Option Call) (es : List Sight) (l : Ledger)
    (h : Shows g m l) (hc : callStep g source clock m c = some (m', c', es)) :
    ∃ l', es.foldlM (Ledger.record g) l = some l' ∧ Shows g m' l' := by
  have hone : ∀ e l', l.record g e = some l' →
      List.foldlM (Ledger.record g) l [e] = some l' := by
    intro e l' he
    simp only [List.foldlM_cons, List.foldlM_nil, he]
    rfl
  rcases callStep_cases g source clock m m' c c' es hc with
    ⟨msg, _, rfl, _, rfl⟩ | ⟨_, _, _, rfl, _, rfl⟩ | ⟨_, _, rfl, _, rfl⟩ |
      ⟨_, _, _, n, _, _, rfl, _, rfl⟩ | ⟨_, _, _, _, rfl, _, rfl⟩ | ⟨room, _, _, rfl, _, rfl⟩
  · rcases shows_insert g hg m l msg h with ⟨l', hl', hs⟩
    exact ⟨l', hone _ l' hl', hs⟩
  · exact ⟨l, rfl, shows_setTokens g m l _ h⟩
  · exact ⟨l, hone .unwoken l rfl, h⟩
  · exact ⟨l, rfl, shows_setTokens g m l ⟨n⟩ h⟩
  · exact ⟨l, rfl, h⟩
  · rcases shows_remove g hg m l room h with ⟨l', hl', hs⟩
    exact ⟨l', hone _ l' hl', hs⟩

/-- Any act of the parties is entered as what is seen of it. -/
theorem shows_step (g : Geometry) (hg : g.InRange) (s s' : Traffic) (a : Act) (es : List Sight)
    (l : Ledger) (hp : a.OfParties) (hagreed : s.Agreed g) (h : Shows g s.memory l)
    (hs : s.step a = some (s', es)) :
    ∃ l', es.foldlM (Ledger.record g) l = some l' ∧ Shows g s'.memory l' := by
  rcases Traffic.step_cases s s' a es hs with
    ⟨_, _, _, _, rfl, rfl⟩ | ⟨_, _, _, _, rfl, _, _, rfl⟩ |
      ⟨i, source, clock, g', c, m', c', _, hi, hc, rfl⟩ | ⟨_, _, rfl, _⟩
  · exact ⟨l, rfl, h⟩
  · exact ⟨l, rfl, h⟩
  · have hgeo : g' = g := hagreed.geometry_eq _ (List.mem_of_getElem? hi)
    rw [hgeo] at hc
    exact shows_callStep g hg source clock s.memory m' c c' es l h hc
  · exact absurd hp (fun hf => hf)

/-- A ring is a bounded queue that drops its oldest message.

    After every run of any number of parties at a new ring there is a queue
    that has seen what was seen of the run. The ring holds just its entries, as
    many as the indices say and never as many as there are slots. A change
    under the lock does to the ring what is done to a queue: a message that is
    written comes last, in place of the oldest if all slots but one are taken,
    and a message that is taken is the oldest, while nothing is found and no
    index moves just when there is none. Its books say what became of every
    message: those that are taken are some of those written, in the same order
    and none of them twice, and those that are gone without having been taken
    were each the oldest of as many as the ring can hold when another one was
    written. -/
theorem traffic_refines_queue (g : Geometry) (hg : g.Valid) (m : Memory) (acts : List Act)
    (hacts : ∀ a ∈ acts, a.OfParties) (s : Traffic) (es : List Sight)
    (h : Schedule.play Traffic.step (Traffic.fresh g m) acts = some (s, es)) :
    ∃ l : Ledger, l.Accounts g es ∧
      (∀ p ∈ s.parties, p.geometry = g) ∧
      pending g s.memory = l.queue.map (fun e => kept g e.1) ∧
      (∃ read write, indices? g s.memory = some (read, write) ∧
        l.queue.length = (write + g.slots - read) % g.slots ∧ l.queue.length ≤ g.slots - 1) ∧
      (∀ msg, pending g (insert g s.memory msg).1
        = (if l.queue.length = g.slots - 1 then (pending g s.memory).tail
            else pending g s.memory) ++ [kept g msg]) ∧
      pending g (remove g s.memory).1 = (pending g s.memory).tail ∧
      (remove g s.memory).2.1 = (pending g s.memory).head? ∧
      ((remove g s.memory).2.1 = none ↔ l.queue = []) ∧
      (indices? g (remove g s.memory).1 = indices? g s.memory ↔ l.queue = []) ∧
      (l.taken.map Prod.fst).Sublist l.written ∧ l.taken.Nodup := by
  have hfresh : Shows g (Traffic.fresh g m).memory Ledger.empty :=
    ⟨⟨_, indices?_header m g hg⟩, pending_header m g hg⟩
  -- The ledger follows the run, one thing seen after the other.
  have hrun := Schedule.play_simulates Traffic.step Act.OfParties
    (fun s l => s.Agreed g ∧ Shows g s.memory l)
    (fun l es l' => es.foldlM (Ledger.record g) l = some l')
    (fun l => rfl)
    (fun t u v es fs h1 h2 => by rw [List.foldlM_append, h1]; exact h2)
    (fun s l a s' es hR hP hstep => by
      rcases shows_step g hg.1 s s' a es l hP hR.1 hR.2 hstep with ⟨l', hl', hs'⟩
      exact ⟨l', hl', Traffic.step_agreed g s s' a es hR.1 hstep, hs'⟩)
    acts (Traffic.fresh g m) s Ledger.empty es ⟨Traffic.fresh_agreed g m hg, hfresh⟩ hacts h
  rcases hrun with ⟨l, hreplay, hagreed, hshows⟩
  -- The rest is what one more change does to a ring that shows a ledger.
  have haccounts := Ledger.replay_accounts g es l hreplay
  have hlen : (pending g s.memory).length = l.queue.length := by
    rw [hshows.2, List.length_map]
  have hempty : pending g s.memory = [] ↔ l.queue = [] := by
    rw [hshows.2, List.map_eq_nil_iff]
  rcases pending_remove g hg.1 s.memory with ⟨htail, hhead, hindices⟩
  rcases hshows.1 with ⟨i, hi⟩
  refine ⟨l, haccounts, hagreed.geometry_eq, hshows.2, hshows.length_eq hg.1, fun msg => ?_, htail,
    hhead, ?_, ?_, haccounts.taken_sublist, haccounts.taken_nodup⟩
  · rw [pending_insert g hg.1, ← hlen]
    rfl
  · rw [hhead, List.head?_eq_none_iff, hempty]
  · rw [hi, hindices i hi, hempty]

-- Two parties at a ring of two slots: the second message pushes out the first,
-- and the reader finds what a slot keeps of it.
theorem traffic_refines_queue_two_slots :
    ∃ s es, Schedule.play Traffic.step (Traffic.fresh ⟨2, 4⟩ (Memory.zeros 120))
        [.join 120, .write 0 [1], .write 1 [2, 3, 4, 5], .move 0 .realtime ⟨0, 0⟩,
          .move 1 .realtime ⟨0, 0⟩, .move 1 .realtime ⟨0, 0⟩, .read 1 10 none,
          .move 1 .realtime ⟨0, 0⟩, .move 1 .realtime ⟨0, 0⟩] = some (s, es) ∧
      es = [.stored [1], .stored [2, 3, 4, 5], .looked 10 (some [2, 3, 4])] ∧
      ∃ l : Ledger, l.Accounts ⟨2, 4⟩ es ∧ pending ⟨2, 4⟩ s.memory
        = l.queue.map (fun e => kept ⟨2, 4⟩ e.1) := by
  have hrun : (Schedule.play Traffic.step (Traffic.fresh ⟨2, 4⟩ (Memory.zeros 120))
      [.join 120, .write 0 [1], .write 1 [2, 3, 4, 5], .move 0 .realtime ⟨0, 0⟩,
        .move 1 .realtime ⟨0, 0⟩, .move 1 .realtime ⟨0, 0⟩, .read 1 10 none,
        .move 1 .realtime ⟨0, 0⟩, .move 1 .realtime ⟨0, 0⟩]).map Prod.snd
      = some [.stored [1], .stored [2, 3, 4, 5], .looked 10 (some [2, 3, 4])] := by
    decide +kernel
  rcases Option.map_eq_some_iff.mp hrun with ⟨⟨s, es⟩, hplay, hes⟩
  rcases traffic_refines_queue ⟨2, 4⟩ (by decide) (Memory.zeros 120) _
    (by simp [Act.OfParties]) s es hplay with ⟨l, hl, _, hp, _⟩
  exact ⟨s, es, hplay, hes, l, hl, hp⟩

end Ring

end HostLayer
