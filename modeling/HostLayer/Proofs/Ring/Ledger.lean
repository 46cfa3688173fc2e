import HostLayer.Proofs.Ring.Traffic
import Mathlib.Data.List.Forall2
import Mathlib.Data.List.Nodup

/-!
# Ring Ledgers

A bounded queue that drops its oldest entry, and the books it keeps.

The ledger is what a ring should be. It knows nothing of slots and indices: it
has a queue, puts what is written behind the others, lets the oldest go if
there are too many, and hands out the oldest to whoever looks. Every message
gets the number of messages written before it, so that two messages of the same
text are still two entries, and every entry is booked as pending, taken or
dropped.

`record` is what the ledger makes of one thing seen. It refuses a reader who
has found something else than the oldest message, or nothing although there is
one, or something although there is none. So the existence of a ledger for
what has been seen of a run is already the statement that readers and writers
saw a queue, and `Accounts` says what follows for the books.

## Main definitions

* `Ring.Ledger`: A queue and its books.
* `Ring.Ledger.record`, `Ring.Ledger.replay`: What is seen, entered.
* `Ring.Ledger.Accounts`: The books are in order.

## Theorems

* `Ring.Ledger.pushedOut_append_makeRoom`: Nothing is lost in making room.
* `Ring.Ledger.stored_accounts`, `Ring.Ledger.looked_accounts`: The books after
  a message is written or looked for.
* `Ring.Ledger.record_accounts`: An entry keeps the books in order.
* `Ring.Ledger.replay_accounts`: The books of a ledger are in order.
* `Ring.Ledger.Accounts.taken_nodup`, `Ring.Ledger.Accounts.taken_sublist`:
  Nothing is handed out twice or out of order.
-/

namespace HostLayer

namespace Ring

/-- The message that is seen to be stored, if one is. -/
def Sight.message? : Sight → Option (List UInt8)
  | .stored msg => some msg
  | _ => none

/-- The text that a reader is seen to find, with the room that it has, if it
    finds one. -/
def Sight.found? : Sight → Option (Nat × List UInt8)
  | .looked room (some text) => some (room, text)
  | _ => none

/-- A queue of messages and what has become of all others. Each message has
    the number of messages written before it. -/
structure Ledger where
  written : List (List UInt8)
  queue : List (List UInt8 × Nat)
  taken : List (List UInt8 × Nat)
  dropped : List (List UInt8 × Nat)

namespace Ledger

/-- Nothing has been written. -/
def empty : Ledger := ⟨[], [], [], []⟩

/-- The entry that has to go to make room for another one, if one has to. -/
def pushedOut {α : Type} (capacity : Nat) (q : List α) : List α :=
  if q.length = capacity then q.take 1 else []

/-- What the ledger makes of one thing seen, if that is what a queue shows. -/
def record (g : Geometry) (l : Ledger) : Sight → Option Ledger
  | .stored msg => some
      { l with
        written := l.written ++ [msg]
        queue := makeRoom (g.slots - 1) l.queue ++ [(msg, l.written.length)]
        dropped := l.dropped ++ pushedOut (g.slots - 1) l.queue }
  | .looked room found =>
      match l.queue with
      | [] => if found = none then some l else none
      | e :: rest =>
          if found = some ((kept g e.1).take room) then
            some { l with queue := rest, taken := l.taken ++ [e] }
          else none
  | .unwoken => some l

/-- The ledger after everything that has been seen, from the beginning. -/
def replay (g : Geometry) (es : List Sight) : Option Ledger :=
  es.foldlM (record g) empty

/-- The books are in order: the ledger is that of what has been seen, all
    messages are booked once, those that are taken or pending in the order in
    which they were written, each reader has found the message booked for it,
    and a message was dropped only when it was the oldest of as many as the
    ring can hold and another one was written. -/
structure Accounts (g : Geometry) (es : List Sight) (l : Ledger) : Prop where
  replayed : replay g es = some l
  written_eq : l.written = es.filterMap Sight.message?
  found_taken : List.Forall₂ (fun found e => found.2 = (kept g e.1).take found.1)
    (es.filterMap Sight.found?) l.taken
  in_order : (l.taken ++ l.queue).Sublist l.written.zipIdx
  all_booked : (l.taken ++ l.dropped ++ l.queue).Perm l.written.zipIdx
  dropped_oldest : ∀ e ∈ l.dropped, ∃ before msg after l' rest,
    es = before ++ .stored msg :: after ∧ replay g before = some l' ∧
      l'.queue = e :: rest ∧ l'.queue.length = g.slots - 1

theorem pushedOut_append_makeRoom {α : Type} (capacity : Nat) (q : List α) :
    pushedOut capacity q ++ makeRoom capacity q = q := by
  unfold pushedOut makeRoom
  by_cases h : q.length = capacity
  · rw [if_pos h, if_pos h, ← List.drop_one, List.take_append_drop]
  · rw [if_neg h, if_neg h, List.nil_append]

-- An entry is pushed out only of a queue that is full, as the oldest.
theorem mem_pushedOut {α : Type} (capacity : Nat) (q : List α) (e : α)
    (h : e ∈ pushedOut capacity q) : q.length = capacity ∧ ∃ rest, q = e :: rest := by
  unfold pushedOut at h
  by_cases hq : q.length = capacity
  · rw [if_pos hq] at h
    cases q with
    | nil => exact absurd h List.not_mem_nil
    | cons a rest =>
        rw [List.take_succ_cons, List.take_zero, List.mem_singleton] at h
        exact ⟨hq, rest, by rw [h]⟩
  · rw [if_neg hq] at h
    exact absurd h List.not_mem_nil

theorem replay_append (g : Geometry) (es : List Sight) (e : Sight) (l : Ledger)
    (h : replay g es = some l) : replay g (es ++ [e]) = record g l e := by
  unfold replay at h ⊢
  rw [List.foldlM_append, h]
  simp only [Option.bind_eq_bind, Option.bind_some, List.foldlM_cons, List.foldlM_nil]
  cases record g l e <;> rfl

theorem empty_accounts (g : Geometry) : Accounts g [] empty where
  replayed := rfl
  written_eq := rfl
  found_taken := List.Forall₂.nil
  in_order := List.Sublist.refl []
  all_booked := List.Perm.refl []
  dropped_oldest := fun _ h => absurd h List.not_mem_nil

-- Room is made at the front only.
theorem makeRoom_sublist {α : Type} (capacity : Nat) (q : List α) :
    (makeRoom capacity q).Sublist q := by
  unfold makeRoom
  by_cases h : q.length = capacity
  · rw [if_pos h]
    exact List.tail_sublist q
  · rw [if_neg h]

-- A reason for dropping an entry stays one whatever is seen later.
theorem Accounts.dropped_oldest_append {g : Geometry} {es : List Sight} {l : Ledger}
    (h : Accounts g es l) (later : List Sight) (e : List UInt8 × Nat) (he : e ∈ l.dropped) :
    ∃ before msg after l' rest, es ++ later = before ++ .stored msg :: after ∧
      replay g before = some l' ∧ l'.queue = e :: rest ∧ l'.queue.length = g.slots - 1 := by
  rcases h.dropped_oldest e he with ⟨before, msg, after, l', rest, rfl, hb, hq, hlen⟩
  exact ⟨before, msg, after ++ later, l', rest,
    by rw [List.append_assoc, List.cons_append], hb, hq, hlen⟩

/-- A message that is written is the last entry, and whatever it pushes out was
    the first. -/
theorem stored_accounts (g : Geometry) (es : List Sight) (l l' : Ledger) (msg : List UInt8)
    (h : Accounts g es l) (hr : record g l (.stored msg) = some l') :
    Accounts g (es ++ [.stored msg]) l' := by
  have hreplay := replay_append g es (.stored msg) l h.replayed
  rw [hr] at hreplay
  simp only [record, Option.some.injEq] at hr
  subst hr
  have hidx : (l.written ++ [msg]).zipIdx = l.written.zipIdx ++ [(msg, l.written.length)] := by
    rw [List.zipIdx_append, Nat.zero_add, List.zipIdx_singleton]
  refine ⟨hreplay, ?_, ?_, ?_, ?_, ?_⟩
  · rw [List.filterMap_append, ← h.written_eq]
    rfl
  · rw [List.filterMap_append]
    exact (List.append_nil (es.filterMap Sight.found?)).symm ▸ h.found_taken
  · rw [hidx, ← List.append_assoc]
    refine List.Sublist.append ?_ (List.Sublist.refl _)
    exact (List.Sublist.append (List.Sublist.refl _) (makeRoom_sublist _ _)).trans h.in_order
  · rw [hidx]
    -- What is pushed out moves from the queue to the dropped, nothing else.
    have hsplit : l.taken ++ (l.dropped ++ pushedOut (g.slots - 1) l.queue)
        ++ (makeRoom (g.slots - 1) l.queue ++ [(msg, l.written.length)])
        = (l.taken ++ l.dropped ++ l.queue) ++ [(msg, l.written.length)] := by
      conv_rhs => rw [← pushedOut_append_makeRoom (g.slots - 1) l.queue]
      simp only [List.append_assoc]
    rw [hsplit]
    exact h.all_booked.append_right _
  · intro e he
    rcases List.mem_append.mp he with he | he
    · exact h.dropped_oldest_append [.stored msg] e he
    · rcases mem_pushedOut _ _ e he with ⟨hlen, rest, hq⟩
      exact ⟨es, msg, [], l, rest, rfl, h.replayed, hq, hlen⟩

/-- A reader that looks takes the first entry, or there is none. -/
theorem looked_accounts (g : Geometry) (es : List Sight) (l l' : Ledger) (room : Nat)
    (found : Option (List UInt8)) (h : Accounts g es l)
    (hr : record g l (.looked room found) = some l') :
    Accounts g (es ++ [.looked room found]) l' := by
  have hreplay := replay_append g es (.looked room found) l h.replayed
  rw [hr] at hreplay
  have hwritten : (es ++ [Sight.looked room found]).filterMap Sight.message? = l.written := by
    rw [List.filterMap_append, ← h.written_eq]
    exact List.append_nil _
  have hdropped := h.dropped_oldest_append [.looked room found]
  cases hq : l.queue with
  | nil =>
      simp only [record, hq] at hr
      by_cases hf : found = none
      · rw [if_pos hf, Option.some.injEq] at hr
        subst hr hf
        refine ⟨hreplay, hwritten.symm, ?_, h.in_order, h.all_booked, hdropped⟩
        rw [List.filterMap_append]
        exact (List.append_nil (es.filterMap Sight.found?)).symm ▸ h.found_taken
      · rw [if_neg hf] at hr
        exact absurd hr (by simp only [reduceCtorEq, not_false_eq_true])
  | cons e rest =>
      simp only [record, hq] at hr
      by_cases hf : found = some ((kept g e.1).take room)
      · rw [if_pos hf, Option.some.injEq] at hr
        subst hr hf
        refine ⟨hreplay, hwritten.symm, ?_, ?_, ?_, hdropped⟩
        · rw [List.filterMap_append]
          exact List.rel_append h.found_taken (List.Forall₂.cons rfl List.Forall₂.nil)
        · have horder := h.in_order
          rw [hq] at horder
          rw [List.append_assoc, List.singleton_append]
          exact horder
        · -- The entry moves from the pending to the taken, past the dropped.
          have hbooked := h.all_booked
          rw [hq] at hbooked
          refine List.Perm.trans ?_ hbooked
          rw [List.append_assoc, List.append_assoc, List.append_assoc, List.singleton_append]
          exact (List.perm_middle.symm).append_left l.taken
      · rw [if_neg hf] at hr
        exact absurd hr (by simp only [reduceCtorEq, not_false_eq_true])

-- A token that was not put down is none of the ledger's business.
theorem unwoken_accounts (g : Geometry) (es : List Sight) (l : Ledger) (h : Accounts g es l) :
    Accounts g (es ++ [.unwoken]) l := by
  have hnone : ∀ {β : Type} (f : Sight → Option β), f .unwoken = none →
      (es ++ [Sight.unwoken]).filterMap f = es.filterMap f := by
    intro β f hf
    rw [List.filterMap_append, List.filterMap_cons_none hf, List.filterMap_nil, List.append_nil]
  refine ⟨replay_append g es .unwoken l h.replayed, ?_, ?_, h.in_order, h.all_booked,
    h.dropped_oldest_append [.unwoken]⟩
  · rw [hnone _ rfl]
    exact h.written_eq
  · rw [hnone _ rfl]
    exact h.found_taken

/-- Whatever is entered, the books stay in order. -/
theorem record_accounts (g : Geometry) (es : List Sight) (e : Sight) (l l' : Ledger)
    (h : Accounts g es l) (hr : record g l e = some l') : Accounts g (es ++ [e]) l' := by
  cases e with
  | stored msg => exact stored_accounts g es l l' msg h hr
  | looked room found => exact looked_accounts g es l l' room found h hr
  | unwoken =>
      rw [← Option.some.inj hr]
      exact unwoken_accounts g es l h

-- The books of a ledger are in order, by induction along what is entered.
theorem foldlM_accounts (g : Geometry) (later : List Sight) :
    ∀ (es : List Sight) (l l' : Ledger), Accounts g es l →
      later.foldlM (record g) l = some l' → Accounts g (es ++ later) l' := by
  induction later with
  | nil =>
      intro es l l' h hf
      rw [List.foldlM_nil] at hf
      rw [List.append_nil, ← Option.some.inj hf]
      exact h
  | cons e rest ih =>
      intro es l l' h hf
      rw [List.foldlM_cons, Option.bind_eq_bind, Option.bind_eq_some_iff] at hf
      rcases hf with ⟨l₁, hr, hf⟩
      have hrest := ih (es ++ [e]) l₁ l' (record_accounts g es e l l₁ h hr) hf
      rw [List.append_assoc, List.singleton_append] at hrest
      exact hrest

theorem replay_accounts (g : Geometry) (es : List Sight) (l : Ledger)
    (h : replay g es = some l) : Accounts g es l :=
  foldlM_accounts g es [] empty l (empty_accounts g) h

/-- The messages that are taken are some of those written, in the same
    order. -/
theorem Accounts.taken_sublist {g : Geometry} {es : List Sight} {l : Ledger}
    (h : Accounts g es l) : (l.taken.map Prod.fst).Sublist l.written := by
  have hall := (List.sublist_append_left l.taken l.queue).trans h.in_order
  have hmap := hall.map Prod.fst
  rw [List.zipIdx_map_fst] at hmap
  exact hmap

/-- No message is taken twice. -/
theorem Accounts.taken_nodup {g : Geometry} {es : List Sight} {l : Ledger}
    (h : Accounts g es l) : l.taken.Nodup := by
  -- The numbers of the entries are all different.
  have hidx : (l.written.zipIdx.map Prod.snd).Nodup := by
    rw [List.zipIdx_map_snd]
    exact List.nodup_range'
  exact (List.Nodup.of_map Prod.snd hidx).sublist
    ((List.sublist_append_left l.taken l.queue).trans h.in_order)

end Ledger

end Ring

end HostLayer
