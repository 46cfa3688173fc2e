import HostLayer.Host.Queue
import Mathlib.Data.List.Nodup

/-!
# The Books of a Queue

What a queue has to hold, and who gets which message, read off what has been sent
and received.

The books know nothing of the queue. They have all messages that were ever sent,
in this order, and the numbers of those that were received. What is outstanding is
what was sent and not received, and the number keeps messages of the same bytes
apart. `QueueBooks.Due` says which message has to be received next, without
searching for it: no other outstanding message has a higher priority, and none of
the same priority was sent earlier.

`QueueBooks.Booked` enters what happens, one entry after the other, and has no rule
for the receipt of a message that is not due. So if what has happened can be booked,
everything was received in the right order, and `Booked.balanced` has the rest: no
message is received twice, and each is outstanding until then.

## Main definitions

* `QueueBooks`: What was sent, and what was received of it.
* `QueueBooks.outstanding`, `QueueBooks.Due`: What is left, and what comes next.
* `QueueBooks.Entry`, `QueueBooks.Booked`: What happens, entered.
* `QueueBooks.Balanced`: The books are in order.

## Theorems

* `QueueBooks.outstanding_send`, `QueueBooks.outstanding_take`: What an entry does
  to what is outstanding.
* `QueueBooks.due_of_pending`: Which message is due.
* `QueueBooks.Booked.balanced`: The books stay in order.
* `QueueBooks.Booked.sent_eq`, `QueueBooks.Booked.taken_eq`: What is in them.
-/

namespace HostLayer

/-- All messages that were sent to a queue, in this order, and the numbers of those
    that were received from it. -/
structure QueueBooks where
  sent : List Host.QueueMessage
  taken : List Nat

namespace QueueBooks

/-- The messages that were sent and not received, with their numbers. -/
def outstanding (b : QueueBooks) : List (Host.QueueMessage × Nat) :=
  b.sent.zipIdx.filter fun p => p.2 ∉ b.taken

/-- What the queue has to hold. -/
def pending (b : QueueBooks) : List Host.QueueMessage :=
  b.outstanding.map Prod.fst

/-- Message `n` is the one to be received next: no other outstanding message has a
    higher priority, and none of the same priority was sent before it. -/
structure Due (b : QueueBooks) (n : Nat) (m : Host.QueueMessage) : Prop where
  sent : b.sent[n]? = some m
  waiting : n ∉ b.taken
  first : ∀ k x, b.sent[k]? = some x → k ∉ b.taken →
    k = n ∨ x.priority < m.priority ∨ (x.priority = m.priority ∧ n < k)

/-- The books after a message is sent. -/
def send (b : QueueBooks) (m : Host.QueueMessage) : QueueBooks :=
  { b with sent := b.sent ++ [m] }

/-- The books after message `n` is received. -/
def take (b : QueueBooks) (n : Nat) : QueueBooks :=
  { b with taken := b.taken ++ [n] }

/-- What happens to a queue. -/
inductive Entry
  | sent (m : Host.QueueMessage)
  | received (m : Host.QueueMessage)
  deriving DecidableEq, Repr

/-- The message that is sent, if one is. -/
def Entry.sent? : Entry → Option Host.QueueMessage
  | .sent m => some m
  | .received _ => none

/-- The message that is received, if one is. -/
def Entry.received? : Entry → Option Host.QueueMessage
  | .sent _ => none
  | .received m => some m

/-- The books before, what has happened, and the books after. A message is received
    only when it is due. -/
inductive Booked : QueueBooks → List Entry → QueueBooks → Prop
  | nothing (b : QueueBooks) : Booked b [] b
  | sent (b c : QueueBooks) (m : Host.QueueMessage) (es : List Entry)
      (rest : Booked (b.send m) es c) : Booked b (.sent m :: es) c
  | received (b c : QueueBooks) (n : Nat) (m : Host.QueueMessage) (es : List Entry)
      (hdue : b.Due n m) (rest : Booked (b.take n) es c) : Booked b (.received m :: es) c

/-- No message was received twice, only what was sent was received, and there is
    nothing else that a message can be but received or outstanding. -/
structure Balanced (b : QueueBooks) : Prop where
  once : b.taken.Nodup
  known : ∀ n ∈ b.taken, n < b.sent.length
  complete : b.pending.length + b.taken.length = b.sent.length

theorem mem_outstanding {b : QueueBooks} {n : Nat} {m : Host.QueueMessage} :
    (m, n) ∈ b.outstanding ↔ b.sent[n]? = some m ∧ n ∉ b.taken := by
  simp only [outstanding, List.mem_filter, List.mk_mem_zipIdx_iff_getElem?, decide_eq_true_eq]

/-- What is outstanding is in the order in which it was sent. -/
theorem outstanding_sorted (b : QueueBooks) :
    b.outstanding.Pairwise fun p q => p.2 < q.2 := by
  refine List.Pairwise.filter _ ?_
  rw [← List.pairwise_map, List.zipIdx_map_snd]
  exact List.pairwise_lt_range'

/-- A message that is sent is outstanding, behind all others. -/
theorem outstanding_send {b : QueueBooks} (hb : b.Balanced) (m : Host.QueueMessage) :
    (b.send m).outstanding = b.outstanding ++ [(m, b.sent.length)] := by
  have hnew : b.sent.length ∉ b.taken := fun hmem => Nat.lt_irrefl _ (hb.known _ hmem)
  have hlast : [(m, b.sent.length)].filter (fun p => p.2 ∉ b.taken) = [(m, b.sent.length)] :=
    List.filter_cons_of_pos (decide_eq_true hnew)
  rw [outstanding, send, List.zipIdx_append, List.filter_append, Nat.zero_add,
    List.zipIdx_singleton, hlast, outstanding]

/-- A message that is received is not outstanding any more, and all others are. -/
theorem outstanding_take {b : QueueBooks} {n : Nat} {m : Host.QueueMessage}
    {earlier later : List (Host.QueueMessage × Nat)}
    (h : b.outstanding = earlier ++ (m, n) :: later) :
    (b.take n).outstanding = earlier ++ later := by
  have hsorted := b.outstanding_sorted
  rw [h, List.pairwise_append, List.pairwise_cons] at hsorted
  rcases hsorted with ⟨-, ⟨hlater, -⟩, hearlier⟩
  have hsplit : (b.take n).outstanding = b.outstanding.filter fun p => p.2 ≠ n := by
    simp only [outstanding, take, List.filter_filter]
    refine List.filter_congr fun p _ => ?_
    rw [← Bool.decide_and]
    refine decide_eq_decide.mpr ?_
    rw [List.mem_append, List.mem_singleton, not_or, and_comm]
  rw [hsplit, h, List.filter_append, List.filter_cons_of_neg (by
    simp only [ne_eq, not_true_eq_false, decide_false, Bool.false_eq_true, not_false_eq_true])]
  congr 1
  · refine List.filter_eq_self.mpr fun p hp => decide_eq_true ?_
    exact Nat.ne_of_lt (hearlier p hp (m, n) List.mem_cons_self)
  · exact List.filter_eq_self.mpr fun p hp => decide_eq_true (Nat.ne_of_gt (hlater p hp))

/-- A message that is outstanding is due if all before it have a lower priority and
    none behind it has a higher one. -/
theorem due_of_pending {b : QueueBooks} {m : Host.QueueMessage}
    {earlier later : List Host.QueueMessage} (h : b.pending = earlier ++ m :: later)
    (he : ∀ x ∈ earlier, x.priority < m.priority) (hl : ∀ x ∈ later, x.priority ≤ m.priority) :
    ∃ n, b.Due n m ∧ (b.take n).pending = earlier ++ later := by
  rcases List.map_eq_append_iff.mp h with ⟨front, others, hout, rfl, hothers⟩
  rcases List.map_eq_cons_iff.mp hothers with ⟨⟨_, n⟩, back, rfl, rfl, rfl⟩
  have hsorted := b.outstanding_sorted
  rw [hout, List.pairwise_append, List.pairwise_cons] at hsorted
  rcases hsorted with ⟨-, ⟨hlater, -⟩, -⟩
  have hmem := mem_outstanding.mp (hout ▸ List.mem_append_right front List.mem_cons_self)
  refine ⟨n, ⟨hmem.1, hmem.2, fun k x hk hwaiting => ?_⟩, ?_⟩
  · have hx : (x, k) ∈ b.outstanding := mem_outstanding.mpr ⟨hk, hwaiting⟩
    rw [hout, List.mem_append, List.mem_cons] at hx
    rcases hx with hx | hx | hx
    · exact Or.inr (Or.inl (he x (List.mem_map_of_mem hx)))
    · exact Or.inl (congrArg Prod.snd hx)
    · rcases Nat.lt_or_eq_of_le (hl x (List.mem_map_of_mem hx)) with hlt | heq
      · exact Or.inr (Or.inl hlt)
      · exact Or.inr (Or.inr ⟨heq, hlater (x, k) hx⟩)
  · rw [pending, outstanding_take hout, List.map_append]

theorem pending_send {b : QueueBooks} (hb : b.Balanced) (m : Host.QueueMessage) :
    (b.send m).pending = b.pending ++ [m] := by
  rw [pending, outstanding_send hb, List.map_append, List.map_singleton, pending]

-- What is due is one of the messages that are outstanding.
theorem Due.split {b : QueueBooks} {n : Nat} {m : Host.QueueMessage} (h : b.Due n m) :
    ∃ earlier later, b.outstanding = earlier ++ (m, n) :: later :=
  List.append_of_mem (mem_outstanding.mpr ⟨h.sent, h.waiting⟩)

theorem Balanced.send {b : QueueBooks} (hb : b.Balanced) (m : Host.QueueMessage) :
    (b.send m).Balanced where
  once := hb.once
  known n hn := by
    rw [QueueBooks.send, List.length_append]
    exact Nat.lt_add_right _ (hb.known n hn)
  complete := by
    rw [pending_send hb, QueueBooks.send, List.length_append, List.length_append,
      List.length_singleton, Nat.add_right_comm, hb.complete]

theorem Balanced.take {b : QueueBooks} (hb : b.Balanced) {n : Nat} {m : Host.QueueMessage}
    (hdue : b.Due n m) : (b.take n).Balanced where
  once := by
    rw [QueueBooks.take, List.nodup_append]
    refine ⟨hb.once, List.nodup_singleton n, fun k hk l hl heq => ?_⟩
    rw [List.mem_singleton.mp hl] at heq
    exact hdue.waiting (heq ▸ hk)
  known k hk := by
    rcases List.mem_append.mp hk with hk | hk
    · exact hb.known k hk
    · rw [List.mem_singleton.mp hk]
      exact (List.getElem?_eq_some_iff.mp hdue.sent).1
  complete := by
    rcases hdue.split with ⟨earlier, later, hout⟩
    have hcomplete := hb.complete
    rw [pending, List.length_map, hout, List.length_append, List.length_cons] at hcomplete
    rw [pending, List.length_map, outstanding_take hout, List.length_append, QueueBooks.take,
      List.length_append, List.length_singleton, ← hcomplete]
    omega

/-- The books of a queue in which some messages are found: they count as sent. -/
def opening (found : List Host.QueueMessage) : QueueBooks := ⟨found, []⟩

theorem pending_opening (found : List Host.QueueMessage) : (opening found).pending = found := by
  have hall : (opening found).outstanding = found.zipIdx :=
    List.filter_eq_self.mpr fun _ _ => decide_eq_true List.not_mem_nil
  rw [pending, hall, List.zipIdx_map_fst]

theorem opening_balanced (found : List Host.QueueMessage) : (opening found).Balanced where
  once := List.nodup_nil
  known _ hn := absurd hn List.not_mem_nil
  complete := by rw [pending_opening, opening, List.length_nil, Nat.add_zero]

namespace Booked

theorem append {b c d : QueueBooks} {es fs : List Entry} (h : Booked b es c)
    (hrest : Booked c fs d) : Booked b (es ++ fs) d := by
  induction h with
  | nothing _ => exact hrest
  | sent b c m es _ ih => exact .sent b d m (es ++ fs) (ih hrest)
  | received b c n m es hdue _ ih => exact .received b d n m (es ++ fs) hdue (ih hrest)

/-- The books stay in order. -/
theorem balanced {b c : QueueBooks} {es : List Entry} (h : Booked b es c) (hb : b.Balanced) :
    c.Balanced := by
  induction h with
  | nothing _ => exact hb
  | sent b c m es _ ih => exact ih (hb.send m)
  | received b c n m es hdue _ ih => exact ih (hb.take hdue)

/-- What has been sent is what was entered as sent. -/
theorem sent_eq {b c : QueueBooks} {es : List Entry} (h : Booked b es c) :
    c.sent = b.sent ++ es.filterMap Entry.sent? := by
  induction h with
  | nothing b => rw [List.filterMap_nil, List.append_nil]
  | sent b c m es _ ih =>
      rw [ih, send, List.append_assoc, List.filterMap_cons_some (f := Entry.sent?) rfl,
        List.singleton_append]
  | received b c n m es _ _ ih => rw [ih, take, List.filterMap_cons_none rfl]

/-- The messages that were received, byte for byte, are those behind the numbers. -/
theorem taken_eq {b c : QueueBooks} {es : List Entry} (h : Booked b es c) :
    c.taken.map (c.sent[·]?) =
      b.taken.map (c.sent[·]?) ++ (es.filterMap Entry.received?).map some := by
  induction h with
  | nothing b => rw [List.filterMap_nil, List.map_nil, List.append_nil]
  | sent b c m es _ ih => rw [ih, send, List.filterMap_cons_none rfl]
  | received b c n m es hdue hrest ih =>
      -- Messages keep their numbers.
      have hkept : c.sent[n]? = some m := by
        rw [hrest.sent_eq, take, List.getElem?_append_left
          (List.getElem?_eq_some_iff.mp hdue.sent).1, hdue.sent]
      rw [ih, take, List.map_append, List.map_singleton, hkept, List.append_assoc,
        List.filterMap_cons_some (f := Entry.received?) rfl, List.map_cons, List.singleton_append]

end Booked

end QueueBooks

end HostLayer
