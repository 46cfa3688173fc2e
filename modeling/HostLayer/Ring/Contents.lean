import HostLayer.Diagnostic
import HostLayer.Ring.Layout

/-!
# Ring Contents

The messages in a ring, and the two things that can be done to them.

The messages lie in the slots from the read index up to, but without, the write
index, around the end. The text of a slot ends at its first NUL. Indices that
are out of range, which only a stranger can have stored, stand for no messages
at all.

Whoever changes a ring holds its lock. Under the lock a party first looks at the
indices and sets both to zero if one is out of range, and then either inserts a
message or removes one. Both are lists of stores, in an order in which the store
that counts comes last: a slot is filled before the write index moves past it.
Inserting into a full ring first removes the oldest message.

## Main definitions

* `Ring.indices?`: The read and the write index, if they are in range.
* `Ring.text`: The text of a slot.
* `Ring.pending`: The messages in a ring, the oldest first.
* `Ring.insertStores`, `Ring.removeStores`: The two changes, as stores.
* `Ring.enter`: The lock is taken and the indices are looked at.
* `Ring.insert`, `Ring.remove`: The two changes, under the lock.
* `Ring.hasMessage`: What the flag says.

## Theorems

* `Ring.stored_length_lt`: A stored message leaves room for its end.
* `Ring.insert_size`, `Ring.remove_size`: A change keeps the size of the memory.
-/

namespace HostLayer

namespace Ring

/-- The read and the write index, if both are in range. -/
def indices? (g : Geometry) (m : Memory) : Option (Nat × Nat) :=
  let read := m.loadNat readAt 4
  let write := m.loadNat writeAt 4
  if read < g.slots ∧ write < g.slots then some (read, write) else none

/-- The bytes from an offset up to the first NUL, at most `limit` of them. -/
def textFrom (m : Memory) (off : Nat) : Nat → List UInt8
  | 0 => []
  | limit + 1 =>
      let b := m.byte off
      if b = 0 then [] else b :: textFrom m (off + 1) limit

/-- The text of a slot. -/
def text (g : Geometry) (m : Memory) (i : Nat) : List UInt8 :=
  textFrom m (g.slotAt i) g.slotSize

/-- The number of messages between two indices. -/
def countBetween (g : Geometry) (read write : Nat) : Nat :=
  (write + g.slots - read) % g.slots

/-- The messages between two indices. -/
def messages (g : Geometry) (m : Memory) (read write : Nat) : List (List UInt8) :=
  (List.range (countBetween g read write)).map fun k => text g m ((read + k) % g.slots)

/-- The messages in a ring, the oldest first. -/
def pending (g : Geometry) (m : Memory) : List (List UInt8) :=
  match indices? g m with
  | some (read, write) => messages g m read write
  | none => []

/-- The flag says that a message is there. -/
def hasMessage (m : Memory) : Bool :=
  m.byte flagAt != 0

/-- The flag, as a store. -/
def setFlag (b : Bool) : Store :=
  .number flagAt 1 (if b then 1 else 0)

/-- The read index, as a store. -/
def setRead (i : Nat) : Store :=
  .number readAt 4 i

/-- The write index, as a store. -/
def setWrite (i : Nat) : Store :=
  .number writeAt 4 i

/-- The stores that make a ring empty. -/
def resetStores : List Store :=
  [setRead 0, setWrite 0, setFlag false]

/-- The note about indices out of range. -/
def strayNote (g : Geometry) (m : Memory) : Note :=
  .error ("log ring indices " ++ toString (m.loadNat readAt 4) ++ "/"
    ++ toString (m.loadNat writeAt 4) ++ " outside " ++ toString g.slots
    ++ " slots, discarding contents")

/-- The part of a message that a slot keeps. -/
def stored (g : Geometry) (msg : List UInt8) : List UInt8 :=
  msg.take (g.slotSize - 1)

/-- A message fills a slot and is ended with a NUL. -/
def fillStores (g : Geometry) (slot : Nat) (msg : List UInt8) : List Store :=
  [.run (g.slotAt slot) (stored g msg), .run (g.slotAt slot + (stored g msg).length) [0]]

/-- Another message after the one in the last slot would leave no slot empty. -/
def full (g : Geometry) (read write : Nat) : Bool :=
  g.next write == read

/-- The stores that insert a message between the indices `read` and `write`. -/
def insertStores (g : Geometry) (read write : Nat) (msg : List UInt8) : List Store :=
  (if full g read write then [setRead (g.next (g.next write))] else [])
    ++ fillStores g write msg ++ [setWrite (g.next write), setFlag true]

/-- The stores that remove the oldest message. -/
def removeStores (g : Geometry) (read write : Nat) : List Store :=
  if read = write then [setFlag false]
  else setRead (g.next read) :: if g.next read = write then [setFlag false] else []

/-- The lock's word says that its last holder has died. -/
def orphaned (m : Memory) : Bool :=
  m.loadNat lockAt 4 == lockOrphaned

/-- The memory of a ring whose lock was held by a party that has died. -/
def orphan (m : Memory) : Memory :=
  m.storeNat lockAt 4 lockOrphaned

/-- The lock is taken, and repaired if its last holder has died. -/
def repair (m : Memory) : Memory × List Note :=
  if orphaned m then (m.storeNat lockAt 4 0, [.warn "log ring owner died, recovering"]) else (m, [])

/-- The lock is taken and the indices are looked at: both of them, the memory,
    and the notes made. -/
def enter (g : Geometry) (m : Memory) : Nat × Nat × Memory × List Note :=
  let (m, notes) := repair m
  match indices? g m with
  | some (read, write) => (read, write, m, notes)
  | none => (0, 0, m.storeAll resetStores, notes ++ [strayNote g m])

/-- Insert a message, dropping the oldest one if the ring is full. -/
def insert (g : Geometry) (m : Memory) (msg : List UInt8) : Memory × List Note :=
  let (read, write, m, notes) := enter g m
  let dropped := if full g read write then [Note.trace "log ring full, dropped oldest message"] else []
  (m.storeAll (insertStores g read write msg), notes ++ dropped)

/-- Remove the oldest message, if there is one. -/
def remove (g : Geometry) (m : Memory) : Memory × Option (List UInt8) × List Note :=
  let (read, write, m, notes) := enter g m
  let message := if read = write then none else some (text g m read)
  (m.storeAll (removeStores g read write), message, notes)

theorem stored_length_lt {g : Geometry} (h : 1 ≤ g.slotSize) (msg : List UInt8) :
    (stored g msg).length < g.slotSize := by
  simp only [stored, List.length_take]
  omega

theorem enter_size (g : Geometry) (m : Memory) : (enter g m).2.2.1.size = m.size := by
  have h : (repair m).1.size = m.size := by
    unfold repair
    split <;> rfl
  simp only [enter]
  split
  · exact h
  · simpa using h

theorem insert_size (g : Geometry) (m : Memory) (msg : List UInt8) :
    (insert g m msg).1.size = m.size := by
  simp only [insert, Memory.storeAll_size]
  exact enter_size g m

theorem remove_size (g : Geometry) (m : Memory) : (remove g m).1.size = m.size := by
  simp only [remove, Memory.storeAll_size]
  exact enter_size g m

end Ring

end HostLayer
