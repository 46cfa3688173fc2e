import HostLayer.Host.Store
import HostLayer.Limits

/-!
# Ring Layout

Where a log ring keeps what in its memory.

A ring begins with a header: a mark that it is a ring, its geometry, a lock, a
count of tokens, a flag that says whether a message is there, and the indices
of the slot to be read next and of the slot to be written next. The slots
follow. One slot always stays empty, so that equal indices mean an empty ring.

## Main definitions

* `Ring.Geometry`: The number of slots and the bytes of one slot.
* `Ring.Geometry.size`: The bytes of a ring.
* `Ring.Geometry.Valid`: A geometry that a ring can have.
* `Ring.Geometry.slotAt`, `Ring.Geometry.next`: Slots and their order.
* `Ring.magic`: The mark of a ring.

## Theorems

* `Ring.Geometry.next_lt`: The slot after a slot is a slot.
* `Ring.Geometry.slot_end_le`: A slot of a ring lies inside it.
-/

namespace HostLayer

namespace Ring

/-- The mark of a ring. -/
def magic : Nat := 0x00AFFE00

/-- The offset of the mark, in four bytes. -/
def magicAt : Nat := 0

/-- The offset of the number of slots, in eight bytes. -/
def slotsAt : Nat := 8

/-- The offset of the size of a slot, in eight bytes. -/
def slotSizeAt : Nat := 16

/-- The offset of the lock, in 40 bytes. -/
def lockAt : Nat := 24

/-- The bytes of the lock. -/
def lockSize : Nat := 40

/-- The offset of the word that says what kind of lock it is. -/
def lockKindAt : Nat := 40

/-- The word for a robust lock between processes. -/
def lockKind : Nat := 0x90

/-- The word of a lock whose holder has died. -/
def lockOrphaned : Nat := 0x40000000

/-- The offset of the tokens, in 32 bytes, the first four of which count. -/
def tokensAt : Nat := 64

/-- The bytes of the tokens. -/
def tokensSize : Nat := 32

/-- The offset of the word that says who may use the tokens. -/
def tokensKindAt : Nat := 72

/-- The word for tokens between processes. -/
def tokensKind : Nat := 0x80

/-- The offset of the flag that says whether a message is there. -/
def flagAt : Nat := 96

/-- The offset of the index of the slot to be read next, in four bytes. -/
def readAt : Nat := 100

/-- The offset of the index of the slot to be written next, in four bytes. -/
def writeAt : Nat := 104

/-- The bytes of the header. -/
def headerSize : Nat := 112

/-- The geometry of a ring. -/
structure Geometry where
  slots : Nat
  slotSize : Nat
  deriving DecidableEq, Repr

namespace Geometry

/-- The bytes of a ring. -/
def size (g : Geometry) : Nat :=
  headerSize + g.slots * g.slotSize

/-- The number of slots and the size of a slot are in range. -/
def InRange (g : Geometry) : Prop :=
  2 ≤ g.slots ∧ g.slots < word32 ∧ 1 ≤ g.slotSize

instance (g : Geometry) : Decidable g.InRange :=
  inferInstanceAs (Decidable (_ ∧ _ ∧ _))

/-- A geometry in range whose ring has a size that a word can hold. -/
def Valid (g : Geometry) : Prop :=
  g.InRange ∧ g.size < word64

instance (g : Geometry) : Decidable g.Valid :=
  inferInstanceAs (Decidable (_ ∧ _))

/-- The offset of a slot. -/
def slotAt (g : Geometry) (i : Nat) : Nat :=
  headerSize + i * g.slotSize

/-- The slot after a slot, around the end. -/
def next (g : Geometry) (i : Nat) : Nat :=
  (i + 1) % g.slots

theorem next_lt {g : Geometry} (h : g.InRange) (i : Nat) : g.next i < g.slots :=
  Nat.mod_lt _ (by have := h.1; omega)

theorem slot_end_le {g : Geometry} {i : Nat} (h : i < g.slots) :
    g.slotAt i + g.slotSize ≤ g.size := by
  have h1 : (i + 1) * g.slotSize ≤ g.slots * g.slotSize := Nat.mul_le_mul_right _ h
  rw [Nat.succ_mul] at h1
  simp only [slotAt, size]
  omega

end Geometry

end Ring

end HostLayer
