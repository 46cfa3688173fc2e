import HostLayer.Host.Memory

/-!
# Stores

Single writes to a memory.

What a program does to a shared memory is a list of stores, made one after the
other. A number is stored at once. A run of bytes is stored byte by byte, and
whoever looks in between finds only the first of them. A program that dies
somewhere on its way has made the stores of some start of its list, in which
every run has been taken apart into its bytes.

## Main definitions

* `Store`: A store.
* `Store.apply`, `Memory.storeAll`: What stores do to a memory.
* `Store.atoms`: The stores of one byte that make up the store of a run.
* `Store.first`, `Store.size`: The bytes that a store touches.

## Theorems

* `Memory.storeAll_append`: Two lists of stores, one after the other.
* `Memory.storeAll_size`: Stores leave the size alone.
-/

namespace HostLayer

/-- A write to a memory. -/
inductive Store
  /-- The number `value` goes into `width` bytes from `off`, at once. -/
  | number (off width value : Nat)
  /-- The bytes go to `off` and behind, one after the other. -/
  | run (off : Nat) (bytes : List UInt8)
  deriving DecidableEq, Repr

namespace Store

/-- The memory after a store. -/
def apply (m : Memory) : Store → Memory
  | number off width value => m.storeNat off width value
  | run off bytes => m.store off bytes

/-- The single bytes from the offset `off`, each as a store. -/
def bytewise (off : Nat) : List UInt8 → List Store
  | [] => []
  | b :: bs => run off [b] :: bytewise (off + 1) bs

/-- The stores that happen at once of which a store is made up. -/
def atoms : Store → List Store
  | number off width value => [number off width value]
  | run off bytes => bytewise off bytes

/-- The lowest offset that a store touches. -/
def first : Store → Nat
  | number off _ _ => off
  | run off _ => off

/-- The number of bytes that a store touches. -/
def size : Store → Nat
  | number _ width _ => width
  | run _ bytes => bytes.length

end Store

namespace Memory

/-- The memory after a list of stores. -/
def storeAll (m : Memory) (stores : List Store) : Memory :=
  stores.foldl Store.apply m

theorem storeAll_append (m : Memory) (first second : List Store) :
    m.storeAll (first ++ second) = (m.storeAll first).storeAll second := by
  simp [storeAll]

@[simp]
theorem storeAll_size (m : Memory) (stores : List Store) : (m.storeAll stores).size = m.size := by
  induction stores generalizing m with
  | nil => rfl
  | cons s ss ih =>
      have h : (s.apply m).size = m.size := by cases s <;> rfl
      rw [show m.storeAll (s :: ss) = (s.apply m).storeAll ss from rfl, ih, h]

end Memory

end HostLayer
