/-!
# Memory

The bytes of a shared object.

A memory has a size and a byte at every offset; what lies beyond the size is
zero and stays so when the size changes. Numbers are kept with their lowest
byte first.

## Main definitions

* `Memory`: Bytes with a size.
* `Memory.resize`: The same bytes with another size.
* `Memory.load`, `Memory.store`: A run of bytes.
* `Memory.loadNat`, `Memory.storeNat`: A number.
* `littleEndian`, `ofLittleEndian`: A number as bytes.
* `widthLimit`: The end of the numbers of a width.

## Theorems

* `ofLittleEndian_littleEndian`: A number is read back as it was written.
* `Memory.store_byte_of_lt`, `Memory.store_byte_of_ge`: A store changes no
  byte beside it.
* `Memory.load_store`: A stored run is read back.
-/

namespace HostLayer

/-- The `width` bytes of a number, the lowest first. -/
def littleEndian : Nat → Nat → List UInt8
  | 0, _ => []
  | width + 1, n => UInt8.ofNat n :: littleEndian width (n / 256)

/-- The number with the given bytes, the lowest first. -/
def ofLittleEndian : List UInt8 → Nat
  | [] => 0
  | b :: bs => b.toNat + 256 * ofLittleEndian bs

/-- The numbers that `width` bytes can hold lie below this one. -/
def widthLimit : Nat → Nat
  | 0 => 1
  | width + 1 => 256 * widthLimit width

theorem length_littleEndian (width n : Nat) : (littleEndian width n).length = width := by
  induction width generalizing n with
  | zero => rfl
  | succ w ih => simp [littleEndian, ih]

theorem ofLittleEndian_littleEndian (width n : Nat) :
    ofLittleEndian (littleEndian width n) = n % widthLimit width := by
  induction width generalizing n with
  | zero => simp [littleEndian, ofLittleEndian, widthLimit, Nat.mod_one]
  | succ w ih =>
      have hb : (UInt8.ofNat n).toNat = n % 256 := UInt8.toNat_ofNat'
      rw [littleEndian, ofLittleEndian, ih, hb, widthLimit, Nat.mod_mul]

/-- The contents of a shared object. -/
structure Memory where
  size : Nat
  byte : Nat → UInt8

namespace Memory

/-- Zero bytes. -/
def zeros (size : Nat) : Memory := ⟨size, fun _ => 0⟩

/-- The same bytes with another size; new bytes are zero. -/
def resize (m : Memory) (size : Nat) : Memory :=
  ⟨size, fun i => if i < m.size ∧ i < size then m.byte i else 0⟩

/-- The `n` bytes from the offset `off`. -/
def load (m : Memory) (off n : Nat) : List UInt8 :=
  (List.range n).map fun i => m.byte (off + i)

/-- The memory with the bytes `bs` from the offset `off`. -/
def store (m : Memory) (off : Nat) (bs : List UInt8) : Memory :=
  let run := bs.toArray
  { m with byte := fun i =>
      if off ≤ i then
        if h : i - off < run.size then run[i - off] else m.byte i
      else m.byte i }

/-- The number in the `width` bytes from the offset `off`. -/
def loadNat (m : Memory) (off width : Nat) : Nat :=
  ofLittleEndian (m.load off width)

/-- The memory with a number in the `width` bytes from the offset `off`. -/
def storeNat (m : Memory) (off width n : Nat) : Memory :=
  m.store off (littleEndian width n)

@[simp]
theorem store_size (m : Memory) (off : Nat) (bs : List UInt8) : (m.store off bs).size = m.size :=
  rfl

theorem store_byte_of_lt (m : Memory) {off i : Nat} (bs : List UInt8) (h : i < off) :
    (m.store off bs).byte i = m.byte i := by
  simp [store, Nat.not_le.2 h]

theorem store_byte_of_ge (m : Memory) {off i : Nat} (bs : List UInt8)
    (h : off + bs.length ≤ i) : (m.store off bs).byte i = m.byte i := by
  have h1 : ¬(i - off < bs.length) := by omega
  simp [store, h1]

theorem store_byte_of_mem (m : Memory) {off i : Nat} (bs : List UInt8) (h : i < bs.length) :
    (m.store off bs).byte (off + i) = bs[i] := by
  have h1 : off + i - off = i := by omega
  simp [store, h, h1]

theorem length_load (m : Memory) (off n : Nat) : (m.load off n).length = n := by
  simp [load]

theorem load_store (m : Memory) (off : Nat) (bs : List UInt8) :
    (m.store off bs).load off bs.length = bs := by
  apply List.ext_getElem
  · simp [load]
  · intro i h1 h2
    simp only [load, List.getElem_map, List.getElem_range]
    exact store_byte_of_mem m bs h2

/-- Two loads agree where the memories do. -/
theorem load_congr {m m' : Memory} {off n : Nat}
    (h : ∀ i, i < n → m'.byte (off + i) = m.byte (off + i)) : m'.load off n = m.load off n := by
  apply List.ext_getElem
  · simp [load]
  · intro i h1 h2
    simp only [load, List.getElem_map, List.getElem_range]
    exact h i (by simpa [load] using h1)

end Memory

end HostLayer
