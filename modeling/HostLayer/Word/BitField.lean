/-!
# Bit Fields

Small numbers and marks kept inside one 32-bit word.

A field is a run of neighbouring bits. Reading it shifts the run down to bit
zero; writing it clears the run and puts in the low bits of the new value, so
bits outside the run never change and a value too wide for the run is cut.

## Main definitions

* `BitField`: The place of a field.
* `BitField.get`: The value of a field in a word.
* `BitField.put`: The word with a new value in the field.
* `BitField.flag`, `BitField.putFlag`: The same for a mark of one bit.
-/

namespace HostLayer

/-- A run of `width` bits, the lowest of which is bit `low`. -/
structure BitField where
  low : UInt32
  width : UInt32
  deriving DecidableEq, Repr

namespace BitField

/-- The bits of a field, moved down to bit zero. -/
def ones (f : BitField) : UInt32 :=
  (1 <<< f.width) - 1

/-- The bits of a field in their place. -/
def mask (f : BitField) : UInt32 :=
  f.ones <<< f.low

/-- The value of the field in the word `w`. -/
def get (f : BitField) (w : UInt32) : UInt32 :=
  (w >>> f.low) &&& f.ones

/-- The word `w` with `v` in the field. -/
def put (f : BitField) (w v : UInt32) : UInt32 :=
  (w &&& ~~~f.mask) ||| ((v &&& f.ones) <<< f.low)

/-- A mark is set when its field is not zero. -/
def flag (f : BitField) (w : UInt32) : Bool :=
  f.get w != 0

/-- The word `w` with the mark set or cleared. -/
def putFlag (f : BitField) (w : UInt32) (b : Bool) : UInt32 :=
  f.put w (if b then 1 else 0)

end BitField

end HostLayer
