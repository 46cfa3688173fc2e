import HostLayer.Ring.Party

/-!
# Ring Buffers

A reader with the buffer that its caller has handed over.

What a reader finds goes to the beginning of the buffer, cut to what it holds,
and the caller is told how many bytes that are. The rest of the buffer stays as
it was, and so does all of it when nothing is found.

## Main definitions

* `Ring.Reading`: A ring and the buffer of a reader.
* `Ring.overwrite`: A buffer with other bytes at its beginning.
* `Ring.receiveStep`: A step of a reader with its buffer.
-/

namespace HostLayer

namespace Ring

/-- The memory of a ring, and the buffer of a reader. -/
structure Reading where
  memory : Memory
  buffer : List UInt8

/-- The buffer with `found` at its beginning. -/
def overwrite (buffer found : List UInt8) : List UInt8 :=
  found ++ buffer.drop found.length

/-- One step of a reader with its buffer. The answer is the number of bytes that
    have been copied. -/
def receiveStep (g : Geometry) (source : ClockSource) (deadline : Option Timer) (clock : Clock)
    (s : Reading) (p : Read) : Step Reading Read (Answer Nat) :=
  (readStep g s.buffer.length source deadline clock s.memory p).lift
    (fun m => { s with memory := m }) id
    fun m r notes =>
      match r with
      | .ok found => .done ⟨m, overwrite s.buffer found⟩ (.ok found.length) notes
      | .error e => .done { s with memory := m } (.error e) notes

end Ring

end HostLayer
