import HostLayer.Cell
import HostLayer.Ring.Setup
import HostLayer.Text.Cut

/-!
# Sink

Where formatted output goes.

A message is put together from fragments in a buffer of fixed size; what does
not fit is cut off, in the middle of a character if need be. The whole message
then goes to exactly one place: the ring that the sink was set up with last, or
the standard output if there is none. A sink that cannot be set up stays as it
was, and a message that the ring refuses is not printed instead.

## Main definitions

* `Sink.format`: The message that fragments make up.
* `Sink.Destination`: Where messages go.
* `Sink`: The sink of a process.
* `Sink.setup`, `Sink.close`: The destination changes.
* `Sink.emit`: A message goes to its destination.
* `Sink.source`: The ring that messages are read from.

## Theorems

* `Sink.append_eq_take`: A fragment more is a longer text to be cut.
* `Sink.format_eq_take`: Only the concatenation of the fragments matters.
-/

namespace HostLayer

namespace Sink

/-- The buffer with one more fragment, as far as it fits. -/
def append (buffer fragment : List UInt8) : List UInt8 :=
  buffer ++ fragment.take (Limits.formatted - buffer.length)

/-- The message that fragments make up. -/
def format (fragments : List (List UInt8)) : List UInt8 :=
  fragments.foldl append []

/-- The fragments of a line of text. -/
def line (text : String) : List (List UInt8) :=
  [Text.bytes text, [10]]

/-- Where messages go. -/
inductive Destination
  | standardOutput
  | ring (h : RingHandle)
  deriving DecidableEq, Repr

/-- The ring of a destination, if it is one. -/
def Destination.ring? : Destination → Option RingHandle
  | standardOutput => none
  | ring h => some h

/-- Whether the standard output refuses a message when its device is full: only
    whole lines are passed on to the device at once. -/
def refusedWhenFull (message : List UInt8) : Bool :=
  message.contains 10

/-- The answer of the standard output to a message. -/
def print (deviceFull : Bool) (message : List UInt8) : Answer Unit :=
  if deviceFull && refusedWhenFull message then .error .operationFailed else .ok ()

end Sink

/-- The sink of a process: where its messages go. -/
abbrev Sink := Cell Sink.Destination

namespace Sink

/-- The sink of a process that has just started. -/
def fresh : Sink := ⟨.standardOutput⟩

/-- Messages go to the ring `name` from now on, if it is there or can be made. -/
def setup (k : Sink) (s : ObjectShelf) (descriptorLeft : Bool) (name : String)
    (g : Ring.Geometry) : Sink × ObjectShelf × Answer Unit × List Note :=
  match RingHandle.create s descriptorLeft name g with
  | (s, .ok h, notes) => ((k.replace (.ring h)).1, s, .ok (), notes)
  | (s, .error e, notes) => (k, s, .error e, notes)

/-- Messages go to the standard output from now on. -/
def close (k : Sink) : Sink := (k.replace .standardOutput).1

/-- The ring that messages go to, which is where they are read from. -/
def source (k : Sink) : Answer RingHandle :=
  match k.load with
  | .ring h => .ok h
  | .standardOutput => .error .unavailable

/-- What has come of a message. -/
structure Emission where
  objects : ObjectShelf
  answer : Answer Unit
  /-- What has been printed. -/
  printed : List UInt8
  notes : List Note

/-- The message that fragments make up goes to its destination. -/
def emit (k : Sink) (s : ObjectShelf) (deviceFull : Bool) (fragments : List (List UInt8)) :
    Emission :=
  let message := format fragments
  match k.load with
  | .ring h =>
      let (s', a, notes) := h.write s message
      ⟨s', a, [], notes⟩
  | .standardOutput =>
      match print deviceFull message with
      | .ok () => ⟨s, .ok (), message, []⟩
      | .error e => ⟨s, .error e, [], []⟩

theorem append_eq_take {buffer done : List UInt8} (h : buffer = done.take Limits.formatted)
    (fragment : List UInt8) : append buffer fragment = (done ++ fragment).take Limits.formatted := by
  subst h
  simp only [append, List.take_append, List.length_take]
  by_cases hl : done.length ≤ Limits.formatted
  · rw [Nat.min_eq_right hl]
  · have h1 : Limits.formatted - min Limits.formatted done.length = 0 := by omega
    have h2 : Limits.formatted - done.length = 0 := by omega
    rw [h1, h2]

theorem format_eq_take (fragments : List (List UInt8)) :
    format fragments = fragments.flatten.take Limits.formatted := by
  suffices h : ∀ (done buffer : List UInt8), buffer = done.take Limits.formatted →
      fragments.foldl append buffer = (done ++ fragments.flatten).take Limits.formatted by
    simpa [format] using h [] [] (by simp)
  induction fragments with
  | nil => intro done buffer h; simpa using h
  | cons f fs ih =>
      intro done buffer h
      have := ih (done ++ f) _ (append_eq_take h f)
      simpa using this

end Sink

end HostLayer
