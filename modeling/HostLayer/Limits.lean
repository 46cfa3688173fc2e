/-!
# Limits

The fixed sizes of the library.

## Main definitions

* `Limits.taskName`: Bytes of a task name, with its end mark.
* `Limits.objectName`: Bytes of an object name after its slash.
* `Limits.cpus`: CPUs that an affinity mask can name.
* `Limits.formatted`: Bytes of one formatted message.
* `Limits.ringSlots`, `Limits.ringSlotSize`: The geometry of a log ring for
  callers without a preference.
* `nanosPerSecond`: The unit in which the second is counted.
* `word32`, `word64`: How many values a word of the host has.
-/

namespace HostLayer

/-- Nanoseconds in one second. -/
def nanosPerSecond : Nat := 1000000000

/-- The number of values of a 32-bit word. -/
def word32 : Nat := 4294967296

/-- The number of values of a 64-bit word. -/
def word64 : Nat := 18446744073709551616

namespace Limits

/-- Bytes of a task name, its end mark included. -/
def taskName : Nat := 64

/-- Bytes of the name of a queue or a shared object, without the slash. -/
def objectName : Nat := 255

/-- CPUs that an affinity mask can name. -/
def cpus : Nat := 64

/-- Bytes that one formatted message can have. -/
def formatted : Nat := 530

/-- Slots of a log ring for callers without a preference. -/
def ringSlots : Nat := 100

/-- Bytes of a slot for callers without a preference. -/
def ringSlotSize : Nat := 512

end Limits

end HostLayer
