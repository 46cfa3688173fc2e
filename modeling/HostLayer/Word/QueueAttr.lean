import HostLayer.Word.FlagSet

/-!
# Queue Attributes

How a message queue is opened, and how large a new one becomes.

## Main definitions

* `QueueFlags.names`: The flags for opening.
* `QueueAttr`: Flags, permission bits and geometry.
* `QueueAttr.ofGeometry`: The usual attributes for a geometry.
-/

namespace HostLayer

namespace QueueFlags

/-- Messages are only received. -/
def rdonly : UInt32 := 0x01

/-- Messages are only sent. -/
def wronly : UInt32 := 0x02

/-- Messages are sent and received. -/
def rdwr : UInt32 := 0x04

/-- A missing queue is created. -/
def creat : UInt32 := 0x08

/-- The queue is closed when another program is started. -/
def cloexec : UInt32 := 0x10

/-- An existing queue is not accepted. -/
def excl : UInt32 := 0x20

/-- Calls never wait. -/
def nonblock : UInt32 := 0x40

/-- The flags by name. -/
def names : FlagNames where
  title := "MqFlags"
  table := [("RDONLY", rdonly), ("WRONLY", wronly), ("RDWR", rdwr), ("CREAT", creat),
    ("CLOEXEC", cloexec), ("EXCL", excl), ("NONBLOCK", nonblock)]

end QueueFlags

/-- How a queue is opened. -/
structure QueueAttr where
  flags : UInt32
  mode : UInt32
  maxMessages : Nat
  maxMessageSize : Nat
  deriving DecidableEq, Repr

namespace QueueAttr

/-- Send and receive, create if missing, readable by everyone. -/
def ofGeometry (maxMessages maxMessageSize : Nat) : QueueAttr where
  flags := Flags.union QueueFlags.rdwr QueueFlags.creat
  mode := 0o644
  maxMessages := maxMessages
  maxMessageSize := maxMessageSize

/-- The attributes with other flags. -/
def withFlags (a : QueueAttr) (flags : UInt32) : QueueAttr :=
  { a with flags := flags }

/-- The attributes with other permission bits. -/
def withMode (a : QueueAttr) (mode : UInt32) : QueueAttr :=
  { a with mode := mode }

/-- The flag `f` is among those of the attributes. -/
def has (a : QueueAttr) (f : UInt32) : Bool :=
  Flags.contains a.flags f

end QueueAttr

end HostLayer
