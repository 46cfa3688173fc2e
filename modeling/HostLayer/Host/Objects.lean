import HostLayer.Host.Access
import HostLayer.Host.Errno
import HostLayer.Host.Memory
import HostLayer.Limits

/-!
# Shared Objects

The named memory objects of the host, and the calls on them.

A name stands for an object, and an object is a memory. Removing a name leaves
its object to those who have it open. Each call is atomic and changes nothing
when it is refused.

Two names stand for directories for ever. A directory can be opened to be read,
but it can neither be written nor mapped nor removed. Its size is no size of a
memory: it is whatever the host states, and the host can state another one at
each call.

## Main definitions

* `ObjectShelf`: The objects of the host, and their names.
* `ObjectShelf.empty`: The host without objects.
* `ObjectShelf.isDirectory`: What is not a memory.
* `ObjectShelf.stated`: The size of a directory, as the host states it.
* `ObjectShelf.createExclusive`, `ObjectShelf.openExisting`: Two ways to open.
* `ObjectShelf.truncate`: A new size.
* `ObjectShelf.remove`: Removing a name.
* `ObjectShelf.mapLimit`: How large an object can be to be mapped.
-/

namespace HostLayer

/-- The shared objects of the host. -/
structure ObjectShelf where
  /-- The object that a name stands for. -/
  names : String → Option Nat
  /-- The objects, with or without a name. -/
  memory : Nat → Memory
  /-- Their permission bits. -/
  mode : Nat → UInt32
  /-- The number of the next new object. -/
  next : Nat

namespace ObjectShelf

/-- The names that stand for directories. -/
def reserved (name : String) : Bool :=
  name == "/." || name == "/.."

/-- The number under which directories are opened. -/
def directory : Nat := 0

/-- The object is no memory. -/
def isDirectory (i : Nat) : Bool := i == directory

/-- There are the directories, of which nothing has been stated, and no object
    exists. -/
def empty : ObjectShelf where
  names name := if reserved name then some directory else none
  memory _ := Memory.zeros 0
  mode _ := 0o777
  next := directory + 1

/-- The largest size in bytes that the host counts. -/
def sizeLimit : Nat := word64 / 2

/-- Objects of this size and more do not fit into an address space. -/
def mapLimit : Nat := 140737488355328

/-- The shelf with an object in another state. -/
def put (s : ObjectShelf) (i : Nat) (m : Memory) : ObjectShelf :=
  { s with memory := fun j => if j = i then m else s.memory j }

/-- The host states a size for a directory that is to be opened. -/
def stated (s : ObjectShelf) (size : Nat) : ObjectShelf :=
  s.put directory ((s.memory directory).resize size)

/-- The shelf with a name that stands for another object, or for none. -/
def setName (s : ObjectShelf) (name : String) (object : Option Nat) : ObjectShelf :=
  { s with names := fun n => if n = name then object else s.names n }

/-- Make a new, empty object under a name that must be free. -/
def createExclusive (s : ObjectShelf) (descriptorLeft : Bool) (name : String) (mode : UInt32) :
    Except Errno (ObjectShelf × Nat) :=
  if !descriptorLeft then .error .tooManyOpen
  else match s.names name with
  | some _ => .error .alreadyExists
  | none =>
      let i := s.next
      .ok ({ (s.put i (Memory.zeros 0)).setName name (some i) with
        mode := fun j => if j = i then mode else s.mode j
        next := i + 1 }, i)

/-- Find the object that a name stands for, to read it and perhaps write to it. -/
def openExisting (s : ObjectShelf) (descriptorLeft : Bool) (name : String) (writes : Bool) :
    Except Errno Nat :=
  if !descriptorLeft then .error .tooManyOpen
  else match s.names name with
  | none => .error .noEntry
  | some i =>
      if isDirectory i && writes then .error .invalid
      else if Host.allows (s.mode i) true writes then .ok i
      else .error .accessDenied

/-- Give an object another size through a descriptor that may write. -/
def truncate (s : ObjectShelf) (i : Nat) (writable : Bool) (size : Nat) :
    Except Errno ObjectShelf :=
  if sizeLimit ≤ size then .error .invalid
  else if !writable then .error .invalid
  else .ok (s.put i ((s.memory i).resize size))

/-- The size of an object. -/
def sizeOf (s : ObjectShelf) (i : Nat) : Nat :=
  (s.memory i).size

/-- Remove a name. -/
def remove (s : ObjectShelf) (name : String) : Except Errno ObjectShelf :=
  match s.names name with
  | none => .error .noEntry
  | some i => if isDirectory i then .error .directory else .ok (s.setName name none)

end ObjectShelf

end HostLayer
