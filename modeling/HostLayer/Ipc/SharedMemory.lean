import HostLayer.Host.Objects
import HostLayer.Ipc.Name
import HostLayer.Routine
import HostLayer.Word.ShmAttr

/-!
# Shared Memory

Named memory objects, opened by their name and mapped as a whole.

Opening is a routine of host calls. Where a missing object may be created, it
is first created exclusively, so that its size is set only by the one who
created it; if the name is taken, the existing object is opened. An object
that was created but cannot be given its size loses its name again. The handle
remembers the size that the object had when it was opened.

A mapping covers the whole object. Writes to a shared mapping reach the object
at once. A private mapping shares the object's pages until it writes to them,
and from then on has copies of its own.

## Main definitions

* `ShmHandle`: An open object.
* `ShmHandle.Place`, `ShmHandle.openStep`: The host calls of opening.
* `ShmHandle.open`: Opening without interference.
* `ShmHandle.unlink`: Removing a name.
* `ShmHandle.map`: Mapping an open object.
* `Mapping`: A mapping.
* `Mapping.load`, `Mapping.store`: Reading and writing through it.
-/

namespace HostLayer

/-- An open shared memory object. -/
structure ShmHandle where
  object : Nat
  /-- The name, with its slash. -/
  name : String
  /-- The size when the object was opened. -/
  size : Nat
  writable : Bool
  deriving DecidableEq, Repr

namespace ShmHandle

/-- The causes for the host's reasons when an object is opened. -/
def openCause : Errno.Table
  | .accessDenied => some .permissionDenied
  | .alreadyExists => some .permissionDenied
  | .invalid => some .invalidParam
  | .nameTooLong => some .invalidParam
  | .tooManyOpen => some .systemLimitReached
  | .systemTableFull => some .systemLimitReached
  | .noEntry => some .notFound
  | .noMemory => some .outOfMemory
  | .noSpace => some .outOfMemory
  | .tryAgain => some .unavailable
  | _ => none

/-- The causes for the host's reasons when an object gets a size. -/
def truncateCause : Errno.Table
  | .invalid => some .invalidParam
  | .tooLarge => some .invalidParam
  | .notPermitted => some .permissionDenied
  | .accessDenied => some .permissionDenied
  | .badDescriptor => some .permissionDenied
  | .noMemory => some .outOfMemory
  | .noSpace => some .outOfMemory
  | _ => none

/-- The causes for the host's reasons when a name is removed. -/
def unlinkCause : Errno.Table
  | .noEntry => some .notFound
  | .accessDenied => some .permissionDenied
  | .nameTooLong => some .invalidParam
  | .invalid => some .invalidParam
  | _ => none

/-- The causes for the host's reasons when an object is mapped. -/
def mapCause : Errno.Table
  | .accessDenied => some .permissionDenied
  | .invalid => some .invalidParam
  | .noMemory => some .outOfMemory
  | .tryAgain => some .unavailable
  | .tooManyOpen => some .systemLimitReached
  | .systemTableFull => some .systemLimitReached
  | _ => none

/-- Where opening stands. -/
inductive Place
  /-- An object is about to be created; with `only`, an existing one is not
      accepted. -/
  | creating (only : Bool)
  /-- An existing object is about to be opened. -/
  | opening
  /-- The object is about to get its size. -/
  | sizing (object : Nat) (created : Bool)
  /-- The name of an object without its size is about to be removed. -/
  | removing (why : Error)
  /-- The size of the object is about to be read. -/
  | measuring (object : Nat)
  deriving DecidableEq, Repr

/-- A request to open an object. -/
structure OpenRequest where
  /-- A valid name. -/
  name : String
  attr : ShmAttr
  size : Nat
  /-- The process can open one more descriptor. -/
  descriptorLeft : Bool
  deriving DecidableEq, Repr

/-- Where opening starts. -/
def start (attr : ShmAttr) : Place :=
  if attr.creat then .creating attr.excl else .opening

/-- One host call of opening. -/
def openStep (r : OpenRequest) (s : ObjectShelf) : Place → Step ObjectShelf Place (Answer ShmHandle)
  | .creating only =>
      match s.createExclusive r.descriptorLeft r.name r.attr.mode with
      | .ok (s', i) => .goto s' (.sizing i true) []
      | .error e =>
          if e = .alreadyExists ∧ only = false then .goto s .opening []
          else refuse s openCause "shm_open" e
  | .opening =>
      match s.openExisting r.descriptorLeft r.name r.attr.rdwr with
      | .ok i => .goto s (if r.attr.trunc then .sizing i false else .measuring i) []
      | .error e => refuse s openCause "shm_open" e
  | .sizing i created =>
      match s.truncate i r.attr.rdwr r.size with
      | .ok s' => .goto s' (.measuring i) []
      | .error e =>
          let (cause, notes) := Errno.translate truncateCause "ftruncate" e
          if created then .goto s (.removing cause) notes else .done s (.error cause) notes
  | .removing why =>
      match s.remove r.name with
      | .ok s' => .done s' (.error why) []
      | .error _ => .done s (.error why) []
  | .measuring i => .done s (.ok ⟨i, r.name, s.sizeOf i, r.attr.rdwr⟩) []
where
  /-- The end of a refused call. -/
  refuse (s : ObjectShelf) (table : Errno.Table) (call : String) (e : Errno) :
      Step ObjectShelf Place (Answer ShmHandle) :=
    let (cause, notes) := Errno.translate table call e
    .done s (.error cause) notes

/-- The number of host calls of the longest way to open an object. -/
def openCalls : Nat := 4

/-- The note about an open object. -/
def openNote (h : ShmHandle) : Note :=
  .debug ("shm " ++ h.name ++ " open, " ++ toString h.size ++ " bytes")

/-- Open the object `name` while nobody interferes. -/
def «open» (s : ObjectShelf) (descriptorLeft : Bool) (name : String) (attr : ShmAttr) (size : Nat) :
    ObjectShelf × Answer ShmHandle × List Note :=
  match ObjectName.check (ObjectName.withSlash name) with
  | .error e => (s, .error e, [])
  | .ok host =>
      let p := runSteps (openStep ⟨host, attr, size, descriptorLeft⟩) openCalls s (start attr) []
      match p.outcome with
      | .inr (.ok h) => (p.state, .ok h, p.notes ++ [h.openNote])
      | .inr (.error e) => (p.state, .error e, p.notes)
      | .inl _ => (p.state, .error .operationFailed, p.notes)

/-- Remove the name of an object. -/
def unlink (s : ObjectShelf) (name : String) : ObjectShelf × Answer Unit × List Note :=
  match ObjectName.check (ObjectName.withSlash name) with
  | .error e => (s, .error e, [])
  | .ok host =>
      match s.remove host with
      | .ok s' => (s', .ok (), [])
      | .error e =>
          let (cause, notes) := Errno.translate unlinkCause "shm_unlink" e
          (s, .error cause, notes)

end ShmHandle

/-- A mapping of a whole object. -/
structure Mapping where
  object : Nat
  length : Nat
  /-- Writes reach the object. -/
  isShared : Bool
  /-- The pages of which the mapping has copies of its own. -/
  copies : Nat → Option (Nat → UInt8)

namespace Mapping

/-- The bytes of a page. -/
def pageSize : Nat := 4096

/-- The byte at an offset of the mapping. -/
def byte (m : Mapping) (s : ObjectShelf) (i : Nat) : UInt8 :=
  match m.copies (i / pageSize) with
  | some page => page i
  | none => (s.memory m.object).byte i

/-- The `n` bytes from an offset. -/
def load (m : Mapping) (s : ObjectShelf) (off n : Nat) : List UInt8 :=
  (List.range n).map fun i => m.byte s (off + i)

/-- The pages that a run of bytes touches are copied, and the copies written. -/
def storePrivate (m : Mapping) (s : ObjectShelf) (off : Nat) (bs : List UInt8) : Mapping :=
  let before : Memory := ⟨m.length, m.byte s⟩
  let after := before.store off bs
  { m with copies := fun p =>
      if off / pageSize ≤ p ∧ p * pageSize < off + bs.length then some after.byte
      else m.copies p }

/-- Write a run of bytes from an offset. -/
def store (m : Mapping) (s : ObjectShelf) (off : Nat) (bs : List UInt8) : ObjectShelf × Mapping :=
  if m.isShared then (s.put m.object ((s.memory m.object).store off bs), m)
  else (s, m.storePrivate s off bs)

end Mapping

namespace ShmHandle

/-- Map the whole object. An empty object has no mapping, and writes must be
    either shared or private. -/
def map (h : ShmHandle) (flags : UInt32) : Answer Mapping × List Note :=
  let has := Flags.contains flags
  let shared := has MapFlags.shared
  let writes := has MapFlags.write && !has MapFlags.noAccess
  let refuse (e : Errno) : Answer Mapping × List Note :=
    let (cause, notes) := Errno.translate mapCause "mmap" e
    (.error cause, notes)
  if h.size = 0 then (.error .invalidParam, [])
  else if shared = has MapFlags.priv then (.error .invalidParam, [])
  else if ObjectShelf.mapLimit ≤ h.size then refuse .noMemory
  else if shared && writes && !h.writable then refuse .accessDenied
  else if ObjectShelf.isDirectory h.object then refuse .noDevice
  else (.ok ⟨h.object, h.size, shared, fun _ => none⟩, [])

end ShmHandle

end HostLayer
