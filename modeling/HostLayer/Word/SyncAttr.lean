import HostLayer.Word.BitField

/-!
# Synchronization Attributes

The attribute word of mutexes, spinlocks, condition variables and semaphores.

Programs store and exchange the word as a plain number, so its layout is
fixed: the kind in bits 0 and 1, the robust mark in bit 4, the shared mark in
bit 5, the protocol in bits 8 and 9 and the priority ceiling in bits 16 to 31.
The other bits are reserved and kept as they are. Kind and protocol have a
fourth encoding without a meaning; a word that uses it is not valid.

## Main definitions

* `MutexKind`, `MutexProtocol`: What the two-bit fields stand for.
* `SyncAttr`: The word.
* `SyncAttr.valid`: Both two-bit fields have a meaning.
* `SyncAttr.describe`: The fields as text.
-/

namespace HostLayer

/-- What a mutex does when its owner locks it again. -/
inductive MutexKind
  | normal
  | errorCheck
  | recursive
  | invalid
  deriving DecidableEq, Repr

namespace MutexKind

/-- The encoding of a kind. -/
def toBits : MutexKind → UInt32
  | normal => 0
  | errorCheck => 1
  | recursive => 2
  | invalid => 3

/-- The kind with an encoding. -/
def ofBits (v : UInt32) : MutexKind :=
  if v == 0 then normal else if v == 1 then errorCheck else if v == 2 then recursive else invalid

/-- The name of a kind. -/
def name : MutexKind → String
  | normal => "Normal"
  | errorCheck => "ErrorCheck"
  | recursive => "Recursive"
  | invalid => "Invalid"

end MutexKind

/-- How a mutex changes the priority of its holder. -/
inductive MutexProtocol
  | none
  | inherit
  | protect
  | invalid
  deriving DecidableEq, Repr

namespace MutexProtocol

/-- The encoding of a protocol. -/
def toBits : MutexProtocol → UInt32
  | none => 0
  | inherit => 1
  | protect => 2
  | invalid => 3

/-- The protocol with an encoding. -/
def ofBits (v : UInt32) : MutexProtocol :=
  if v == 0 then none else if v == 1 then inherit else if v == 2 then protect else invalid

/-- The name of a protocol. -/
def name : MutexProtocol → String
  | none => "None"
  | inherit => "Inherit"
  | protect => "Protect"
  | invalid => "Invalid"

end MutexProtocol

/-- The attribute word of a synchronization object. -/
structure SyncAttr where
  raw : UInt32
  deriving DecidableEq, Repr

namespace SyncAttr

/-- The place of the kind. -/
def kindField : BitField := ⟨0, 2⟩

/-- The place of the robust mark. -/
def robustField : BitField := ⟨4, 1⟩

/-- The place of the shared mark. -/
def sharedField : BitField := ⟨5, 1⟩

/-- The place of the protocol. -/
def protocolField : BitField := ⟨8, 2⟩

/-- The place of the ceiling. -/
def ceilingField : BitField := ⟨16, 16⟩

/-- A normal, plain mutex or any other object of one process. -/
def plain : SyncAttr := ⟨0⟩

/-- What the owner sees on locking again. -/
def kind (a : SyncAttr) : MutexKind :=
  MutexKind.ofBits (kindField.get a.raw)

/-- The death of an owner is reported to the next one. -/
def robust (a : SyncAttr) : Bool :=
  robustField.flag a.raw

/-- Several processes may use the object. -/
def processShared (a : SyncAttr) : Bool :=
  sharedField.flag a.raw

/-- The priority protocol. -/
def protocol (a : SyncAttr) : MutexProtocol :=
  MutexProtocol.ofBits (protocolField.get a.raw)

/-- The priority ceiling. -/
def ceiling (a : SyncAttr) : UInt32 :=
  ceilingField.get a.raw

/-- The word with another kind. -/
def withKind (a : SyncAttr) (k : MutexKind) : SyncAttr :=
  ⟨kindField.put a.raw k.toBits⟩

/-- The word with the robust mark set or cleared. -/
def withRobust (a : SyncAttr) (b : Bool) : SyncAttr :=
  ⟨robustField.putFlag a.raw b⟩

/-- The word with the shared mark set or cleared. -/
def withProcessShared (a : SyncAttr) (b : Bool) : SyncAttr :=
  ⟨sharedField.putFlag a.raw b⟩

/-- The word with another protocol. -/
def withProtocol (a : SyncAttr) (p : MutexProtocol) : SyncAttr :=
  ⟨protocolField.put a.raw p.toBits⟩

/-- The word with another ceiling. -/
def withCeiling (a : SyncAttr) (c : UInt32) : SyncAttr :=
  ⟨ceilingField.put a.raw c⟩

/-- Kind and protocol both have a meaning. -/
def valid (a : SyncAttr) : Bool :=
  a.kind != .invalid && a.protocol != .invalid

/-- The fields as text. -/
def describe (a : SyncAttr) : String :=
  "SyncAttr \x7b kind: " ++ a.kind.name ++ ", robust: " ++ toString a.robust
    ++ ", process_shared: " ++ toString a.processShared ++ ", protocol: " ++ a.protocol.name
    ++ ", prio_ceiling: " ++ toString a.ceiling.toNat ++ " \x7d"

end SyncAttr

end HostLayer
