import HostLayer.Word.BitField
import HostLayer.Word.FlagSet

/-!
# Shared Memory Attributes

The words that say how a shared memory object is opened and how it is mapped.

Opening takes a word with six marks in bits 0 to 5 and the permission bits of
a new object in bits 16 to 31. Mapping takes a set of flags: the protections
and whether writes are shared with others.

## Main definitions

* `ShmAttr`: The word for opening.
* `ShmAttr.createRw`: Open for reading and writing, create if missing.
* `MapFlags.names`: The flags for mapping.
* `MapFlags.ring`: How a log ring is mapped.
-/

namespace HostLayer

/-- How a shared memory object is opened. -/
structure ShmAttr where
  raw : UInt32
  deriving DecidableEq, Repr

namespace ShmAttr

/-- The place of the mark for reading only. -/
def rdonlyField : BitField := ⟨0, 1⟩

/-- The place of the mark for reading and writing. -/
def rdwrField : BitField := ⟨1, 1⟩

/-- The place of the mark for creation. -/
def creatField : BitField := ⟨2, 1⟩

/-- The place of the mark against an existing object. -/
def exclField : BitField := ⟨3, 1⟩

/-- The place of the mark for a new size. -/
def truncField : BitField := ⟨4, 1⟩

/-- The place of the mark for objects to be mapped. -/
def mapField : BitField := ⟨5, 1⟩

/-- The place of the permission bits. -/
def modeField : BitField := ⟨16, 16⟩

/-- The word without any mark. -/
def none : ShmAttr := ⟨0⟩

/-- The object is only read. -/
def rdonly (a : ShmAttr) : Bool := rdonlyField.flag a.raw

/-- The object is read and written. -/
def rdwr (a : ShmAttr) : Bool := rdwrField.flag a.raw

/-- A missing object is created. -/
def creat (a : ShmAttr) : Bool := creatField.flag a.raw

/-- An existing object is not accepted. -/
def excl (a : ShmAttr) : Bool := exclField.flag a.raw

/-- An existing object gets the new size. -/
def trunc (a : ShmAttr) : Bool := truncField.flag a.raw

/-- The object will be mapped. -/
def map (a : ShmAttr) : Bool := mapField.flag a.raw

/-- The permission bits of a new object. -/
def mode (a : ShmAttr) : UInt32 := modeField.get a.raw

/-- The word with the mark for reading only set or cleared. -/
def withRdonly (a : ShmAttr) (b : Bool) : ShmAttr := ⟨rdonlyField.putFlag a.raw b⟩

/-- The word with the mark for reading and writing set or cleared. -/
def withRdwr (a : ShmAttr) (b : Bool) : ShmAttr := ⟨rdwrField.putFlag a.raw b⟩

/-- The word with the mark for creation set or cleared. -/
def withCreat (a : ShmAttr) (b : Bool) : ShmAttr := ⟨creatField.putFlag a.raw b⟩

/-- The word with the mark against an existing object set or cleared. -/
def withExcl (a : ShmAttr) (b : Bool) : ShmAttr := ⟨exclField.putFlag a.raw b⟩

/-- The word with the mark for a new size set or cleared. -/
def withTrunc (a : ShmAttr) (b : Bool) : ShmAttr := ⟨truncField.putFlag a.raw b⟩

/-- The word with the mark for mapping set or cleared. -/
def withMap (a : ShmAttr) (b : Bool) : ShmAttr := ⟨mapField.putFlag a.raw b⟩

/-- The word with other permission bits. -/
def withMode (a : ShmAttr) (m : UInt32) : ShmAttr := ⟨modeField.put a.raw m⟩

/-- Read and write an object to be mapped, and create it for everyone if it
    is missing. -/
def createRw : ShmAttr :=
  (((none.withRdwr true).withCreat true).withMap true).withMode 0o666

/-- The fields as text. -/
def describe (a : ShmAttr) : String :=
  "ShmAttr \x7b rdonly: " ++ toString a.rdonly ++ ", rdwr: " ++ toString a.rdwr
    ++ ", creat: " ++ toString a.creat ++ ", excl: " ++ toString a.excl
    ++ ", trunc: " ++ toString a.trunc ++ ", map: " ++ toString a.map
    ++ ", mode: " ++ toString a.mode.toNat ++ " \x7d"

end ShmAttr

namespace MapFlags

/-- The mapping can be executed. -/
def exec : UInt32 := 0x1

/-- The mapping can be read. -/
def read : UInt32 := 0x2

/-- The mapping can be written. -/
def write : UInt32 := 0x4

/-- The mapping cannot be used at all, whatever else is asked for. -/
def noAccess : UInt32 := 0x8

/-- Writes reach the object. -/
def shared : UInt32 := 0x100

/-- Writes stay in the mapping. -/
def priv : UInt32 := 0x200

/-- The flags by name. -/
def names : FlagNames where
  title := "ShmMapAttr"
  table := [("PROT_EXEC", exec), ("PROT_READ", read), ("PROT_WRITE", write),
    ("PROT_NONE", noAccess), ("SHARED", shared), ("PRIVATE", priv)]

/-- Readable, writable and shared with everyone. -/
def ring : UInt32 :=
  Flags.union (Flags.union read write) shared

end MapFlags

end HostLayer
