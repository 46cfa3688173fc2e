import HostLayer.Ipc.SharedMemory
import HostLayer.Ring.Party

/-!
# Ring Setup

Finding, making and adopting rings.

A memory is adopted as a ring if its header makes sense: it begins with the
mark, its geometry is in range and fits the memory, and both indices are in
range. Whoever wants a ring under a name adopts what is there or, failing that,
lays out a header of its own, in a larger object if need be. The mark is
written last, so a header that is only half laid out is never adopted.

Each host call and each store of the header is a step of its own. Nothing keeps
two parties from looking before either of them has written the mark.

## Main definitions

* `Ring.Adoptable`: What makes a memory a ring.
* `Ring.adopt?`: The geometry of a ring in a memory.
* `Ring.headerStores`: The stores that lay out a header.
* `RingHandle`: An open ring.
* `RingHandle.Place`, `RingHandle.createStep`: Opening or making a ring.
* `RingHandle.create`: The same without interference.
* `RingHandle.attach`: Opening a ring that must be there.
* `RingHandle.write`: Writing a message to an open ring.

## Theorems

* `Ring.adopt?_valid`: Only valid geometries that fit are adopted.
-/

namespace HostLayer

namespace Ring

/-- The geometry that the header of a memory states. -/
def stated (m : Memory) : Geometry :=
  ⟨m.loadNat slotsAt 8, m.loadNat slotSizeAt 8⟩

/-- The first `length` bytes of a memory hold a ring. -/
def Adoptable (length : Nat) (m : Memory) : Prop :=
  m.loadNat magicAt 4 = magic ∧ (stated m).Valid ∧ (stated m).size ≤ length ∧
    (indices? (stated m) m).isSome

instance (length : Nat) (m : Memory) : Decidable (Adoptable length m) :=
  inferInstanceAs (Decidable (_ ∧ _ ∧ _ ∧ _))

/-- The geometry of the ring in the first `length` bytes of a memory, if there
    is one. -/
def adopt? (length : Nat) (m : Memory) : Option Geometry :=
  if Adoptable length m then some (stated m) else none

/-- The stores that lay out the header of an empty ring; the mark comes
    last. -/
def headerStores (g : Geometry) : List Store :=
  [.number magicAt 4 0, .number slotsAt 8 g.slots, .number slotSizeAt 8 g.slotSize,
    .run lockAt (List.replicate lockSize 0), .run tokensAt (List.replicate tokensSize 0),
    setFlag false, setRead 0, setWrite 0, .number lockKindAt 4 lockKind,
    .number tokensKindAt 4 tokensKind, .number magicAt 4 magic]

theorem adopt?_valid {length : Nat} {m : Memory} {g : Geometry} (h : adopt? length m = some g) :
    g.Valid ∧ g.size ≤ length := by
  unfold adopt? at h
  split at h
  next hc =>
    rw [← Option.some.inj h]
    exact ⟨hc.2.1, hc.2.2.1⟩
  next => exact absurd h (by simp)

end Ring

/-- An open ring: its mapped object and the geometry found at the opening. -/
structure RingHandle where
  object : Nat
  /-- The bytes that are mapped. -/
  length : Nat
  geometry : Ring.Geometry
  deriving DecidableEq, Repr

namespace RingHandle

/-- What is asked for. -/
structure Request where
  /-- The name as the caller wrote it. -/
  name : String
  /-- The name with its slash. -/
  host : String
  geometry : Ring.Geometry
  /-- The process can open one more descriptor. -/
  descriptorLeft : Bool
  deriving DecidableEq, Repr

/-- Where opening or making a ring stands. -/
inductive Place
  /-- The object is being opened or created. -/
  | opening (p : ShmHandle.Place)
  /-- The object is about to be looked at. -/
  | adopting (h : ShmHandle)
  /-- The object is being opened again and made larger. -/
  | enlarging (p : ShmHandle.Place)
  /-- The object is about to be mapped for a new header. -/
  | mapping (h : ShmHandle)
  /-- The header is being laid out. -/
  | laying (h : ShmHandle) (left : List Store)
  deriving DecidableEq, Repr

/-- The request to open the object. -/
def opening (r : Request) : ShmHandle.OpenRequest :=
  ⟨r.host, .createRw, r.geometry.size, r.descriptorLeft⟩

/-- The request to open the object again with a new size. -/
def enlarging (r : Request) : ShmHandle.OpenRequest :=
  ⟨r.host, ShmAttr.createRw.withTrunc true, r.geometry.size, r.descriptorLeft⟩

/-- The note about a ring. -/
def madeNote (r : Request) (verb : String) (g : Ring.Geometry) : Note :=
  .info ("log ring " ++ r.name ++ " " ++ verb ++ ", " ++ toString g.slots ++ " x "
    ++ toString g.slotSize ++ " bytes")

/-- A step of opening an object as a step of opening a ring. -/
def opened (s : Step ObjectShelf ShmHandle.Place (Answer ShmHandle))
    (place : ShmHandle.Place → Place) (next : ShmHandle → Place) :
    Step ObjectShelf Place (Answer RingHandle) :=
  s.lift (fun st => st) place fun st r notes =>
    match r with
    | .ok h => .goto st (next h) (notes ++ [h.openNote])
    | .error e => .done st (.error e) notes

/-- Where a party goes on that could not adopt the object. -/
def afterLook (r : Request) (h : ShmHandle) : Place :=
  if h.size < r.geometry.size then .enlarging (ShmHandle.start (enlarging r).attr) else .mapping h

/-- One step of opening or making a ring. -/
def createStep (r : Request) (s : ObjectShelf) : Place → Step ObjectShelf Place (Answer RingHandle)
  | .opening p => opened (ShmHandle.openStep (opening r) s p) .opening .adopting
  | .adopting h =>
      if h.size < Ring.headerSize then .goto s (afterLook r h) []
      else match h.map MapFlags.ring with
        | (.error e, notes) => .done s (.error e) notes
        | (.ok _, notes) =>
            match Ring.adopt? h.size (s.memory h.object) with
            | some g => .done s (.ok ⟨h.object, h.size, g⟩) (notes ++ [madeNote r "found" g])
            | none => .goto s (afterLook r h) notes
  | .enlarging p => opened (ShmHandle.openStep (enlarging r) s p) .enlarging .mapping
  | .mapping h =>
      match h.map MapFlags.ring with
      | (.error e, notes) => .done s (.error e) notes
      | (.ok _, notes) => .goto s (.laying h (Ring.headerStores r.geometry)) notes
  | .laying h (store :: left) =>
      .goto (s.put h.object (store.apply (s.memory h.object))) (.laying h left) []
  | .laying h [] =>
      .done s (.ok ⟨h.object, h.size, r.geometry⟩) [madeNote r "initialized" r.geometry]

/-- Where a party starts. -/
def start : Place :=
  .opening (ShmHandle.start ShmAttr.createRw)

/-- The number of steps of the longest way to a ring: to open twice, to look, to
    map, each store of a header, and the end. -/
def createSteps : Nat :=
  2 * ShmHandle.openCalls + (Ring.headerStores ⟨2, 1⟩).length + 3

/-- Open the ring `name`, or make one with the geometry `g`, while nobody
    interferes. -/
def create (s : ObjectShelf) (descriptorLeft : Bool) (name : String) (g : Ring.Geometry) :
    ObjectShelf × Answer RingHandle × List Note :=
  if ¬g.Valid then (s, .error .invalidParam, [])
  else match ObjectName.check (ObjectName.withSlash name) with
    | .error e => (s, .error e, [])
    | .ok host =>
        let p := runSteps (createStep ⟨name, host, g, descriptorLeft⟩) createSteps s start []
        match p.outcome with
        | .inr r => (p.state, r, p.notes)
        | .inl _ => (p.state, .error .operationFailed, p.notes)

/-- How an object is opened to attach to a ring in it. -/
def attachAttr : ShmAttr :=
  (ShmAttr.none.withRdwr true).withMap true

/-- Open the ring `name`, which must be there. -/
def attach (s : ObjectShelf) (descriptorLeft : Bool) (name : String) :
    ObjectShelf × Answer RingHandle × List Note :=
  match ShmHandle.open s descriptorLeft name attachAttr 0 with
  | (s, .error e, notes) => (s, .error e, notes)
  | (s, .ok h, notes) =>
      if h.size < Ring.headerSize then (s, .error .invalidParam, notes)
      else match h.map MapFlags.ring with
        | (.error e, more) => (s, .error e, notes ++ more)
        | (.ok _, more) =>
            match Ring.adopt? h.size (s.memory h.object) with
            | some g => (s, .ok ⟨h.object, h.size, g⟩, notes ++ more)
            | none => (s, .error .invalidParam, notes ++ more)

/-- A message is written to an open ring while nobody interferes. -/
def write (s : ObjectShelf) (h : RingHandle) (msg : List UInt8) :
    ObjectShelf × Answer Unit × List Note :=
  let p := Ring.write h.geometry msg (s.memory h.object)
  match p.outcome with
  | .inr r => (s.put h.object p.state, r, p.notes)
  | .inl _ => (s.put h.object p.state, .error .operationFailed, p.notes)

/-- The ring as text. -/
def describe (h : RingHandle) : String :=
  "ShmLog \x7b max_messages: " ++ toString h.geometry.slots ++ ", max_message_size: "
    ++ toString h.geometry.slotSize ++ " \x7d"

end RingHandle

end HostLayer
