import HostLayer.Demo.Output
import HostLayer.Ipc.SharedMemory

/-!
# Banner Program

A smoke test of shared memory.

The program opens or creates an object, writes a banner with its process number
at its start, as far as there is room, and prints the text that the object then
holds.

## Main definitions

* `Demo.Banner.text`: The banner.
* `Demo.Banner.run`: The program.
-/

namespace HostLayer

namespace Demo

namespace Banner

/-- The size of a new object. -/
def segmentSize : Nat := 4096

/-- How the object is mapped. -/
def mapping : UInt32 := MapFlags.ring

/-- The banner, with its end mark. -/
def text (process : Nat) : List UInt8 :=
  Text.bytes ("hello from pid " ++ toString process) ++ [0]

/-- Bytes that are plain characters, as text. -/
def plain (bs : List UInt8) : String :=
  String.ofList (bs.map fun b => Char.ofNat b.toNat)

/-- The program with one argument. -/
def work (process descriptor : Nat) (descriptorLeft : Bool) (objects : ObjectShelf)
    (name : String) : ObjectShelf × Output :=
  match ShmHandle.open objects descriptorLeft name .createRw segmentSize with
  | (s, .error e, _) => (s, .gaveUp "shmtest" "" e)
  | (s, .ok h, _) =>
      let opened := h.name ++ ": " ++ toString h.size ++ " bytes, fd " ++ toString descriptor ++ "\n"
      match h.map mapping with
      | (.error e, _) => (s, .gaveUp "shmtest" opened e)
      | (.ok m, _) =>
          let (s, m) := m.store s 0 ((text process).take m.length)
          let content := (m.load s 0 (min m.length (text process).length)).takeWhile (· != 0)
          (s, .success (opened ++ "content: " ++ plain content ++ "\n"))

/-- The program, run by a process with a number. -/
def run (process descriptor : Nat) (descriptorLeft : Bool) (objects : ObjectShelf)
    (args : List String) : ObjectShelf × Output :=
  match args with
  | [name] => work process descriptor descriptorLeft objects name
  | _ => (objects, .usage "shmtest")

end Banner

end Demo

end HostLayer
