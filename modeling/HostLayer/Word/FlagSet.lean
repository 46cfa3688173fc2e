/-!
# Flag Sets

Sets of named options kept as the bits of one 32-bit word.

A kind of flag set is a title and a list of names, each with its bit. A word
may carry bits that have no name; they stay in the set, take part in all
comparisons, and are shown last, in hexadecimal.

## Main definitions

* `FlagNames`: A kind of flag set.
* `FlagNames.known`: All bits with a name.
* `FlagNames.ofBits?`, `FlagNames.truncate`: Two ways to treat unknown bits.
* `FlagNames.names`: The names in a set.
* `FlagNames.describe`: A set as text.
* `Flags.contains`, `Flags.intersects`, `Flags.union`, `Flags.difference`: The
  operations on sets.
-/

namespace HostLayer

/-- A kind of flag set: its title and its names, each with its bit. -/
structure FlagNames where
  title : String
  table : List (String × UInt32)

namespace Flags

/-- All of `b` is in `a`. -/
def contains (a b : UInt32) : Bool :=
  a &&& b == b

/-- Some bit is in both. -/
def intersects (a b : UInt32) : Bool :=
  a &&& b != 0

/-- The bits of either. -/
def union (a b : UInt32) : UInt32 :=
  a ||| b

/-- The bits of `a` that are not in `b`. -/
def difference (a b : UInt32) : UInt32 :=
  a &&& ~~~b

/-- No bit is set. -/
def isEmpty (a : UInt32) : Bool :=
  a == 0

end Flags

/-- A number in hexadecimal, with small letters and a leading mark. -/
def hexText (n : Nat) : String :=
  "0x" ++ String.ofList (Nat.toDigits 16 n)

namespace FlagNames

/-- All bits that have a name. -/
def known (k : FlagNames) : UInt32 :=
  k.table.foldl (fun acc entry => acc ||| entry.2) 0

/-- The set with the bits `w`, unless one of them has no name. -/
def ofBits? (k : FlagNames) (w : UInt32) : Option UInt32 :=
  if w &&& ~~~k.known == 0 then some w else none

/-- The bits of `w` that have a name. -/
def truncate (k : FlagNames) (w : UInt32) : UInt32 :=
  w &&& k.known

/-- The names of the flags in `w`, in the order of the table. -/
def names (k : FlagNames) (w : UInt32) : List String :=
  (k.table.filter fun entry => Flags.contains w entry.2).map (·.1)

/-- Every bit that has a name is set. -/
def isAll (k : FlagNames) (w : UInt32) : Bool :=
  Flags.contains w k.known

/-- The names in the set, then its nameless bits. -/
def parts (k : FlagNames) (w : UInt32) : List String :=
  let rest := Flags.difference w k.known
  k.names w ++ if rest == 0 then [] else [hexText rest.toNat]

/-- A set as text. -/
def describe (k : FlagNames) (w : UInt32) : String :=
  let inner := if w == 0 then "0x0" else " | ".intercalate (k.parts w)
  k.title ++ "(" ++ inner ++ ")"

end FlagNames

end HostLayer
