/-!
# Access

Who may use an object that has a name.

An object carries the permission bits that it was created with. All processes
here belong to the owner of all objects and have no right beyond that, so only
the owner's bits count. They are looked at when an object is opened, and not
for the one who creates it.

## Main definitions

* `Host.mayRead`, `Host.mayWrite`: What the owner may do.
* `Host.allows`: An object may be opened in some directions.

## Theorems

* `Host.allows_nothing`: Opening for nothing is always allowed.
-/

namespace HostLayer

namespace Host

/-- The owner may read. -/
def mayRead (mode : UInt32) : Bool :=
  mode &&& 0o400 != 0

/-- The owner may write. -/
def mayWrite (mode : UInt32) : Bool :=
  mode &&& 0o200 != 0

/-- An object with the permission bits `mode` may be opened for reading, for
    writing, or for both. -/
def allows (mode : UInt32) (reads writes : Bool) : Bool :=
  (!reads || mayRead mode) && (!writes || mayWrite mode)

theorem allows_nothing (mode : UInt32) : allows mode false false = true := rfl

end Host

end HostLayer
