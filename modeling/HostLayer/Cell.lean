/-!
# Guarded Cells

A value that many threads share and that changes only as a whole.

Reading gives the value of the last replacement, and replacing gives back what
was there before.

## Main definitions

* `Cell`: A cell.
* `Cell.load`, `Cell.replace`: The operations.

## Theorems

* `Cell.load_replace`: A replacement is what is read next.
-/

namespace HostLayer

/-- A value that changes only as a whole. -/
structure Cell (α : Type) where
  content : α
  deriving DecidableEq, Repr

namespace Cell

variable {α : Type}

/-- The value in the cell. -/
def load (c : Cell α) : α := c.content

/-- The cell with another value, and the value that it had. -/
def replace (c : Cell α) (a : α) : Cell α × α := (⟨a⟩, c.content)

theorem load_replace (c : Cell α) (a : α) : (c.replace a).1.load = a := rfl

end Cell

end HostLayer
