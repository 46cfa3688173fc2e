import HostLayer.Limits
import HostLayer.Error
import HostLayer.Text.Cut

/-!
# Object Names

The names under which queues and shared objects are found.

A name is a slash followed by 1 to 255 bytes that contain neither a slash nor
a NUL. Queues must be named so; for a shared object the slash may be left out.

## Main definitions

* `ObjectName.Valid`: The grammar of names.
* `ObjectName.check`: The name itself, if it is one.
* `ObjectName.withSlash`: A name with its slash in front.

## Theorems

* `ObjectName.check_eq_ok_iff`: A check lets through exactly the valid names,
  unchanged.
* `ObjectName.check_eq_error_iff`: All others are invalid parameters.
-/

namespace HostLayer

namespace ObjectName

/-- The part of a name after the slash. -/
def BodyValid (body : List Char) : Prop :=
  body ≠ [] ∧ Text.size body ≤ Limits.objectName ∧ '/' ∉ body ∧ '\x00' ∉ body

instance (body : List Char) : Decidable (BodyValid body) :=
  inferInstanceAs (Decidable (_ ∧ _ ∧ _ ∧ _))

/-- A slash and a valid rest. -/
def Valid (name : List Char) : Prop :=
  match name with
  | '/' :: body => BodyValid body
  | _ => False

instance (name : List Char) : Decidable (Valid name) := by
  unfold Valid
  split <;> infer_instance

/-- The name itself, if it is valid. -/
def check (name : String) : Answer String :=
  if Valid name.toList then .ok name else .error .invalidParam

/-- The name with its slash in front. -/
def withSlash (name : String) : String :=
  match name.toList with
  | '/' :: _ => name
  | _ => "/" ++ name

theorem check_eq_ok_iff {name host : String} :
    check name = .ok host ↔ Valid name.toList ∧ host = name := by
  unfold check
  split
  next h => simp [h, eq_comm]
  next h => simp [h]

theorem check_eq_error_iff {name : String} {e : Error} :
    check name = .error e ↔ ¬Valid name.toList ∧ e = .invalidParam := by
  unfold check
  split
  next h => simp [h]
  next h => simp [h, eq_comm]

end ObjectName

end HostLayer
