import HostLayer.Error

/-!
# Program Output

What is left of a program that has ended.

## Main definitions

* `Demo.Output`: The two streams and the exit code.
* `Demo.Output.usage`: A program called with the wrong arguments.
* `Demo.Output.gaveUp`: A program that gave up with a cause.
* `Demo.Output.returned`: A program whose main function handed back an answer.
-/

namespace HostLayer

namespace Demo

/-- What a program printed and how it ended. -/
structure Output where
  code : Nat
  stdout : String
  stderr : String
  deriving DecidableEq, Repr

namespace Output

/-- A program that has done its work. -/
def success (stdout : String) : Output := ⟨0, stdout, ""⟩

/-- A program that wants exactly one argument and got something else. -/
def usage (program : String) : Output :=
  ⟨1, "", "usage: " ++ program ++ " <shm_name>\n"⟩

/-- The line of a program that gives up. -/
def complaint (program : String) (e : Error) : String :=
  program ++ ": " ++ e.message ++ "\n"

/-- A program that gave up with a cause. -/
def gaveUp (program stdout : String) (e : Error) : Output :=
  ⟨e.exitStatus, stdout, complaint program e⟩

/-- A program whose main function handed back an answer. -/
def returned (stdout : String) : Answer Unit → Output
  | .ok () => success stdout
  | .error e => ⟨1, stdout, "Error: " ++ e.name ++ "\n"⟩

end Output

end Demo

end HostLayer
