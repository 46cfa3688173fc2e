/-!
# Diagnostics

What the library notes down about itself while it works.

A note never changes the outcome of the call that makes it. Calls that can
make notes hand them back beside their answer, in the order in which they were
made.

## Main definitions

* `Level`: How much a note matters.
* `Note`: A level and a text.
-/

namespace HostLayer

/-- How much a note matters, the gravest first. -/
inductive Level
  | error
  | warn
  | info
  | debug
  | trace
  deriving DecidableEq, Repr

/-- One line about the library's own work. -/
structure Note where
  level : Level
  text : String
  deriving DecidableEq, Repr

namespace Note

/-- A note about a failure. -/
def error (text : String) : Note := ⟨.error, text⟩

/-- A note about something that should not have happened. -/
def warn (text : String) : Note := ⟨.warn, text⟩

/-- A note about a rare event of normal work. -/
def info (text : String) : Note := ⟨.info, text⟩

/-- A note about normal work. -/
def debug (text : String) : Note := ⟨.debug, text⟩

/-- A note about a frequent event of normal work. -/
def trace (text : String) : Note := ⟨.trace, text⟩

end Note

end HostLayer
