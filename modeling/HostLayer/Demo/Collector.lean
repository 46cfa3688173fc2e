import HostLayer.Demo.Output
import HostLayer.Ring.Setup

/-!
# Collector Program

Printing the messages of a ring as they come.

The program attaches to a ring and then reads one message after the other,
with a short time limit for each, and passes it on to its standard output at
once. It ends only when that fails. A message without bytes needs no output, so
it does not fail even if nobody listens any more.

## Main definitions

* `Demo.Collector`: The program while it runs, or after its end.
* `Demo.Collector.start`: Attaching to a ring.
* `Demo.Collector.pass`: One message is passed on.
* `Demo.Collector.collect`: All messages that are there are passed on.
-/

namespace HostLayer

namespace Demo

/-- A collector. -/
structure Collector where
  ring : RingHandle
  /-- What has been printed and not been picked up. -/
  printed : List UInt8
  /-- Nobody listens any more. -/
  closed : Bool
  /-- Why the program has ended, if it has. -/
  ended : Option Error
  deriving DecidableEq, Repr

namespace Collector

/-- How long the program waits for one message, in nanoseconds. -/
def patience : UInt64 := 1000000000

/-- Attach to a ring: the program and its first line. -/
def start (objects : ObjectShelf) (descriptorLeft : Bool) (name : String) :
    Answer (Collector × String) :=
  match RingHandle.attach objects descriptorLeft name with
  | (_, .error e, _) => .error e
  | (_, .ok h, _) =>
      .ok (⟨h, [], false, none⟩,
        "attached to " ++ name ++ ": " ++ toString h.geometry.slots ++ " slots of "
          ++ toString h.geometry.slotSize ++ " bytes\n")

/-- Where the program cannot attach, it gives up. -/
def run (objects : ObjectShelf) (descriptorLeft : Bool) (args : List String) : Output :=
  match args with
  | [name] =>
      match start objects descriptorLeft name with
      | .error e => .gaveUp "logger" "" e
      | .ok (_, line) => .success line
  | _ => .usage "logger"

/-- The bytes of the program's buffer. -/
def room (c : Collector) : Nat :=
  max c.ring.geometry.slotSize Limits.formatted

/-- A message is passed on. -/
def pass (c : Collector) (msg : List UInt8) : Collector :=
  if msg.isEmpty then c
  else if c.closed then { c with ended := some .operationFailed }
  else { c with printed := c.printed ++ msg }

/-- The messages that are there are passed on, at most `fuel` of them. -/
def collectSome (clock : Clock) : Nat → Collector → Memory → Collector × Memory
  | 0, c, m => (c, m)
  | fuel + 1, c, m =>
      if c.ended.isSome then (c, m)
      else
        let deadline := (clock.now .monotonic).addNanos? patience
        let p := Ring.read c.ring.geometry c.room .monotonic deadline clock m
        match p.outcome with
        | .inr (.ok msg) => collectSome clock fuel (c.pass msg) p.state
        | .inr (.error .unavailable) => (c, p.state)
        | .inr (.error e) => ({ c with ended := some e }, p.state)
        | .inl _ => (c, p.state)

/-- All messages that are there are passed on. Each of them takes a token. -/
def collect (clock : Clock) (c : Collector) (m : Memory) : Collector × Memory :=
  collectSome clock ((Ring.tokens m).value + 1) c m

/-- The end of a program that has ended with a cause. -/
def output (e : Error) : Output := .gaveUp "logger" "" e

end Collector

end Demo

end HostLayer
