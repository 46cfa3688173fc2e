import HostLayer.Demo.Banner
import HostLayer.Demo.Collector
import HostLayer.Demo.Inversion
import HostLayer.Demo.Mailbox
import HostLayer.Session.World

/-!
# Command Line

The demonstration programs of the library.

The first argument names the program, and the others are its own. Each program
runs on a host of its own, on which no object exists yet.

## Main definitions

* `CommandLine.select`: The program of a name.
* `main`: The command line.
-/

namespace HostLayer

namespace CommandLine

/-- The names of the programs. -/
def names : List String := ["shmtest", "logger", "producer_consumer", "priority_inversion"]

/-- What a process may do that has no special rights. -/
def rights : Host.Rights where
  realtime := false
  descriptorLeft := true
  stackLeft := true
  cpus := Session.World.cpus

/-- What a program leaves, if there is one of the name. -/
def select (program : String) (args : List String) : Option Demo.Output :=
  match program with
  | "shmtest" => some (Demo.Banner.run 1 3 true ObjectShelf.empty args).2
  | "logger" => some (Demo.Collector.run ObjectShelf.empty true args)
  | "producer_consumer" => some Demo.Mailbox.run
  | "priority_inversion" => some (Demo.Inversion.run rights Session.World.fresh.threads args)
  | _ => none

/-- The reply to a command line without a program. -/
def usage : Demo.Output :=
  ⟨1, "", "usage: hostlayer <" ++ "|".intercalate names ++ "> [arguments]\n"⟩

/-- What a command line leaves. -/
def run : List String → Demo.Output
  | [] => usage
  | program :: args => (select program args).getD usage

end CommandLine

end HostLayer

/-- Runs a program and prints what it leaves. -/
def main (args : List String) : IO UInt32 := do
  let o := HostLayer.CommandLine.run args
  (← IO.getStdout).putStr o.stdout
  (← IO.getStderr).putStr o.stderr
  return UInt32.ofNat o.code
