import HostLayer.Cell
import HostLayer.CpuSet
import HostLayer.Demo.Banner
import HostLayer.Demo.Collector
import HostLayer.Demo.Inversion
import HostLayer.Demo.Mailbox
import HostLayer.Demo.Output
import HostLayer.Diagnostic
import HostLayer.Error
import HostLayer.Host.Access
import HostLayer.Host.Clock
import HostLayer.Host.Errno
import HostLayer.Host.Memory
import HostLayer.Host.Mutex
import HostLayer.Host.Objects
import HostLayer.Host.Queue
import HostLayer.Host.Store
import HostLayer.Host.Thread
import HostLayer.Ipc.Name
import HostLayer.Ipc.Queue
import HostLayer.Ipc.SharedMemory
import HostLayer.Kernel
import HostLayer.Limits
import HostLayer.Main
import HostLayer.Numeric.Root
import HostLayer.Policy
import HostLayer.Proofs.Host.Frame
import HostLayer.Proofs.Ring.Slots
import HostLayer.Ring.Buffer
import HostLayer.Ring.Contents
import HostLayer.Ring.Layout
import HostLayer.Ring.Party
import HostLayer.Ring.Setup
import HostLayer.Routine
import HostLayer.Session.Call
import HostLayer.Session.Perform
import HostLayer.Session.Request
import HostLayer.Session.Tasks
import HostLayer.Session.Work
import HostLayer.Session.World
import HostLayer.Sink
import HostLayer.Sleep
import HostLayer.Sync.BinarySemaphore
import HostLayer.Sync.Condition
import HostLayer.Sync.Mutex
import HostLayer.Sync.Semaphore
import HostLayer.Sync.Spinlock
import HostLayer.Task.Attr
import HostLayer.Task.Control
import HostLayer.Task.Ending
import HostLayer.Task.Startup
import HostLayer.Task.State
import HostLayer.Text.Cut
import HostLayer.Text.Decode
import HostLayer.Timer
import HostLayer.Trace.Recorder
import HostLayer.Trace.Stats
import HostLayer.Word.BitField
import HostLayer.Word.FlagSet
import HostLayer.Word.QueueAttr
import HostLayer.Word.ShmAttr
import HostLayer.Word.SyncAttr
import HostLayer.Proofs.Ring.Changes
import HostLayer.Proofs.Ring.Traffic
import HostLayer.Proofs.Ring.Fifo
import HostLayer.Proofs.Ring.Wakeup
import HostLayer.Proofs.Host.PlainMutex
import HostLayer.Proofs.Slot.Moves
import HostLayer.Proofs.Slot.Crowd
import HostLayer.Proofs.Slot.Atomic
import HostLayer.Proofs.Slot.Linear
import HostLayer.Proofs.Slot.Wakeup
import HostLayer.Proofs.Host.Deadline
import HostLayer.Proofs.Slot.Progress
import HostLayer.Proofs.Slot.Cancel
import HostLayer.Proofs.Slot.Contract
import HostLayer.Proofs.Ring.Crash
import HostLayer.Proofs.Ring.Abandoned
import HostLayer.Proofs.Ring.Bounds
import HostLayer.Proofs.Ring.Founding
import HostLayer.Proofs.Trace.Recorders
import HostLayer.Proofs.Trace.Turns
import HostLayer.Proofs.Task.Handshake
import HostLayer.Proofs.Task.Control
import HostLayer.Proofs.Task.Wishes
import HostLayer.Proofs.Kernel.Calls
import HostLayer.Proofs.Kernel.Clock
import HostLayer.Proofs.Timed.Retries
import HostLayer.Proofs.Ipc.Custody
import HostLayer.Proofs.Ipc.Mail
import HostLayer.Proofs.Ipc.Rush
import HostLayer.Proofs.Sink.Routing
import HostLayer.Proofs.Task.Course
import HostLayer.Proofs.Sync.Tenure
import HostLayer.Proofs.Trace.Analysis
import HostLayer.Proofs.Ring.Polling
import HostLayer.Proofs.Ring.Reopening
import HostLayer.Proofs.Ring.Flag
import HostLayer.Proofs.Timer.Difference
import HostLayer.Proofs.Trace.Sequence
import HostLayer.Proofs.Trace.Summary
import HostLayer.Proofs.Task.Settings
import HostLayer.Proofs.Ipc.Naming
import HostLayer.Proofs.CpuSet.Members
import HostLayer.Proofs.Word.Attributes
import HostLayer.Proofs.Demo.Moves
import HostLayer.Proofs.Task.State
import HostLayer.Proofs.Demo.Exchange
import HostLayer.Proofs.Demo.Inversion
