import HostLayer.Host.Access
import HostLayer.Host.Queue
import HostLayer.Ipc.Name
import HostLayer.Routine
import HostLayer.Word.QueueAttr

/-!
# Message Queues

Named queues of prioritized messages.

A queue is opened by its name, and created if the flags ask for it. The handle
remembers the length of the longest message, so that a message that is too
long is refused before the host is asked. Waiting with a deadline is a routine
like that of a semaphore: every attempt computes the host's deadline anew.

The names under which queues are found live apart from the queues. A queue
whose name is removed goes on for those who have it open, and its name is free.

## Main definitions

* `QueueShelf`: The queues of the host, and their names.
* `QueueHandle`: An open queue.
* `QueueShelf.open`, `QueueShelf.unlink`: Finding and removing names.
* `QueueShelf.status`: What an open queue tells about itself.
* `QueueHandle.attempt`: One attempt of a call.
* `QueueHandle.Request`: What is to be sent or received.
* `QueueHandle.Place`, `QueueHandle.step`: Calls that wait.
-/

namespace HostLayer

/-- The queues of the host. -/
structure QueueShelf where
  /-- The queue that a name stands for. -/
  names : String → Option Nat
  /-- The queues, with or without a name. -/
  queues : Nat → Option Host.Queue
  /-- Their permission bits. -/
  mode : Nat → UInt32
  /-- The number of the next new queue. -/
  next : Nat
  /-- How large it can be. -/
  limits : Host.QueueLimits

/-- An open queue. -/
structure QueueHandle where
  queue : Nat
  name : String
  descriptor : Host.Descriptor
  /-- The length of the longest message. -/
  maxMessageSize : Nat
  deriving DecidableEq, Repr

/-- What a queue tells about itself. -/
structure QueueStatus where
  maxMessages : Nat
  maxMessageSize : Nat
  currentMessages : Nat
  deriving DecidableEq, Repr

namespace QueueShelf

/-- No queue exists. -/
def empty (limits : Host.QueueLimits) : QueueShelf :=
  ⟨fun _ => none, fun _ => none, fun _ => 0, 0, limits⟩

/-- The shelf with a queue in another state. -/
def put (s : QueueShelf) (i : Nat) (q : Host.Queue) : QueueShelf :=
  { s with queues := fun j => if j = i then some q else s.queues j }

/-- The causes for the host's reasons when a queue is opened. -/
def openCause : Errno.Table
  | .accessDenied => some .permissionDenied
  | .alreadyExists => some .permissionDenied
  | .invalid => some .invalidParam
  | .nameTooLong => some .invalidParam
  | .tooManyOpen => some .systemLimitReached
  | .systemTableFull => some .systemLimitReached
  | .noEntry => some .notFound
  | .noMemory => some .outOfMemory
  | .noSpace => some .outOfMemory
  | _ => none

/-- The causes for the host's reasons when a name is removed. -/
def unlinkCause : Errno.Table
  | .noEntry => some .notFound
  | .accessDenied => some .permissionDenied
  | .nameTooLong => some .invalidParam
  | .invalid => some .invalidParam
  | _ => none

/-- Names that the host keeps for itself. -/
def reserved (name : String) : Bool :=
  name == "/." || name == "/.."

/-- The directions that the flags ask for; both wins over sending, and sending
    over receiving. -/
def directions (attr : QueueAttr) : Host.Descriptor where
  canReceive := attr.has QueueFlags.rdwr || !attr.has QueueFlags.wronly
  canSend := attr.has QueueFlags.rdwr || attr.has QueueFlags.wronly
  nonblocking := attr.has QueueFlags.nonblock

/-- The host finds or makes the queue `name`. -/
def hostOpen (s : QueueShelf) (descriptorLeft : Bool) (name : String) (attr : QueueAttr) :
    Except Errno (QueueShelf × Nat) :=
  if !descriptorLeft then .error .tooManyOpen
  else if reserved name then .error .accessDenied
  else match s.names name with
    | some i =>
        let d := directions attr
        if attr.has QueueFlags.creat && attr.has QueueFlags.excl then .error .alreadyExists
        else if Host.allows (s.mode i) d.canReceive d.canSend then .ok (s, i)
        else .error .accessDenied
    | none =>
        if !attr.has QueueFlags.creat then .error .noEntry
        else match Host.Queue.create s.limits attr.maxMessages attr.maxMessageSize with
          | .error e => .error e
          | .ok q =>
              .ok ({ s.put s.next q with
                names := fun n => if n = name then some s.next else s.names n
                mode := fun j => if j = s.next then attr.mode else s.mode j
                next := s.next + 1 }, s.next)

/-- Open the queue `name`. -/
def «open» (s : QueueShelf) (descriptorLeft : Bool) (name : String) (attr : QueueAttr) :
    QueueShelf × Answer QueueHandle × List Note :=
  match ObjectName.check name with
  | .error e => (s, .error e, [])
  | .ok host =>
      match s.hostOpen descriptorLeft host attr with
      | .error e =>
          let (cause, notes) := Errno.translate openCause "mq_open" e
          (s, .error cause, notes)
      | .ok (s', i) =>
          let size := ((s'.queues i).map (·.maxMessageSize)).getD 0
          (s', .ok ⟨i, name, directions attr, size⟩,
            [.debug ("mq " ++ name ++ " open, message size " ++ toString size)])

/-- Remove the name of a queue. -/
def unlink (s : QueueShelf) (name : String) : QueueShelf × Answer Unit × List Note :=
  match ObjectName.check name with
  | .error e => (s, .error e, [])
  | .ok host =>
      let refuse (e : Errno) :=
        let (cause, notes) := Errno.translate unlinkCause "mq_unlink" e
        (s, Except.error cause, notes)
      if reserved host then refuse .accessDenied
      else match s.names host with
        | none => refuse .noEntry
        | some _ =>
            ({ s with names := fun n => if n = host then none else s.names n }, .ok (), [])

/-- The geometry of an open queue, and how many messages are in it. -/
def status (s : QueueShelf) (h : QueueHandle) : Option QueueStatus :=
  (s.queues h.queue).map fun q => ⟨q.maxMessages, q.maxMessageSize, q.pending.length⟩

end QueueShelf

namespace QueueHandle

/-- The causes for the host's reasons when a message is sent or received. -/
def transferCause : Errno.Table
  | .tryAgain => some .busy
  | .interrupted => some .interrupted
  | .timedOut => some .timeout
  | .messageSize => some .invalidParam
  | .invalid => some .invalidParam
  | .badDescriptor => some .permissionDenied
  | _ => none

/-- What is to be done with a queue. -/
inductive Request
  /-- Send a message. -/
  | send (m : Host.QueueMessage)
  /-- Receive a message into a buffer of a number of bytes. -/
  | receive (room : Nat)
  deriving DecidableEq, Repr

/-- The host call for a request, with a deadline or without. -/
def Request.call (r : Request) (limit : Option HostTime) : String :=
  match r, limit with
  | .send _, none => "mq_send"
  | .send _, some _ => "mq_timedsend"
  | .receive _, none => "mq_receive"
  | .receive _, some _ => "mq_timedreceive"

/-- One attempt at a request, with the deadline as the host sees it. -/
def attempt (h : QueueHandle) (r : Request) (q : Host.Queue) (deadline : Option HostTime)
    (wall : Nat) : Host.QueueAttempt (Option Host.QueueMessage) :=
  match r with
  | .send m =>
      match q.send h.descriptor m deadline wall with
      | .done q' _ => .done q' none
      | .refused e => .refused e
      | .waiting => .waiting
  | .receive room =>
      match q.receive h.descriptor room deadline wall with
      | .done q' m => .done q' (some m)
      | .refused e => .refused e
      | .waiting => .waiting

/-- A message that is longer than the handle's messages is refused. -/
def fits (h : QueueHandle) : Request → Bool
  | .send m => m.body.length ≤ h.maxMessageSize
  | .receive _ => true

/-- Where a call stands. -/
inductive Place
  /-- The length is about to be checked. -/
  | checking
  /-- The host is about to be asked. -/
  | asking
  /-- The thread sleeps, at most until the given time of day if there is one. -/
  | asleep (limit : Option HostTime)

/-- The host is asked: the call ends, or is at `stalled`. -/
def ask (h : QueueHandle) (r : Request) (clock : Clock) (q : Host.Queue) (limit : Option HostTime)
    (stalled : Step Host.Queue Place (Answer (Option Host.QueueMessage))) :
    Step Host.Queue Place (Answer (Option Host.QueueMessage)) :=
  match h.attempt r q limit clock.realtime with
  | .done q' result => .done q' (.ok result) []
  | .refused e =>
      let (cause, notes) := Errno.translate transferCause (r.call limit) e
      .done q (.error cause) notes
  | .waiting => stalled

/-- One step of a call, with or without a deadline on the clock `source`. -/
def step (h : QueueHandle) (r : Request) (source : ClockSource) (deadline : Option Timer)
    (clock : Clock) (q : Host.Queue) :
    Place → Step Host.Queue Place (Answer (Option Host.QueueMessage))
  | .checking => if h.fits r then .goto q .asking [] else .done q (.error .invalidParam) []
  | .asking =>
      match deadline with
      | none => h.ask r clock q none (.goto q (.asleep none) [])
      | some d =>
          match clock.wallDeadline? source d with
          | none => .done q (.error .invalidParam) []
          | some limit => h.ask r clock q (some limit) (.goto q (.asleep (some limit)) [])
  | .asleep limit => h.ask r clock q limit .waits

/-- A signal arrives: a call without a deadline ends, one with a deadline asks
    the host again. -/
def interrupted (deadline : Option Timer) (p : Place) : Place ⊕ Error :=
  match p with
  | .asleep _ => if deadline.isNone then .inr .interrupted else .inl .asking
  | _ => .inl p

end QueueHandle

end HostLayer
