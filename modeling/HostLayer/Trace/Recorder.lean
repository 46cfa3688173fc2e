import HostLayer.Sync.BinarySemaphore
import HostLayer.Trace.Stats

/-!
# Time Stamp Recorders

Recording time stamps without waiting, and looking at them in blocks.

A recorder has two buffers of the same length. Stamps go into the active one;
the stamp that takes its last slot makes the other one active and wakes whoever
waits for a full buffer. What is analyzed is always the buffer that is not
active.

Which buffer is active, and which of its slots is the next, is packed into one
word. A task claims a slot by replacing the word it has seen with the next one,
if it is still the word that it has seen. Only then does it store its stamp.

## Main definitions

* `Recorder.pack`, `Recorder.unpack`: A buffer and a position as one word.
* `Recorder.advance`: The word after a claim.
* `Recorder`: A recorder.
* `Recorder.Place`, `Recorder.step`: The steps of recording one stamp.
* `Recorder.filled`: The stamps of the buffer that is not active.
* `Recorder.analyze`, `Recorder.analyzeSteps`: Their statistics.
-/

namespace HostLayer

/-- A recorder of time stamps. -/
structure Recorder where
  /-- The slots of each buffer. -/
  count : Nat
  /-- The stamp in a slot of a buffer. -/
  slot : Nat → Nat → UInt64
  /-- The active buffer and the next position. -/
  word : UInt64
  /-- The stamp recorded last. -/
  last : UInt64
  /-- Full when a buffer has been filled and nobody has noticed yet. -/
  filledMark : BinarySemaphore

namespace Recorder

/-- The lowest and the highest number of slots of a buffer. -/
def countRange : Nat × Nat := (2, word32 - 1)

/-- A buffer and a position as one word. -/
def pack (buffer pos : Nat) : UInt64 :=
  (UInt64.ofNat buffer <<< 32) ||| UInt64.ofNat pos

/-- The buffer and the position in a word. -/
def unpack (w : UInt64) : Nat × Nat :=
  (((w >>> 32) &&& 1).toNat, (w &&& 0xFFFFFFFF).toNat)

/-- The other buffer. -/
def other (buffer : Nat) : Nat := 1 - buffer

/-- The buffer and the position after a claim. -/
def successor (count buffer pos : Nat) : Nat × Nat :=
  if pos + 1 = count then (other buffer, 0) else (buffer, pos + 1)

/-- The word after a claim. -/
def advance (count : Nat) (w : UInt64) : UInt64 :=
  let (buffer, pos) := unpack w
  let (buffer', pos') := successor count buffer pos
  pack buffer' pos'

/-- The number of slots is one that a recorder can have. -/
def CountInRange (count : Nat) : Prop :=
  countRange.1 ≤ count ∧ count ≤ countRange.2

instance (count : Nat) : Decidable (CountInRange count) :=
  inferInstanceAs (Decidable (_ ∧ _))

/-- A recorder without stamps, whose waits are measured on a clock. -/
def create (clock : ClockSource) (count : Nat) : Answer Recorder := do
  if CountInRange count then
    let mark ← BinarySemaphore.create clock SyncAttr.plain
    return ⟨count, fun _ _ => 0, pack 0 0, 0, mark⟩
  else .error .invalidParam

/-- The recorder with a stamp in a slot. -/
def setSlot (r : Recorder) (buffer pos : Nat) (ns : UInt64) : Recorder :=
  { r with slot := fun b i => if b = buffer ∧ i = pos then ns else r.slot b i }

/-- The recorder with its mark in another state. -/
def withMark (r : Recorder) (s : BinarySemaphore) : Recorder :=
  { r with filledMark := s }

/-- Where the recording of a stamp stands. -/
inductive Place
  /-- The word is about to be read. -/
  | looking
  /-- The word `seen` is about to be replaced. -/
  | claiming (seen : UInt64)
  /-- The stamp is about to go into the slot that is claimed. -/
  | storing (buffer pos : Nat)
  /-- The stamp is about to become the last one. -/
  | publishing (pos : Nat)
  /-- The buffer has been filled, and whoever waits for it is being woken. -/
  | waking (p : BinarySemaphore.Place)

/-- Where a task goes on whose claim has failed, for whatever reason: it has
    seen the word as it is now. -/
def claimFailed (r : Recorder) : Place := .claiming r.word

/-- One step of recording the stamp `ns`. -/
def step (c : Caller) (clock : Clock) (ns : UInt64) (r : Recorder) : Place → Step Recorder Place Unit
  | .looking => .goto r (.claiming r.word) []
  | .claiming seen =>
      if r.word = seen then
        let (buffer, pos) := unpack seen
        .goto { r with word := advance r.count seen } (.storing buffer pos) []
      else .goto r r.claimFailed []
  | .storing buffer pos => .goto (r.setSlot buffer pos ns) (.publishing pos) []
  | .publishing pos =>
      let r' := { r with last := ns }
      if pos + 1 = r.count then .goto r' (.waking .entering) [] else .done r' () []
  | .waking p =>
      (BinarySemaphore.step c .post clock r.filledMark p).lift r.withMark .waking
        fun s answer notes =>
          match answer with
          | .ok () => .done (r.withMark s) () notes
          | .error e => .done (r.withMark s) () (notes ++ [.warn ("trace wakeup failed: " ++ e.message)])

/-- The number of steps of recording a stamp that nobody interferes with. -/
def steps : Nat := 8

/-- The stamps of the buffer that is not active, in the order of its slots. -/
def filled (r : Recorder) : List UInt64 :=
  (List.range r.count).map (r.slot (other (unpack r.word).1))

/-- The statistics of the filled buffer, whose stamps are taken as intervals. -/
def analyze (r : Recorder) : Option Stats :=
  Stats.ofSamples? (r.filled.map (·.toNat))

/-- The statistics of the intervals between the stamps of the filled buffer. -/
def analyzeSteps (r : Recorder) : Option Stats :=
  Stats.ofTimes? r.filled

/-- A thread has ended. -/
def threadEnded (r : Recorder) (t : ThreadId) : Recorder :=
  r.withMark (r.filledMark.threadEnded t)

/-- The recorder as text. -/
def describe (r : Recorder) : String :=
  let (buffer, pos) := unpack r.word
  "Trace \x7b cnt: " ++ toString r.count ++ ", pos: " ++ toString pos ++ ", act_buf: "
    ++ toString buffer ++ " \x7d"

end Recorder

end HostLayer
