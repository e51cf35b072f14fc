import Brainfuck.Machine
/-!
# The channel between a run and its watcher

A program that runs in the background sends its output, in chunks, and finally its result over a channel that holds a
bounded number of events.  The watcher takes events off the front, may raise the run's cancel flag, and may hang up.
-/
namespace Brainfuck

/-- What a background run tells its watcher. -/
inductive Event where
  | output (chunk : Array UInt8)
  | finished (result : Except RunError Stats)

/-- What the run and the watcher share: the events on their way, the cancel flag, and whether the watcher listens. -/
structure Channel where
  queue : Array Event := #[]
  cancelled : Bool := false
  connected : Bool := true

namespace Channel

/-- How many events the channel holds. -/
def capacity : Nat := 64

/-- The size of the largest chunk. -/
def chunkBytes : Nat := 4096

/-- How many events the watcher takes in a batch. -/
def drainBatch : Nat := 64

/-- What becomes of an event that is sent without waiting: there may be no room for it, or nobody to take it. -/
inductive Sent where
  | delivered (c : Channel)
  | full (c : Channel)
  | closed (c : Channel)

@[inline]
def trySend (c : Channel) (e : Event) : Sent :=
  if c.connected then
    if c.queue.size < capacity then .delivered { c with queue := c.queue.push e } else .full c
  else .closed c

/-- The oldest event, if there is one, and the channel without it. -/
def receive (c : Channel) : Option (Event × Channel) :=
  match c.queue[0]? with
  | none => none
  | some e => some (e, { c with queue := c.queue.drop 1 })

def cancel (c : Channel) : Channel := { c with cancelled := true }

/-- Hangs up: the run is asked to stop, and what is still queued is lost. -/
def hangUp (c : Channel) : Channel := { c with queue := #[], cancelled := true, connected := false }

end Channel

end Brainfuck
