import Brainfuck.Delivery.Channel
import Brainfuck.Stream.Source
/-!
# Running in the background

A worker runs a program and sends what it emits.  Each emitted byte joins the bytes that wait; the worker then sends
them at once if the channel has room and goes on if not, until a whole chunk waits, which it will not exceed: then it
waits for room.  When the run is over the worker sends what still waits, and after that the result.

`Worker.step` is the least that can happen between two acts of the watcher.  Checking the bounds and executing the
instruction are two steps, because the watcher may raise the flag or hang up between them.
-/
namespace Brainfuck

/-- Where a worker is: between two instructions, with the bytes that were not sent yet; about to execute an instruction
that no bound forbids; in the middle of a `.`, with a whole chunk that waits for room; past the end of the run, with
bytes and the result still to be sent; or done. -/
inductive Worker where
  | running (machine : Machine) (input : List UInt8) (pending : Array UInt8)
  | cleared (next : Instruction) (machine : Machine) (input : List UInt8) (pending : Array UInt8)
  | sending (site : Site) (machine : Machine) (input : List UInt8) (chunk : Array UInt8)
  | closing (result : Except RunError Stats) (pending : Array UInt8)
  | ended

/-- What a worker runs, under which bounds and by which clock. -/
structure Job where
  program : Program
  config : Config
  clock : Nat → Nat

namespace Worker

def closedCause : String := "output channel closed"

@[inline]
def check (job : Job) (machine : Machine) (input : List UInt8) (pending : Array UInt8) (c : Channel) :
    Worker × Channel :=
  match job.program.instructions[machine.ip]? with
  | none => (.closing (.ok machine.stats) pending, c)
  | some next =>
    match job.config.stop? machine.steps c.cancelled (job.clock machine.steps) with
    | some e => (.closing (.error e) pending, c)
    | none => (.cleared next machine input pending, c)

/-- Takes an emitted byte: a whole chunk waits for room, anything less is sent if there is room. -/
@[inline]
def emit (site : Site) (byte : UInt8) (machine : Machine) (input : List UInt8) (pending : Array UInt8) (c : Channel) :
    Worker × Channel :=
  let pending := pending.push byte
  if Channel.chunkBytes ≤ pending.size then (.sending site machine input pending, c)
  else
    match c.trySend (.output pending) with
    | .delivered c => (.running machine.proceed input #[], c)
    | .full c => (.running machine.proceed input pending, c)
    | .closed c => (.closing (.error (.sink site closedCause)) #[], c)

@[inline]
def execute (job : Job) (next : Instruction) (machine : Machine) (input : List UInt8) (pending : Array UInt8)
    (c : Channel) : Worker × Channel :=
  match machine.act job.program.jumps next.op with
  | .moved m => (.running m input pending, c)
  | .emits byte m => emit next.toSite byte m input pending c
  | .receives m =>
    match Source.bytes.next input with
    | (input, byte?) => (.running (m.receive job.config.eof byte?) input pending, c)
  | .refused fault _ => (.closing (.error (fault.toRunError next.toSite)) pending, c)

/-- One step.  A worker that waits for room stays as it is. -/
@[inline]
def step (job : Job) (w : Worker) (c : Channel) : Worker × Channel :=
  match w with
  | .running machine input pending => check job machine input pending c
  | .cleared next machine input pending => execute job next machine input pending c
  | .sending site machine input chunk =>
    match c.trySend (.output chunk) with
    | .delivered c => (.running machine.proceed input #[], c)
    | .full c => (.sending site machine input chunk, c)
    | .closed c => (.closing (.error (.sink site closedCause)) #[], c)
  | .closing result pending =>
    if pending.isEmpty then
      match c.trySend (.finished result) with
      | .delivered c | .closed c => (.ended, c)
      | .full c => (.closing result pending, c)
    else
      match c.trySend (.output pending) with
      | .delivered c | .closed c => (.closing result #[], c)
      | .full c => (.closing result pending, c)
  | .ended => (.ended, c)

/-- Whether a step would change nothing: the worker has ended, or waits for room. -/
@[inline]
def isIdle (w : Worker) (c : Channel) : Bool :=
  match w with
  | .running .. | .cleared .. => false
  | .sending .. | .closing .. => c.connected && decide (Channel.capacity ≤ c.queue.size)
  | .ended => true

/-- Steps until the worker is idle, but at most `fuel` times. -/
def advance (job : Job) : Nat → Worker → Channel → Worker × Channel
  | 0, w, c => (w, c)
  | fuel + 1, w, c =>
    if w.isIdle c then (w, c)
    else
      match w.step job c with
      | (w, c) => advance job fuel w c

/-- The worker of a source text before its first step, and what it runs. -/
def start (source : String) (input : List UInt8) (config : Config) (clock : Nat → Nat) : Worker × Job :=
  let config := { config with cancellable := true }
  match Program.parse source with
  | .ok program => (.running (Machine.start config.tape) input #[], ⟨program, config, clock⟩)
  | .error u => (.closing (.error (.unmatched u)) #[], ⟨Program.empty, config, clock⟩)

end Worker

end Brainfuck
