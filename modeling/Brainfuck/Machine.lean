import Brainfuck.Config
import Brainfuck.Program
import Brainfuck.RunError
/-!
# The machine

The state of a run between two instructions, and what one instruction does to it.  The machine itself neither reads nor
writes: `Machine.act` says what an instruction asks for, and whoever drives the machine gives it.  Everything a program
can learn about its surroundings goes through `Machine.receive`.
-/
namespace Brainfuck

/-- What a run reports when it ends well: how many instructions were executed, and how many cells there are from cell 0
to the furthest one reached. -/
structure Stats where
  steps : Nat
  cellsTouched : Nat
  deriving DecidableEq, Repr

/-- The tape, the number of the next instruction, and how many were executed. -/
structure Machine where
  tape : Tape
  ip : Nat
  steps : Nat

/-- What an instruction asks of the one who drives the machine: nothing, as the machine has moved on by itself; to take
a byte and let it `proceed`; or to give it a byte, if there is one, by `receive`.  If the tape refused a move, nothing
can be done. -/
inductive Action where
  | moved (next : Machine)
  | emits (byte : UInt8) (m : Machine)
  | receives (m : Machine)
  | refused (fault : TapeFault) (m : Machine)

namespace Machine

def start (policy : TapePolicy) : Machine := ⟨Tape.new policy, 0, 0⟩

def stats (m : Machine) : Stats := ⟨m.steps, m.tape.highWater + 1⟩

/-- The machine after an instruction that left the tape as it was. -/
@[inline]
def proceed (m : Machine) : Machine := { m with ip := m.ip + 1, steps := m.steps + 1 }

@[inline]
def receive (eof : EofBehavior) (m : Machine) (byte? : Option UInt8) : Machine :=
  match m with
  | ⟨tape, ip, steps⟩ =>
    let value := eof.resolve tape.get byte?
    ⟨tape.set value, ip + 1, steps + 1⟩

/-- The instruction after the partner of the bracket at `ip`: both ways of leaving a bracket by a jump end there. -/
@[inline]
def landing (jumps : Jumps) (ip : Nat) : Nat := (jumps.target ip).getD ip + 1

/-- What the instruction at `ip`, which has operation `op`, does or asks for. -/
@[inline]
def act (jumps : Jumps) (m : Machine) (op : Op) : Action :=
  match m with
  | ⟨tape, ip, steps⟩ =>
    match op with
    | .right =>
      match tape.moveRight with
      | .ok tape => .moved ⟨tape, ip + 1, steps + 1⟩
      | .error fault => .refused fault ⟨tape, ip, steps⟩
    | .left =>
      match tape.moveLeft with
      | .ok tape => .moved ⟨tape, ip + 1, steps + 1⟩
      | .error fault => .refused fault ⟨tape, ip, steps⟩
    | .inc => .moved ⟨tape.increment, ip + 1, steps + 1⟩
    | .dec => .moved ⟨tape.decrement, ip + 1, steps + 1⟩
    | .output => .emits tape.get ⟨tape, ip, steps⟩
    | .input => .receives ⟨tape, ip, steps⟩
    | .opening => .moved ⟨tape, if tape.get = 0 then landing jumps ip else ip + 1, steps + 1⟩
    | .closing => .moved ⟨tape, if tape.get = 0 then ip + 1 else landing jumps ip, steps + 1⟩

end Machine

namespace TapeFault

def toRunError (site : Site) : TapeFault → RunError
  | .underflow => .underflow site
  | .overflow limit => .overflow site limit

end TapeFault

/-- The bound that forbids the next instruction, if any does.  They are looked at in this order: the number of steps,
the cancel flag, and, at every `checkInterval`-th instruction, the clock. -/
@[macro_inline]
def Config.stop? (c : Config) (steps : Nat) (cancelled : Bool) (elapsed : Nat) : Option RunError :=
  if c.maxSteps.any (· ≤ steps) then some (.stepLimit (c.maxSteps.getD 0))
  else if c.cancellable && cancelled then some (.cancelled steps)
  else
    match c.deadline with
    | none => none
    | some limit => if steps % checkInterval = 0 ∧ limit ≤ elapsed then some (.deadline limit) else none

end Brainfuck
