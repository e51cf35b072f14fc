import Brainfuck.Machine
import Brainfuck.Stream.Sink
import Brainfuck.Stream.Source
/-!
# Running a program

A run drives the machine against a sink and an input source.  Before each instruction it looks at the bounds of its
configuration; the readings of the cancel flag and of the clock are data (`Watch`), so a run is a function of what it is
given.  `Program.turn` is one round, `Program.runFor` iterates it with an explicit bound on the rounds, and
`Program.run` chooses that bound from the step limit, where it always suffices.
-/
namespace Brainfuck

/-- The machine, the sink and the input source between two instructions. -/
structure State (σ ι : Type) where
  machine : Machine
  sink : σ
  input : ι

/-- What a run reads off its surroundings before it executes an instruction, after so many steps: the cancel flag, which
may depend on the states of the sink and the input, and the milliseconds since the start. -/
structure Watch (σ ι : Type) where
  cancelled : Nat → σ → ι → Bool
  elapsed : Nat → Nat

namespace Watch

def idle {σ ι : Type} : Watch σ ι := ⟨fun _ _ _ => false, fun _ => 0⟩

end Watch

structure Report (σ ι : Type) where
  result : Except RunError Stats
  final : State σ ι

/-- What one round leads to. -/
inductive Turn (σ ι : Type) where
  | next (s : State σ ι)
  | ended (r : Report σ ι)

/-- Everything a run is given beside its program. -/
structure Setting (σ ι : Type) where
  config : Config
  sink : Sink σ
  source : Source ι
  watch : Watch σ ι

namespace Program

variable {σ ι : Type}

/-- Executes an instruction: does what it asks for, or ends the run if that cannot be done. -/
@[inline]
def execute (p : Program) (w : Setting σ ι) (i : Instruction) (s : State σ ι) : Turn σ ι :=
  match s with
  | ⟨machine, out, input⟩ =>
    match machine.act p.jumps i.op with
    | .moved m => .next ⟨m, out, input⟩
    | .emits byte m =>
      match w.sink.offer out byte with
      | (out, none) => .next ⟨m.proceed, out, input⟩
      | (out, some cause) => .ended ⟨.error (.sink i.toSite cause), ⟨m, out, input⟩⟩
    | .receives m =>
      match w.source.next input with
      | (input, byte?) => .next ⟨m.receive w.config.eof byte?, out, input⟩
    | .refused fault m => .ended ⟨.error (fault.toRunError i.toSite), ⟨m, out, input⟩⟩

/-- One round: the run ends if no instruction is left or a bound is reached, and else executes the instruction. -/
@[inline]
def turn (p : Program) (w : Setting σ ι) (s : State σ ι) : Turn σ ι :=
  match p.instructions[s.machine.ip]? with
  | none => .ended ⟨.ok s.machine.stats, s⟩
  | some i =>
    match w.config.stop? s.machine.steps (w.watch.cancelled s.machine.steps s.sink s.input)
        (w.watch.elapsed s.machine.steps) with
    | some e => .ended ⟨.error e, s⟩
    | none => p.execute w i s

/-- Runs for at most `fuel` rounds; none if the run has not ended by then. -/
def runFor (p : Program) (w : Setting σ ι) : Nat → State σ ι → Option (Report σ ι)
  | 0, _ => none
  | fuel + 1, s =>
    match p.turn w s with
    | .next s => runFor p w fuel s
    | .ended r => some r

/-- Runs a program from the start.  A run with a step limit ends within as many rounds and one more; `patience` bounds
the rounds of a run that has none. -/
def run (p : Program) (w : Setting σ ι) (patience : Nat) (sink : σ) (input : ι) : Option (Report σ ι) :=
  p.runFor w ((w.config.maxSteps.map (· + 1)).getD patience) ⟨Machine.start w.config.tape, sink, input⟩

end Program

/-- How a run of a source text ended, and what became of the sink and of the input. -/
structure Outcome (σ ι : Type) where
  result : Except RunError Stats
  sink : σ
  input : ι

/-- Runs a source text.  If a bracket has no partner, that is the outcome: nothing is emitted and nothing is read. -/
def runSource {σ ι : Type} (w : Setting σ ι) (patience : Nat) (source : String) (sink : σ) (input : ι) :
    Option (Outcome σ ι) :=
  match Program.parse source with
  | .error u => some ⟨.error (.unmatched u), sink, input⟩
  | .ok p => (p.run w patience sink input).map (fun r => ⟨r.result, r.final.sink, r.final.input⟩)

end Brainfuck
