import Brainfuck.Run
/-!
# Runs in a monad

A run on real streams has no sink and no source whose states it could hand on: to take a byte and to give one are
effects.  `Program.drive` makes the rounds of a run in any monad in which its surroundings act.  In the state monad of a
setting's sink and source it makes those of `Program.runFor` (`Program.runFor_eq_drive`), so the two differ in nothing
but their surroundings.
-/
namespace Brainfuck

/-- What a run asks of its surroundings: how the flag and the clock stand after so many steps, to take a byte, which
gives the cause if it fails, and to give a byte if there is one. -/
structure Surroundings (m : Type → Type) where
  cancelled : Nat → m Bool
  elapsed : Nat → m Nat
  offer : UInt8 → m (Option String)
  next : m (Option UInt8)

/-- What one round leads to. -/
inductive Round where
  | next (machine : Machine)
  | ended (result : Except RunError Stats) (machine : Machine)

namespace Program

variable {m : Type → Type} [Monad m]

@[inline]
def executeIn (p : Program) (eof : EofBehavior) (env : Surroundings m) (i : Instruction) (machine : Machine) :
    m Round :=
  match machine.act p.jumps i.op with
  | .moved machine => pure (.next machine)
  | .emits byte machine => do
    match ← env.offer byte with
    | none => pure (.next machine.proceed)
    | some cause => pure (.ended (.error (.sink i.toSite cause)) machine)
  | .receives machine => do
    let byte? ← env.next
    pure (.next (machine.receive eof byte?))
  | .refused fault machine => pure (.ended (.error (fault.toRunError i.toSite)) machine)

@[inline]
def round (p : Program) (c : Config) (env : Surroundings m) (machine : Machine) : m Round :=
  match p.instructions[machine.ip]? with
  | none => pure (.ended (.ok machine.stats) machine)
  | some i => do
    let cancelled ← env.cancelled machine.steps
    let elapsed ← env.elapsed machine.steps
    match c.stop? machine.steps cancelled elapsed with
    | some e => pure (.ended (.error e) machine)
    | none => p.executeIn c.eof env i machine

/-- Makes at most `fuel` rounds; gives the result and the last machine if the run has ended by then. -/
@[specialize]
def drive (p : Program) (c : Config) (env : Surroundings m) :
    Nat → Machine → m (Option (Except RunError Stats × Machine))
  | 0, _ => pure none
  | fuel + 1, machine => do
    match ← p.round c env machine with
    | .next machine => drive p c env fuel machine
    | .ended result machine => pure (some (result, machine))

end Program

/-- Runs a source text in its surroundings, for as many rounds as `runSource` does. -/
@[inline]
def driveSource {m : Type → Type} [Monad m] (c : Config) (env : Surroundings m) (patience : Nat) (source : String) :
    m (Option (Except RunError Stats)) :=
  match Program.parse source with
  | .error u => pure (some (.error (.unmatched u)))
  | .ok p => do
    let ended? ← p.drive c env ((c.maxSteps.map (· + 1)).getD patience) (Machine.start c.tape)
    return ended?.map Prod.fst

/-! ## The surroundings of a setting -/

variable {σ ι : Type}

/-- The sink and the source of a setting, in some state. -/
def Setting.surroundings (w : Setting σ ι) : Surroundings (StateM (σ × ι)) where
  cancelled steps := fun s => (w.watch.cancelled steps s.1 s.2, s)
  elapsed steps := pure (w.watch.elapsed steps)
  offer byte := fun s => ((w.sink.offer s.1 byte).2, ((w.sink.offer s.1 byte).1, s.2))
  next := fun s => ((w.source.next s.2).2, (s.1, (w.source.next s.2).1))

/-- A round with the state that the surroundings are in after it. -/
def Turn.ofRound (after : Round × σ × ι) : Turn σ ι :=
  match after with
  | (.next machine, out, input) => .next ⟨machine, out, input⟩
  | (.ended result machine, out, input) => .ended ⟨result, ⟨machine, out, input⟩⟩

/-- In the state monad the second action starts where the first has ended. -/
theorem run_bind {α β τ : Type} (x : StateM τ α) (f : α → StateM τ β) (s : τ) :
    (x >>= f).run s = (f (x.run s).1).run (x.run s).2 := rfl

namespace Program

variable (p : Program) (w : Setting σ ι)

theorem execute_eq_executeIn (i : Instruction) (s : State σ ι) :
    p.execute w i s = .ofRound ((p.executeIn w.config.eof w.surroundings i s.machine).run (s.sink, s.input)) := by
  obtain ⟨machine, out, input⟩ := s
  simp only [execute, executeIn]
  cases machine.act p.jumps i.op with
  | moved next => rfl
  | emits byte m =>
    have hrun : (w.surroundings.offer byte).run (out, input) =
        ((w.sink.offer out byte).2, ((w.sink.offer out byte).1, input)) := rfl
    simp only [run_bind, hrun]
    obtain ⟨out, cause?⟩ := w.sink.offer out byte
    cases cause? <;> rfl
  | receives m => rfl
  | refused fault m => rfl

/-- **A round in the surroundings of a setting is a turn.** -/
theorem turn_eq_round (s : State σ ι) :
    p.turn w s = .ofRound ((p.round w.config w.surroundings s.machine).run (s.sink, s.input)) := by
  unfold turn round
  cases p.instructions[s.machine.ip]? with
  | none => rfl
  | some i =>
    have hcancelled : (w.surroundings.cancelled s.machine.steps).run (s.sink, s.input) =
        (w.watch.cancelled s.machine.steps s.sink s.input, (s.sink, s.input)) := rfl
    have helapsed : (w.surroundings.elapsed s.machine.steps).run (s.sink, s.input) =
        (w.watch.elapsed s.machine.steps, (s.sink, s.input)) := rfl
    simp only [run_bind, hcancelled, helapsed, execute_eq_executeIn]
    cases w.config.stop? s.machine.steps (w.watch.cancelled s.machine.steps s.sink s.input)
        (w.watch.elapsed s.machine.steps) <;> rfl

/-- **To drive a program in the surroundings of a setting is to run it.** -/
theorem runFor_eq_drive : ∀ (fuel : Nat) (s : State σ ι), p.runFor w fuel s =
    let after := (p.drive w.config w.surroundings fuel s.machine).run (s.sink, s.input)
    after.1.map (fun ended => ⟨ended.1, ⟨ended.2, after.2.1, after.2.2⟩⟩)
  | 0, _ => rfl
  | fuel + 1, s => by
    simp only [runFor, drive, turn_eq_round, run_bind]
    cases (p.round w.config w.surroundings s.machine).run (s.sink, s.input) with
    | mk r after =>
      cases r with
      | next machine => exact runFor_eq_drive fuel ⟨machine, after.1, after.2⟩
      | ended result machine => rfl

end Program

/-- The same of a source text. -/
theorem runSource_eq_driveSource (w : Setting σ ι) (patience : Nat) (source : String) (sink : σ) (input : ι) :
    runSource w patience source sink input =
      let after := (driveSource w.config w.surroundings patience source).run (sink, input)
      after.1.map (fun result => ⟨result, after.2.1, after.2.2⟩) := by
  unfold runSource driveSource
  cases Program.parse source with
  | error u => rfl
  | ok p =>
    simp only [Program.run, Program.runFor_eq_drive, run_bind]
    obtain ⟨ended?, out, rest⟩ := StateT.run (p.drive w.config w.surroundings
      ((w.config.maxSteps.map (· + 1)).getD patience) (Machine.start w.config.tape)) (sink, input)
    cases ended? <;> rfl

end Brainfuck
