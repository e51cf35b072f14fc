import Brainfuck.Proofs.Block
import Brainfuck.Run
/-!
# What an instruction does

A scene is all that a program works on: the tape, the sink and the input source.  A basic operation changes the scene or
fails (`Basic.perform`), whatever its place in a program; a bracket leaves the scene as it is and decides where the run
goes on.  The equations of this module say that `Program.execute` does just that, so no later proof opens it again.
-/
namespace Brainfuck

structure Scene (σ ι : Type) where
  tape : Tape
  sink : σ
  input : ι

namespace Scene

variable {σ ι : Type}

/-- The scene before anything was done. -/
def initial (w : Setting σ ι) (sink : σ) (input : ι) : Scene σ ι := ⟨Tape.new w.config.tape, sink, input⟩

/-- A run with this scene, at instruction `ip` and after so many steps. -/
def state (s : Scene σ ι) (ip steps : Nat) : State σ ι := ⟨⟨s.tape, ip, steps⟩, s.sink, s.input⟩

end Scene

/-- What a run has come to work on. -/
def State.scene {σ ι : Type} (s : State σ ι) : Scene σ ι := ⟨s.machine.tape, s.sink, s.input⟩

/-- How a command ends: well, or with an error, and in which scene. -/
inductive Ending (σ ι : Type) where
  | done (s : Scene σ ι)
  | failed (e : RunError) (s : Scene σ ι)

namespace Ending

variable {σ ι : Type}

/-- The scene in which a command ended. -/
def scene : Ending σ ι → Scene σ ι
  | .done s => s
  | .failed _ s => s

/-- What a run of `steps` steps reports that ended so. -/
def result (steps : Nat) : Ending σ ι → Except RunError Stats
  | .done s => .ok ⟨steps, s.tape.highWater + 1⟩
  | .failed e _ => .error e

/-- What the turn of a run leads to whose instruction `ip` ended so. -/
def turn (ip steps : Nat) : Ending σ ι → Turn σ ι
  | .done s => .next (s.state (ip + 1) (steps + 1))
  | .failed e s => .ended ⟨.error e, s.state ip steps⟩

theorem exists_of_turn_eq_next {e : Ending σ ι} {ip steps : Nat} {t : State σ ι} (h : e.turn ip steps = .next t) :
    ∃ s, e = .done s ∧ t = s.state (ip + 1) (steps + 1) := by
  cases e with
  | done s => cases h; exact ⟨s, rfl, rfl⟩
  | failed x s => cases h

theorem exists_of_turn_eq_ended {e : Ending σ ι} {ip steps : Nat} {r : Report σ ι} (h : e.turn ip steps = .ended r) :
    ∃ x s, e = .failed x s ∧ r = ⟨.error x, s.state ip steps⟩ := by
  cases e with
  | done s => cases h
  | failed x s => cases h; exact ⟨x, s, rfl, rfl⟩

end Ending

/-- What a basic operation, written at `site`, does. -/
def Basic.perform {σ ι : Type} (w : Setting σ ι) (site : Site) (s : Scene σ ι) : Basic → Ending σ ι
  | .right =>
    match s.tape.moveRight with
    | .ok tape => .done { s with tape }
    | .error fault => .failed (fault.toRunError site) s
  | .left =>
    match s.tape.moveLeft with
    | .ok tape => .done { s with tape }
    | .error fault => .failed (fault.toRunError site) s
  | .inc => .done { s with tape := s.tape.increment }
  | .dec => .done { s with tape := s.tape.decrement }
  | .output =>
    match w.sink.offer s.sink s.tape.get with
    | (sink, none) => .done { s with sink }
    | (sink, some cause) => .failed (.sink site cause) { s with sink }
  | .input =>
    match w.source.next s.input with
    | (later, byte?) => .done { s with tape := s.tape.set (w.config.eof.resolve s.tape.get byte?), input := later }

theorem Basic.sink_perform {σ ι : Type} {w : Setting σ ι} {s : Scene σ ι} {a : Basic} (h : a ≠ .output) (site : Site) :
    (a.perform w site s).scene.sink = s.sink := by
  cases a with
  | right =>
    simp only [perform]
    cases s.tape.moveRight <;> rfl
  | left =>
    simp only [perform]
    cases s.tape.moveLeft <;> rfl
  | output => exact absurd rfl h
  | _ => rfl

/-- **How a basic operation can fail**: `>` and `<` if the tape refuses to move, `.` if the sink refuses the byte. -/
theorem Basic.failed_cases {σ ι : Type} {w : Setting σ ι} {site : Site} {s t : Scene σ ι} {a : Basic} {e : RunError}
    (h : a.perform w site s = .failed e t) :
    (∃ fault, a = .right ∧ s.tape.moveRight = .error fault ∧ e = fault.toRunError site ∧ t = s) ∨
    (∃ fault, a = .left ∧ s.tape.moveLeft = .error fault ∧ e = fault.toRunError site ∧ t = s) ∨
    ∃ out cause, a = .output ∧ w.sink.offer s.sink s.tape.get = (out, some cause) ∧ e = .sink site cause ∧
      t = { s with sink := out } := by
  cases a with
  | right =>
    simp only [perform] at h
    cases hm : s.tape.moveRight with
    | ok tape => rw [hm] at h; cases h
    | error fault => rw [hm] at h; cases h; exact .inl ⟨fault, rfl, rfl, rfl, rfl⟩
  | left =>
    simp only [perform] at h
    cases hm : s.tape.moveLeft with
    | ok tape => rw [hm] at h; cases h
    | error fault => rw [hm] at h; cases h; exact .inr (.inl ⟨fault, rfl, rfl, rfl, rfl⟩)
  | output =>
    simp only [perform] at h
    rcases ho : w.sink.offer s.sink s.tape.get with ⟨out, _ | cause⟩
    · rw [ho] at h
      cases h
    · rw [ho] at h
      cases h
      exact .inr (.inr ⟨out, cause, rfl, rfl, rfl, rfl⟩)
  | _ => cases h

theorem Basic.perform_ne_sink {σ ι : Type} {w : Setting σ ι} {s t : Scene σ ι} (a : Basic)
    (hw : ∀ out byte, (w.sink.offer out byte).2 = none) {site site' : Site} {cause : String} :
    a.perform w site s ≠ .failed (.sink site' cause) t := by
  intro h
  obtain ⟨fault, -, -, he, -⟩ | ⟨fault, -, -, he, -⟩ | ⟨out, cause', -, ho, -, -⟩ := failed_cases h
  · cases fault <;> cases he
  · cases fault <;> cases he
  · have hnone := hw s.sink s.tape.get
    rw [ho] at hnone
    cases hnone

namespace Program

variable {σ ι : Type} {p : Program} {w : Setting σ ι} {s t : State σ ι} {r : Report σ ι}

/-- **A basic operation acts on the scene** and lets the run go on with the next instruction. -/
theorem execute_basic (a : Basic) (site : Site) (s : Scene σ ι) (ip steps : Nat) :
    p.execute w ⟨site, a.toOp⟩ (s.state ip steps) = (a.perform w site s).turn ip steps := by
  obtain ⟨tape, out, input⟩ := s
  cases a with
  | right =>
    simp only [execute, Machine.act, Basic.toOp, Basic.perform, Scene.state]
    cases tape.moveRight <;> rfl
  | left =>
    simp only [execute, Machine.act, Basic.toOp, Basic.perform, Scene.state]
    cases tape.moveLeft <;> rfl
  | inc => rfl
  | dec => rfl
  | output =>
    simp only [execute, Machine.act, Basic.toOp, Basic.perform, Scene.state]
    obtain ⟨out, cause⟩ := w.sink.offer out tape.get
    cases cause <;> rfl
  | input => rfl

theorem execute_opening (site : Site) (s : Scene σ ι) (ip steps : Nat) :
    p.execute w ⟨site, .opening⟩ (s.state ip steps) =
      .next (s.state (if s.tape.get = 0 then Machine.landing p.jumps ip else ip + 1) (steps + 1)) := rfl

theorem execute_closing (site : Site) (s : Scene σ ι) (ip steps : Nat) :
    p.execute w ⟨site, .closing⟩ (s.state ip steps) =
      .next (s.state (if s.tape.get = 0 then ip + 1 else Machine.landing p.jumps ip) (steps + 1)) := rfl

/-- **What executing an instruction can do**: a bracket changes the place and nothing else, and any other operation acts
on the scene. -/
theorem execute_cases (p : Program) (w : Setting σ ι) (i : Instruction) (s : State σ ι) :
    (∃ ip, p.execute w i s = .next (s.scene.state ip (s.machine.steps + 1))) ∨
      ∃ a : Basic, i.op = a.toOp ∧
        p.execute w i s = (a.perform w i.toSite s.scene).turn s.machine.ip s.machine.steps := by
  obtain ⟨site, op⟩ := i
  rcases op.cases_basic with rfl | rfl | ⟨a, rfl⟩
  · exact .inl ⟨_, execute_opening site s.scene s.machine.ip s.machine.steps⟩
  · exact .inl ⟨_, execute_closing site s.scene s.machine.ip s.machine.steps⟩
  · exact .inr ⟨a, rfl, execute_basic a site s.scene s.machine.ip s.machine.steps⟩

theorem steps_of_execute_next {i : Instruction} (h : p.execute w i s = .next t) :
    t.machine.steps = s.machine.steps + 1 := by
  obtain ⟨ip, hx⟩ | ⟨a, -, hx⟩ := execute_cases p w i s
  · rw [hx] at h
    cases h
    rfl
  · rw [hx] at h
    obtain ⟨u, -, rfl⟩ := Ending.exists_of_turn_eq_next h
    rfl

theorem sink_of_execute_next {i : Instruction} (ho : i.op ≠ .output) (h : p.execute w i s = .next t) :
    t.sink = s.sink := by
  obtain ⟨ip, hx⟩ | ⟨a, ha, hx⟩ := execute_cases p w i s
  · rw [hx] at h
    cases h
    rfl
  · rw [hx] at h
    obtain ⟨u, hp, rfl⟩ := Ending.exists_of_turn_eq_next h
    have hsink := a.sink_perform (w := w) (s := s.scene) (fun h => ho (by rw [ha, h]; rfl)) i.toSite
    rwa [hp] at hsink

theorem sink_of_execute_ended {i : Instruction} (ho : i.op ≠ .output) (h : p.execute w i s = .ended r) :
    r.final.sink = s.sink := by
  obtain ⟨ip, hx⟩ | ⟨a, ha, hx⟩ := execute_cases p w i s
  · rw [hx] at h
    cases h
  · rw [hx] at h
    obtain ⟨x, u, hp, rfl⟩ := Ending.exists_of_turn_eq_ended h
    have hsink := a.sink_perform (w := w) (s := s.scene) (fun h => ho (by rw [ha, h]; rfl)) i.toSite
    rwa [hp] at hsink

theorem execute_ne_sink {i : Instruction} (hw : ∀ out byte, (w.sink.offer out byte).2 = none) {site : Site}
    {cause : String} {final : State σ ι} : p.execute w i s ≠ .ended ⟨.error (.sink site cause), final⟩ := by
  intro h
  obtain ⟨ip, hx⟩ | ⟨a, -, hx⟩ := execute_cases p w i s
  · rw [hx] at h
    cases h
  · rw [hx] at h
    obtain ⟨x, u, hp, hr⟩ := Ending.exists_of_turn_eq_ended h
    cases hr
    exact a.perform_ne_sink hw hp

end Program

end Brainfuck
