import Brainfuck.Proofs.InStep
/-!
# Sinks and sources that answer alike

A run learns nothing of its sink but whether a byte was refused, and nothing of its source but the bytes it gives.  Two
settings whose sinks and sources give the same answers, as long as their states are related, keep two runs of a program
in step throughout (`Lockstep.parallel`), so the runs end alike (`runSource_lockstep`).
-/
namespace Brainfuck

variable {σ ι σ' ι' : Type}

/-- The sinks and the sources of two settings answer alike in states that `S` and `I` relate, and stay related. -/
structure Lockstep (w : Setting σ ι) (w' : Setting σ' ι') (S : σ → σ' → Prop) (I : ι → ι' → Prop) : Prop where
  tape : w'.config.tape = w.config.tape
  eof : w'.config.eof = w.config.eof
  maxSteps : w'.config.maxSteps = w.config.maxSteps
  stop : ∀ {m : Machine} {out : σ} {out' : σ'} {input : ι} {input' : ι'}, S out out' → I input input' →
    w'.stop? ⟨m, out', input'⟩ = w.stop? ⟨m, out, input⟩
  offer : ∀ {out : σ} {out' : σ'} (byte : UInt8), S out out' →
    (w'.sink.offer out' byte).2 = (w.sink.offer out byte).2 ∧
      S (w.sink.offer out byte).1 (w'.sink.offer out' byte).1
  next : ∀ {input : ι} {input' : ι'}, I input input' →
    (w'.source.next input').2 = (w.source.next input).2 ∧ I (w.source.next input).1 (w'.source.next input').1

/-- Without a deadline a bound depends on the steps, and on the cancel flag if the run looks at it. -/
theorem Config.stop?_congr {c : Config} (hd : c.deadline = none) {flag flag' : Bool}
    (hflag : (c.cancellable && flag) = (c.cancellable && flag')) (steps time time' : Nat) :
    c.stop? steps flag time = c.stop? steps flag' time' := by
  simp only [stop?, hd, hflag]

theorem Lockstep.parallel {w : Setting σ ι} {w' : Setting σ' ι'} {S : σ → σ' → Prop} {I : ι → ι' → Prop}
    (h : Lockstep w w' S I) : Parallel w w' (Tied S I) (fun _ _ => False) := by
  refine parallel_tied (fun {s s'} ip steps hR => ?_) (fun hS _ => h.offer _ hS) (fun hI _ => ?_)
  · have hstop := h.stop (m := ⟨s.tape, ip, steps⟩) hR.sink hR.input
    rwa [← hR.tape_eq] at hstop
  · obtain ⟨hbyte, hlater⟩ := h.next hI
    exact ⟨fun old => by rw [h.eof, hbyte], hlater⟩

def Outcome.Alike (S : σ → σ' → Prop) (I : ι → ι' → Prop) (o : Outcome σ ι) (o' : Outcome σ' ι') : Prop :=
  o.result = o'.result ∧ S o.sink o'.sink ∧ I o.input o'.input

/-- **Two runs whose surroundings answer alike end alike**, or neither ends. -/
theorem runSource_lockstep {w : Setting σ ι} {w' : Setting σ' ι'} {S : σ → σ' → Prop} {I : ι → ι' → Prop}
    (h : Lockstep w w' S I) (patience : Nat) (source : String) {out : σ} {out' : σ'} {input : ι} {input' : ι'}
    (hout : S out out') (hin : I input input') :
    Option.Rel (Outcome.Alike S I) (runSource w patience source out input)
      (runSource w' patience source out' input') := by
  unfold runSource
  cases Program.parse source with
  | error u => exact .some ⟨rfl, hout, hin⟩
  | ok p =>
    have hstart : Tied S I (.initial w out input) (.initial w' out' input') :=
      ⟨congrArg Tape.new h.tape, hout, hin⟩
    have hrun := Program.run_inStep (p := p) h.parallel h.maxSteps hstart
      (fun n => Program.together_of_never (fun _ _ hd => hd) n _) patience
    simp only
    generalize p.run w patience out input = r at hrun
    generalize p.run w' patience out' input' = r' at hrun
    cases hrun with
    | none => exact .none
    | some hr => exact .some ⟨hr.1.result_eq.symm, hr.2.sink, hr.2.input⟩

end Brainfuck
