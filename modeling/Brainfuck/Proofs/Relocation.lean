import Brainfuck.Proofs.Blame
/-!
# Nothing is computed from a site

An instruction carries the site of its character, and errors carry it on.  `relocate f` puts every site `s` at `f s`
instead.  Matching brackets, listing the unmatched ones and running commute with it, for every `f`
(`Jumps.build_relocate`, `unmatched_relocate`, `runInstructions_relocate`): sites are passed on and never looked at.
-/
namespace Brainfuck

def Instruction.relocate (f : Site → Site) (i : Instruction) : Instruction := ⟨f i.toSite, i.op⟩

def UnmatchedBracket.relocate (f : Site → Site) (u : UnmatchedBracket) : UnmatchedBracket := ⟨u.bracket, f u.site⟩

def RunError.relocate (f : Site → Site) : RunError → RunError
  | .unmatched u => .unmatched (u.relocate f)
  | .underflow site => .underflow (f site)
  | .overflow site limit => .overflow (f site) limit
  | .sink site cause => .sink (f site) cause
  | .stepLimit limit => .stepLimit limit
  | .deadline limit => .deadline limit
  | .cancelled steps => .cancelled steps

section

variable {σ ι : Type}

def Report.relocate (f : Site → Site) (r : Report σ ι) : Report σ ι :=
  { r with result := r.result.mapError (RunError.relocate f) }

def Turn.relocate (f : Site → Site) : Turn σ ι → Turn σ ι
  | .next s => .next s
  | .ended r => .ended (r.relocate f)

def Outcome.relocate (f : Site → Site) (o : Outcome σ ι) : Outcome σ ι :=
  { o with result := o.result.mapError (RunError.relocate f) }

end

/-! ## Brackets -/

variable (f : Site → Site)

theorem unmatchedFrom_relocate : ∀ (is : List Instruction) (pending : List Site),
    unmatchedFrom (pending.map f) (is.map (Instruction.relocate f)) =
      (unmatchedFrom pending is).map (UnmatchedBracket.relocate f)
  | [], pending => by simp [unmatchedFrom, UnmatchedBracket.relocate, ← List.map_reverse, Function.comp_def]
  | ⟨site, op⟩ :: is, pending => by
    cases op with
    | opening => exact unmatchedFrom_relocate is (site :: pending)
    | closing =>
      cases pending with
      | nil => exact congrArg (List.cons _) (unmatchedFrom_relocate is [])
      | cons opener outer => exact unmatchedFrom_relocate is outer
    | _ => exact unmatchedFrom_relocate is pending

theorem unmatched_relocate (is : List Instruction) :
    unmatched (is.map (Instruction.relocate f)) = (unmatched is).map (UnmatchedBracket.relocate f) :=
  unmatchedFrom_relocate f is []

namespace Jumps

theorem buildFrom_relocate : ∀ (is : List Instruction) (pending : List (Nat × Site)) (targets : Array (Option Nat)),
    buildFrom (pending.map (Prod.map id f)) targets (is.map (Instruction.relocate f)) =
      (buildFrom pending targets is).mapError (UnmatchedBracket.relocate f)
  | [], pending, targets => by
    simp only [buildFrom, List.map_nil, List.getLast?_map]
    cases pending.getLast? <;> rfl
  | ⟨site, op⟩ :: is, pending, targets => by
    cases op with
    | opening => exact buildFrom_relocate is ((targets.size, site) :: pending) (targets.push none)
    | closing =>
      cases pending with
      | nil => rfl
      | cons opener outer => exact buildFrom_relocate is outer _
    | _ => exact buildFrom_relocate is pending (targets.push none)

theorem build_relocate (is : List Instruction) :
    build (is.map (Instruction.relocate f)) = (build is).mapError (UnmatchedBracket.relocate f) :=
  buildFrom_relocate f is [] #[]

end Jumps

/-! ## Runs -/

namespace Program

variable {σ ι : Type} (p : Program) (w : Setting σ ι)

/-- The same program, written elsewhere. -/
def relocate : Program where
  instructions := p.instructions.map (Instruction.relocate f)
  jumps := p.jumps
  resolved := by rw [Array.toList_map, Jumps.build_relocate, p.resolved]; rfl

theorem execute_relocate (i : Instruction) (s : State σ ι) :
    (p.relocate f).execute w (i.relocate f) s = (p.execute w i s).relocate f := by
  obtain ⟨m, out, input⟩ := s
  have hact : m.act (p.relocate f).jumps (i.relocate f).op = m.act p.jumps i.op := rfl
  simp only [execute, hact]
  cases m.act p.jumps i.op with
  | moved m => rfl
  | emits byte m =>
    rcases ho : w.sink.offer out byte with ⟨later, _ | cause⟩ <;> simp only [ho] <;> rfl
  | receives m => rfl
  | refused fault m => cases fault <;> rfl

theorem turn_relocate (s : State σ ι) : (p.relocate f).turn w s = (p.turn w s).relocate f := by
  have hfetch : (p.relocate f).instructions[s.machine.ip]? =
      p.instructions[s.machine.ip]?.map (Instruction.relocate f) := Array.getElem?_map
  cases hi : p.instructions[s.machine.ip]? with
  | none =>
    rw [hi] at hfetch
    rw [turn_of_none hi, turn_of_none hfetch]
    rfl
  | some i =>
    rw [hi] at hfetch
    cases hc : w.stop? s with
    | none =>
      rw [turn_of_clear hi hc, turn_of_clear hfetch hc]
      exact execute_relocate f p w i s
    | some e =>
      rw [turn_of_stop hi hc, turn_of_stop hfetch hc]
      -- a bound that is reached has no site
      cases Setting.stop?_eq_some_iff.1 hc <;> rfl

theorem runFor_relocate : ∀ (fuel : Nat) (s : State σ ι),
    (p.relocate f).runFor w fuel s = (p.runFor w fuel s).map (Report.relocate f)
  | 0, _ => rfl
  | fuel + 1, s => by
    simp only [runFor, turn_relocate]
    cases p.turn w s with
    | next t => exact runFor_relocate fuel t
    | ended r => rfl

theorem ofInstructions_relocate (is : List Instruction) :
    ofInstructions (is.map (Instruction.relocate f)) =
      match ofInstructions is with
      | .ok p => .ok (p.relocate f)
      | .error u => .error (u.relocate f) := by
  cases hp : ofInstructions is with
  | ok p =>
    refine ofInstructions_eq_ok_iff.2 ?_
    rw [relocate, Array.toList_map, ofInstructions_eq_ok_iff.1 hp]
  | error u =>
    refine ofInstructions_eq_error_iff.2 ?_
    rw [unmatched_relocate, List.head?_map, ofInstructions_eq_error_iff.1 hp]
    rfl

end Program

/-- **A run does not depend on where its instructions are written**; an error tells where. -/
theorem runInstructions_relocate {σ ι : Type} (w : Setting σ ι) (patience : Nat) (is : List Instruction) (sink : σ)
    (input : ι) : runInstructions w patience (is.map (Instruction.relocate f)) sink input =
      (runInstructions w patience is sink input).map (Outcome.relocate f) := by
  unfold runInstructions
  rw [Program.ofInstructions_relocate]
  cases Program.ofInstructions is with
  | error u => rfl
  | ok p =>
    simp only [Program.run, Program.runFor_relocate, Option.map_map]
    rfl

end Brainfuck
