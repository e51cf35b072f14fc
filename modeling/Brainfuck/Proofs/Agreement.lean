import Brainfuck.CommandLine.Response
import Brainfuck.Proofs.Blame
/-!
# The two bracket checkers agree

`Jumps.build` stops at the first bad bracket and `unmatched` goes on to list them all, with stacks of their own.  They
hold the same `[` open at every step (`Jumps.buildFrom_eq_error_iff`), so the one fails exactly if the other finds
something, and with the first it finds.  All that is done with a source text rests on one of the two: checking it,
listing it and running it tell the same story (`Refuses`), and a text is refused before anything is written or read.
-/
namespace Brainfuck

theorem RunError.errorClass_eq_structural_iff {e : RunError} : e.errorClass = .structural ↔ ∃ u, e = .unmatched u := by
  cases e <;> simp [errorClass]

namespace Program

variable {σ ι : Type} {p : Program} {w : Setting σ ι} {s : State σ ι} {r : Report σ ι}

theorem turn_ne_unmatched (h : p.turn w s = .ended r) (u : UnmatchedBracket) : r.result ≠ .error (.unmatched u) := by
  intro he
  obtain ⟨-, rfl⟩ | ⟨x, hx, rfl⟩ | ⟨i, a, x, final, -, -, hx, rfl⟩ := turn_ended_cases h
  · cases he
  · cases he
    cases Setting.stop?_eq_some_iff.1 hx
  · cases he
    -- what fails is no bracket, but an unmatched bracket would be to blame
    have hop := (Basic.culprit_of_failed hx).2
    cases hb : u.bracket with
    | opening => simp [RunError.culprit?, hb, Bracket.toOp, a.toOp_ne_opening.symm] at hop
    | closing => simp [RunError.culprit?, hb, Bracket.toOp, a.toOp_ne_closing.symm] at hop

/-- **A program never fails for its brackets.** -/
theorem run_ne_structural {patience : Nat} {sink : σ} {input : ι} {e : RunError}
    (h : p.run w patience sink input = some r) (he : r.result = .error e) : e.errorClass ≠ .structural := by
  intro hc
  obtain ⟨u, rfl⟩ := RunError.errorClass_eq_structural_iff.1 hc
  obtain ⟨n, -, t, -, ht⟩ := runFor_eq_some_iff.1 h
  exact turn_ne_unmatched ht u he

theorem exists_parse_eq_ok_iff {source : String} : (∃ p, parse source = .ok p) ↔ diagnose source = [] := by
  cases hp : parse source with
  | ok p =>
    refine iff_of_true ⟨p, rfl⟩ (Jumps.exists_build_eq_ok_iff.1 ⟨p.jumps, ?_⟩)
    rw [← ofInstructions_eq_ok_iff.1 hp]
    exact p.resolved
  | error u =>
    have hu := parse_eq_error_iff.1 hp
    exact iff_of_false (fun ⟨_, h⟩ => nomatch h) (fun h => by simp [h] at hu)

end Program

/-- A run of a source text ends, and in an error of the structural class. -/
def FailsStructurally {σ ι : Type} (w : Setting σ ι) (patience : Nat) (source : String) (sink : σ) (input : ι) : Prop :=
  ∃ o e, runSource w patience source sink input = some o ∧ o.result = .error e ∧ e.errorClass = .structural

/-- A source text is refused for `first`, and `others` are at fault too. -/
structure Refuses (source : String) (first : UnmatchedBracket) (others : List UnmatchedBracket) : Prop where
  parse : Program.parse source = .error first
  /-- The one error that a listing reports. -/
  dump : Response.dump source = { exitCode := 1, errors := first.render source ++ "\n" }
  /-- A check reports it first, then the others. -/
  check : Response.check source =
    { exitCode := 1
      errors := first.render source ++ "\n\n" ++ (String.join (others.map (fun u => u.render source ++ "\n\n")) ++
        s!"{others.length + 1} error(s) found.\n") }
  /-- A run ends with it at once, and leaves the sink and the input as they were. -/
  run : ∀ {σ ι : Type} (w : Setting σ ι) (patience : Nat) (sink : σ) (input : ι),
    runSource w patience source sink input = some ⟨.error (.unmatched first), sink, input⟩
  headless : ∀ clock patience config input, Response.run clock patience config source input =
    some { exitCode := 1, errors := "\n" ++ first.render source ++ "\n" }

section Source

variable {source : String} {u : UnmatchedBracket} {rest : List UnmatchedBracket}

theorem runSource_of_parse_error (h : Program.parse source = .error u) {σ ι : Type} (w : Setting σ ι)
    (patience : Nat) (sink : σ) (input : ι) :
    runSource w patience source sink input = some ⟨.error (.unmatched u), sink, input⟩ := by
  rw [runSource, h]

theorem refuses_of_diagnose (h : diagnose source = u :: rest) : Refuses source u rest := by
  have hp : Program.parse source = .error u := by
    rw [Program.parse_eq_error_iff, h]
    rfl
  refine ⟨hp, ?_, ?_, runSource_of_parse_error hp, fun clock patience config input => ?_⟩
  · rw [Response.dump, hp]
  · rw [Response.check, h]
    simp [String.append_assoc]
  · rw [Response.run, runSource_of_parse_error hp]
    rfl

theorem not_failsStructurally_iff {σ ι : Type} (w : Setting σ ι) (patience : Nat) (source : String) (sink : σ)
    (input : ι) : ¬ FailsStructurally w patience source sink input ↔ diagnose source = [] := by
  cases hd : diagnose source with
  | cons u rest =>
    refine iff_of_false (fun h => h ?_) (List.cons_ne_nil _ _)
    exact ⟨_, _, (refuses_of_diagnose hd).run w patience sink input, rfl, rfl⟩
  | nil =>
    refine iff_of_true ?_ rfl
    rintro ⟨o, e, ho, he, hc⟩
    obtain ⟨p, hp⟩ := Program.exists_parse_eq_ok_iff.2 hd
    rw [runSource, hp] at ho
    obtain ⟨r, hr, rfl⟩ := Option.map_eq_some_iff.1 ho
    exact Program.run_ne_structural hr he hc

theorem exitCode_check_iff : (Response.check source).exitCode = 0 ↔ diagnose source = [] := by
  cases hd : diagnose source with
  | nil => simp [Response.check, hd]
  | cons u rest => simp [Response.check, hd]

theorem exitCode_dump_iff : (Response.dump source).exitCode = 0 ↔ diagnose source = [] := by
  rw [← Program.exists_parse_eq_ok_iff]
  cases hp : Program.parse source with
  | ok p => simp [Response.dump, hp]
  | error u => simp [Response.dump, hp]

end Source

/-- **The checkers agree.**  Of any instructions, the matcher fails with the first of the unmatched brackets, and
succeeds if there is none.  So a source text is a program exactly if a check finds nothing, exactly if a listing
succeeds, and exactly if a run does not fail for its structure; and if there is something to find, all of them name the
same bracket first. -/
theorem checkers_agree :
    (∀ is : List Instruction, (∀ u, Jumps.build is = .error u ↔ ∃ rest, unmatched is = u :: rest) ∧
      ((∃ j, Jumps.build is = .ok j) ↔ unmatched is = [])) ∧
    ∀ source : String,
      ((∃ p, Program.parse source = .ok p) ↔ diagnose source = []) ∧
      ((Response.check source).exitCode = 0 ↔ diagnose source = []) ∧
      ((Response.dump source).exitCode = 0 ↔ diagnose source = []) ∧
      (∀ (σ ι : Type) (w : Setting σ ι) (patience : Nat) (sink : σ) (input : ι),
        ¬ FailsStructurally w patience source sink input ↔ diagnose source = []) ∧
      ∀ u rest, diagnose source = u :: rest → Refuses source u rest := by
  refine ⟨fun is => ⟨fun u => ?_, Jumps.exists_build_eq_ok_iff⟩, fun source => ?_⟩
  · rw [Jumps.build_eq_error_iff, List.head?_eq_some_iff]
  · refine ⟨Program.exists_parse_eq_ok_iff, exitCode_check_iff, exitCode_dump_iff, ?_, ?_⟩
    · intro σ ι w patience sink input
      exact not_failsStructurally_iff w patience source sink input
    · intro u rest hd
      exact refuses_of_diagnose hd

theorem checkers_agree_two_faults :
    let stray : UnmatchedBracket := ⟨.closing, 2, 1, 3⟩
    diagnose ".+].[" = [stray, ⟨.opening, 4, 1, 5⟩] ∧ Refuses ".+].[" stray [⟨.opening, 4, 1, 5⟩] := by
  intro stray
  have hd : diagnose ".+].[" = [stray, ⟨.opening, 4, 1, 5⟩] := by decide
  exact ⟨hd, (checkers_agree.2 ".+].[").2.2.2.2 stray _ hd⟩

end Brainfuck
